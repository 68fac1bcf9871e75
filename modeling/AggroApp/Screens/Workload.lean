import AggroApp.Async.Potential
import AggroApp.Model.App

/-!
# AggroApp — the work in flight

Nothing in the app polls, retries or repeats itself: an operation is a chain of
at most four calls, and all that a completion starts is the home screen's fetch
after a sign-in. `App.work` counts the backend events that the operations in
flight can still bring. Each of these events lowers it by one at least, and each
event of the user raises it by ten at most.

## Results

* `backend_events_bounded` — ten backend events for each event of the user.
* `comes_to_rest`          — from every state the backends alone lead to rest,
  and they cannot go on for longer than `App.work` tells.
-/

namespace AggroApp

open Async

variable {κ υ ι : Type}
variable {parses : URLParser} {a a' : App}

-- ---------------------------------------------------------------------------
-- Counting
-- ---------------------------------------------------------------------------

/-- The backend events in a chain that has come to this call: each call is
performed, and its answer is delivered. -/
def Call.work : Call κ υ ι → ℕ
  | .setData _ _ _ | .updateData _ _ _ | .updateChildValues _ _ _ | .setValue _ _ _ _ => 2
  | .sendPasswordReset _ _ => 2
  | .auth _ (.logUserIn _) => 2
  | .auth _ (.registerUserWithFirebase _ _ _) | .auth _ (.registerUserWithFirestore _ _ _ _) => 4
  | .auth _ (.signInWithGoogle _) | .auth _ (.signInWitnGoogleFirestore _) => 6
  | .gidSignIn _ => 8
  | .getDocument _ (.fetchUserWithFirestore _) | .observeSingleEvent _ (.fetchUser _) => 2
  | .getDocument _ (.signInWitnGoogleFirestore _ _) => 4
  | .observeSingleEvent _ (.signInWithGoogle _ _) => 4
  | .downloadURL _ (.updateProfileImage _ _) => 4
  | .downloadURL _ (.handleSignUp _ _ _ _) => 6
  | .putData _ _ (.updateProfileImage _ _) => 6
  | .putData _ _ (.handleSignUp _ _ _ _) => 8

/-- The backend events in what is left of a chain after a callback. -/
def Step.left : Step κ υ ι → ℕ
  | .wait call => call.work
  | _ => 0

/-- The events that a completion causes: `authenticationComplete` fetches the user. -/
def Completion.work : Completion → ℕ
  | .handleLogin | .handleGoogleLogin | .handleSignUp => 2
  | _ => 0

def Owner.work : Owner Completion UserCompletion ImageCompletion → ℕ
  | .outcome completion => completion.work
  | _ => 0

def Step.work : AppStep → ℕ
  | .wait call => call.work + call.owner.work
  | .completed completion _ => completion.work
  | _ => 0

def Task.work : AppTask → ℕ
  | .waiting call => call.work + call.owner.work
  | .answered _ step => 1 + step.work
  | .ended => 0

/-- The backend events that the operations in flight can still bring. -/
def App.work (a : App) : ℕ := (a.net.tasks.map Task.work).sum

/-- The backends carry out a call, or deliver an answer. -/
def App.Event.isBackend : App.Event → Bool
  | .perform _ _ | .deliver _ => true
  | _ => false

/-- No operation is in flight, or the process has trapped. -/
def App.AtRest (a : App) : Prop := a.trapped.isSome = true ∨ ∀ task ∈ a.net.tasks, task = .ended

-- ---------------------------------------------------------------------------
-- One operation
-- ---------------------------------------------------------------------------

/-- A call that has been performed and delivered leaves two events less to its chain. -/
theorem Answered.left {b b' : Backend} {call : Call κ υ ι} {outcome : Outcome}
    {step : Step κ υ ι} (h : Answered b call outcome b' step) : step.left + 2 ≤ call.work := by
  cases h with
  | authFailed request callback error =>
    cases callback <;> simp [AuthCallback.run, Step.left, Call.work]
  | authenticated request callback user b' hAuth =>
    cases callback <;> simp [AuthCallback.run, Step.left, Call.work]
  | sheetGranted completion user =>
    simp [Service.signInWitnGoogleFirestore, Step.left, Call.work]
  | readFailed uid callback error =>
    cases callback <;> simp [DocumentCallback.run, Step.left, Call.work]
  | read uid callback =>
    cases callback with
    | signInWitnGoogleFirestore user completion =>
      generalize hStep : DocumentCallback.run _ _ _ = step
      rcases DocumentCallback.run_signIn user completion _ none hStep with
        rfl | rfl | rfl | ⟨email, fullname, url, rfl⟩ <;> simp [Step.left, Call.work]
    | fetchUserWithFirestore comletion =>
      cases hDoc : b.users uid <;> simp [DocumentCallback.run, Step.left, Call.work]
  | updateFailed uid data callback error =>
    cases callback <;> simp [UpdateCallback.run, Step.left, Call.work]
  | updated uid data callback doc hDoc =>
    cases callback <;> simp [UpdateCallback.run, Step.left, Call.work]
  | storeFailed filename data callback error =>
    cases callback <;> simp [StorageCallback.stored, Step.left, Call.work]
  | stored filename data callback url =>
    cases callback <;> simp [StorageCallback.stored, Step.left, Call.work]
  | locateFailed filename callback error =>
    cases callback <;> simp [StorageCallback.run, Step.left, Call.work]
  | located filename callback image hImage =>
    cases callback <;>
      simp [StorageCallback.run, Service.registerUserWithFirestore, Step.left, Call.work]
  | observeFailed uid callback error => cases callback <;> simp [Step.left, Call.work]
  | observed uid callback =>
    cases callback with
    | signInWithGoogle user completion =>
      generalize hStep : EventCallback.run _ _ _ = step
      rcases EventCallback.run_signIn user completion uid _ hStep with
        rfl | rfl | ⟨email, fullname, rfl⟩ <;> simp [Step.left, Call.work]
    | fetchUser comletion =>
      rcases hNode : b.database uid with _ | _ | _ <;>
        simp [EventCallback.run, Node.dictionary, Step.left, Call.work]
  | _ => simp [Step.left, Call.work]

/-- What the completion causes is counted from the first call on. -/
theorem Answered.work {b b' : Backend} {call : AppCall} {outcome : Outcome} {step : AppStep}
    (h : Answered b call outcome b' step) : step.work + 2 ≤ call.work + call.owner.work := by
  have hLeft : step.left + 2 ≤ call.work := h.left
  have hOwner := h.owner
  cases step with
  | wait call' =>
    have hSame : call'.owner = call.owner := hOwner _ rfl
    simp only [Step.work, Step.left, hSame] at hLeft ⊢
    omega
  | completed completion error =>
    have hSame : .outcome completion = call.owner := hOwner _ rfl
    simp only [Step.work, Step.left, ← hSame, Owner.work] at hLeft ⊢
    omega
  | _ => exact Nat.le_add_right_of_le hLeft

/-- An operation is at most a chain of four calls with a fetch after it. -/
theorem Operation.work_start (session : Option Uid)
    (op : Operation Completion UserCompletion ImageCompletion) :
    (Task.ofStep (op.start session)).work ≤ 10 := by
  have hCall : ∀ call : AppCall, call.work + call.owner.work ≤ 10 := by
    intro call
    have hOwner : call.owner.work ≤ 2 := by
      cases hOwner : call.owner with
      | outcome completion => cases completion <;> simp [Owner.work, Completion.work]
      | _ => simp [Owner.work]
    have hWork : call.work ≤ 8 := by
      cases call with
      | auth request callback => cases callback <;> simp [Call.work]
      | getDocument uid callback => cases callback <;> simp [Call.work]
      | putData filename data callback => cases callback <;> simp [Call.work]
      | downloadURL filename callback => cases callback <;> simp [Call.work]
      | observeSingleEvent uid callback => cases callback <;> simp [Call.work]
      | _ => simp [Call.work]
    omega
  cases hStep : op.start session with
  | wait call => exact hCall call
  | _ => exact Nat.zero_le 10

/-- A save has three effects at most. -/
theorem EditProfileViewController.updateUserData_length (c : EditProfileViewController) :
    c.updateUserData.length ≤ 3 := by
  have hBoth : ∀ user, (c.saveBoth user).length ≤ 1 := by
    intro user
    unfold saveBoth
    repeat' split
    all_goals simp
  have hFullname : ∀ user, (c.saveFullname user).length ≤ 2 := by
    intro user
    unfold saveFullname
    split
    · split
      · simp
      · rename_i fullname hName
        exact Nat.succ_le_succ (hBoth { user with fullname })
    · exact Nat.le_succ_of_le (hBoth user)
  unfold updateUserData
  split
  · simp
  · rename_i user hUser
    split
    · split
      · simp
      · rename_i url hUrl
        exact Nat.succ_le_succ (hFullname { user with profileImageUrl := url })
    · exact Nat.le_succ_of_le (hFullname user)

-- ---------------------------------------------------------------------------
-- One event
-- ---------------------------------------------------------------------------

namespace App

theorem work_call (op : Operation Completion UserCompletion ImageCompletion) :
    (a.call op).work = a.work + (Task.ofStep (op.start a.net.backend.currentUser)).work :=
  sum_map_concat _ _

theorem work_congr (h : a'.net = a.net) : a'.work = a.work := by rw [work, h]; rfl

/-- An event of the user that starts one operation. -/
theorem work_call_le (h : a'.net = a.net)
    (op : Operation Completion UserCompletion ImageCompletion) :
    (a'.call op).work ≤ a.work + 10 := by
  have hStart := op.work_start a'.net.backend.currentUser
  rw [work_call, work_congr h]
  omega

/-- The fetch of the home screen, if somebody is signed in. -/
theorem work_fetch : a.fetchUserWithFirestore.work ≤ a.work + 2 := by
  rw [fetchUserWithFirestore, work_call]
  cases a.net.backend.currentUser <;>
    simp [Operation.start, Service.fetchUserWithFirestore, Task.ofStep, Task.work, Call.work,
      Call.owner, Owner.work]

theorem work_authenticationComplete : a.authenticationComplete.work ≤ a.work + 2 :=
  work_fetch

/-- A completion starts no more than `Completion.work` says. -/
theorem work_complete (error : Option Error) (completion : Completion) :
    (a.complete parses error completion).work ≤ a.work + completion.work := by
  cases completion with
  | handleLogin | handleSignUp =>
    cases error with
    | some error => exact Nat.le_add_right _ _
    | none => exact work_authenticationComplete
  | handleGoogleLogin => exact work_authenticationComplete
  | handleResetPassword => cases error <;> exact Nat.le_refl _
  | controllerWantsToDismiss =>
    cases hUser : a.user with
    | none =>
      rw [complete_unloaded hUser]
      exact Nat.le_refl _
    | some user =>
      rw [complete_dismissed hUser, work_congr (setUser_net _)]
      exact Nat.le_refl _
  | updateUserData s user =>
    rw [complete, work_congr (wantsToUpdate_net s user)]
    exact Nat.le_refl _

theorem work_take (step : AppStep) : (a.take parses step).work ≤ a.work + step.work := by
  cases step with
  | completed completion error => exact work_complete error completion
  | fetched comletion user =>
    cases comletion with
    | home =>
      rw [take, fetched, work_congr (setUser_net user)]
      exact Nat.le_refl _
    | edit s => exact Nat.le_refl _
  | _ => exact Nat.le_add_right _ _

theorem work_save (s : ℕ) (effect : EditProfileViewController.Effect) :
    (a.save parses s effect).work ≤ a.work + 2 := by
  cases effect with
  | wantsToUpdate user =>
    rw [save, work_congr (wantsToUpdate_net s user)]
    exact Nat.le_add_right _ _
  | updateUserData user =>
    rw [save, work_call]
    cases a.net.backend.currentUser <;>
      simp [Operation.start, Service.updateUserData, Task.ofStep, Task.work, Call.work,
        Call.owner, Owner.work, Completion.work]
  | trap what => exact Nat.le_add_right _ _

theorem foldl_save_work (s : ℕ) (effects : List EditProfileViewController.Effect) :
    (effects.foldl (save parses s) a).work ≤ a.work + 2 * effects.length := by
  induction effects generalizing a with
  | nil => exact Nat.le_refl _
  | cons effect effects ih =>
    have hHead : (a.save parses s effect).work ≤ a.work + 2 := work_save s effect
    have hTail : (effects.foldl (save parses s) (a.save parses s effect)).work ≤
        (a.save parses s effect).work + 2 * effects.length := ih
    rw [List.foldl_cons, List.length_cons]
    omega

theorem work_launch (net : AppNet) (log : List Notice) : (launch net log).work ≤ 2 := by
  have hLoaded : (loaded net.restart log).work = 0 := rfl
  unfold launch authenticateUSer
  split
  · exact Nat.zero_le 2
  · have hFetch := work_fetch (a := loaded net.restart log)
    omega

/-- The backends take from the work in flight, at every event. -/
theorem work_backend {e : Event} (hBackend : e.isBackend = true)
    (hStep : a.step parses e = some a') : a'.work < a.work := by
  cases step_stepped hStep with
  | perform i outcome call backend step hTask hAnswered =>
    have hWork : step.work + 2 ≤ call.work + call.owner.work := hAnswered.work
    have hSum : (a.answer i backend call step).work + (call.work + call.owner.work) =
        a.work + (1 + step.work) := sum_map_set hTask _
    omega
  | deliver i call step hTask =>
    have hSum : (a.receive i step).work + (1 + step.work) = a.work + (Task.ofStep step).work :=
      sum_map_set hTask _
    have hTake : ((a.receive i step).take parses step).work ≤ (a.receive i step).work + step.work :=
      work_take step
    cases step with
    | wait call' =>
      have hSame : ((a.receive i (.wait call')).take parses (.wait call')).work =
        (a.receive i (.wait call')).work := rfl
      have hOf : (Task.ofStep (.wait call' : AppStep)).work =
          (Step.wait call' : AppStep).work := rfl
      omega
    | _ =>
      have hOf : (Task.ended : AppTask).work = 0 := rfl
      simp only [Task.ofStep] at hSum
      omega
  | _ => exact absurd hBackend (by simp [Event.isBackend])

/-- The user brings ten backend events at most. -/
theorem work_user {e : Event} (hUser : e.isBackend = false) (hStep : a.step parses e = some a') :
    a'.work ≤ a.work + 10 := by
  cases step_stepped hStep with
  | launch =>
    have hLaunch := work_launch a.net a.log
    omega
  | handleSignUp profileImage email password fullname filename hLogin =>
    unfold handleSignUp
    split
    · exact Nat.le_add_right _ _
    · split
      · exact Nat.le_add_right _ _
      · exact work_call_le rfl _
  | handleResetPassword email hLogin =>
    unfold handleResetPassword
    split
    · exact Nat.le_add_right _ _
    · exact work_call_le rfl _
  | logout signedOut hHome =>
    unfold logout
    split <;> exact Nat.le_add_right _ _
  | imagePickerController s image filename hPicker =>
    unfold imagePickerController
    split
    · exact Nat.le_add_right _ _
    · have hNet : ((a.updateEdit s .imagePicked).showLoader true).net = a.net := rfl
      exact work_call_le hNet _
  | handleDone s c hEdit hScreen hEnabled hHud =>
    have hLength := c.updateUserData_length
    have hFold : (c.updateUserData.foldl (save parses s) a).work ≤
        a.work + 2 * c.updateUserData.length := foldl_save_work s c.updateUserData
    unfold handleDone
    omega
  | perform i outcome | deliver i => exact absurd hUser (by simp [Event.isBackend])
  | handleLogin | handleGoogleLogin | handleEditProfile | controllerWantsToDismiss =>
    exact work_call_le rfl _
  | _ => exact Nat.le_add_right _ _

/-- Every event is paid for. -/
theorem work_step {e : Event} (hStep : a.step parses e = some a') :
    a'.work + e.isBackend.toNat ≤ a.work + 10 * (!e.isBackend).toNat := by
  cases hKind : e.isBackend with
  | false => exact work_user hKind hStep
  | true => exact work_backend hKind hStep

/-- A process that is not at rest waits for one of the backends. -/
theorem backend_enabled (h : ¬ a.AtRest) :
    ∃ e a', e.isBackend = true ∧ a.step parses e = some a' := by
  obtain ⟨hTrapped, hTasks⟩ := not_or.mp h
  rw [Option.not_isSome_iff_eq_none] at hTrapped
  have hStep : ∀ e, a.step parses e = a.handle parses e := by
    intro e
    unfold step
    rw [hTrapped]
  push Not at hTasks
  obtain ⟨task, hMem, hOpen⟩ := hTasks
  obtain ⟨i, hTask⟩ := List.getElem?_of_mem hMem
  cases task with
  | ended => exact absurd rfl hOpen
  | waiting call =>
    obtain ⟨⟨backend, step⟩, hPerform⟩ : ∃ result,
        a.net.backend.perform call (.failure ⟨"unavailable"⟩) = some result := by
      cases call <;> exact ⟨_, rfl⟩
    refine ⟨.perform i (.failure ⟨"unavailable"⟩), a.answer i backend call step, rfl, ?_⟩
    simp only [hStep, handle, Net.perform, hTask, hPerform, Option.map_some]
    rfl
  | answered call step =>
    refine ⟨.deliver i, (a.receive i step).take parses step, rfl, ?_⟩
    simp only [hStep, handle, Net.deliver, hTask, Option.map_some]
    rfl

end App

-- ---------------------------------------------------------------------------
-- Runs
-- ---------------------------------------------------------------------------

/--
**Ten backend events for each event of the user.** In every run from a launch,
the backend events so far and those that are still in flight are at most ten for
each event of the user, and two for the fetch of the launch.
-/
theorem backend_events_bounded {backend : Backend} {es : List App.Event}
    (hRun : run (App.step parses) (App.start backend) es = some a) :
    es.countP App.Event.isBackend + a.work ≤ 10 * es.countP (fun e => !e.isBackend) + 2 := by
  have hStart : (App.start backend).work ≤ 2 := App.work_launch _ _
  have hStep : ∀ a e a', App.step parses a e = some a' →
      a'.work + e.isBackend.toNat ≤ a.work + 10 * (!e.isBackend).toNat :=
    fun _ _ _ => App.work_step
  have hAccounts := run_accounts hStep hRun
  rw [sum_map_toNat, List.sum_map_mul_left, sum_map_toNat] at hAccounts
  omega

/-- A first sign-in with Google: one press, and all the ten events that follow. -/
def firstGoogleLogin : List App.Event :=
  [.handleGoogleLogin, .perform 0 (.gid ⟨some "token", "access"⟩), .deliver 0,
   .perform 0 (.signedIn ⟨"g", some "g@mail", some "Gus", some "gus.jpg"⟩), .deliver 0,
   .perform 0 .success, .deliver 0, .perform 0 .success, .deliver 0, .perform 1 .success,
   .deliver 1]

theorem firstGoogleLogin_bounded :
    ∃ a, run (App.step fun _ => true) (App.start .empty) firstGoogleLogin = some a ∧
      firstGoogleLogin.countP App.Event.isBackend + a.work ≤
        10 * firstGoogleLogin.countP (fun e => !e.isBackend) + 2 := by
  have hSome : (run (App.step fun _ => true) (App.start .empty) firstGoogleLogin).isSome = true :=
    rfl
  obtain ⟨a, hRun⟩ := Option.isSome_iff_exists.mp hSome
  exact ⟨a, hRun, backend_events_bounded hRun⟩

/--
**The app comes to rest.** From every state, the backend events alone lead to a
state with nothing in flight, unless one of them traps, and no run of backend
events is longer than the work in flight.
-/
theorem comes_to_rest (parses : URLParser) (a : App) :
    (∀ es a', (∀ e ∈ es, e.isBackend = true) → run (App.step parses) a es = some a' →
      es.length + a'.work ≤ a.work) ∧
    ∃ es a', (∀ e ∈ es, e.isBackend = true) ∧ run (App.step parses) a es = some a' ∧
      a'.AtRest := by
  have hStep : ∀ a e a', App.Event.isBackend e = true → App.step parses a e = some a' →
      a'.work < a.work := fun _ _ _ => App.work_backend
  constructor
  · exact fun es a' hIdle hRun => run_length_le hStep hIdle hRun
  · exact exists_rest hStep (fun _ => App.backend_enabled) a

end AggroApp
