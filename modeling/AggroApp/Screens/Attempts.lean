import AggroApp.Screens.OwnProfile

/-!
# AggroApp — login attempts and the session

A login attempt signs in first and reports to the home screen later. The Google
attempt shows no loader in between, so another attempt can overtake it, take the
login screen down and give way to a logout, after which the first one reports
without a session. An attempt that is past its sign-in needs the session to
stay until it is over.

* `overtakenAttempt_not_signedIn` — such a run.
* `completed_only_signed_in`      — with no logout while an attempt is past its
  sign-in, every report finds a signed-in account.
-/

namespace AggroApp

open Async

variable {parses : URLParser} {a a' : App}

/-- Whenever `authenticationComplete` has run, somebody was signed in. -/
def App.CompletesSignedIn (a : App) : Prop :=
  ∀ session, Notice.authenticationComplete session ∈ a.log → session.isSome = true

-- ---------------------------------------------------------------------------
-- How far an attempt has come
-- ---------------------------------------------------------------------------

/-- The completion belongs to a login attempt. -/
def Completion.isAttempt : Completion → Bool
  | .handleLogin | .handleGoogleLogin | .handleSignUp => true
  | _ => false

/-- Called with this error, the completion runs `authenticationComplete`. -/
def Completion.completes (error : Option Error) : Completion → Bool
  | .handleLogin | .handleSignUp => error.isNone
  | .handleGoogleLogin => true
  | _ => false

/-- The call is one of an attempt whose sign-in is still to come. -/
def Call.beforeSignIn : AppCall → Bool
  | .auth _ (.logUserIn .handleLogin) => true
  | .auth _ (.registerUserWithFirestore _ _ _ .handleSignUp) => true
  | .auth _ (.signInWitnGoogleFirestore .handleGoogleLogin) => true
  | .gidSignIn .handleGoogleLogin => true
  | .putData _ _ (.handleSignUp _ _ _ .handleSignUp) => true
  | .downloadURL _ (.handleSignUp _ _ _ .handleSignUp) => true
  | _ => false

/-- The call belongs to a login attempt. -/
def Call.isAttempt (call : AppCall) : Bool :=
  match call.owner with
  | .outcome completion => completion.isAttempt
  | _ => false

/-- The call is one of an attempt that has signed in. -/
def Call.pastSignIn (call : AppCall) : Bool := call.isAttempt && !call.beforeSignIn

/-- The step leads to `authenticationComplete` without another sign-in. -/
def Step.pastSignIn : AppStep → Bool
  | .completed completion error => completion.completes error
  | .wait call => call.pastSignIn
  | _ => false

def Task.pastSignIn : AppTask → Bool
  | .waiting call => call.pastSignIn
  | .answered _ step => step.pastSignIn
  | .ended => false

/-- If the event signs out, no attempt is past its sign-in. -/
def App.LogsOutIdle (a : App) : App.Event → Prop
  | .logout true => ∀ task ∈ a.net.tasks, task.pastSignIn = false
  | _ => True

instance (a : App) (e : App.Event) : Decidable (a.LogsOutIdle e) := by
  unfold App.LogsOutIdle
  split <;> infer_instance

-- ---------------------------------------------------------------------------
-- The overtaken attempt
-- ---------------------------------------------------------------------------

/-- Two taps on "Log in with Google". The first attempt has signed in and read its
document when the second one goes through; then comes a logout, and then the
answer to the first attempt's read. -/
def overtakenAttempt : List App.Event :=
  [.handleGoogleLogin, .handleGoogleLogin,
   .perform 0 (.gid ⟨some "token", "access"⟩), .deliver 0,
   .perform 0 (.signedIn ⟨"a", some "ann@mail", some "Ann", some "a.jpg"⟩), .deliver 0,
   .perform 0 .success,
   .perform 1 (.gid ⟨some "token", "access"⟩), .deliver 1,
   .perform 1 (.signedIn ⟨"a", some "ann@mail", some "Ann", some "a.jpg"⟩), .deliver 1,
   .perform 1 .success, .deliver 1, .logout true, .deliver 0]

theorem Task.pastSignIn_ofStep {step : AppStep} (h : (Task.ofStep step).pastSignIn = true) :
    step.pastSignIn = true := by
  cases step with
  | wait call => exact h
  | _ => exact absurd h (by simp [Task.ofStep, Task.pastSignIn])

theorem Completion.isAttempt_of_completes {completion : Completion} {error : Option Error}
    (h : completion.completes error = true) : completion.isAttempt = true := by
  cases completion with
  | handleLogin | handleGoogleLogin | handleSignUp => rfl
  | _ => exact absurd h (by simp [Completion.completes])

/-- Only an attempt gets past a sign-in. -/
theorem Step.owner_of_pastSignIn {step : AppStep} (h : step.pastSignIn = true) :
    ∃ completion : Completion, step.owner = some (.outcome completion) ∧
      completion.isAttempt = true := by
  cases step with
  | completed completion error => exact ⟨completion, rfl, completion.isAttempt_of_completes h⟩
  | wait call =>
    rw [Step.pastSignIn, Call.pastSignIn, Bool.and_eq_true] at h
    have hAttempt := h.1
    unfold Call.isAttempt at hAttempt
    split at hAttempt
    · rename_i completion hOwner
      exact ⟨completion, by rw [Step.owner, hOwner], hAttempt⟩
    · exact absurd hAttempt (by simp)
  | _ => exact absurd h (by simp [Step.pastSignIn])

/-- Before the sign-in, a call gets past it only by signing in. -/
theorem Answered.signedIn {b b' : Backend} {call : AppCall} {outcome : Outcome} {step : AppStep}
    (h : Answered b call outcome b' step) (hBefore : call.beforeSignIn = true)
    (hPast : step.pastSignIn = true) : b'.currentUser.isSome = true := by
  cases h with
  | authenticated request callback user b' hAuth =>
    rw [(Backend.authenticate_some hAuth).1]
    rfl
  | authFailed request callback error =>
    rcases callback with completion | ⟨_, _, completion⟩ | ⟨_, _, _, completion⟩ | completion |
      completion <;> cases completion <;>
      simp [Call.beforeSignIn, AuthCallback.run, Step.pastSignIn, Completion.completes]
        at hBefore hPast
  | sheetFailed completion error => exact absurd hPast (by simp [Step.pastSignIn])
  | sheetGranted completion user =>
    cases completion <;>
      simp [Call.beforeSignIn, Service.signInWitnGoogleFirestore, Step.pastSignIn,
        Call.pastSignIn] at hBefore hPast
  | storeFailed filename data callback error =>
    rcases callback with ⟨_, completion⟩ | ⟨_, _, _, completion⟩ <;> cases completion <;>
      simp [Call.beforeSignIn, StorageCallback.stored, Step.pastSignIn, Call.pastSignIn]
        at hBefore hPast
  | stored filename data callback url =>
    rcases callback with ⟨_, completion⟩ | ⟨_, _, _, completion⟩ <;> cases completion <;>
      simp [Call.beforeSignIn, StorageCallback.stored, Step.pastSignIn, Call.pastSignIn]
        at hBefore hPast
  | locateFailed filename callback error =>
    exact absurd hPast (by simp [StorageCallback.run, Step.pastSignIn])
  | located filename callback image hImage =>
    rcases callback with ⟨_, completion⟩ | ⟨_, _, _, completion⟩ <;> cases completion <;>
      simp [Call.beforeSignIn, StorageCallback.run, Service.registerUserWithFirestore,
        Step.pastSignIn, Call.pastSignIn] at hBefore hPast
  | _ => exact absurd hBefore (by simp [Call.beforeSignIn])

/-- An answer that gets past the sign-in comes from a call that was past it, or
finds an account signed in. -/
theorem Answered.pastSignIn {b b' : Backend} {call : AppCall} {outcome : Outcome}
    {step : AppStep} (h : Answered b call outcome b' step) (hPast : step.pastSignIn = true) :
    call.pastSignIn = true ∨ b'.currentUser.isSome = true := by
  by_cases hBefore : call.beforeSignIn = true
  · exact Or.inr (h.signedIn hBefore hPast)
  · obtain ⟨completion, hOwner, hAttempt⟩ := Step.owner_of_pastSignIn hPast
    have hCall : Owner.outcome completion = call.owner := h.owner _ hOwner
    refine Or.inl ?_
    rw [Call.pastSignIn, Call.isAttempt, ← hCall]
    simp [hAttempt, hBefore]

-- ---------------------------------------------------------------------------
-- The invariant
-- ---------------------------------------------------------------------------

/-- Every report found a signed-in account, and without one no attempt is past
its sign-in. -/
structure App.Tied (a : App) : Prop where
  log : a.CompletesSignedIn
  tasks : a.net.backend.currentUser = none → ∀ task ∈ a.net.tasks, task.pastSignIn = false

namespace App.Tied

theorem congr (h : a.Tied) (hNet : a'.net = a.net)
    (hLog : ∀ session, .authenticationComplete session ∈ a'.log →
      .authenticationComplete session ∈ a.log) : a'.Tied :=
  ⟨fun session hMem => h.log session (hLog session hMem), hNet ▸ h.tasks⟩

/-- What is presented, displayed or edited does not matter. -/
theorem frame (h : a.Tied) (hNet : a'.net = a.net) (hLog : a'.log = a.log) : a'.Tied :=
  h.congr hNet fun _ hMem => hLog ▸ hMem

theorem call (h : a.Tied) (op : Operation Completion UserCompletion ImageCompletion)
    (hOp : ∀ session, (op.start session).pastSignIn = false) : (a.call op).Tied where
  log := h.log
  tasks := by
    intro hNone
    refine forall_mem_concat (h.tasks hNone) (Bool.eq_false_iff.mpr fun hPast => ?_)
    exact absurd (Task.pastSignIn_ofStep hPast) (by rw [hOp]; simp)

theorem setUser (h : a.Tied) (user : User) : (a.setUser parses user).Tied := by
  refine h.congr (setUser_net user) fun session hMem => ?_
  rw [setUser_eq] at hMem
  cases hSeen : user.hasSeenOnboarding with
  | true => simpa [hSeen] using hMem
  | false => simpa [hSeen] using hMem

theorem wantsToUpdate (h : a.Tied) (s : ℕ) (user : User) :
    (a.wantsToUpdate parses s user).Tied := by
  rw [wantsToUpdate_eq]
  have hDismissed : (a.dismissEdit s).Tied := h.frame rfl rfl
  exact hDismissed.setUser user

theorem showMessage (h : a.Tied) (title message : String) : (a.showMessage title message).Tied :=
  h.congr rfl fun session hMem => by simpa [App.showMessage] using hMem

theorem fetchUserWithFirestore (h : a.Tied) : a.fetchUserWithFirestore.Tied :=
  h.call _ fun session => by cases session <;> rfl

theorem authenticationComplete (h : a.Tied) (hSession : a.net.backend.currentUser.isSome = true) :
    a.authenticationComplete.Tied := by
  have hReported : ({ a with
      log := a.log ++ [.authenticationComplete a.net.backend.currentUser] } : App).Tied := by
    refine ⟨fun session hMem => ?_, h.tasks⟩
    rcases List.mem_append.mp hMem with hOld | hNew
    · exact h.log session hOld
    · rw [List.mem_singleton, Notice.authenticationComplete.injEq] at hNew
      exact hNew ▸ hSession
  have hDismissed : (({ a with
      log := a.log ++ [.authenticationComplete a.net.backend.currentUser] } : App).dismiss).Tied :=
    hReported.frame rfl rfl
  exact hDismissed.fetchUserWithFirestore

theorem finishAuthentication (h : a.Tied) {error : Option Error}
    (hSession : error = none → a.net.backend.currentUser.isSome = true) :
    (a.finishAuthentication error).Tied := by
  have hHidden : (a.showLoader false).Tied := h.frame rfl rfl
  cases error with
  | some error => exact hHidden.showMessage "Error" error.localizedDescription
  | none => exact hHidden.authenticationComplete (hSession rfl)

theorem complete (h : a.Tied) {error : Option Error} {completion : Completion}
    (hSession : completion.completes error = true → a.net.backend.currentUser.isSome = true) :
    (a.complete parses error completion).Tied := by
  cases completion with
  | handleLogin => exact h.finishAuthentication fun hNone => hSession (by rw [hNone]; rfl)
  | handleSignUp => exact h.finishAuthentication fun hNone => hSession (by rw [hNone]; rfl)
  | handleGoogleLogin => exact h.authenticationComplete (hSession rfl)
  | handleResetPassword =>
    have hHidden : (a.showLoader false).Tied := h.frame rfl rfl
    cases error with
    | some error => exact hHidden.showMessage "Error" error.localizedDescription
    | none => exact hHidden.showMessage _ _
  | controllerWantsToDismiss =>
    rw [App.complete]
    cases a.user with
    | none => exact h
    | some user => exact h.setUser _
  | updateUserData s user => exact h.wantsToUpdate s user

theorem take (h : a.Tied) {step : AppStep}
    (hSession : step.pastSignIn = true → a.net.backend.currentUser.isSome = true) :
    (a.take parses step).Tied := by
  cases step with
  | quit => exact h
  | wait call => exact h
  | trap what => exact h.frame rfl rfl
  | completed completion error => exact h.complete hSession
  | fetched comletion user =>
    cases comletion with
    | home => exact h.setUser user
    | edit s => exact h.frame rfl rfl
  | uploaded completion url => exact h.frame rfl rfl

theorem save (h : a.Tied) (s : ℕ) (effect : EditProfileViewController.Effect) :
    (a.save parses s effect).Tied := by
  cases effect with
  | wantsToUpdate user => exact h.wantsToUpdate s user
  | updateUserData user => exact h.call _ fun session => by cases session <;> rfl
  | trap what => exact h.frame rfl rfl

theorem launch {log : List Notice} (net : AppNet)
    (hLog : ∀ session, Notice.authenticationComplete session ∈ log → session.isSome = true) :
    (App.launch net log).Tied := by
  have hLoaded : (loaded net.restart log).Tied := ⟨hLog, fun _ => by simp [loaded, Net.restart]⟩
  rw [App.launch, authenticateUSer]
  split
  · exact hLoaded.frame rfl rfl
  · exact hLoaded.fetchUserWithFirestore

theorem answer (h : a.Tied) {i : ℕ} {call : AppCall} {outcome : Outcome} {backend : Backend}
    {step : AppStep} (hTask : a.net.tasks[i]? = some (.waiting call))
    (hAnswered : Answered a.net.backend call outcome backend step) :
    (a.answer i backend call step).Tied where
  log := h.log
  tasks := by
    intro hNone
    have hBackend : backend.currentUser = none := hNone
    have hBefore : a.net.backend.currentUser = none := by
      rcases hAnswered.currentUser with hSame | ⟨user, -, hUser⟩
      · rw [← hSame, hBackend]
      · rw [hBackend] at hUser
        exact absurd hUser (by simp)
    refine forall_mem_set (h.tasks hBefore) (Bool.eq_false_iff.mpr fun hPast => ?_)
    rcases hAnswered.pastSignIn hPast with hCall | hSome
    · have hIdle := h.tasks hBefore _ (List.mem_of_getElem? hTask)
      exact absurd hCall (by rw [show call.pastSignIn = false from hIdle]; simp)
    · rw [hBackend] at hSome
      exact absurd hSome (by simp)

theorem receive (h : a.Tied) {i : ℕ} {call : AppCall} {step : AppStep}
    (hTask : a.net.tasks[i]? = some (.answered call step)) : (a.receive i step).Tied where
  log := h.log
  tasks := by
    intro hNone
    refine forall_mem_set (h.tasks hNone) (Bool.eq_false_iff.mpr fun hPast => ?_)
    have hIdle := h.tasks hNone _ (List.mem_of_getElem? hTask)
    exact absurd (Task.pastSignIn_ofStep hPast)
      (by rw [show step.pastSignIn = false from hIdle]; simp)

theorem step {e : Event} (h : a.Tied) (hIdle : a.LogsOutIdle e)
    (hStep : a.step parses e = some a') : a'.Tied := by
  have hShown : (a.showLoader true).Tied := h.frame rfl rfl
  cases step_stepped hStep with
  | launch => exact launch a.net h.log
  | handleLogin email password hLogin => exact hShown.call _ fun _ => rfl
  | handleGoogleLogin hLogin => exact h.call _ fun _ => rfl
  | handleSignUp profileImage email password fullname filename hLogin =>
    unfold App.handleSignUp
    split
    · exact h.showMessage _ _
    · split
      · exact h
      · rename_i image data hData
        exact hShown.call _ fun _ => by rw [Operation.start, hData]; rfl
  | handleResetPassword email hLogin =>
    unfold App.handleResetPassword
    split
    · exact h
    · exact hShown.call _ fun _ => rfl
  | logout signedOut hHome =>
    unfold App.logout
    split
    · rename_i hSignedOut
      subst hSignedOut
      exact ⟨h.log, fun _ => hIdle⟩
    · exact h
  | handleEditProfile hHome =>
    have hOpened : (({ a with edits := a.edits ++ [.new] } : App).present
        (.edit a.edits.length)).Tied := h.frame rfl rfl
    exact hOpened.call _ fun session => by cases session <;> rfl
  | controllerWantsToDismiss hOnboarding =>
    have hDismissed : a.dismiss.Tied := h.frame rfl rfl
    exact hDismissed.call _ fun session => by cases session <;> rfl
  | handleCancel s hEdit => exact h.frame rfl rfl
  | handleUpdateUserFullname s text hEdit => exact h.frame rfl rfl
  | handleChangeProfilePhoto s hEdit => exact h.frame rfl rfl
  | imagePickerController s image filename hPicker =>
    unfold App.imagePickerController
    split
    · exact h
    · rename_i image
      have hPicked : ((a.updateEdit s .imagePicked).showLoader true).Tied := h.frame rfl rfl
      have hCalled := hPicked.call (.updateProfileImage image filename (.imagePickerController s))
        fun session => by
          rw [Operation.start, Service.updateProfileImage]
          cases image.jpegData 30 <;> cases session <;> rfl
      exact hCalled.frame rfl rfl
  | imagePickerControllerDidCancel s hPicker => exact h.frame rfl rfl
  | handleDone s c hEdit hScreen hEnabled hHud =>
    exact handleDone_keeps h fun b hb effect _ => hb.save s effect
  | perform i outcome call backend step hTask hAnswered => exact h.answer hTask hAnswered
  | deliver i call step hTask =>
    refine (h.receive hTask).take fun hPast => ?_
    show a.net.backend.currentUser.isSome = true
    rw [Option.isSome_iff_ne_none]
    intro hNone
    have hTaskIdle := h.tasks hNone _ (List.mem_of_getElem? hTask)
    exact absurd hPast (by rw [show step.pastSignIn = false from hTaskIdle]; simp)

end App.Tied

end AggroApp
