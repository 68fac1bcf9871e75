import AggroApp.Model.App

/-!
# AggroApp — whose profile the home screen holds

`HomeViewController.user` is not cleared by a logout, and no callback checks
for which account it was started. The home screen, the edit screens, and the
fetches and saves in flight all hand profiles on, each of one account; as long
as an account signs in only when none of them is of another account, the home
screen is always the signed-in account's own.

* `lateFetch_not_own`      — a fetch from before a logout arrives in the next
  session.
* `home_keeps_to_session`  — the condition under which that cannot happen.
-/

namespace AggroApp

open Async

variable {parses : URLParser} {a a' : App}

/-- The home screen holds the profile of the signed-in account, or none. -/
def App.HomeIsOwn (a : App) : Prop :=
  ∀ uid ∈ a.net.backend.currentUser, ∀ user ∈ a.user, user.uid = uid

-- ---------------------------------------------------------------------------
-- What is left of an account
-- ---------------------------------------------------------------------------

/-- The account whose profile the completion has captured. -/
def Completion.profile : Completion → Option Uid
  | .updateUserData _ user => some user.uid
  | _ => none

/-- The account whose profile the chain of the call will hand on. -/
def Call.profile (call : AppCall) : Option Uid :=
  match call with
  | .getDocument uid (.fetchUserWithFirestore _) => some uid
  | .observeSingleEvent uid (.fetchUser _) => some uid
  | call =>
    match call.owner with
    | .outcome completion => completion.profile
    | _ => none

def Step.profile : AppStep → Option Uid
  | .completed completion _ => completion.profile
  | .fetched _ user => some user.uid
  | .wait call => call.profile
  | _ => none

def Task.profile : AppTask → Option Uid
  | .waiting call => call.profile
  | .answered _ step => step.profile
  | .ended => none

/-- Every profile on the client is of the account `uid`: on the home screen, on
the edit screens, and with the operations in flight. -/
def App.Of (a : App) (uid : Uid) : Prop :=
  (∀ user ∈ a.user, user.uid = uid) ∧ (∀ task ∈ a.net.tasks, ∀ u ∈ task.profile, u = uid) ∧
    ∀ c ∈ a.edits, ∀ user ∈ c.user, user.uid = uid

instance (a : App) (uid : Uid) : Decidable (a.Of uid) :=
  inferInstanceAs (Decidable (_ ∧ _ ∧ _))

/-- If the event signs an account in, nothing of another account is left. -/
def App.SignsInAlone (a : App) : App.Event → Prop
  | .perform _ (.signedIn user) => a.Of user.uid
  | _ => True

instance (a : App) (e : App.Event) : Decidable (a.SignsInAlone e) := by
  unfold App.SignsInAlone
  split <;> infer_instance

-- ---------------------------------------------------------------------------
-- The late fetch
-- ---------------------------------------------------------------------------

/-- Two accounts with an e-mail each, and the stored profile of each; the first
one is signed in. -/
def twoAccounts : Backend where
  accounts := [⟨"a", some "ann@mail"⟩, ⟨"b", some "bob@mail"⟩]
  currentUser := some "a"
  users := Function.update
    (Function.update (fun _ => none) "b"
      (some (((profileValues "bob@mail" "Bob" "b.jpg" "b").document).merge
        [("hasSeenOnboarding", .bool true)])))
    "a" (some (((profileValues "ann@mail" "Ann" "a.jpg" "a").document).merge
      [("hasSeenOnboarding", .bool true)]))
  images := fun _ => none
  database := fun _ => none

/-- The home screen fetches at launch; the answer is slow. Ann logs out, Bob logs
in and his profile arrives, and then Ann's does. -/
def lateFetch : List App.Event :=
  [.perform 0 .success, .logout true, .handleLogin "bob@mail" "secret",
   .perform 1 (.signedIn ⟨"b", some "bob@mail", none, none⟩), .deliver 1,
   .perform 2 .success, .deliver 2, .deliver 0]

theorem lateFetch_not_own :
    ¬ Always (App.step fun _ => true) App.HomeIsOwn (App.start twoAccounts) lateFetch := by
  intro h
  have hOwn := h.last rfl "b" rfl ⟨"ann@mail", "Ann", true, "a.jpg", "a"⟩ rfl
  exact absurd hOwn (by decide)

-- ---------------------------------------------------------------------------
-- Documents keep their uid
-- ---------------------------------------------------------------------------

/-- The uid field of every stored document equals its document id. -/
def OwnUids (users : Users) : Prop :=
  ∀ uid doc, users uid = some doc → doc.string "uid" = uid

section KeepsUid

variable {κ υ ι : Type}

/-- The call stores the uid of its document, or does not touch that field. -/
def Call.KeepsUid : Call κ υ ι → Prop
  | .setData uid values _ => values.document.string "uid" = uid
  | .updateData _ data _ => data.lookup "uid" = none
  | _ => True

def Step.KeepsUid : Step κ υ ι → Prop
  | .wait call => call.KeepsUid
  | _ => True

def Task.KeepsUid : Task κ υ ι → Prop
  | .waiting call => call.KeepsUid
  | .answered _ step => step.KeepsUid
  | .ended => True

theorem Task.keepsUid_ofStep {step : Step κ υ ι} (h : step.KeepsUid) :
    (Task.ofStep step).KeepsUid := by
  cases step with
  | wait call => exact h
  | _ => trivial

theorem Operation.start_keepsUid (session : Option Uid) (op : Operation κ υ ι) :
    (op.start session).KeepsUid := by
  cases op with
  | updateProfileImage image filename completion =>
    rw [Operation.start, Service.updateProfileImage]
    cases image.jpegData 30 <;> cases session <;> trivial
  | handleSignUp email password fullname profileImage filename completion =>
    rw [Operation.start]
    cases profileImage.jpegData 10 <;> trivial
  | _ => cases session <;> trivial

theorem Answered.keepsUid {b b' : Backend} {call : Call κ υ ι} {outcome : Outcome}
    {step : Step κ υ ι} (h : Answered b call outcome b' step) : step.KeepsUid := by
  cases h with
  | authFailed request callback error => cases callback <;> trivial
  | authenticated request callback user => cases callback <;> trivial
  | readFailed uid callback error => cases callback <;> trivial
  | read uid callback =>
    cases callback with
    | signInWitnGoogleFirestore user completion =>
      generalize hStep : DocumentCallback.run _ _ _ = step
      rcases DocumentCallback.run_signIn user completion _ _ hStep with
        rfl | rfl | rfl | ⟨email, fullname, url, rfl⟩ <;> trivial
    | fetchUserWithFirestore comletion =>
      unfold DocumentCallback.run
      cases b.users uid <;> trivial
  | updateFailed uid data callback error => cases callback <;> trivial
  | updated uid data callback doc hDoc => cases callback <;> trivial
  | locateFailed filename callback error => trivial
  | located filename callback image hImage => cases callback <;> trivial
  | observed uid callback =>
    cases callback with
    | signInWithGoogle user completion =>
      generalize hStep : EventCallback.run _ _ _ = step
      rcases EventCallback.run_signIn user completion uid _ hStep with
        rfl | rfl | ⟨email, fullname, rfl⟩ <;> trivial
    | fetchUser comletion =>
      unfold EventCallback.run
      cases (b.database uid).bind Node.dictionary <;> trivial
  | _ => trivial

theorem Answered.ownUids {b b' : Backend} {call : Call κ υ ι} {outcome : Outcome}
    {step : Step κ υ ι} (h : Answered b call outcome b' step) (hKeeps : call.KeepsUid)
    (hOwn : OwnUids b.users) : OwnUids b'.users := by
  cases h with
  | authenticated request callback user b' hAuth =>
    rw [(Backend.authenticate_some hAuth).2.1]
    exact hOwn
  | set uid values completion =>
    intro u doc hDoc
    have hUpdate : Function.update b.users uid (some values.document) u = some doc := hDoc
    rw [Function.update_apply] at hUpdate
    split_ifs at hUpdate with hUid
    · rw [Option.some.injEq] at hUpdate
      rw [← hUpdate, hUid]
      exact hKeeps
    · exact hOwn u doc hUpdate
  | updated uid data callback old hOld =>
    intro u doc hDoc
    have hUpdate : Function.update b.users uid (some (old.merge data)) u = some doc := hDoc
    rw [Function.update_apply] at hUpdate
    split_ifs at hUpdate with hUid
    · rw [Option.some.injEq] at hUpdate
      have hField : (old.merge data) "uid" = old "uid" := by
        rw [merge_apply, show data.lookup "uid" = none from hKeeps]
        rfl
      rw [← hUpdate, hUid, Document.string, hField]
      exact hOwn uid old hOld
    · exact hOwn u doc hUpdate
  | _ => exact hOwn

end KeepsUid

-- ---------------------------------------------------------------------------
-- Profiles in flight
-- ---------------------------------------------------------------------------

theorem Task.profile_ofStep {step : AppStep} {u : Uid} (h : u ∈ (Task.ofStep step).profile) :
    u ∈ step.profile := by
  cases step with
  | wait call => exact h
  | _ => exact absurd h (by simp [Task.ofStep, Task.profile])

/-- An answer hands on no other profile than its call promised. -/
theorem Answered.profile {b b' : Backend} {call : AppCall} {outcome : Outcome} {step : AppStep}
    (h : Answered b call outcome b' step) (hOwn : OwnUids b.users) :
    ∀ u ∈ step.profile, u ∈ call.profile := by
  cases h with
  | authFailed request callback error =>
    cases callback <;>
      simp [AuthCallback.run, Step.profile, Call.profile, Call.owner, AuthCallback.completion]
  | authenticated request callback user =>
    cases callback <;>
      simp [AuthCallback.run, Step.profile, Call.profile, Call.owner, AuthCallback.completion]
  | sheetGranted completion user =>
    simp [Service.signInWitnGoogleFirestore, Step.profile, Call.profile, Call.owner,
      AuthCallback.completion]
  | readFailed uid callback error =>
    cases callback <;> simp [DocumentCallback.run, Step.profile]
  | read uid callback =>
    cases callback with
    | signInWitnGoogleFirestore user completion =>
      generalize hStep : DocumentCallback.run _ _ _ = step
      rcases DocumentCallback.run_signIn user completion _ _ hStep with
        rfl | rfl | rfl | ⟨email, fullname, url, rfl⟩ <;>
        simp [Step.profile, Call.profile, Call.owner]
    | fetchUserWithFirestore comletion =>
      unfold DocumentCallback.run
      cases hDoc : b.users uid with
      | none => simp [Step.profile]
      | some doc =>
        -- the decoded uid is the stored one, which is the document's id
        have hUid : (User.ofDictionary doc).uid = uid := hOwn uid doc hDoc
        simp [Step.profile, Call.profile, hUid]
  | updateFailed uid data callback error =>
    cases callback <;> simp [UpdateCallback.run, Step.profile, Call.profile, Call.owner]
  | updated uid data callback doc hDoc =>
    cases callback <;> simp [UpdateCallback.run, Step.profile, Call.profile, Call.owner]
  | storeFailed filename data callback error =>
    cases callback <;> simp [StorageCallback.stored, Step.profile, Call.profile, Call.owner]
  | stored filename data callback url =>
    cases callback <;> simp [StorageCallback.stored, Step.profile, Call.profile, Call.owner]
  | locateFailed filename callback error => simp [StorageCallback.run, Step.profile]
  | located filename callback image hImage =>
    cases callback <;>
      simp [StorageCallback.run, Service.registerUserWithFirestore, Step.profile, Call.profile,
        Call.owner, AuthCallback.completion]
  | observed uid callback =>
    cases callback with
    | signInWithGoogle user completion =>
      generalize hStep : EventCallback.run _ _ _ = step
      rcases EventCallback.run_signIn user completion uid _ hStep with
        rfl | rfl | ⟨email, fullname, rfl⟩ <;> simp [Step.profile, Call.profile, Call.owner]
    | fetchUser comletion =>
      unfold EventCallback.run
      cases (b.database uid).bind Node.dictionary <;>
        simp [Step.profile, Call.profile, User.ofRecord]
  | _ => simp [Step.profile, Call.profile, Call.owner]

-- ---------------------------------------------------------------------------
-- The invariant
-- ---------------------------------------------------------------------------

/-- Documents hold their uid, and what is on the client is the signed-in account's. -/
structure App.Own (a : App) : Prop where
  documents : OwnUids a.net.backend.users
  session : ∀ uid ∈ a.net.backend.currentUser, a.Of uid

namespace App.Own

/-- What is presented, displayed or logged does not matter. -/
theorem congr (h : a.Own) (hNet : a'.net = a.net) (hUser : a'.user = a.user)
    (hEdits : a'.edits = a.edits) : a'.Own := by
  obtain ⟨hDocuments, hSession⟩ := h
  refine ⟨hNet ▸ hDocuments, fun uid hUid => ?_⟩
  rw [Of, hNet, hUser, hEdits]
  exact hSession uid (hNet ▸ hUid)

theorem call (h : a.Own) (op : Operation Completion UserCompletion ImageCompletion)
    (hOp : ∀ uid, ∀ u ∈ (op.start (some uid)).profile, a.Of uid → u = uid) : (a.call op).Own where
  documents := h.documents
  session := by
    intro uid hUid
    obtain ⟨hUser, hTasks, hEdits⟩ := h.session uid hUid
    refine ⟨hUser, forall_mem_concat hTasks fun u hu => ?_, hEdits⟩
    have hSession : a.net.backend.currentUser = some uid := hUid
    rw [hSession] at hu
    exact hOp uid u (Task.profile_ofStep hu) ⟨hUser, hTasks, hEdits⟩

theorem setUser (h : a.Own) {user : User}
    (hUser : ∀ uid ∈ a.net.backend.currentUser, user.uid = uid) :
    (a.setUser parses user).Own := by
  have hAssigned : ({ a with user := some user } : App).Own :=
    ⟨h.documents, fun uid hUid =>
      ⟨fun user' hMem => Option.mem_some_iff.mp hMem ▸ hUser uid hUid, (h.session uid hUid).2⟩⟩
  exact hAssigned.congr (by simp) (by simp) (by simp)

theorem wantsToUpdate (h : a.Own) {user : User}
    (hUser : ∀ uid ∈ a.net.backend.currentUser, user.uid = uid) (s : ℕ) :
    (a.wantsToUpdate parses s user).Own := by
  rw [wantsToUpdate_eq]
  have hDismissed : (a.dismissEdit s).Own := h.congr rfl rfl rfl
  exact hDismissed.setUser hUser

theorem updateEdit (h : a.Own) {f : EditProfileViewController → EditProfileViewController}
    (hf : ∀ c, ∀ uid ∈ a.net.backend.currentUser, (∀ user ∈ c.user, user.uid = uid) →
      ∀ user ∈ (f c).user, user.uid = uid) (s : ℕ) : (a.updateEdit s f).Own where
  documents := h.documents
  session := fun uid hUid =>
    ⟨(h.session uid hUid).1, (h.session uid hUid).2.1,
      forall_mem_modify (h.session uid hUid).2.2 fun c hc => hf c uid hUid hc⟩

/-- Edits of the form leave the user of the screen alone. -/
theorem editForm (h : a.Own) (f : EditProfileViewController → EditProfileViewController)
    (hf : ∀ c, (f c).user = c.user) (s : ℕ) : (a.updateEdit s f).Own :=
  h.updateEdit (fun c _ _ hc => (hf c).symm ▸ hc) s

theorem fetchUserWithFirestore (h : a.Own) : a.fetchUserWithFirestore.Own :=
  h.call _ fun _ _ hu _ => (Option.mem_some_iff.mp hu).symm

theorem authenticationComplete (h : a.Own) : a.authenticationComplete.Own := by
  have hDismissed : (({ a with
      log := a.log ++ [.authenticationComplete a.net.backend.currentUser] } : App).dismiss).Own :=
    h.congr rfl rfl rfl
  exact hDismissed.fetchUserWithFirestore

theorem finishAuthentication (h : a.Own) (error : Option Error) :
    (a.finishAuthentication error).Own := by
  have hHidden : (a.showLoader false).Own := h.congr rfl rfl rfl
  cases error with
  | some error => exact h.congr rfl rfl rfl
  | none => exact hHidden.authenticationComplete

theorem complete (h : a.Own) (error : Option Error) {completion : Completion}
    (hProfile : ∀ uid ∈ a.net.backend.currentUser, ∀ u ∈ completion.profile, u = uid) :
    (a.complete parses error completion).Own := by
  cases completion with
  | handleLogin => exact h.finishAuthentication error
  | handleSignUp => exact h.finishAuthentication error
  | handleGoogleLogin => exact h.authenticationComplete
  | handleResetPassword => cases error <;> exact h.congr rfl rfl rfl
  | controllerWantsToDismiss =>
    rw [App.complete]
    cases hUser : a.user with
    | none => exact h
    | some user => exact h.setUser fun uid hUid => (h.session uid hUid).1 user hUser
  | updateUserData s user => exact h.wantsToUpdate (fun uid hUid => hProfile uid hUid _ rfl) s

theorem take (h : a.Own) {step : AppStep}
    (hProfile : ∀ uid ∈ a.net.backend.currentUser, ∀ u ∈ step.profile, u = uid) :
    (a.take parses step).Own := by
  cases step with
  | quit => exact h
  | wait call => exact h
  | trap what => exact h.congr rfl rfl rfl
  | completed completion error => exact h.complete error hProfile
  | fetched comletion user =>
    cases comletion with
    | home => exact h.setUser fun uid hUid => hProfile uid hUid _ rfl
    | edit s =>
      refine h.updateEdit (fun c uid hUid _ user' hMem => ?_) s
      rw [(EditProfileViewController.setUser_fields parses user c).1, Option.mem_some_iff] at hMem
      exact hMem ▸ hProfile uid hUid _ rfl
  | uploaded completion url =>
    have hUploaded : (a.updateEdit completion.1 (.imageUploaded url)).Own :=
      h.editForm (.imageUploaded url) (fun _ => rfl) completion.1
    exact hUploaded.congr rfl rfl rfl

theorem handleDone (h : a.Own) {s : ℕ} {c : EditProfileViewController}
    (hScreen : a.edits[s]? = some c) : (a.handleDone parses s c).Own := by
  have hUser : ∀ uid ∈ a.net.backend.currentUser, ∀ user ∈ c.user, user.uid = uid :=
    fun uid hUid => (h.session uid hUid).2.2 c (List.mem_of_getElem? hScreen)
  -- the session stays the same throughout
  have hBoth : (a.handleDone parses s c).Own ∧
      (a.handleDone parses s c).net.backend = a.net.backend := by
    refine handleDone_keeps (I := fun b => b.Own ∧ b.net.backend = a.net.backend) ⟨h, rfl⟩ ?_
    rintro b ⟨hOwn, hBackend⟩ effect hEffect
    have hEffectUser : ∀ uid ∈ b.net.backend.currentUser, ∀ user ∈ effect.user,
        user.uid = uid := by
      intro uid hUid user hMem
      obtain ⟨user', hUser', hSame⟩ := c.updateUserData_user effect hEffect user hMem
      exact hSame.1.trans (hUser uid (hBackend ▸ hUid) user' hUser')
    cases effect with
    | wantsToUpdate user =>
      refine ⟨hOwn.wantsToUpdate (fun uid hUid => hEffectUser uid hUid user rfl) s, ?_⟩
      rw [save, wantsToUpdate_eq, setUser_net]
      exact hBackend
    | updateUserData user =>
      refine ⟨⟨hOwn.documents, fun uid hUid => ?_⟩, hBackend⟩
      obtain ⟨hHome, hTasks, hEdits⟩ := hOwn.session uid hUid
      refine ⟨hHome, forall_mem_concat hTasks fun u hu => ?_, hEdits⟩
      have hSession : b.net.backend.currentUser = some uid := hUid
      have hProfile := Task.profile_ofStep hu
      rw [hSession] at hProfile
      exact Option.mem_some_iff.mp hProfile ▸ hEffectUser uid hUid user rfl
    | trap what => exact ⟨hOwn.congr rfl rfl rfl, hBackend⟩
  exact hBoth.1

theorem launch {net : AppNet} (hDocuments : OwnUids net.backend.users) (log : List Notice) :
    (App.launch net log).Own := by
  have hLoaded : (loaded net.restart log).Own :=
    ⟨hDocuments, fun uid _ =>
      ⟨by simp [loaded], by simp [loaded, Net.restart], by simp [loaded]⟩⟩
  rw [App.launch, authenticateUSer]
  split
  · exact hLoaded.congr rfl rfl rfl
  · exact hLoaded.fetchUserWithFirestore

/-- The backend answers a call, which may sign an account in. -/
theorem answer (h : a.Own) (hCalls : ∀ task ∈ a.net.tasks, task.KeepsUid) {i : ℕ}
    {call : AppCall} {outcome : Outcome} {backend : Backend} {step : AppStep}
    (hTask : a.net.tasks[i]? = some (.waiting call))
    (hAnswered : Answered a.net.backend call outcome backend step)
    (hAlone : ∀ user, outcome = .signedIn user → a.Of user.uid) :
    (a.answer i backend call step).Own where
  documents := hAnswered.ownUids (hCalls _ (List.mem_of_getElem? hTask)) h.documents
  session := by
    intro uid hUid
    have hOf : a.Of uid := by
      rcases hAnswered.currentUser with hSame | ⟨user, hOutcome, hUser⟩
      · exact h.session uid (hSame ▸ hUid)
      · have hUidEq : user.uid = uid := Option.some.inj (hUser.symm.trans hUid)
        exact hUidEq ▸ hAlone user hOutcome
    refine ⟨hOf.1, forall_mem_set hOf.2.1 fun u hu => ?_, hOf.2.2⟩
    exact hOf.2.1 _ (List.mem_of_getElem? hTask) u (hAnswered.profile h.documents u hu)

theorem receive (h : a.Own) {i : ℕ} {call : AppCall} {step : AppStep}
    (hTask : a.net.tasks[i]? = some (.answered call step)) : (a.receive i step).Own where
  documents := h.documents
  session := by
    intro uid hUid
    obtain ⟨hUser, hTasks, hEdits⟩ := h.session uid hUid
    refine ⟨hUser, forall_mem_set hTasks fun u hu => ?_, hEdits⟩
    exact hTasks _ (List.mem_of_getElem? hTask) u (Task.profile_ofStep hu)

theorem step {e : Event} (h : a.Own) (hCalls : ∀ task ∈ a.net.tasks, task.KeepsUid)
    (hAlone : a.SignsInAlone e) (hStep : a.step parses e = some a') : a'.Own := by
  cases step_stepped hStep with
  | launch => exact launch h.documents a.log
  | handleLogin email password hLogin =>
    have hShown : (a.showLoader true).Own := h.congr rfl rfl rfl
    exact hShown.call _ fun _ _ hu _ => absurd hu (by simp [Operation.start, Service.logUserIn,
      Step.profile, Call.profile, Call.owner, AuthCallback.completion, Completion.profile])
  | handleGoogleLogin hLogin =>
    exact h.call _ fun _ _ hu _ => absurd hu (by simp [Operation.start, Step.profile,
      Call.profile, Call.owner, Completion.profile])
  | handleSignUp profileImage email password fullname filename hLogin =>
    unfold App.handleSignUp
    split
    · exact h.congr rfl rfl rfl
    · split
      · exact h
      · rename_i hData
        have hShown : (a.showLoader true).Own := h.congr rfl rfl rfl
        exact hShown.call _ fun _ _ hu _ => absurd hu (by simp [Operation.start, hData,
          Step.profile, Call.profile, Call.owner, Completion.profile])
  | handleResetPassword email hLogin =>
    unfold App.handleResetPassword
    split
    · exact h
    · have hShown : (a.showLoader true).Own := h.congr rfl rfl rfl
      exact hShown.call _ fun _ _ hu _ => absurd hu (by simp [Operation.start,
        Service.resetPassword, Step.profile, Call.profile, Call.owner, Completion.profile])
  | logout signedOut hHome =>
    unfold App.logout
    split
    · exact ⟨h.documents, fun uid hUid => absurd hUid (by simp [presentLoginController, present,
        Net.setSession])⟩
    · exact h
  | handleEditProfile hHome =>
    have hOpened : (({ a with edits := a.edits ++ [.new] } : App).present
        (.edit a.edits.length)).Own :=
      ⟨h.documents, fun uid hUid => ⟨(h.session uid hUid).1, (h.session uid hUid).2.1,
        forall_mem_concat (h.session uid hUid).2.2 (by simp [EditProfileViewController.new])⟩⟩
    exact hOpened.call _ fun _ _ hu _ => (Option.mem_some_iff.mp hu).symm
  | controllerWantsToDismiss hOnboarding =>
    have hDismissed : a.dismiss.Own := h.congr rfl rfl rfl
    exact hDismissed.call _ fun _ _ hu _ => absurd hu (by simp [Operation.start,
      Service.updateUserHasSeenOnboardingFirestore, Step.profile, Call.profile, Call.owner,
      Completion.profile])
  | handleCancel s hEdit => exact h.congr rfl rfl rfl
  | handleUpdateUserFullname s text hEdit =>
    exact h.editForm (.handleUpdateUserFullname text) (fun _ => rfl) s
  | handleChangeProfilePhoto s hEdit => exact h.congr rfl rfl rfl
  | imagePickerController s image filename hPicker =>
    unfold App.imagePickerController
    split
    · exact h
    · rename_i image
      have hPicked : (a.updateEdit s .imagePicked).Own := h.editForm .imagePicked (fun _ => rfl) s
      have hShown : ((a.updateEdit s .imagePicked).showLoader true).Own := hPicked.congr rfl rfl rfl
      have hCalled := hShown.call (.updateProfileImage image filename (.imagePickerController s))
        fun uid _ hu _ => absurd hu (by
          rw [Operation.start, Service.updateProfileImage]
          cases image.jpegData 30 <;> simp [Step.profile, Call.profile, Call.owner])
      exact hCalled.congr rfl rfl rfl
  | imagePickerControllerDidCancel s hPicker => exact h.congr rfl rfl rfl
  | handleDone s c hEdit hScreen hEnabled hHud => exact h.handleDone hScreen
  | perform i outcome call backend step hTask hAnswered =>
    refine h.answer hCalls hTask hAnswered fun user hOutcome => ?_
    subst hOutcome
    exact hAlone
  | deliver i call step hTask =>
    refine (h.receive hTask).take fun uid hUid u hu => ?_
    exact (h.session uid hUid).2.1 _ (List.mem_of_getElem? hTask) u hu

end App.Own


/--
**The home screen keeps to the session.** Start from documents that hold their
own uid. In every run in which an account signs in only when nothing of another
account is left on the client, the home screen holds the signed-in account's
profile, or none, in every state.
-/
theorem home_keeps_to_session (parses : URLParser) {backend : Backend}
    (hDocuments : OwnUids backend.users) (es : List App.Event)
    (hAlone : Along (App.step parses) App.SignsInAlone (App.start backend) es) :
    Always (App.step parses) App.HomeIsOwn (App.start backend) es := by
  have hOwn : Always (App.step parses)
      (fun a => a.Own ∧ ∀ task ∈ a.net.tasks, task.KeepsUid) (App.start backend) es := by
    refine Always.of_invariant ?_ ⟨App.Own.launch hDocuments [], ?_⟩ hAlone
    · rintro a e a' ⟨hOwn, hCalls⟩ hCond hStep
      refine ⟨hOwn.step hCalls hCond hStep, App.step_tasks ?_ ?_ ?_ hCalls hStep⟩
      · exact fun session op => Task.keepsUid_ofStep (op.start_keepsUid session)
      · exact fun _ _ _ _ step hAnswered _ => show step.KeepsUid from hAnswered.keepsUid
      · exact fun _ step hStep => Task.keepsUid_ofStep (show step.KeepsUid from hStep)
    · exact App.start_tasks fun session op => Task.keepsUid_ofStep (op.start_keepsUid session)
  exact hOwn.mono fun a h uid hUid => (h.1.session uid hUid).1

/-- Ann logs out, the process is started again, and Bob logs in. -/
theorem relaunched_keeps_to_session :
    Always (App.step fun _ => true) App.HomeIsOwn (App.start twoAccounts)
      [.perform 0 .success, .deliver 0, .logout true, .launch, .handleLogin "bob@mail" "secret",
       .perform 0 (.signedIn ⟨"b", some "bob@mail", none, none⟩), .deliver 0,
       .perform 1 .success, .deliver 1] := by
  refine home_keeps_to_session _ ?_ _ (by decide)
  intro uid doc hDoc
  have hUsers : twoAccounts.users uid = some doc := hDoc
  simp only [twoAccounts, Function.update_apply] at hUsers
  split_ifs at hUsers with hAnn hBob
  · exact hAnn ▸ Option.some.inj hUsers ▸ rfl
  · exact hBob ▸ Option.some.inj hUsers ▸ rfl

end AggroApp
