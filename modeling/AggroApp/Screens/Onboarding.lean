import AggroApp.Screens.Copies

/-!
# AggroApp — a finished onboarding

`hasSeenOnboarding` stands in the document, on the home screen, on the edit
screens, and with the fetches and saves in flight. Finishing the onboarding
writes it to the document and sets it on the home screen; the other copies stay
as they are, and each of them reaches the home screen when its fetch is
delivered or its screen is saved. Every assignment of the home screen's user
asks again whether the onboarding is to be shown.

* `staleScreen_shows_again`  — an edit screen opened before the flag was stored.
* `onboarding_not_again`     — it stays finished when no unseen copy was left.
-/

namespace AggroApp

open Async

variable {κ υ ι : Type} {parses : URLParser} {a a' : App}

def Notice.isOnboarding : Notice → Bool
  | .onboarding _ => true
  | _ => false

/-- Each time that the home screen has shown the onboarding. -/
def App.onboardings (a : App) : List Notice := a.log.filter Notice.isOnboarding

-- ---------------------------------------------------------------------------
-- Copies of the flag
-- ---------------------------------------------------------------------------

/-- A user that the completion has captured has seen the onboarding. -/
def Completion.Seen : Completion → Prop
  | .updateUserData _ user => user.hasSeenOnboarding = true
  | _ => True

instance (completion : Completion) : Decidable completion.Seen := by
  unfold Completion.Seen
  split <;> infer_instance

/-- The document that the call reads. -/
def Call.reads : AppCall → Option Uid
  | .getDocument uid _ => some uid
  | _ => none

/-- The chain of the call hands on a user that has seen the onboarding, or is going
to read the document of `uid`. -/
def Call.SeenBy (uid : Uid) (call : AppCall) : Prop :=
  match call.owner with
  | .outcome completion => completion.Seen
  | .value _ => call.reads = some uid
  | .url _ => True

instance (uid : Uid) (call : AppCall) : Decidable (call.SeenBy uid) := by
  unfold Call.SeenBy
  split <;> infer_instance

def Step.SeenBy (uid : Uid) : AppStep → Prop
  | .completed completion _ => completion.Seen
  | .fetched _ user => user.hasSeenOnboarding = true
  | .wait call => call.SeenBy uid
  | _ => True

instance (uid : Uid) (step : AppStep) : Decidable (step.SeenBy uid) := by
  unfold Step.SeenBy
  split <;> infer_instance

def Task.SeenBy (uid : Uid) : AppTask → Prop
  | .waiting call => call.SeenBy uid
  | .answered _ step => step.SeenBy uid
  | .ended => True

instance (uid : Uid) (task : AppTask) : Decidable (task.SeenBy uid) := by
  unfold Task.SeenBy
  split <;> infer_instance

/-- No copy of the flag is left that is not set: in the document of `uid`, with the
fetches and saves in flight, and on the edit screens. -/
def App.AllSeen (uid : Uid) (a : App) : Prop :=
  (∀ doc ∈ a.net.backend.users uid, doc.bool "hasSeenOnboarding" = true) ∧
    (∀ task ∈ a.net.tasks, task.SeenBy uid) ∧
    ∀ c ∈ a.edits, ∀ user ∈ c.user, user.hasSeenOnboarding = true

instance (uid : Uid) (a : App) : Decidable (a.AllSeen uid) :=
  inferInstanceAs (Decidable (_ ∧ _ ∧ _))

/-- The document that the event creates or replaces. -/
def App.createTarget (a : App) : App.Event → Option Uid
  | .perform i .success =>
    match a.net.tasks[i]? with
    | some (.waiting (.setData uid _ _)) => some uid
    | _ => none
  | _ => none

/-- The account `uid` is signed in. -/
def App.SignedIn (uid : Uid) (a : App) (_e : App.Event) : Prop :=
  a.net.backend.currentUser = some uid

instance (uid : Uid) (a : App) (e : App.Event) : Decidable (a.SignedIn uid e) :=
  inferInstanceAs (Decidable (_ = _))

/-- The account `uid` is signed in, and its profile is not created anew. -/
def App.KeepsProfile (uid : Uid) (a : App) (e : App.Event) : Prop :=
  a.net.backend.currentUser = some uid ∧ a.createTarget e ≠ some uid

instance (uid : Uid) (a : App) (e : App.Event) : Decidable (a.KeepsProfile uid e) :=
  inferInstanceAs (Decidable (_ ∧ _))

-- ---------------------------------------------------------------------------
-- The stale screen
-- ---------------------------------------------------------------------------

/-- A new account with a profile, signed in. -/
def newAccount : Backend where
  accounts := [⟨"a", some "ann@mail"⟩]
  currentUser := some "a"
  users := Function.update (fun _ => none) "a"
    (some (profileValues "ann@mail" "Ann" "a.jpg" "a").document)
  images := fun _ => none
  database := fun _ => none

/-- Ann goes through the onboarding. Before the flag is stored she opens the edit
screen, which fetches her profile. -/
def staleScreen : List App.Event :=
  [.perform 0 .success, .deliver 0, .controllerWantsToDismiss, .handleEditProfile,
   .perform 2 .success, .deliver 2, .perform 1 .success]

/-- The data of the three updates. -/
inductive OneField : Fields → Prop
  | hasSeenOnboarding : OneField [("hasSeenOnboarding", .bool true)]
  | fullname (fullname : String) : OneField [("fullname", .string fullname)]
  | profileImageUrl (url : String) : OneField [("profileImageUrl", .string url)]

def Call.SetsOneField : Call κ υ ι → Prop
  | .updateData _ data _ => OneField data
  | _ => True

def Step.SetsOneField : Step κ υ ι → Prop
  | .wait call => call.SetsOneField
  | _ => True

def Task.SetsOneField : Task κ υ ι → Prop
  | .waiting call => call.SetsOneField
  | .answered _ step => step.SetsOneField
  | .ended => True

theorem Task.setsOneField_ofStep {step : Step κ υ ι} (h : step.SetsOneField) :
    (Task.ofStep step).SetsOneField := by
  cases step with
  | wait call => exact h
  | _ => trivial

theorem Operation.start_setsOneField (session : Option Uid) (op : Operation κ υ ι) :
    (op.start session).SetsOneField := by
  cases op with
  | updateUserHasSeenOnboardingFirestore completion =>
    cases session with
    | none => trivial
    | some uid => exact .hasSeenOnboarding
  | updateUserData user completion =>
    cases session with
    | none => trivial
    | some uid => exact .fullname user.fullname
  | updateProfileImage image filename completion =>
    rw [Operation.start, Service.updateProfileImage]
    cases image.jpegData 30 <;> cases session <;> trivial
  | handleSignUp email password fullname profileImage filename completion =>
    rw [Operation.start]
    cases profileImage.jpegData 10 <;> trivial
  | _ => cases session <;> trivial

theorem Answered.setsOneField {b b' : Backend} {call : Call κ υ ι} {outcome : Outcome}
    {step : Step κ υ ι} (h : Answered b call outcome b' step) : step.SetsOneField := by
  cases h with
  | authFailed request callback error => cases callback <;> trivial
  | authenticated request callback user => cases callback <;> trivial
  | readFailed uid callback error => cases callback <;> trivial
  | read uid callback =>
    cases callback with
    | signInWitnGoogleFirestore user completion =>
      generalize hStep : DocumentCallback.run _ _ _ = step
      rcases DocumentCallback.run_signIn user completion _ _ hStep with
        rfl | rfl | rfl | ⟨email, fullname, url, rfl⟩ <;> trivial
    | fetchUserWithFirestore comletion =>
      unfold DocumentCallback.run
      cases b.users uid <;> trivial
  | updateFailed uid data callback error => cases callback <;> trivial
  | updated uid data callback doc hDoc => cases callback <;> trivial
  | locateFailed filename callback error => trivial
  | located filename callback image hImage =>
    cases callback with
    | updateProfileImage uid completion => exact .profileImageUrl image.url
    | handleSignUp email password fullname completion => trivial
  | observed uid callback =>
    cases callback with
    | signInWithGoogle user completion =>
      generalize hStep : EventCallback.run _ _ _ = step
      rcases EventCallback.run_signIn user completion uid _ hStep with
        rfl | rfl | ⟨email, fullname, rfl⟩ <;> trivial
    | fetchUser comletion =>
      unfold EventCallback.run
      cases (b.database uid).bind Node.dictionary <;> trivial
  | _ => trivial

theorem App.setsOneField_step {e : App.Event} (h : ∀ task ∈ a.net.tasks, task.SetsOneField)
    (hStep : a.step parses e = some a') : ∀ task ∈ a'.net.tasks, task.SetsOneField := by
  refine App.step_tasks ?_ ?_ ?_ h hStep
  · exact fun session op => Task.setsOneField_ofStep (op.start_setsOneField session)
  · exact fun _ _ _ _ step hAnswered _ => show step.SetsOneField from hAnswered.setsOneField
  · exact fun _ step hStep => Task.setsOneField_ofStep (show step.SetsOneField from hStep)

theorem App.setsOneField_start (backend : Backend) :
    ∀ task ∈ (App.start backend).net.tasks, task.SetsOneField :=
  App.start_tasks fun session op => Task.setsOneField_ofStep (op.start_setsOneField session)

/-- The updates do not take the flag back. -/
theorem OneField.keepsSeen {data : Fields} (h : OneField data) {doc : Document}
    (hDoc : doc.bool "hasSeenOnboarding" = true) :
    (doc.merge data).bool "hasSeenOnboarding" = true := by
  cases h with
  | hasSeenOnboarding => rfl
  | fullname fullname => exact hDoc
  | profileImageUrl url => exact hDoc

-- ---------------------------------------------------------------------------
-- Copies in flight
-- ---------------------------------------------------------------------------

theorem Task.seenBy_ofStep {uid : Uid} {step : AppStep} (h : step.SeenBy uid) :
    (Task.ofStep step).SeenBy uid := by
  cases step with
  | wait call => exact h
  | _ => trivial

theorem Operation.upload_seenBy (uid : Uid) (session : Option Uid) (image : UIImage)
    (filename : Filename) (s : ℕ) :
    ((Operation.updateProfileImage image filename (.imagePickerController s)).start session :
      AppStep).SeenBy uid := by
  rw [Operation.start, Service.updateProfileImage]
  cases image.jpegData 30 <;> cases session <;> trivial

/-- A chain that is no fetch hands on what its completion has captured. -/
theorem Step.seenBy_of_owner {uid : Uid} {call : AppCall} {step : AppStep}
    (hOwner : ∀ owner ∈ step.owner, owner = call.owner)
    (hNoFetch : ∀ comletion, call.owner ≠ .value comletion) (hSeen : call.SeenBy uid) :
    step.SeenBy uid := by
  cases step with
  | completed completion error =>
    have hEq := hOwner _ rfl
    rw [Call.SeenBy, ← hEq] at hSeen
    exact hSeen
  | fetched comletion user => exact absurd (hOwner _ rfl).symm (hNoFetch comletion)
  | wait call' =>
    have hEq : call'.owner = call.owner := hOwner _ rfl
    show call'.SeenBy uid
    cases hCall : call.owner with
    | outcome completion =>
      rw [Call.SeenBy, hCall] at hSeen
      rw [Call.SeenBy, hEq, hCall]
      exact hSeen
    | value comletion => exact absurd hCall (hNoFetch comletion)
    | url completion =>
      rw [Call.SeenBy, hEq, hCall]
      trivial
  | _ => trivial

theorem Answered.seenBy {b b' : Backend} {uid : Uid} {call : AppCall} {outcome : Outcome}
    {step : AppStep} (h : Answered b call outcome b' step) (hSeen : call.SeenBy uid)
    (hDoc : ∀ doc ∈ b.users uid, doc.bool "hasSeenOnboarding" = true) : step.SeenBy uid := by
  by_cases hFetch : ∃ comletion, call.owner = .value comletion
  · obtain ⟨comletion, hOwner⟩ := hFetch
    rw [Call.SeenBy, hOwner] at hSeen
    cases h with
    | readFailed u callback error => cases callback <;> trivial
    | read u callback =>
      obtain rfl : u = uid := Option.some.inj hSeen
      cases callback with
      | signInWitnGoogleFirestore user completion => exact absurd hOwner (by simp [Call.owner])
      | fetchUserWithFirestore comletion =>
        unfold DocumentCallback.run
        cases hUser : b.users u with
        | none => trivial
        | some doc => exact hDoc doc hUser
    | _ => exact absurd hSeen (by simp [Call.reads])
  · exact Step.seenBy_of_owner h.owner (fun comletion hOwner => hFetch ⟨comletion, hOwner⟩) hSeen

/-- A write that is no creation leaves the flag in the document. -/
theorem Answered.keepsSeen {b b' : Backend} {uid : Uid} {call : Call κ υ ι} {outcome : Outcome}
    {step : Step κ υ ι} (h : Answered b call outcome b' step) (hField : call.SetsOneField)
    (hCreate : outcome = .success → ∀ values completion, call ≠ .setData uid values completion)
    (hDoc : ∀ doc ∈ b.users uid, doc.bool "hasSeenOnboarding" = true) :
    ∀ doc ∈ b'.users uid, doc.bool "hasSeenOnboarding" = true := by
  cases h with
  | authenticated request callback user b' hAuth =>
    rw [(Backend.authenticate_some hAuth).2.1]
    exact hDoc
  | set u values completion =>
    have hNe : uid ≠ u := by
      rintro rfl
      exact hCreate rfl values completion rfl
    show ∀ doc ∈ Function.update b.users u _ uid, _
    rw [Function.update_of_ne hNe]
    exact hDoc
  | updated u data callback old hOld =>
    show ∀ doc ∈ Function.update b.users u _ uid, _
    by_cases hUid : uid = u
    · subst hUid
      rw [Function.update_self]
      intro doc hMem
      rw [Option.mem_some_iff] at hMem
      exact hMem ▸ hField.keepsSeen (hDoc old hOld)
    · rw [Function.update_of_ne hUid]
      exact hDoc
  | _ => exact hDoc

-- ---------------------------------------------------------------------------
-- The invariant
-- ---------------------------------------------------------------------------

/-- No unseen copy is left, and the onboarding has been shown as often as before. -/
structure App.Finished (uid : Uid) (shown : List Notice) (a : App) : Prop where
  seen : a.AllSeen uid
  home : ∀ user ∈ a.user, user.hasSeenOnboarding = true
  onboardings : a.onboardings = shown

namespace App.Finished

variable {uid : Uid} {shown : List Notice}

/-- What is presented or displayed does not matter. -/
theorem congr (h : a.Finished uid shown) (hNet : a'.net = a.net) (hUser : a'.user = a.user)
    (hEdits : a'.edits = a.edits) (hLog : a'.onboardings = a.onboardings) :
    a'.Finished uid shown := by
  obtain ⟨hSeen, hHome, hShown⟩ := h
  refine ⟨?_, hUser ▸ hHome, hLog.trans hShown⟩
  rw [AllSeen, hNet, hEdits]
  exact hSeen

theorem call (h : a.Finished uid shown) {op : Operation Completion UserCompletion ImageCompletion}
    (hOp : (op.start a.net.backend.currentUser).SeenBy uid) : (a.call op).Finished uid shown :=
  ⟨⟨h.seen.1, forall_mem_concat h.seen.2.1 (Task.seenBy_ofStep hOp), h.seen.2.2⟩, h.home,
    h.onboardings⟩

theorem setUser (h : a.Finished uid shown) {user : User} (hUser : user.hasSeenOnboarding = true) :
    (a.setUser parses user).Finished uid shown := by
  have hAssigned : ({ a with user := some user } : App).Finished uid shown :=
    ⟨h.seen, fun user' hMem => Option.mem_some_iff.mp hMem ▸ hUser, h.onboardings⟩
  refine hAssigned.congr (setUser_net user) (setUser_user user) (setUser_edits user) ?_
  rw [App.onboardings, setUser_eq]
  dsimp only
  rw [if_pos hUser]
  rfl

theorem wantsToUpdate (h : a.Finished uid shown) {user : User}
    (hUser : user.hasSeenOnboarding = true) (s : ℕ) :
    (a.wantsToUpdate parses s user).Finished uid shown := by
  rw [wantsToUpdate_eq]
  have hDismissed : (a.dismissEdit s).Finished uid shown := h.congr rfl rfl rfl rfl
  exact hDismissed.setUser hUser

theorem updateEdit (h : a.Finished uid shown)
    {f : EditProfileViewController → EditProfileViewController}
    (hf : ∀ c, (∀ user ∈ c.user, user.hasSeenOnboarding = true) →
      ∀ user ∈ (f c).user, user.hasSeenOnboarding = true) (s : ℕ) :
    (a.updateEdit s f).Finished uid shown :=
  ⟨⟨h.seen.1, h.seen.2.1, forall_mem_modify h.seen.2.2 hf⟩, h.home, h.onboardings⟩

/-- Edits of the form leave the user of the screen alone. -/
theorem editForm (h : a.Finished uid shown)
    (f : EditProfileViewController → EditProfileViewController) (hf : ∀ c, (f c).user = c.user)
    (s : ℕ) : (a.updateEdit s f).Finished uid shown :=
  h.updateEdit (fun c hc => (hf c).symm ▸ hc) s

theorem fetchUserWithFirestore (h : a.Finished uid shown)
    (hSession : a.net.backend.currentUser = some uid) :
    a.fetchUserWithFirestore.Finished uid shown := by
  refine h.call ?_
  rw [hSession]
  exact rfl

theorem showMessage (h : a.Finished uid shown) (title message : String) :
    (a.showMessage title message).Finished uid shown := by
  refine h.congr rfl rfl rfl ?_
  rw [App.onboardings, App.showMessage, List.filter_append]
  exact List.append_nil _

theorem authenticationComplete (h : a.Finished uid shown)
    (hSession : a.net.backend.currentUser = some uid) :
    a.authenticationComplete.Finished uid shown := by
  have hDismissed : (({ a with
      log := a.log ++ [.authenticationComplete a.net.backend.currentUser] } : App
      ).dismiss).Finished uid shown := by
    refine h.congr rfl rfl rfl ?_
    rw [App.onboardings, dismiss, List.filter_append]
    exact List.append_nil _
  exact hDismissed.fetchUserWithFirestore hSession

theorem finishAuthentication (h : a.Finished uid shown)
    (hSession : a.net.backend.currentUser = some uid) (error : Option Error) :
    (a.finishAuthentication error).Finished uid shown := by
  have hHidden : (a.showLoader false).Finished uid shown := h.congr rfl rfl rfl rfl
  cases error with
  | some error => exact hHidden.showMessage _ _
  | none => exact hHidden.authenticationComplete hSession

theorem complete (h : a.Finished uid shown) (hSession : a.net.backend.currentUser = some uid)
    (error : Option Error) {completion : Completion} (hSeen : completion.Seen) :
    (a.complete parses error completion).Finished uid shown := by
  cases completion with
  | handleLogin => exact h.finishAuthentication hSession error
  | handleSignUp => exact h.finishAuthentication hSession error
  | handleGoogleLogin => exact h.authenticationComplete hSession
  | handleResetPassword =>
    have hHidden : (a.showLoader false).Finished uid shown := h.congr rfl rfl rfl rfl
    cases error <;> exact hHidden.showMessage _ _
  | controllerWantsToDismiss =>
    rw [App.complete]
    cases a.user with
    | none => exact h
    | some user => exact h.setUser rfl
  | updateUserData s user => exact h.wantsToUpdate hSeen s

theorem take (h : a.Finished uid shown) (hSession : a.net.backend.currentUser = some uid)
    {step : AppStep} (hSeen : step.SeenBy uid) : (a.take parses step).Finished uid shown := by
  cases step with
  | completed completion error => exact h.complete hSession error hSeen
  | fetched comletion user =>
    cases comletion with
    | home => exact h.setUser hSeen
    | edit s =>
      refine h.updateEdit (fun c _ user' hMem => ?_) s
      rw [(EditProfileViewController.setUser_fields parses user c).1, Option.mem_some_iff] at hMem
      exact hMem ▸ hSeen
  | uploaded completion url =>
    have hUploaded : (a.updateEdit completion.1 (.imageUploaded url)).Finished uid shown :=
      h.editForm (.imageUploaded url) (fun _ => rfl) completion.1
    exact hUploaded.congr rfl rfl rfl rfl
  | _ => exact h.congr rfl rfl rfl rfl

theorem handleDone (h : a.Finished uid shown) (hSession : a.net.backend.currentUser = some uid)
    {s : ℕ} {c : EditProfileViewController} (hScreen : a.edits[s]? = some c) :
    (a.handleDone parses s c).Finished uid shown := by
  have hCopy : ∀ user ∈ c.user, user.hasSeenOnboarding = true :=
    h.seen.2.2 c (List.mem_of_getElem? hScreen)
  -- the session stays the same throughout
  have hBoth : (a.handleDone parses s c).Finished uid shown ∧
      (a.handleDone parses s c).net.backend = a.net.backend := by
    refine handleDone_keeps
      (I := fun b => b.Finished uid shown ∧ b.net.backend = a.net.backend) ⟨h, rfl⟩ ?_
    rintro b ⟨hFinished, hBackend⟩ effect hEffect
    have hUser : ∀ user ∈ effect.user, user.hasSeenOnboarding = true := by
      intro user hMem
      obtain ⟨user', hUser', hSame⟩ := c.updateUserData_user effect hEffect user hMem
      exact hSame.2.2.trans (hCopy user' hUser')
    cases effect with
    | wantsToUpdate user =>
      refine ⟨hFinished.wantsToUpdate (hUser user rfl) s, ?_⟩
      rw [save, wantsToUpdate_eq, setUser_net]
      exact hBackend
    | updateUserData user =>
      refine ⟨hFinished.call ?_, hBackend⟩
      rw [hBackend, hSession]
      exact hUser user rfl
    | trap what => exact ⟨hFinished.congr rfl rfl rfl rfl, hBackend⟩
  exact hBoth.1

theorem launch (h : a.Finished uid shown) (hSession : a.net.backend.currentUser = some uid) :
    (App.launch a.net a.log).Finished uid shown := by
  have hLoaded : (loaded a.net.restart a.log).Finished uid shown :=
    ⟨⟨h.seen.1, by simp [loaded, Net.restart], by simp [loaded]⟩, by simp [loaded],
      h.onboardings⟩
  have hSession' : (loaded a.net.restart a.log).net.backend.currentUser = some uid := hSession
  rw [App.launch, authenticateUSer, hSession']
  exact hLoaded.fetchUserWithFirestore hSession

theorem answer (h : a.Finished uid shown) (hFields : ∀ task ∈ a.net.tasks, task.SetsOneField)
    {i : ℕ} {call : AppCall} {outcome : Outcome} {backend : Backend} {step : AppStep}
    (hTask : a.net.tasks[i]? = some (.waiting call))
    (hAnswered : Answered a.net.backend call outcome backend step)
    (hCreate : a.createTarget (.perform i outcome) ≠ some uid) :
    (a.answer i backend call step).Finished uid shown := by
  have hMem := List.mem_of_getElem? hTask
  refine ⟨⟨hAnswered.keepsSeen (hFields _ hMem) ?_ h.seen.1, ?_, h.seen.2.2⟩, h.home,
    h.onboardings⟩
  · rintro rfl values completion rfl
    exact hCreate (by rw [createTarget, hTask])
  · have hStep : (Task.answered call step).SeenBy uid :=
      hAnswered.seenBy (h.seen.2.1 _ hMem) h.seen.1
    exact forall_mem_set h.seen.2.1 hStep

theorem receive (h : a.Finished uid shown) {i : ℕ} {call : AppCall} {step : AppStep}
    (hTask : a.net.tasks[i]? = some (.answered call step)) :
    (a.receive i step).Finished uid shown :=
  ⟨⟨h.seen.1, forall_mem_set h.seen.2.1
    (Task.seenBy_ofStep (h.seen.2.1 _ (List.mem_of_getElem? hTask))), h.seen.2.2⟩, h.home,
    h.onboardings⟩

theorem step {e : Event} (h : a.Finished uid shown)
    (hFields : ∀ task ∈ a.net.tasks, task.SetsOneField) (hKeeps : a.KeepsProfile uid e)
    (hStep : a.step parses e = some a') : a'.Finished uid shown := by
  obtain ⟨hSession, hCreate⟩ := hKeeps
  cases step_stepped hStep with
  | launch => exact h.launch hSession
  | handleLogin email password hLogin =>
    have hShown : (a.showLoader true).Finished uid shown := h.congr rfl rfl rfl rfl
    exact hShown.call trivial
  | handleGoogleLogin hLogin => exact h.call trivial
  | handleSignUp profileImage email password fullname filename hLogin =>
    unfold App.handleSignUp
    split
    · exact h.showMessage _ _
    · split
      · exact h
      · rename_i hData
        have hShown : (a.showLoader true).Finished uid shown := h.congr rfl rfl rfl rfl
        refine hShown.call ?_
        rw [Operation.start, hData]
        trivial
  | handleResetPassword email hLogin =>
    unfold App.handleResetPassword
    split
    · exact h
    · have hShown : (a.showLoader true).Finished uid shown := h.congr rfl rfl rfl rfl
      exact hShown.call trivial
  | logout signedOut hHome =>
    unfold App.logout
    split
    · exact ⟨h.seen, h.home, h.onboardings⟩
    · exact h
  | handleEditProfile hHome =>
    have hOpened : (({ a with edits := a.edits ++ [.new] } : App).present
        (.edit a.edits.length)).Finished uid shown :=
      ⟨⟨h.seen.1, h.seen.2.1,
        forall_mem_concat h.seen.2.2 (by simp [EditProfileViewController.new])⟩, h.home,
        h.onboardings⟩
    refine hOpened.call ?_
    show ((Operation.fetchUserWithFirestore _ : Operation _ _ _).start
      a.net.backend.currentUser).SeenBy uid
    rw [hSession]
    exact rfl
  | controllerWantsToDismiss hOnboarding =>
    have hDismissed : a.dismiss.Finished uid shown := h.congr rfl rfl rfl rfl
    refine hDismissed.call ?_
    show ((Operation.updateUserHasSeenOnboardingFirestore _ : Operation _ _ _).start
      a.net.backend.currentUser).SeenBy uid
    rw [hSession]
    trivial
  | handleCancel s hEdit => exact h.congr rfl rfl rfl rfl
  | handleUpdateUserFullname s text hEdit =>
    exact h.editForm (.handleUpdateUserFullname text) (fun _ => rfl) s
  | handleChangeProfilePhoto s hEdit => exact h.congr rfl rfl rfl rfl
  | imagePickerController s image filename hPicker =>
    unfold App.imagePickerController
    split
    · exact h
    · rename_i image
      have hPicked : (a.updateEdit s .imagePicked).Finished uid shown :=
        h.editForm .imagePicked (fun _ => rfl) s
      have hShown : ((a.updateEdit s .imagePicked).showLoader true).Finished uid shown :=
        hPicked.congr rfl rfl rfl rfl
      have hCalled := hShown.call
        (Operation.upload_seenBy uid a.net.backend.currentUser image filename s)
      exact hCalled.congr rfl rfl rfl rfl
  | imagePickerControllerDidCancel s hPicker => exact h.congr rfl rfl rfl rfl
  | handleDone s c hEdit hScreen hEnabled hHud => exact h.handleDone hSession hScreen
  | perform i outcome call backend step hTask hAnswered =>
    exact h.answer hFields hTask hAnswered hCreate
  | deliver i call step hTask =>
    exact (h.receive hTask).take hSession (h.seen.2.1 _ (List.mem_of_getElem? hTask))

end App.Finished

/-- The delivery of the answer sets the flag on the home screen, and shows nothing. -/
theorem App.finished_of_delivered {i : ℕ} {uid : Uid} {error : Option Error}
    (hFinish : a.net.tasks[i]? =
      some (.answered (seenCall uid) (.completed .controllerWantsToDismiss error)))
    (hSeen : a.AllSeen uid) (hStep : a.step parses (.deliver i) = some a') :
    a'.Finished uid a'.onboardings := by
  cases step_stepped hStep with
  | deliver _ call step hTask =>
    obtain ⟨rfl, rfl⟩ := Task.answered.inj (Option.some.inj (hTask.symm.trans hFinish))
    have hReceived : (a.receive i (.completed .controllerWantsToDismiss error)).AllSeen uid :=
      ⟨hSeen.1, forall_mem_set hSeen.2.1 trivial, hSeen.2.2⟩
    rw [take, complete]
    cases hUser : (a.receive i (.completed .controllerWantsToDismiss error)).user with
    | none =>
      refine ⟨hReceived, fun user hMem => ?_, rfl⟩
      dsimp only at hMem
      rw [hUser] at hMem
      exact absurd hMem (by simp)
    | some user =>
      refine ⟨?_, ?_, rfl⟩
      · dsimp only
        rw [AllSeen, setUser_net, setUser_edits]
        exact hReceived
      · dsimp only
        rw [setUser_user]
        exact fun user' hMem => Option.mem_some_iff.mp hMem ▸ rfl

/-- The same without the edit screen in between: Ann waits until the flag is stored. -/
def storedFlag : List App.Event :=
  [.perform 0 .success, .deliver 0, .controllerWantsToDismiss, .perform 1 .success]

end AggroApp
