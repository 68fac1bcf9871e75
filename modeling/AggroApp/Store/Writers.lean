import AggroApp.Store.Tree

/-!
# AggroApp — who writes a document

A document is written by the operations that were started, or signed in, under its
account. Two consequences for the document of an account `uid`, whatever operations
are called meanwhile and however they interleave:

* nobody is signed in to the account and none of its operations is in flight: the
  document stays as it is, until somebody signs in (`unattended_kept`);
* the account exists and its document was never written: the document stays missing
  and nobody is handed a profile, until a sign-in with a credential makes up for it.
  Signing in with the password does not, nor does signing up again (`Lost.step`).
-/

namespace AggroApp

open Async

variable {κ υ ι : Type} {uid : Uid}

-- ---------------------------------------------------------------------------
-- An account that nobody is signed in to
-- ---------------------------------------------------------------------------

/-- The chain of the call may write the document of `uid`, with no further sign-in. -/
def Call.Targets (uid : Uid) : Call κ υ ι → Prop
  | .getDocument _ (.signInWitnGoogleFirestore user _) => user.uid = uid
  | .setData account _ _ | .updateData account _ _ => account = uid
  | .putData _ _ (.updateProfileImage account _) => account = uid
  | .downloadURL _ (.updateProfileImage account _) => account = uid
  | _ => False

def Step.Targets (uid : Uid) : Step κ υ ι → Prop
  | .wait call => call.Targets uid
  | _ => False

def Task.Targets (uid : Uid) : Task κ υ ι → Prop
  | .waiting call => call.Targets uid
  | .answered _ step => step.Targets uid
  | .ended => False

/-- The outcome signs in to `uid`. -/
def Outcome.SignsIn (uid : Uid) : Outcome → Prop
  | .signedIn user => user.uid = uid
  | _ => False

theorem Task.targets_ofStep {step : Step κ υ ι} (h : (Task.ofStep step).Targets uid) :
    step.Targets uid := by
  cases step with
  | wait call => exact h
  | _ => exact h.elim

theorem AuthCallback.run_targets {callback : AuthCallback κ} {result : Option AuthUser}
    {error : Option Error} (hOther : ∀ user ∈ result, user.uid ≠ uid) :
    ¬ (callback.run result error : Step κ υ ι).Targets uid := by
  cases callback <;> cases error <;> cases result <;>
    simp_all [AuthCallback.run, Step.Targets, Call.Targets]

/-- An operation targets the account that it was started under. -/
theorem Operation.start_targets {session : Option Uid} (hSession : session ≠ some uid)
    (op : Operation κ υ ι) : ¬ (op.start session).Targets uid := by
  have hOther : ∀ account ∈ session, account ≠ uid := by
    rintro account hMem rfl
    exact hSession hMem
  cases op with
  | handleSignUp email password fullname profileImage filename completion =>
    simp only [Operation.start]
    split <;> simp [Step.Targets, Call.Targets]
  | updateProfileImage image filename completion =>
    simp only [Operation.start, Service.updateProfileImage]
    split
    · simp [Step.Targets]
    · cases session with
      | none => simp [Step.Targets]
      | some account => exact hOther account rfl
  | updateUserData | updateUserHasSeenOnboardingFirestore =>
    cases session with
    | none => simp [Operation.start, Service.updateUserData,
        Service.updateUserHasSeenOnboardingFirestore, Step.Targets]
    | some account => exact hOther account rfl
  | fetchUser | fetchUserWithFirestore | updateUserHasSeenOnboarding =>
    cases session <;> simp [Operation.start, Service.fetchUser, Service.fetchUserWithFirestore,
      Service.updateUserHasSeenOnboarding, Step.Targets, Call.Targets]
  | _ => simp [Operation.start, Service.logUserIn, Service.registerUserWithFirebase,
      Service.registerUserWithFirestore, Service.signInWithGoogle,
      Service.signInWitnGoogleFirestore, Service.resetPassword, Step.Targets, Call.Targets]

/-- A call of another account that does not sign in to `uid` leaves its document alone,
and so does what comes after it. -/
theorem Answered.targets {b b' : Backend} {call : Call κ υ ι} {outcome : Outcome}
    {step : Step κ υ ι} (h : Answered b call outcome b' step) (hCall : ¬ call.Targets uid)
    (hOutcome : ¬ outcome.SignsIn uid) : b'.users uid = b.users uid ∧ ¬ step.Targets uid := by
  have hWrite : ∀ (account : Uid) (doc : Document), account ≠ uid →
      Function.update b.users account (some doc) uid = b.users uid :=
    fun account doc hOther => Function.update_of_ne hOther.symm _ b.users
  cases h with
  | authFailed request callback error => exact ⟨rfl, AuthCallback.run_targets (by simp)⟩
  | authenticated request callback user b' hAuth =>
    obtain ⟨-, hUsers, -, -⟩ := Backend.authenticate_some hAuth
    refine ⟨congrFun hUsers uid, AuthCallback.run_targets fun user' hMem => ?_⟩
    exact Option.mem_some_iff.mp hMem ▸ hOutcome
  | readFailed account callback error => exact ⟨rfl, by cases callback <;> exact id⟩
  | read account callback =>
    refine ⟨rfl, ?_⟩
    cases callback with
    | signInWitnGoogleFirestore user completion =>
      generalize hStep : DocumentCallback.run _ _ _ = step
      rcases DocumentCallback.run_signIn user completion _ none hStep with
        rfl | rfl | rfl | ⟨email, fullname, url, rfl⟩
      · exact id
      · exact id
      · exact id
      · exact hCall
    | fetchUserWithFirestore comletion =>
      cases hDoc : b.users account <;> exact id
  | set account values completion => exact ⟨hWrite account _ hCall, id⟩
  | updateFailed account data callback error => exact ⟨rfl, by cases callback <;> exact id⟩
  | updated account data callback doc hDoc =>
    exact ⟨hWrite account _ hCall, by cases callback <;> exact id⟩
  | storeFailed filename data callback error => exact ⟨rfl, by cases callback <;> exact hCall⟩
  | stored filename data callback url => exact ⟨rfl, by cases callback <;> exact hCall⟩
  | locateFailed filename callback error => exact ⟨rfl, by cases callback <;> exact id⟩
  | located filename callback image hImage =>
    exact ⟨rfl, by cases callback with
      | updateProfileImage account completion => exact hCall
      | handleSignUp email password fullname completion => exact id⟩
  | observed account callback =>
    refine ⟨rfl, ?_⟩
    cases callback with
    | signInWithGoogle user completion =>
      generalize hStep : EventCallback.run _ _ _ = step
      rcases EventCallback.run_signIn user completion account _ hStep with
        rfl | rfl | ⟨email, fullname, rfl⟩ <;> exact id
    | fetchUser comletion =>
      rcases hNode : b.database account with _ | _ | _ <;> exact id
  | _ => exact ⟨rfl, id⟩

/-- Nobody is signed in to `uid`, and no operation of that account is in flight. -/
structure Net.Unattended (uid : Uid) (n : Net κ υ ι) : Prop where
  session : n.backend.currentUser ≠ some uid
  tasks : ∀ task ∈ n.tasks, ¬ task.Targets uid

/-- The event signs in to `uid`. -/
def Net.Event.SignsIn (uid : Uid) : Net.Event κ υ ι → Prop
  | .session currentUser => currentUser = some uid
  | .perform _ outcome => outcome.SignsIn uid
  | _ => False

theorem Net.Unattended.call {n : Net κ υ ι} (h : n.Unattended uid) (op : Operation κ υ ι) :
    (n.call op).Unattended uid where
  session := h.session
  tasks := forall_mem_concat h.tasks fun hTargets =>
    op.start_targets h.session (Task.targets_ofStep hTargets)

/-- An event that does not sign in to the account leaves it, and its document, alone. -/
theorem Net.Unattended.step {n n' : Net κ υ ι} {e : Net.Event κ υ ι} (h : n.Unattended uid)
    (hEvent : ¬ e.SignsIn uid) (hStep : n.step e = some n') :
    n'.Unattended uid ∧ n'.backend.users uid = n.backend.users uid := by
  cases e with
  | call op => exact Option.some.inj hStep ▸ ⟨h.call op, rfl⟩
  | session currentUser => exact Option.some.inj hStep ▸ ⟨⟨hEvent, h.tasks⟩, rfl⟩
  | restart => exact Option.some.inj hStep ▸ ⟨⟨h.session, by simp [Net.restart]⟩, rfl⟩
  | perform i outcome =>
    obtain ⟨call, step, hTask, hAnswered, hTasks⟩ := Net.perform_eq_some hStep
    obtain ⟨hUsers, hTargets⟩ :=
      hAnswered.targets (h.tasks _ (List.mem_of_getElem? hTask)) hEvent
    refine ⟨⟨?_, hTasks ▸ forall_mem_set h.tasks hTargets⟩, hUsers⟩
    rcases hAnswered.currentUser with hSame | ⟨user, rfl, hSession⟩
    · exact hSame ▸ h.session
    · rw [hSession, ne_eq, Option.some.injEq]
      exact hEvent
  | deliver i =>
    obtain ⟨⟨m, step⟩, hDeliver, rfl⟩ := Option.map_eq_some_iff.mp hStep
    obtain ⟨call, hTask, hBackend, hTasks⟩ := Net.deliver_eq_some hDeliver
    refine ⟨⟨hBackend ▸ h.session, ?_⟩, by rw [hBackend]⟩
    rw [hTasks]
    exact forall_mem_set h.tasks fun hTargets =>
      h.tasks _ (List.mem_of_getElem? hTask) (Task.targets_ofStep hTargets)

-- ---------------------------------------------------------------------------
-- An account without a document
-- ---------------------------------------------------------------------------

/-- The chain of the call may create the document of `uid`, with no further sign-in.
A sign-in with a password has nothing to create. -/
def Call.Restores (uid : Uid) : Call κ υ ι → Prop
  | .auth (.signIn _ _) (.logUserIn _) => False
  | .auth (.signIn _ _) _ => True
  | .getDocument _ (.signInWitnGoogleFirestore user _) => user.uid = uid
  | .setData account _ _ => account = uid
  | _ => False

def Step.Restores (uid : Uid) : Step κ υ ι → Prop
  | .wait call => call.Restores uid
  | _ => False

/-- The task may create the document of `uid`, or is about to hand it over. -/
def Task.Restores (uid : Uid) : Task κ υ ι → Prop
  | .waiting call => call.Restores uid
  | .answered (.getDocument account _) (.fetched _ _) => account = uid
  | .answered _ step => step.Restores uid
  | .ended => False

/-- Call `i` is a sign-in with a credential, and it is granted to `uid`. -/
def Net.credentialGranted (uid : Uid) (n : Net κ υ ι) (i : ℕ) : Outcome → Bool
  | .signedIn user =>
    match n.tasks[i]? with
    | some (.waiting (.auth (.signInWith _) _)) => decide (user.uid = uid)
    | _ => false
  | _ => false

/-- The account exists, its document does not, and nothing in flight creates it. -/
structure Net.Lost (uid : Uid) (n : Net κ υ ι) : Prop where
  account : n.backend.HasAccount uid
  document : n.backend.users uid = none
  tasks : ∀ task ∈ n.tasks, ¬ task.Restores uid

theorem Task.restores_ofStep {step : Step κ υ ι} (h : (Task.ofStep step).Restores uid) :
    step.Restores uid := by
  cases step with
  | wait call => exact h
  | _ => exact h.elim

theorem Task.restores_answered {call : Call κ υ ι} {step : Step κ υ ι}
    (h : step.Restores uid) : (Task.answered call step).Restores uid := by
  cases step with
  | wait call' => cases call <;> exact h
  | _ => exact h.elim

/-- A new account has a uid of its own. -/
theorem Backend.authenticate_new {b b' : Backend} {email password : String} {user : AuthUser}
    (h : b.authenticate (.createUser email password) user = some b') : ¬ b.HasAccount user.uid := by
  rintro ⟨account, hMem, hSame⟩
  rw [Backend.authenticate] at h
  split at h
  · exact absurd h (by simp)
  · rename_i hFree
    exact hFree (Or.inl (List.any_eq_true.mpr ⟨account, hMem, by simp [hSame]⟩))

theorem Operation.start_restores (session : Option Uid) (op : Operation κ υ ι) :
    ¬ (op.start session).Restores uid := by
  cases op with
  | handleSignUp email password fullname profileImage filename completion =>
    simp only [Operation.start]
    split <;> simp [Step.Restores, Call.Restores]
  | updateProfileImage image filename completion =>
    simp only [Operation.start, Service.updateProfileImage]
    split
    · simp [Step.Restores]
    · cases session <;> simp [Step.Restores, Call.Restores]
  | _ => cases session <;> simp [Operation.start, Service.logUserIn,
      Service.registerUserWithFirebase, Service.registerUserWithFirestore,
      Service.signInWithGoogle, Service.signInWitnGoogleFirestore, Service.fetchUser,
      Service.fetchUserWithFirestore, Service.updateUserHasSeenOnboarding,
      Service.updateUserHasSeenOnboardingFirestore, Service.resetPassword,
      Service.updateUserData, Step.Restores, Call.Restores]

/-- What the grant of a request to another account leads to. -/
theorem AuthCallback.run_restores {callback : AuthCallback κ} {result : Option AuthUser}
    {error : Option Error} (hOther : ∀ user ∈ result, user.uid ≠ uid) :
    ¬ (callback.run result error : Step κ υ ι).Restores uid := by
  cases callback <;> cases error <;> cases result <;>
    simp_all [AuthCallback.run, Step.Restores, Call.Restores]

/-- No call but a sign-in with a credential brings the document back, or hands one over. -/
theorem Answered.restores {b b' : Backend} {call : Call κ υ ι} {outcome : Outcome}
    {step : Step κ υ ι} (h : Answered b call outcome b' step) (hAccount : b.HasAccount uid)
    (hDocument : b.users uid = none) (hCall : ¬ call.Restores uid)
    (hCredential : ∀ credential callback user, call = .auth (.signInWith credential) callback →
      outcome = .signedIn user → user.uid ≠ uid) :
    b'.users uid = none ∧ ¬ (Task.answered call step).Restores uid := by
  cases h with
  | authFailed request callback error =>
    exact ⟨hDocument, AuthCallback.run_restores (by simp)⟩
  | authenticated request callback user b' hAuth =>
    obtain ⟨-, hUsers, -, -⟩ := Backend.authenticate_some hAuth
    refine ⟨(congrFun hUsers uid).trans hDocument, ?_⟩
    cases request with
    | signIn email password =>
      cases callback with
      | logUserIn completion => exact id
      | _ => exact absurd trivial hCall
    | createUser email password =>
      refine AuthCallback.run_restores fun user' hMem hSame => ?_
      rw [Option.mem_some_iff] at hMem
      exact Backend.authenticate_new hAuth (hMem ▸ hSame ▸ hAccount)
    | signInWith credential =>
      refine AuthCallback.run_restores fun user' hMem => ?_
      exact Option.mem_some_iff.mp hMem ▸ hCredential credential callback user rfl rfl
  | readFailed account callback error => exact ⟨hDocument, by cases callback <;> exact id⟩
  | read account callback =>
    refine ⟨hDocument, ?_⟩
    cases callback with
    | signInWitnGoogleFirestore user completion =>
      generalize hStep : DocumentCallback.run _ _ _ = step
      rcases DocumentCallback.run_signIn user completion _ none hStep with
        rfl | rfl | rfl | ⟨email, fullname, url, rfl⟩
      · exact id
      · exact id
      · exact id
      · exact hCall
    | fetchUserWithFirestore comletion =>
      cases hDoc : b.users account with
      | none => exact id
      | some doc =>
        rintro rfl
        exact absurd (hDoc.symm.trans hDocument) (by simp)
  | set account values completion =>
    exact ⟨(Function.update_of_ne (Ne.symm hCall) _ b.users).trans hDocument, id⟩
  | updateFailed account data callback error => exact ⟨hDocument, by cases callback <;> exact id⟩
  | updated account data callback doc hDoc =>
    have hOther : uid ≠ account := by
      rintro rfl
      exact absurd (hDoc.symm.trans hDocument) (by simp)
    exact ⟨(Function.update_of_ne hOther _ b.users).trans hDocument, by cases callback <;> exact id⟩
  | storeFailed filename data callback error => exact ⟨hDocument, by cases callback <;> exact id⟩
  | stored filename data callback url => exact ⟨hDocument, by cases callback <;> exact id⟩
  | locateFailed filename callback error => exact ⟨hDocument, by cases callback <;> exact id⟩
  | located filename callback image hImage => exact ⟨hDocument, by cases callback <;> exact id⟩
  | observed account callback =>
    refine ⟨hDocument, ?_⟩
    cases callback with
    | signInWithGoogle user completion =>
      generalize hStep : EventCallback.run _ _ _ = step
      rcases EventCallback.run_signIn user completion account _ hStep with
        rfl | rfl | ⟨email, fullname, rfl⟩ <;> exact id
    | fetchUser comletion =>
      rcases hNode : b.database account with _ | _ | _ <;> exact id
  | _ => exact ⟨hDocument, id⟩

theorem Net.Lost.call {n : Net κ υ ι} (h : n.Lost uid) (op : Operation κ υ ι) :
    (n.call op).Lost uid where
  account := h.account
  document := h.document
  tasks := forall_mem_concat h.tasks fun hRestores =>
    op.start_restores _ (Task.restores_ofStep hRestores)

/-- An event that grants the account no credential leaves it without a document. -/
theorem Net.Lost.step {n n' : Net κ υ ι} {e : Net.Event κ υ ι} (h : n.Lost uid)
    (hEvent : ∀ i outcome, e = .perform i outcome → n.credentialGranted uid i outcome = false)
    (hStep : n.step e = some n') : n'.Lost uid := by
  cases e with
  | call op => exact Option.some.inj hStep ▸ h.call op
  | session currentUser => exact Option.some.inj hStep ▸ ⟨h.account, h.document, h.tasks⟩
  | restart =>
    exact Option.some.inj hStep ▸ ⟨h.account, h.document, by simp [Net.restart]⟩
  | perform i outcome =>
    obtain ⟨call, step, hTask, hAnswered, hTasks⟩ := Net.perform_eq_some hStep
    have hCredential : ∀ credential callback user, call = .auth (.signInWith credential) callback →
        outcome = .signedIn user → user.uid ≠ uid := by
      rintro credential callback user rfl rfl
      have hFalse := hEvent i _ rfl
      simpa [Net.credentialGranted, hTask] using hFalse
    obtain ⟨hDocument, hRestores⟩ := hAnswered.restores h.account h.document
      (h.tasks _ (List.mem_of_getElem? hTask)) hCredential
    exact ⟨hAnswered.accounts uid h.account, hDocument, hTasks ▸ forall_mem_set h.tasks hRestores⟩
  | deliver i =>
    obtain ⟨⟨m, step⟩, hDeliver, rfl⟩ := Option.map_eq_some_iff.mp hStep
    obtain ⟨call, hTask, hBackend, hTasks⟩ := Net.deliver_eq_some hDeliver
    refine ⟨hBackend ▸ h.account, hBackend ▸ h.document, ?_⟩
    rw [hTasks]
    exact forall_mem_set h.tasks fun hRestores =>
      h.tasks _ (List.mem_of_getElem? hTask)
        (Task.restores_answered (Task.restores_ofStep hRestores))

end AggroApp
