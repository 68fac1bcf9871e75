import AggroApp.Model.Net

/-!
# AggroApp — the users tree of the Realtime Database

Below `DB_USERS_REF` every account has one child, named by its uid, and each
operation writes below the child of the account that it acts for. The exception
is `signInWithGoogle`, which creates a missing record on `DB_USERS_REF` itself:
the fields of the record become children of the tree, and the account has no
record afterwards.

The notes of a run tell for which account each operation acts: the one that Auth
has signed in for it, or else the one that was signed in when it was called.

* `rootWrite_not_keyed`  — a first Google sign-in.
* `tree_stays_keyed`     — the tree stays keyed by account, and everybody else's
  records stay as they are, as long as no Google sign-in creates a record.
-/

namespace AggroApp

open Async

variable {κ υ ι : Type}

/-- Auth has an account of this uid. -/
def Backend.HasAccount (b : Backend) (uid : Uid) : Prop :=
  ∃ account ∈ b.accounts, account.uid = uid

instance (b : Backend) (uid : Uid) : Decidable (b.HasAccount uid) :=
  inferInstanceAs (Decidable (∃ account ∈ b.accounts, account.uid = uid))

-- ---------------------------------------------------------------------------
-- Whom an operation acts for
-- ---------------------------------------------------------------------------

/-- Notes on one operation: whether it is a Google sign-in, who was signed in when
it was called, and whom Auth has signed in for it. -/
structure Actor where
  google : Bool
  caller : Option Uid
  user : Option AuthUser
  deriving DecidableEq, Repr

namespace Actor

def nobody : Actor := ⟨false, none, none⟩

/-- The account that the operation acts for. -/
def uid (actor : Actor) : Option Uid := (actor.user.map AuthUser.uid).or actor.caller

def start (session : Option Uid) (op : Operation κ υ ι) : Actor where
  google := match op with
    | .signInWithGoogle _ _ => true
    | _ => false
  caller := session
  user := none

def next (actor : Actor) : Outcome → Actor
  | .signedIn user => { actor with user := some user }
  | _ => actor

/-- Take notes of one event. -/
def observe (n : Net κ υ ι) (e : Net.Event κ υ ι) (actors : List Actor) : List Actor :=
  match e with
  | .call op => actors ++ [start n.backend.currentUser op]
  | .restart => []
  | .perform i outcome => actors.set i ((actors[i]?.getD nobody).next outcome)
  | _ => actors

end Actor

/-- The system with its notes. -/
abbrev Tree (κ υ ι : Type) := Net κ υ ι × List Actor

namespace Tree

def fresh (backend : Backend) : Tree κ υ ι := (Net.fresh backend, [])

def step (s : Tree κ υ ι) (e : Net.Event κ υ ι) : Option (Tree κ υ ι) :=
  observed Net.step Actor.observe s e

/-- Every child of `DB_USERS_REF` is named by an account. -/
def KeyedByAccount (s : Tree κ υ ι) : Prop :=
  ∀ key, s.1.backend.database key ≠ none → s.1.backend.HasAccount key

/-- The account that an event acts for. -/
def actsFor (s : Tree κ υ ι) : Net.Event κ υ ι → Option Uid
  | .perform i _ => s.2[i]?.bind Actor.uid
  | _ => none

/-- The event leaves the records of all other accounts as they are. -/
def LeavesOthers (s : Tree κ υ ι) (e : Net.Event κ υ ι) : Prop :=
  ∀ n, s.1.step e = some n → ∀ account ∈ s.1.backend.accounts, s.actsFor e ≠ some account.uid →
    n.backend.database account.uid = s.1.backend.database account.uid

/-- `fetchUser` delivers a user for `uid`. -/
def Fetches (b : Backend) (uid : Uid) : Prop :=
  ∃ user, ∀ comletion : Unit, (EventCallback.fetchUser comletion).run uid (b.database uid) =
    (.fetched comletion user : Step Unit Unit Unit)

/-- If the event is the last backend step of a Google sign-in that completes without
error, for an account with an e-mail and a display name, that account has the
record it had, or else a new one, and it can be fetched. -/
def GoogleLeavesRecord (s : Tree κ υ ι) (e : Net.Event κ υ ι) : Prop :=
  ∀ n, s.1.step e = some n → ∀ i outcome, e = .perform i outcome →
    ∀ actor ∈ s.2[i]?, actor.google = true → ∀ user ∈ actor.user,
      ∀ email ∈ user.email, ∀ fullname ∈ user.displayName, ∀ call completion,
        n.tasks[i]? = some (.answered call (.completed completion none)) →
          n.backend.database user.uid = some ((s.1.backend.database user.uid).getD
            (.children (recordValues email fullname).document)) ∧
          Fetches n.backend user.uid

end Tree

/-- The operation is about to write children. -/
def Task.creates : Task κ υ ι → Bool
  | .waiting (.updateChildValues _ _ _) => true
  | _ => false

/-- No Google sign-in creates a record at this event. -/
def Tree.CreatesNone (s : Tree κ υ ι) (e : Net.Event κ υ ι) : Prop :=
  match e with
  | .perform i .success =>
    ∀ actor ∈ s.2[i]?, actor.google = true → ∀ task ∈ s.1.tasks[i]?, task.creates = false
  | _ => True

instance (s : Tree κ υ ι) (e : Net.Event κ υ ι) : Decidable (s.CreatesNone e) := by
  unfold Tree.CreatesNone
  split <;> infer_instance

-- ---------------------------------------------------------------------------
-- The write to the root
-- ---------------------------------------------------------------------------

/-- The first Google sign-in of an account. -/
def rootWrite : List (Net.Event Unit Unit Unit) :=
  [.call (.signInWithGoogle ⟨some "token", "access"⟩ ()),
   .perform 0 (.signedIn ⟨"g", some "g@mail", some "Gus", none⟩), .deliver 0,
   .perform 0 .success, .deliver 0]

/-- The sign-in completes without error; the tree has a child that is no account,
and the account has no record. -/
theorem rootWrite_not_keyed :
    ¬ Always Tree.step Tree.KeyedByAccount (Tree.fresh Backend.empty)
        (rootWrite ++ [.perform 0 .success]) ∧
      ¬ Along Tree.step Tree.GoogleLeavesRecord (Tree.fresh Backend.empty)
        (rootWrite ++ [.perform 0 .success]) := by
  constructor
  · intro h
    have hKeyed := h.last rfl "email" fun hNone =>
      absurd (congrArg Option.isSome hNone) (by decide)
    exact absurd hKeyed (by decide)
  · intro h
    have hRecord := h.at_step rfl rfl _ rfl 0 .success rfl _ rfl rfl _ rfl _ rfl _ rfl _ _ rfl
    exact absurd (congrArg Option.isSome hRecord.1) (by decide)

-- ---------------------------------------------------------------------------
-- Where an operation writes
-- ---------------------------------------------------------------------------

/-- Accounts are never removed. -/
theorem Backend.authenticate_accounts {b b' : Backend} {request : AuthRequest} {user : AuthUser}
    (h : b.authenticate request user = some b') :
    b'.HasAccount user.uid ∧ ∀ uid, b.HasAccount uid → b'.HasAccount uid := by
  have hAppend : ∀ account : Account, account.uid = user.uid →
      b'.accounts = b.accounts ++ [account] →
      b'.HasAccount user.uid ∧ ∀ uid, b.HasAccount uid → b'.HasAccount uid := by
    intro account hUid hAccounts
    unfold HasAccount
    rw [hAccounts]
    refine ⟨⟨account, List.mem_append_right _ (List.mem_singleton_self _), hUid⟩, ?_⟩
    rintro uid ⟨old, hMem, hOld⟩
    exact ⟨old, List.mem_append_left _ hMem, hOld⟩
  have hSame : b.HasAccount user.uid → b'.accounts = b.accounts →
      b'.HasAccount user.uid ∧ ∀ uid, b.HasAccount uid → b'.HasAccount uid := by
    intro hHas hAccounts
    unfold HasAccount at *
    rw [hAccounts]
    exact ⟨hHas, fun _ hOld => hOld⟩
  cases request with
  | createUser email password =>
    rw [Backend.authenticate] at h
    split at h
    · exact absurd h (by simp)
    · rw [Option.some.injEq] at h
      exact hAppend ⟨user.uid, some email⟩ rfl (by rw [← h])
  | signIn email password =>
    rw [Backend.authenticate] at h
    split at h
    · rename_i hAny
      rw [Option.some.injEq] at h
      obtain ⟨account, hMem, hMatch⟩ := List.any_eq_true.mp hAny
      exact hSame ⟨account, hMem, (of_decide_eq_true hMatch).1⟩ (by rw [← h])
    · exact absurd h (by simp)
  | signInWith credential =>
    rw [Backend.authenticate] at h
    split at h
    · rename_i hAny
      rw [Option.some.injEq] at h
      obtain ⟨account, hMem, hMatch⟩ := List.any_eq_true.mp hAny
      exact hSame ⟨account, hMem, of_decide_eq_true hMatch⟩ (by rw [← h])
    · rw [Option.some.injEq] at h
      exact hAppend ⟨user.uid, user.email⟩ rfl (by rw [← h])

/-- The call belongs to an operation of `actor`, and writes below the account that
the operation acts for, except for the record of a Google sign-in. -/
def Call.ActsFor (b : Backend) (actor : Actor) : Call κ υ ι → Prop
  | .auth _ (.signInWithGoogle _) => actor.google = true
  | .observeSingleEvent uid (.signInWithGoogle user _) =>
    actor.google = true ∧ actor.user = some user ∧ user.uid = uid
  | .updateChildValues .users _ _ => actor.google = true
  | .updateChildValues (.child uid) _ _ =>
    actor.google = false ∧ actor.uid = some uid ∧ b.HasAccount uid
  | .setValue uid _ _ _ => actor.google = false ∧ actor.uid = some uid ∧ b.HasAccount uid
  | _ => actor.google = false

def Step.ActsFor (b : Backend) (actor : Actor) : Step κ υ ι → Prop
  | .wait call => call.ActsFor b actor
  | _ => True

def Task.ActsFor (b : Backend) (task : Task κ υ ι) (actor : Actor) : Prop :=
  match task with
  | .waiting call => call.ActsFor b actor
  | .answered _ step => step.ActsFor b actor
  | .ended => True

theorem Task.actsFor_ofStep {b : Backend} {actor : Actor} {step : Step κ υ ι}
    (h : step.ActsFor b actor) : (Task.ofStep step).ActsFor b actor := by
  cases step with
  | wait call => exact h
  | _ => trivial

theorem Call.ActsFor.mono {b b' : Backend} {actor : Actor} {call : Call κ υ ι}
    (h : call.ActsFor b actor) (hAccounts : ∀ uid, b.HasAccount uid → b'.HasAccount uid) :
    call.ActsFor b' actor := by
  cases call with
  | updateChildValues ref values completion =>
    cases ref with
    | users => exact h
    | child uid => exact ⟨h.1, h.2.1, hAccounts uid h.2.2⟩
  | setValue uid key value completion => exact ⟨h.1, h.2.1, hAccounts uid h.2.2⟩
  | auth request callback => cases callback <;> exact h
  | observeSingleEvent uid callback => cases callback <;> exact h
  | _ => exact h

theorem Task.ActsFor.mono {b b' : Backend} {actor : Actor} {task : Task κ υ ι}
    (h : task.ActsFor b actor) (hAccounts : ∀ uid, b.HasAccount uid → b'.HasAccount uid) :
    task.ActsFor b' actor := by
  cases task with
  | waiting call => exact Call.ActsFor.mono h hAccounts
  | answered call step =>
    cases step with
    | wait call => exact Call.ActsFor.mono (show call.ActsFor b actor from h) hAccounts
    | _ => trivial
  | ended => trivial

theorem Operation.start_actsFor {b : Backend} {session : Option Uid}
    (hSession : ∀ uid ∈ session, b.HasAccount uid) (op : Operation κ υ ι) :
    (op.start session).ActsFor b (Actor.start session op) := by
  cases op with
  | updateUserHasSeenOnboarding completion =>
    cases session with
    | none => trivial
    | some uid => exact ⟨rfl, rfl, hSession uid rfl⟩
  | updateProfileImage image filename completion =>
    rw [Operation.start, Service.updateProfileImage]
    cases image.jpegData 30 with
    | none => trivial
    | some data => cases session <;> trivial
  | handleSignUp email password fullname profileImage filename completion =>
    rw [Operation.start]
    cases profileImage.jpegData 10 <;> trivial
  | _ => cases session <;> trivial

/-- An answered operation goes on acting for its account. -/
theorem Answered.actsFor {b b' : Backend} {call : Call κ υ ι} {outcome : Outcome}
    {step : Step κ υ ι} {actor : Actor} (h : Answered b call outcome b' step)
    (hActs : call.ActsFor b actor) : step.ActsFor b' (actor.next outcome) := by
  cases h with
  | authFailed request callback error => cases callback <;> trivial
  | authenticated request callback user b' hAuth =>
    have hHas := (Backend.authenticate_accounts hAuth).1
    cases callback with
    | logUserIn completion => trivial
    | registerUserWithFirebase email fullname completion => exact ⟨hActs, rfl, hHas⟩
    | registerUserWithFirestore email fullname url completion => exact hActs
    | signInWithGoogle completion => exact ⟨hActs, rfl, rfl⟩
    | signInWitnGoogleFirestore completion => exact hActs
  | sheetGranted completion user => exact hActs
  | readFailed uid callback error => cases callback <;> trivial
  | read uid callback =>
    cases callback with
    | signInWitnGoogleFirestore user completion =>
      generalize hStep : DocumentCallback.run _ _ _ = step
      rcases DocumentCallback.run_signIn user completion _ _ hStep with
        rfl | rfl | rfl | ⟨email, fullname, url, rfl⟩
      · trivial
      · trivial
      · trivial
      · exact hActs
    | fetchUserWithFirestore comletion =>
      unfold DocumentCallback.run
      cases b.users uid <;> trivial
  | updateFailed uid data callback error => cases callback <;> trivial
  | updated uid data callback doc hDoc => cases callback <;> trivial
  | storeFailed filename data callback error => exact hActs
  | stored filename data callback url => exact hActs
  | locateFailed filename callback error => trivial
  | located filename callback image hImage => cases callback <;> exact hActs
  | observed uid callback =>
    cases callback with
    | signInWithGoogle user completion =>
      generalize hStep : EventCallback.run _ _ _ = step
      rcases EventCallback.run_signIn user completion uid _ hStep with
        rfl | rfl | ⟨email, fullname, rfl⟩
      · trivial
      · trivial
      · exact hActs.1
    | fetchUser comletion =>
      unfold EventCallback.run
      cases (b.database uid).bind Node.dictionary <;> trivial
  | _ => trivial

theorem Answered.accounts {b b' : Backend} {call : Call κ υ ι} {outcome : Outcome}
    {step : Step κ υ ι} (h : Answered b call outcome b' step) :
    ∀ uid, b.HasAccount uid → b'.HasAccount uid := by
  cases h with
  | authenticated request callback user b' hAuth => exact (Backend.authenticate_accounts hAuth).2
  | _ => exact fun _ hHas => hHas

/-- Unless it is a Google sign-in's, a write makes a dictionary of the record of the
account that it acts for, and touches nothing else. -/
theorem Answered.database {b b' : Backend} {call : Call κ υ ι} {outcome : Outcome}
    {step : Step κ υ ι} {actor : Actor} (h : Answered b call outcome b' step)
    (hActs : call.ActsFor b actor)
    (hNone : actor.google = true → outcome = .success → (Task.waiting call).creates = false) :
    b'.database = b.database ∨ ∃ uid dictionary, actor.uid = some uid ∧ b.HasAccount uid ∧
      b'.database = Function.update b.database uid (some (.children dictionary)) := by
  cases h with
  | authenticated request callback user b' hAuth =>
    exact Or.inl (Backend.authenticate_some hAuth).2.2.2
  | childrenUpdated ref values completion =>
    cases ref with
    | users => exact absurd (hNone hActs rfl) (by simp [Task.creates])
    | child uid => exact Or.inr ⟨uid, _, hActs.2.1, hActs.2.2, rfl⟩
  | valueSet uid key value completion => exact Or.inr ⟨uid, _, hActs.2.1, hActs.2.2, rfl⟩
  | _ => exact Or.inl rfl

-- ---------------------------------------------------------------------------
-- The invariant
-- ---------------------------------------------------------------------------

namespace Tree

/-- Sessions are of accounts, records are dictionaries below their accounts, and
the operations act for the accounts that the notes name. -/
structure Sound (s : Tree κ υ ι) : Prop where
  session : ∀ uid ∈ s.1.backend.currentUser, s.1.backend.HasAccount uid
  records : ∀ key node, s.1.backend.database key = some node →
    s.1.backend.HasAccount key ∧ ∃ dictionary, node = .children dictionary
  actors : List.Forall₂ (Task.ActsFor s.1.backend) s.1.tasks s.2

theorem sound_fresh {backend : Backend} (hEmpty : ∀ key, backend.database key = none)
    (hSession : ∀ uid ∈ backend.currentUser, backend.HasAccount uid) :
    (fresh backend : Tree κ υ ι).Sound where
  session := hSession
  records := fun key node hNode => absurd ((hEmpty key).symm.trans hNode) (by simp)
  actors := .nil

variable {n n' : Net κ υ ι} {actors : List Actor} {i : ℕ}

theorem Sound.call (h : Sound (n, actors)) (op : Operation κ υ ι) :
    Sound (n.call op, actors ++ [Actor.start n.backend.currentUser op]) where
  session := h.session
  records := h.records
  actors := forall₂_concat h.actors (Task.actsFor_ofStep (op.start_actsFor h.session))

/-- What is known of the next backend step of an operation. -/
theorem Sound.actor (h : Sound (n, actors)) {outcome : Outcome} {call : Call κ υ ι}
    (hTask : n.tasks[i]? = some (.waiting call)) (hNone : CreatesNone (n, actors)
      (.perform i outcome)) :
    ∃ actor, actors[i]? = some actor ∧ call.ActsFor n.backend actor ∧
      (actor.google = true → outcome = .success → (Task.waiting call).creates = false) := by
  obtain ⟨actor, hActor, hActs⟩ := forall₂_getElem? h.actors hTask
  refine ⟨actor, hActor, hActs, ?_⟩
  rintro hGoogle rfl
  exact hNone actor hActor hGoogle _ hTask

theorem Sound.perform (h : Sound (n, actors)) {outcome : Outcome}
    (hNone : CreatesNone (n, actors) (.perform i outcome)) (hStep : n.perform i outcome = some n') :
    Sound (n', Actor.observe n (.perform i outcome) actors) := by
  obtain ⟨call, step, hTask, hAnswered, hTasks⟩ := Net.perform_eq_some hStep
  obtain ⟨actor, hActor, hActs, hWrites⟩ := h.actor hTask hNone
  have hAccounts := hAnswered.accounts
  constructor
  · intro uid hUid
    rcases hAnswered.currentUser with hSame | ⟨user, rfl, hUser⟩
    · exact hAccounts uid (h.session uid (hSame ▸ hUid))
    · have hEq : user.uid = uid := Option.some.inj (hUser.symm.trans hUid)
      generalize hb' : n'.backend = b' at hAnswered
      cases hAnswered with
      | authenticated request callback _ _ hAuth =>
        exact hEq ▸ hb' ▸ (Backend.authenticate_accounts hAuth).1
  · intro key node hNode
    rcases hAnswered.database hActs hWrites with hSame | ⟨uid, dictionary, -, hHas, hWritten⟩
    · have hOld := h.records key node (hSame ▸ hNode)
      exact ⟨hAccounts key hOld.1, hOld.2⟩
    · have hUpdate : Function.update n.backend.database uid (some (.children dictionary)) key =
          some node := hWritten ▸ hNode
      rw [Function.update_apply] at hUpdate
      split_ifs at hUpdate with hKey
      · exact ⟨hAccounts key (hKey ▸ hHas), dictionary, (Option.some.inj hUpdate).symm⟩
      · have hOld := h.records key node hUpdate
        exact ⟨hAccounts key hOld.1, hOld.2⟩
  · have hGrown : List.Forall₂ (Task.ActsFor n'.backend) n.tasks actors :=
      h.actors.imp fun _ _ hOld => hOld.mono hAccounts
    show List.Forall₂ _ n'.tasks (actors.set i ((actors[i]?.getD .nobody).next outcome))
    rw [hTasks, hActor, Option.getD_some]
    have hNext : Task.ActsFor n'.backend (.answered call step) (actor.next outcome) :=
      hAnswered.actsFor hActs
    exact forall₂_set hGrown hNext i

theorem Sound.deliver (h : Sound (n, actors)) {step : Step κ υ ι}
    (hStep : n.deliver i = some (n', step)) : Sound (n', actors) := by
  obtain ⟨call, hTask, hBackend, hTasks⟩ := Net.deliver_eq_some hStep
  obtain ⟨actor, hActor, hActs⟩ := forall₂_getElem? h.actors hTask
  refine ⟨?_, ?_, ?_⟩
  · show ∀ uid ∈ n'.backend.currentUser, n'.backend.HasAccount uid
    rw [hBackend]
    exact h.session
  · show ∀ key node, n'.backend.database key = some node → n'.backend.HasAccount key ∧ _
    rw [hBackend]
    exact h.records
  · show List.Forall₂ (Task.ActsFor n'.backend) n'.tasks actors
    have hSame : actors.set i actor = actors := by
      obtain ⟨hLt, hEq⟩ := List.getElem?_eq_some_iff.mp hActor
      rw [← hEq, List.set_getElem_self]
    rw [hBackend, hTasks, ← hSame]
    exact forall₂_set h.actors (Task.actsFor_ofStep hActs) i

theorem Sound.step {s t : Tree κ υ ι} {e : Net.Event κ υ ι} (h : s.Sound)
    (hNone : s.CreatesNone e) (hOut : ∀ uid, e ≠ .session (some uid)) (hStep : s.step e = some t) :
    t.Sound := by
  obtain ⟨n, actors⟩ := s
  obtain ⟨n', actors'⟩ := t
  obtain ⟨hNet, rfl⟩ := observed_eq_some hStep
  cases e with
  | call op =>
    obtain rfl : n.call op = n' := Option.some.inj hNet
    exact h.call op
  | session session =>
    cases session with
    | none =>
      obtain rfl : n.setSession none = n' := Option.some.inj hNet
      exact ⟨fun uid hUid => absurd hUid (by simp [Net.setSession]), h.records, h.actors⟩
    | some uid => exact absurd rfl (hOut uid)
  | restart =>
    obtain rfl : n.restart = n' := Option.some.inj hNet
    exact ⟨h.session, h.records, .nil⟩
  | perform i outcome => exact h.perform hNone hNet
  | deliver i =>
    obtain ⟨⟨net, step⟩, hDeliver, rfl⟩ := Option.map_eq_some_iff.mp hNet
    exact h.deliver hDeliver

/-- Only backend steps change the tree. -/
theorem step_database {e : Net.Event κ υ ι} (hStep : n.step e = some n')
    (hPerform : ∀ i outcome, e ≠ .perform i outcome) :
    n'.backend.database = n.backend.database := by
  cases e with
  | perform i outcome => exact absurd rfl (hPerform i outcome)
  | deliver i =>
    obtain ⟨⟨net, step⟩, hDeliver, rfl⟩ := Option.map_eq_some_iff.mp hStep
    obtain ⟨-, -, hBackend, -⟩ := Net.deliver_eq_some hDeliver
    rw [hBackend]
  | _ => exact Option.some.inj hStep ▸ rfl

theorem Sound.leavesOthers {s : Tree κ υ ι} {e : Net.Event κ υ ι} (h : s.Sound)
    (hNone : s.CreatesNone e) : s.LeavesOthers e := by
  intro n' hStep account hMem hOther
  cases e with
  | perform i outcome =>
    obtain ⟨call, step, hTask, hAnswered, -⟩ := Net.perform_eq_some hStep
    obtain ⟨actor, hActor, hActs, hWrites⟩ := h.actor hTask hNone
    rcases hAnswered.database hActs hWrites with hSame | ⟨uid, dictionary, hUid, -, hWritten⟩
    · rw [hSame]
    · have hNe : account.uid ≠ uid := by
        rintro rfl
        exact hOther (by rw [actsFor, hActor, Option.bind_some, hUid])
      rw [hWritten, Function.update_of_ne hNe]
  | _ => rw [step_database hStep (by simp)]

/-- A Google sign-in that completes without error has found a record. -/
theorem Sound.googleLeavesRecord {s : Tree κ υ ι} {e : Net.Event κ υ ι} (h : s.Sound)
    (hNone : s.CreatesNone e) : s.GoogleLeavesRecord e := by
  rintro n' hStep i outcome rfl actor hActor hGoogle user hUser email - fullname - call' completion
    hCompleted
  obtain ⟨call, step, hTask, hAnswered, hTasks⟩ := Net.perform_eq_some hStep
  obtain ⟨actor', hActor', hActs, hWrites⟩ := h.actor hTask hNone
  obtain rfl : actor' = actor := Option.some.inj (hActor'.symm.trans hActor)
  -- the step that the answer has left
  have hAnswer : Task.answered call step = .answered call' (.completed completion none) := by
    rw [hTasks, List.getElem?_set_self (List.getElem?_eq_some_iff.mp hTask).1] at hCompleted
    exact Option.some.inj hCompleted
  injection hAnswer with _ hCompletes
  generalize hb' : n'.backend = b' at hAnswered
  cases hAnswered with
  | authFailed request callback error =>
    cases callback with
    | signInWithGoogle completion' => exact absurd hCompletes (by simp [AuthCallback.run])
    | _ => exact absurd (hGoogle.symm.trans hActs) (by simp)
  | authenticated request callback user' b' hAuth =>
    cases callback with
    | signInWithGoogle completion' => exact absurd hCompletes (by simp [AuthCallback.run])
    | _ => exact absurd (hGoogle.symm.trans hActs) (by simp)
  | observeFailed uid callback error => exact absurd hCompletes (by simp)
  | observed uid callback =>
    cases callback with
    | signInWithGoogle user' completion' =>
      obtain ⟨-, hUser', rfl⟩ := hActs
      obtain rfl : user' = user := Option.some.inj (hUser'.symm.trans hUser)
      cases hNode : s.1.backend.database user'.uid with
      | none =>
        rw [hNode, EventCallback.run] at hCompletes
        split at hCompletes
        · exact absurd hCompletes (by simp)
        · split at hCompletes <;> exact absurd hCompletes (by simp)
      | some node =>
        obtain ⟨-, dictionary, rfl⟩ := h.records _ _ hNode
        refine ⟨rfl, User.ofRecord user'.uid dictionary, fun comletion => ?_⟩
        rw [EventCallback.run, hNode]
        rfl
    | fetchUser comletion => exact absurd (hGoogle.symm.trans hActs) (by simp)
  | childrenFailed ref values completion' error => exact absurd hCompletes (by simp)
  | childrenUpdated ref values completion' =>
    exact absurd (hWrites hGoogle rfl) (by simp [Task.creates])
  | valueFailed uid key value completion' error => exact absurd hCompletes (by simp)
  | valueSet uid key value completion' => exact absurd (hGoogle.symm.trans hActs.1) (by simp)
  | _ => exact absurd (hGoogle.symm.trans hActs) (by simp)

end Tree

/--
**The tree stays keyed by account.** Start from an empty tree. In every run of the
operations, with sessions that Auth opens, in which no Google sign-in creates a
record, every child of the tree is named by an account; every step leaves the
records of the other accounts alone; and an account whose Google sign-in has
completed has its record.
-/
theorem tree_stays_keyed {backend : Backend} (hEmpty : ∀ key, backend.database key = none)
    (hSession : ∀ uid ∈ backend.currentUser, backend.HasAccount uid)
    (es : List (Net.Event κ υ ι)) (hOut : ∀ e ∈ es, ∀ uid, e ≠ .session (some uid))
    (hNone : Along Tree.step Tree.CreatesNone (Tree.fresh backend) es) :
    Always Tree.step Tree.KeyedByAccount (Tree.fresh backend) es ∧
      Along Tree.step (fun s e => s.LeavesOthers e ∧ s.GoogleLeavesRecord e)
        (Tree.fresh backend) es := by
  have hInit : (Tree.fresh backend : Tree κ υ ι).Sound := Tree.sound_fresh hEmpty hSession
  have hStep : ∀ (s : Tree κ υ ι) e t, s.Sound →
      (s.CreatesNone e ∧ ∀ uid, e ≠ .session (some uid)) → s.step e = some t → t.Sound :=
    fun s e t h hCond hStep => h.step hCond.1 hCond.2 hStep
  constructor
  · refine (Always.of_invariant hStep hInit (hNone.and_mem hOut)).mono fun s h key hKey => ?_
    obtain ⟨node, hNode⟩ := Option.ne_none_iff_exists'.mp hKey
    exact (h.records key node hNode).1
  · refine Along.of_invariant hStep ?_ hInit (hNone.and_mem hOut)
    exact fun s e t h hCond _ => ⟨h.leavesOthers hCond.1, h.googleLeavesRecord hCond.1⟩

/-- Ann registers, marks her onboarding and signs out; later she signs in with
Google, under the same account. -/
def registeredFirst : List (Net.Event Unit Unit Unit) :=
  [.call (.registerUserWithFirebase "ann@mail" "secret" "Ann" ()),
   .perform 0 (.signedIn ⟨"a", some "ann@mail", none, none⟩), .deliver 0,
   .perform 0 .success, .deliver 0, .call (.updateUserHasSeenOnboarding ()),
   .perform 1 .success, .deliver 1, .session none,
   .call (.signInWithGoogle ⟨some "token", "access"⟩ ()),
   .perform 2 (.signedIn ⟨"a", some "ann@mail", some "Ann", none⟩), .deliver 2,
   .perform 2 .success, .deliver 2]

theorem registeredFirst_stays_keyed :
    Always Tree.step Tree.KeyedByAccount (Tree.fresh Backend.empty) registeredFirst ∧
      Along Tree.step (fun s e => s.LeavesOthers e ∧ s.GoogleLeavesRecord e)
        (Tree.fresh Backend.empty) registeredFirst :=
  tree_stays_keyed (fun _ => rfl) (by decide) registeredFirst (by simp [registeredFirst])
    (by decide)

end AggroApp
