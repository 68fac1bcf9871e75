import AggroApp.Store.Refinement

/-!
# AggroApp — the lost update of the Google sign-in

`signInWitnGoogleFirestore` reads the account's document and, when it saw
none, replaces the document in a later step. The two steps are no transaction:
when a second run has created the document in between, and an update has been
applied to it, the first run's `setData` undoes the update.

* `lostUpdate_not_kept`      — such a run.
* `sign_in_keeps_updates`    — the condition under which it cannot happen:
  each create is applied while the document is still missing.
-/

namespace AggroApp

variable {κ υ ι : Type}

/-- The net together with its ledger. -/
structure Audited (κ υ ι : Type) where
  net : Net κ υ ι
  ledger : Ledger

namespace Audited

def fresh (backend : Backend) : Audited κ υ ι := ⟨Net.fresh backend, Ledger.opening backend⟩

def step (a : Audited κ υ ι) (e : Net.Event κ υ ι) : Option (Audited κ υ ι) :=
  (a.net.step e).map fun net => ⟨net, a.ledger.observe e⟩

theorem step_eq_some {a a' : Audited κ υ ι} {e : Net.Event κ υ ι} (h : a.step e = some a') :
    a.net.step e = some a'.net ∧ a'.ledger = a.ledger.observe e := by
  obtain ⟨net, hNet, rfl⟩ := Option.map_eq_some_iff.mp h
  exact ⟨hNet, rfl⟩

end Audited

/-- The field that an update sets. -/
def ProfileWrite.key : ProfileWrite → Option String
  | .create .. => none
  | .setHasSeenOnboarding => some "hasSeenOnboarding"
  | .setFullname _ => some "fullname"
  | .setProfileImageUrl _ => some "profileImageUrl"

/-- An update of the field `key` has been applied to the document of `u`. -/
def Ledger.Updated (L : Ledger) (u : Uid) (key : String) : Prop :=
  ∃ w ∈ L.writesOf u, w.key = some key

/-- The steps that a sign-in run has still to do. -/
def Job.OfSignIn : Job → Prop
  | .google | .profile _ | .write _ (.create ..) => True
  | _ => False

/-- The event is a backend step or a callback of a sign-in run. -/
def Audited.SignInStep (a : Audited κ υ ι) : Net.Event κ υ ι → Prop
  | .perform i _ | .deliver i => ∃ job, a.ledger.jobs[i]? = some job ∧ job.OfSignIn
  | _ => False

/-- If the event is a step of a sign-in run, it leaves every updated field of the
document of `u` as it is. -/
def Audited.KeepsUpdates (u : Uid) (a : Audited κ υ ι) (e : Net.Event κ υ ι) : Prop :=
  a.SignInStep e → ∀ net, a.net.step e = some net → ∀ key, a.ledger.Updated u key →
    (net.backend.users u).bind (· key) = (a.net.backend.users u).bind (· key)

/-- The document that the event creates or replaces. -/
def Net.createTarget (n : Net κ υ ι) : Net.Event κ υ ι → Option Uid
  | .perform i .success =>
    match n.tasks[i]? with
    | some (.waiting (.setData uid _ _)) => some uid
    | _ => none
  | _ => none

/-- If the event is a create, its document is still missing. -/
def Audited.CreatesMissing (a : Audited κ υ ι) (e : Net.Event κ υ ι) : Prop :=
  ∀ uid ∈ a.net.createTarget e, a.net.backend.users uid = none

instance (a : Audited κ υ ι) (e : Net.Event κ υ ι) : Decidable (a.CreatesMissing e) :=
  inferInstanceAs (Decidable (∀ uid ∈ a.net.createTarget e, a.net.backend.users uid = none))

-- ---------------------------------------------------------------------------
-- The lost update
-- ---------------------------------------------------------------------------

/-- Two taps on "Log in with Google" for a new account. Both runs read before
either has created the document; the second create comes after the account has
finished its onboarding. -/
def lostUpdate : List (Net.Event Unit Unit Unit) :=
  [.call (.signInWitnGoogleFirestore ⟨some "token", "access"⟩ ()),
   .call (.signInWitnGoogleFirestore ⟨some "token", "access"⟩ ()),
   .perform 0 (.signedIn ⟨"g", some "g@mail", some "Gus", some "g.jpg"⟩), .deliver 0,
   .perform 1 (.signedIn ⟨"g", some "g@mail", some "Gus", some "g.jpg"⟩), .deliver 1,
   .perform 0 .success, .deliver 0, .perform 1 .success, .deliver 1,
   .perform 0 .success, .deliver 0,
   .call (.updateUserHasSeenOnboardingFirestore ()), .perform 2 .success]

theorem lostUpdate_not_kept :
    ¬ Async.Along Audited.step (Audited.KeepsUpdates "g") (Audited.fresh Backend.empty)
      (lostUpdate ++ [.perform 1 .success]) := by
  intro h
  have hKeeps := h.at_step rfl rfl
  have hField := hKeeps ⟨_, rfl, trivial⟩ _ rfl "hasSeenOnboarding"
    ⟨.setHasSeenOnboarding, by decide, rfl⟩
  exact absurd hField (by decide)

-- ---------------------------------------------------------------------------
-- When updates are kept
-- ---------------------------------------------------------------------------

/-- No call removes a document. -/
theorem answered_users_ne_none {b b' : Backend} {call : Call κ υ ι} {outcome : Outcome}
    {step : Step κ υ ι} (h : Answered b call outcome b' step) {u : Uid}
    (hDoc : b.users u ≠ none) : b'.users u ≠ none := by
  cases h with
  | authenticated request callback user b' hAuth =>
    rw [(Backend.authenticate_some hAuth).2.1]
    exact hDoc
  | set uid values completion =>
    show Function.update b.users uid _ u ≠ none
    rw [Function.update_apply]
    split_ifs
    · simp
    · exact hDoc
  | updated uid data callback doc hOld =>
    show Function.update b.users uid _ u ≠ none
    rw [Function.update_apply]
    split_ifs
    · simp
    · exact hDoc
  | _ => exact hDoc

/-- The ledger is in step, and a document that has been updated exists. -/
structure Audited.Sound (a : Audited κ υ ι) : Prop where
  refines : Refines a.net a.ledger
  exist : ∀ u key, a.ledger.Updated u key → a.net.backend.users u ≠ none

theorem Audited.sound_fresh (backend : Backend) : (fresh backend : Audited κ υ ι).Sound where
  refines := refines_fresh backend
  exist := by
    rintro u key ⟨w, hMem, -⟩
    exact absurd hMem (by simp [fresh, Ledger.opening, Ledger.writesOf])

/-- An update that a call applies finds its document. -/
theorem exist_of_applies {b b' : Backend} {call : Call κ υ ι} {outcome : Outcome}
    {step : Step κ υ ι} {job : Job} (h : Answered b call outcome b' step)
    (hCarries : call.Carries job) {u : Uid} {w : ProfileWrite} {key : String}
    (hMem : (u, w) ∈ job.applies outcome) (hKey : w.key = some key) : b'.users u ≠ none := by
  cases h with
  | updated uid data callback doc hDoc =>
    obtain ⟨w', hData, rfl⟩ := hCarries
    rw [Job.applies, List.mem_singleton, Prod.mk.injEq] at hMem
    obtain ⟨rfl, rfl⟩ := hMem
    show Function.update b.users u _ u ≠ none
    rw [Function.update_self]
    simp
  | set uid values completion =>
    obtain ⟨email, fullname, url, rfl, rfl⟩ := hCarries
    rw [Job.applies, List.mem_singleton, Prod.mk.injEq] at hMem
    obtain ⟨-, rfl⟩ := hMem
    exact absurd hKey (by simp [ProfileWrite.key])
  | setFailed uid values completion error =>
    exact absurd hMem (by simp [applies_failure])
  | updateFailed uid data callback error =>
    exact absurd hMem (by simp [applies_failure])
  | _ =>
    rw [applies_nil hCarries (by simp) (by simp)] at hMem
    exact absurd hMem (by simp)

theorem Audited.sound_step {a a' : Audited κ υ ι} {e : Net.Event κ υ ι} (hSound : a.Sound)
    (h : a.step e = some a') : a'.Sound := by
  obtain ⟨hNet, hLedger⟩ := step_eq_some h
  refine ⟨hLedger ▸ refines_step _ _ e _ hSound.refines hNet, ?_⟩
  rw [hLedger]
  cases e with
  | call op =>
    rw [Net.step, Option.some.injEq] at hNet
    exact hNet ▸ hSound.exist
  | session session =>
    rw [Net.step, Option.some.injEq] at hNet
    exact hNet ▸ hSound.exist
  | restart =>
    rw [Net.step, Option.some.injEq] at hNet
    exact hNet ▸ hSound.exist
  | deliver i =>
    obtain ⟨⟨net, step⟩, hDeliver, hFst⟩ := Option.map_eq_some_iff.mp hNet
    obtain ⟨call, -, hBackend, -⟩ := Net.deliver_eq_some hDeliver
    rw [← hFst, hBackend]
    exact hSound.exist
  | perform i outcome =>
    obtain ⟨call, step, hTask, hAnswered, -⟩ := Net.perform_eq_some hNet
    obtain ⟨job, hJob, hTaskCarries⟩ := Async.forall₂_getElem? hSound.refines.jobs hTask
    rintro u key ⟨w, hMem, hKey⟩
    rw [Ledger.observe, hJob, Option.getD_some] at hMem
    have hSplit : w ∈ a.ledger.writesOf u ∨ (u, w) ∈ job.applies outcome := by
      simpa [Ledger.writesOf, or_and_right, exists_or] using hMem
    rcases hSplit with hOld | hNew
    · exact answered_users_ne_none hAnswered (hSound.exist u key ⟨w, hOld, hKey⟩)
    · exact exist_of_applies hAnswered (Task.waiting_carries.mp hTaskCarries) hNew hKey

/-- A create on a missing document, like every other step of a sign-in run,
leaves the updated documents alone. -/
theorem Audited.keepsUpdates_of_createsMissing {a a' : Audited κ υ ι} {e : Net.Event κ υ ι}
    (hSound : a.Sound) (hMissing : a.CreatesMissing e) (h : a.step e = some a') (u : Uid) :
    a.KeepsUpdates u e := by
  intro hSignIn net hNet key hUpdated
  cases e with
  | call op => exact hSignIn.elim
  | session session => exact hSignIn.elim
  | restart => exact hSignIn.elim
  | deliver i =>
    obtain ⟨⟨net', step⟩, hDeliver, rfl⟩ := Option.map_eq_some_iff.mp hNet
    obtain ⟨call, -, hBackend, -⟩ := Net.deliver_eq_some hDeliver
    rw [hBackend]
  | perform i outcome =>
    obtain ⟨call, step, hTask, hAnswered, -⟩ := Net.perform_eq_some hNet
    obtain ⟨job, hJob, hTaskCarries⟩ := Async.forall₂_getElem? hSound.refines.jobs hTask
    have hCarries : call.Carries job := Task.waiting_carries.mp hTaskCarries
    generalize hb : a.net.backend = b at hAnswered
    generalize hb' : net.backend = b' at hAnswered
    cases hAnswered with
    | set uid values completion =>
      have hNone : a.net.backend.users uid = none :=
        hMissing uid (by rw [Net.createTarget, hTask]; rfl)
      have hNe : u ≠ uid := by
        rintro rfl
        exact hSound.exist u key hUpdated hNone
      show (Function.update b.users uid _ u).bind _ = _
      rw [Function.update_of_ne hNe]
    | updated uid data callback doc hDoc =>
      -- an update is no step of a sign-in run
      obtain ⟨w, hData, rfl⟩ := hCarries
      obtain ⟨job', hJob', hOfSignIn⟩ := hSignIn
      rw [hJob, Option.some.injEq] at hJob'
      subst hJob'
      cases w with
      | create email fullname url => exact absurd hData (by simp [ProfileWrite.data])
      | setHasSeenOnboarding => exact hOfSignIn.elim
      | setFullname fullname => exact hOfSignIn.elim
      | setProfileImageUrl url => exact hOfSignIn.elim
    | authenticated request callback user _ hAuth => rw [(Backend.authenticate_some hAuth).2.1]
    | _ => rfl

/--
**Updates are kept.** In every run in which each create is applied while its
document is still missing, no step of a sign-in run changes a field that an
update has set.
-/
theorem sign_in_keeps_updates (backend : Backend) (es : List (Net.Event κ υ ι)) (u : Uid)
    (hMissing : Async.Along Audited.step Audited.CreatesMissing (Audited.fresh backend) es) :
    Async.Along Audited.step (Audited.KeepsUpdates u) (Audited.fresh backend) es :=
  Async.Along.of_invariant (fun _ _ _ hSound _ hStep => Audited.sound_step hSound hStep)
    (fun _ _ _ hSound hCond hStep => Audited.keepsUpdates_of_createsMissing hSound hCond hStep u)
    (Audited.sound_fresh backend) hMissing

/-- The same two taps one after the other: the second run finds the document. -/
def secondTapLater : List (Net.Event Unit Unit Unit) :=
  [.call (.signInWitnGoogleFirestore ⟨some "token", "access"⟩ ()),
   .perform 0 (.signedIn ⟨"g", some "g@mail", some "Gus", some "g.jpg"⟩), .deliver 0,
   .perform 0 .success, .deliver 0, .perform 0 .success, .deliver 0,
   .call (.updateUserHasSeenOnboardingFirestore ()), .perform 1 .success,
   .call (.signInWitnGoogleFirestore ⟨some "token", "access"⟩ ()),
   .perform 2 (.signedIn ⟨"g", some "g@mail", some "Gus", some "g.jpg"⟩), .deliver 2,
   .perform 2 .success, .deliver 2]

theorem secondTapLater_kept :
    Async.Along Audited.step (Audited.KeepsUpdates "g") (Audited.fresh Backend.empty)
      secondTapLater :=
  sign_in_keeps_updates Backend.empty secondTapLater "g" (by decide)

end AggroApp
