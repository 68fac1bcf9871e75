import AggroApp.Store.Ledger

/-!
# AggroApp — the profile store refines the record store

Every run of the operations in flight is followed by its ledger: the session
agrees, each call in flight carries the job that the ledger has for its
operation, and each stored document decodes to the record of its account.

The calls carry captured ids and untyped dictionaries; the jobs carry the
account that the operation acts for. `Call.Carries` ties the two, and
`answered_carries` is the induction step: whatever a call in flight does, its
callback goes on with the job that is left. The uid that a callback captured
is therefore still the operation's own account when the write is applied,
whoever is signed in by then.

## Results

* `refines_step`  — one event keeps the ledger in step with the net.
* `refines_run`   — and so does every run, from any users collection.
* `profile_store_refines_records` — from an empty collection, each document
  decodes to the fold of the account's own writes.
-/

namespace AggroApp

variable {κ υ ι : Type}

/-- The literal that an update hands to `updateData`. -/
def ProfileWrite.data : ProfileWrite → Option Fields
  | .create .. => none
  | .setHasSeenOnboarding => some [("hasSeenOnboarding", .bool true)]
  | .setFullname fullname => some [("fullname", .string fullname)]
  | .setProfileImageUrl profileImageUrl => some [("profileImageUrl", .string profileImageUrl)]

/-- Merging an update's literal into a document is the update of the record. -/
theorem apply_ofDictionary {w : ProfileWrite} {data : Fields} (h : w.data = some data)
    (u : Uid) (doc : Document) :
    w.apply u (some (User.ofDictionary doc)) = some (User.ofDictionary (doc.merge data)) := by
  cases w with
  | create email fullname profileImageUrl => exact absurd h (by simp [ProfileWrite.data])
  | setHasSeenOnboarding =>
    rw [ProfileWrite.data, Option.some.injEq] at h
    subst h
    rw [ofDictionary_merge_hasSeenOnboarding]
    rfl
  | setFullname fullname =>
    rw [ProfileWrite.data, Option.some.injEq] at h
    subst h
    rw [ofDictionary_merge_fullname]
    rfl
  | setProfileImageUrl profileImageUrl =>
    rw [ProfileWrite.data, Option.some.injEq] at h
    subst h
    rw [ofDictionary_merge_profileImageUrl]
    rfl

/-- The job that a call in flight stands for. A write call names the job's own
account, with the literal of the job's write. -/
def Call.Carries : Call κ υ ι → Job → Prop
  | .auth _ (.registerUserWithFirestore email fullname profileImageUrl _), job =>
    job = .register email fullname profileImageUrl
  | .auth _ (.signInWitnGoogleFirestore _), job => job = .google
  | .gidSignIn _, job => job = .sheet
  | .getDocument uid (.signInWitnGoogleFirestore user _), job =>
    uid = user.uid ∧ job = .profile user
  | .setData uid values _, job =>
    ∃ email fullname profileImageUrl,
      values = profileValues email fullname profileImageUrl uid ∧
        job = .write uid (.create email fullname profileImageUrl)
  | .updateData uid data _, job => ∃ w, ProfileWrite.data w = some data ∧ job = .write uid w
  | .putData _ _ (.updateProfileImage uid _), job => job = .upload uid
  | .putData _ _ (.handleSignUp email _ fullname _), job => job = .signUpUpload email fullname
  | .downloadURL _ (.updateProfileImage uid _), job => job = .locate uid
  | .downloadURL _ (.handleSignUp email _ fullname _), job => job = .signUpLocate email fullname
  | _, job => job = .done

/-- A step goes on with `job`, if it goes on at all. -/
def Step.Carries (step : Step κ υ ι) (job : Job) : Prop :=
  ∀ call, step = .wait call → call.Carries job

def Task.Carries (task : Task κ υ ι) (job : Job) : Prop :=
  ∀ call, task.next = some call → call.Carries job

@[simp] theorem Step.carries_wait {call : Call κ υ ι} {job : Job} :
    (Step.wait call).Carries job ↔ call.Carries job := by
  constructor
  · intro h
    exact h call rfl
  · intro h call' hCall
    rw [Step.wait.injEq] at hCall
    exact hCall ▸ h

@[simp] theorem Step.carries_quit (job : Job) : (Step.quit : Step κ υ ι).Carries job :=
  fun _ hCall => by cases hCall

@[simp] theorem Step.carries_trap (what : ForceUnwrap) (job : Job) :
    (Step.trap what : Step κ υ ι).Carries job :=
  fun _ hCall => by cases hCall

@[simp] theorem Step.carries_completed (completion : κ) (error : Option Error) (job : Job) :
    (Step.completed completion error : Step κ υ ι).Carries job :=
  fun _ hCall => by cases hCall

@[simp] theorem Step.carries_fetched (comletion : υ) (user : User) (job : Job) :
    (Step.fetched comletion user : Step κ υ ι).Carries job :=
  fun _ hCall => by cases hCall

@[simp] theorem Step.carries_uploaded (completion : ι) (url : String) (job : Job) :
    (Step.uploaded completion url : Step κ υ ι).Carries job :=
  fun _ hCall => by cases hCall

theorem Task.ofStep_carries {step : Step κ υ ι} {job : Job} :
    (Task.ofStep step).Carries job ↔ step.Carries job := by
  cases step <;> simp [Task.Carries, Task.ofStep, Task.next]

theorem Task.answered_carries {call : Call κ υ ι} {step : Step κ υ ι} {job : Job} :
    (Task.answered call step).Carries job ↔ step.Carries job := by
  unfold Task.Carries
  rw [Task.next_answered]
  exact Task.ofStep_carries

theorem Task.waiting_carries {call : Call κ υ ι} {job : Job} :
    (Task.waiting call).Carries job ↔ call.Carries job := by
  simp [Task.Carries, Task.next]

-- ---------------------------------------------------------------------------
-- Starting an operation
-- ---------------------------------------------------------------------------

/-- An operation starts with the job of the account that is signed in. -/
theorem start_carries (session : Option Uid) (op : Operation κ υ ι) :
    (op.start session).Carries (Job.start session op) := by
  cases op with
  | updateProfileImage image filename completion =>
    cases hEnc : image.encodable <;> cases session <;>
      simp [Operation.start, Service.updateProfileImage, UIImage.jpegData, Job.start, hEnc,
        Call.Carries]
  | handleSignUp email password fullname profileImage filename completion =>
    cases hEnc : profileImage.encodable <;>
      simp [Operation.start, UIImage.jpegData, Job.start, hEnc, Call.Carries]
  | updateUserHasSeenOnboardingFirestore completion =>
    cases session with
    | none => exact Step.carries_quit _
    | some uid => exact Step.carries_wait.mpr ⟨.setHasSeenOnboarding, rfl, rfl⟩
  | updateUserData user completion =>
    cases session with
    | none => exact Step.carries_quit _
    | some uid => exact Step.carries_wait.mpr ⟨.setFullname user.fullname, rfl, rfl⟩
  | fetchUser comletion =>
    cases session with
    | none => exact Step.carries_quit _
    | some uid => exact Step.carries_wait.mpr rfl
  | fetchUserWithFirestore comletion =>
    cases session with
    | none => exact Step.carries_quit _
    | some uid => exact Step.carries_wait.mpr rfl
  | updateUserHasSeenOnboarding completion =>
    cases session with
    | none => exact Step.carries_quit _
    | some uid => exact Step.carries_wait.mpr rfl
  | _ => exact Step.carries_wait.mpr rfl

-- ---------------------------------------------------------------------------
-- Performing a call
-- ---------------------------------------------------------------------------

/-- The documents decode to the records. -/
def Agrees (users : Users) (record : Uid → Option User) : Prop :=
  ∀ u, (users u).map User.ofDictionary = record u

/-- The callback of a sign-in goes on with the job of the account that signed
in. -/
theorem signedIn_carries {callback : AuthCallback κ} {request : AuthRequest} {job : Job}
    (h : (Call.auth request callback : Call κ υ ι).Carries job) (record : Uid → Option User)
    (user : AuthUser) :
    (callback.run (some user) none : Step κ υ ι).Carries (job.next record (.signedIn user)) := by
  cases callback with
  | registerUserWithFirestore email fullname url completion =>
    have hJob : job = .register email fullname url := h
    subst hJob
    exact Step.carries_wait.mpr ⟨email, fullname, url, rfl, rfl⟩
  | signInWitnGoogleFirestore completion =>
    have hJob : job = .google := h
    subst hJob
    exact Step.carries_wait.mpr ⟨rfl, rfl⟩
  | logUserIn completion => exact Step.carries_completed _ _ _
  | registerUserWithFirebase email fullname completion =>
    have hJob : job = .done := h
    subst hJob
    exact Step.carries_wait.mpr rfl
  | signInWithGoogle completion =>
    have hJob : job = .done := h
    subst hJob
    exact Step.carries_wait.mpr rfl

/-- The callback of a read creates the account's own profile exactly when the
account has no record. -/
theorem read_carries {users : Users} {record : Uid → Option User} (hAgrees : Agrees users record)
    {uid : Uid} {callback : DocumentCallback κ υ} {job : Job}
    (h : (Call.getDocument uid callback : Call κ υ ι).Carries job) :
    (callback.run (some (users uid)) none : Step κ υ ι).Carries (job.next record .success) := by
  cases callback with
  | fetchUserWithFirestore comletion =>
    unfold DocumentCallback.run
    cases hDoc : users uid <;> simp
  | signInWitnGoogleFirestore user completion =>
    obtain ⟨rfl, rfl⟩ : uid = user.uid ∧ job = .profile user := h
    have hRecord := hAgrees user.uid
    cases hDoc : users user.uid with
    | some doc => simp [DocumentCallback.run]
    | none =>
      rw [hDoc, Option.map_none] at hRecord
      cases hEmail : user.email <;> cases hName : user.displayName <;>
        cases hPhoto : user.photoURL <;>
        simp [DocumentCallback.run, Job.next, Call.Carries, hEmail, hName, hPhoto, ← hRecord]

theorem located_carries {filename : Filename} {callback : StorageCallback κ ι} {job : Job}
    (h : (Call.downloadURL filename callback : Call κ υ ι).Carries job)
    (record : Uid → Option User) (url : String) :
    (callback.run (some url) none : Step κ υ ι).Carries (job.next record (.url url)) := by
  cases callback with
  | updateProfileImage uid completion =>
    have hJob : job = .locate uid := h
    subst hJob
    exact Step.carries_wait.mpr ⟨.setProfileImageUrl url, rfl, rfl⟩
  | handleSignUp email password fullname completion =>
    have hJob : job = .signUpLocate email fullname := h
    subst hJob
    exact Step.carries_wait.mpr rfl

theorem stored_carries {filename : Filename} {data : JPEGData} {callback : StorageCallback κ ι}
    {job : Job} (h : (Call.putData filename data callback : Call κ υ ι).Carries job)
    (record : Uid → Option User) (outcome : Outcome) :
    (callback.stored filename : Step κ υ ι).Carries (job.next record outcome) := by
  cases callback with
  | updateProfileImage uid completion =>
    have hJob : job = .upload uid := h
    subst hJob
    exact Step.carries_wait.mpr rfl
  | handleSignUp email password fullname completion =>
    have hJob : job = .signUpUpload email fullname := h
    subst hJob
    exact Step.carries_wait.mpr rfl

theorem observed_carries {uid : Uid} {callback : EventCallback κ υ} {job : Job}
    (h : (Call.observeSingleEvent uid callback : Call κ υ ι).Carries job)
    (record : Uid → Option User) (snapshot : Option Node) :
    (callback.run uid snapshot : Step κ υ ι).Carries (job.next record .success) := by
  have hJob : job = .done := by
    cases callback <;> exact h
  subst hJob
  cases callback with
  | signInWithGoogle user completion =>
    cases snapshot with
    | some node => exact Step.carries_completed _ _ _
    | none =>
      cases hEmail : user.email <;> cases hName : user.displayName <;>
        simp [EventCallback.run, Job.next, Call.Carries, hEmail, hName]
  | fetchUser comletion =>
    unfold EventCallback.run
    cases snapshot.bind Node.dictionary <;> simp

/--
**Captured ids.** However a call in flight goes, its callback goes on with the
job that is left for the operation's own account.
-/
theorem answered_carries {b b' : Backend} {call : Call κ υ ι} {outcome : Outcome}
    {step : Step κ υ ι} {job : Job} {record : Uid → Option User}
    (h : Answered b call outcome b' step) (hAgrees : Agrees b.users record)
    (hCarries : call.Carries job) : step.Carries (job.next record outcome) := by
  cases h with
  | authFailed request callback error => cases callback <;> simp [AuthCallback.run]
  | authenticated request callback user _ hAuth => exact signedIn_carries hCarries record user
  | sheetFailed completion error => exact Step.carries_quit _
  | sheetGranted completion user =>
    have hJob : job = .sheet := hCarries
    subst hJob
    exact Step.carries_wait.mpr rfl
  | readFailed uid callback error => cases callback <;> simp [DocumentCallback.run]
  | read uid callback => exact read_carries hAgrees hCarries
  | updateFailed uid data callback error => cases callback <;> simp [UpdateCallback.run]
  | updated uid data callback doc hDoc => cases callback <;> simp [UpdateCallback.run]
  | storeFailed filename data callback error => exact stored_carries hCarries record _
  | stored filename data callback url => exact stored_carries hCarries record _
  | locateFailed filename callback error => exact Step.carries_quit _
  | located filename callback image hImage => exact located_carries hCarries record image.url
  | observeFailed uid callback error => exact Step.carries_quit _
  | observed uid callback => exact observed_carries hCarries record _
  | _ => exact Step.carries_completed _ _ _

/-- A call that is no Firestore write applies no write to the records. -/
theorem applies_nil {call : Call κ υ ι} {job : Job} (hCarries : call.Carries job)
    (hSet : ∀ uid values completion, call ≠ .setData uid values completion)
    (hUpdate : ∀ uid data callback, call ≠ .updateData uid data callback) (outcome : Outcome) :
    job.applies outcome = [] := by
  have hNoWrite : ∀ account w, job ≠ .write account w := by
    rintro account w rfl
    cases call with
    | auth request callback => cases callback <;> cases hCarries
    | getDocument uid callback =>
      cases callback with
      | signInWitnGoogleFirestore user completion => exact absurd hCarries.2 (by simp)
      | fetchUserWithFirestore comletion => cases hCarries
    | setData uid values completion => exact hSet uid values completion rfl
    | updateData uid data callback => exact hUpdate uid data callback rfl
    | putData filename data callback => cases callback <;> cases hCarries
    | downloadURL filename callback => cases callback <;> cases hCarries
    | _ => cases hCarries
  cases job with
  | write account w => exact absurd rfl (hNoWrite account w)
  | _ => rfl

theorem applies_failure (job : Job) (error : Error) : job.applies (.failure error) = [] := by
  cases job <;> rfl

/-- The records follow the documents over every call. -/
theorem answered_agrees {b b' : Backend} {call : Call κ υ ι} {outcome : Outcome}
    {step : Step κ υ ι} {job : Job} {L : Ledger}
    (h : Answered b call outcome b' step) (hAgrees : Agrees b.users L.record)
    (hCarries : call.Carries job) :
    Agrees b'.users { L with applied := L.applied ++ job.applies outcome }.record := by
  have hSame : job.applies outcome = [] →
      Agrees b.users { L with applied := L.applied ++ job.applies outcome }.record := by
    intro hNil
    rw [hNil, List.append_nil]
    exact hAgrees
  cases h with
  | set uid values completion =>
    obtain ⟨email, fullname, url, rfl, rfl⟩ := hCarries
    intro u
    rw [Job.applies, Ledger.record_append]
    show (Function.update b.users uid _ u).map User.ofDictionary = _
    by_cases hu : uid = u
    · subst hu
      rw [Function.update_self, Option.map_some, ofDictionary_profileValues, if_pos rfl]
      rfl
    · rw [Function.update_of_ne (Ne.symm hu), if_neg hu]
      exact hAgrees u
  | updated uid data callback doc hDoc =>
    obtain ⟨w, hData, rfl⟩ := hCarries
    intro u
    rw [Job.applies, Ledger.record_append]
    show (Function.update b.users uid _ u).map User.ofDictionary = _
    by_cases hu : uid = u
    · subst hu
      have hRecord := hAgrees uid
      rw [hDoc, Option.map_some] at hRecord
      rw [Function.update_self, Option.map_some, if_pos rfl, ← hRecord,
        apply_ofDictionary hData]
    · rw [Function.update_of_ne (Ne.symm hu), if_neg hu]
      exact hAgrees u
  | authenticated request callback user b' hAuth =>
    rw [(Backend.authenticate_some hAuth).2.1]
    exact hSame (applies_nil hCarries (by simp) (by simp) _)
  | setFailed uid values completion error => exact hSame (applies_failure job error)
  | updateFailed uid data callback error => exact hSame (applies_failure job error)
  | _ => exact hSame (applies_nil hCarries (by simp) (by simp) _)

-- ---------------------------------------------------------------------------
-- The refinement
-- ---------------------------------------------------------------------------

/-- The ledger is in step with the net. -/
structure Refines (n : Net κ υ ι) (L : Ledger) : Prop where
  session : n.backend.currentUser = L.session
  jobs : List.Forall₂ Task.Carries n.tasks L.jobs
  records : Agrees n.backend.users L.record

theorem refines_fresh (backend : Backend) :
    Refines (Net.fresh backend : Net κ υ ι) (Ledger.opening backend) where
  session := rfl
  jobs := .nil
  records := fun _ => rfl

/-- Only a sign-in changes the session of the backend. -/
theorem answered_session {b b' : Backend} {call : Call κ υ ι} {outcome : Outcome}
    {step : Step κ υ ι} (h : Answered b call outcome b' step) :
    b'.currentUser = Ledger.sessionAfter b.currentUser outcome := by
  cases h with
  | authenticated request callback user _ hAuth => exact (Backend.authenticate_some hAuth).1
  | _ => rfl

/-- One event keeps the ledger in step with the net. -/
theorem refines_step (n : Net κ υ ι) (L : Ledger) (e : Net.Event κ υ ι) (n' : Net κ υ ι)
    (hRef : Refines n L) (hStep : n.step e = some n') : Refines n' (L.observe e) := by
  cases e with
  | call op =>
    rw [Net.step, Option.some.injEq] at hStep
    subst hStep
    refine ⟨hRef.session, ?_, hRef.records⟩
    refine Async.forall₂_concat hRef.jobs (Task.ofStep_carries.mpr ?_)
    rw [hRef.session]
    exact start_carries L.session op
  | session session =>
    rw [Net.step, Option.some.injEq] at hStep
    subst hStep
    exact ⟨rfl, hRef.jobs, hRef.records⟩
  | restart =>
    rw [Net.step, Option.some.injEq] at hStep
    subst hStep
    exact ⟨hRef.session, .nil, hRef.records⟩
  | perform i outcome =>
    obtain ⟨call, step, hTask, hAnswered, hTasks⟩ := Net.perform_eq_some hStep
    obtain ⟨job, hJob, hTaskCarries⟩ := Async.forall₂_getElem? hRef.jobs hTask
    have hCarries : call.Carries job := Task.waiting_carries.mp hTaskCarries
    rw [Ledger.observe, hJob, Option.getD_some]
    refine ⟨?_, ?_, answered_agrees hAnswered hRef.records hCarries⟩
    · rw [answered_session hAnswered, hRef.session]
    · rw [hTasks]
      exact Async.forall₂_set hRef.jobs
        (Task.answered_carries.mpr (answered_carries hAnswered hRef.records hCarries)) i
  | deliver i =>
    obtain ⟨⟨m, step⟩, hDeliver, rfl⟩ := Option.map_eq_some_iff.mp hStep
    obtain ⟨call, hTask, hBackend, hTasks⟩ := Net.deliver_eq_some hDeliver
    obtain ⟨job, hJob, hTaskCarries⟩ := Async.forall₂_getElem? hRef.jobs hTask
    refine ⟨?_, ?_, ?_⟩
    · rw [hBackend]
      exact hRef.session
    · have hOld : L.jobs.set i job = L.jobs := by
        obtain ⟨hLen, rfl⟩ := List.getElem?_eq_some_iff.mp hJob
        exact List.set_getElem_self hLen
      rw [hTasks, Ledger.observe, ← hOld]
      exact Async.forall₂_set hRef.jobs
        (Task.ofStep_carries.mpr (Task.answered_carries.mp hTaskCarries)) i
    · rw [hBackend]
      exact hRef.records

/-- Every run is followed by its ledger. -/
theorem refines_run {backend : Backend} {es : List (Net.Event κ υ ι)} {n : Net κ υ ι}
    (hRun : Async.run Net.step (Net.fresh backend) es = some n) :
    Refines n (Ledger.ofRun backend es) :=
  Async.run_simulation refines_step (refines_fresh backend) hRun

/--
**The profile store refines the record store.** In every run from an empty
users collection, an account either has no document and no create applied, or
its document decodes to the fold of the account's own writes in their order of
application.
-/
theorem profile_store_refines_records {backend : Backend} (hEmpty : ∀ u, backend.users u = none)
    {es : List (Net.Event κ υ ι)} {n : Net κ υ ι}
    (hRun : Async.run Net.step (Net.fresh backend) es = some n) (u : Uid) :
    (n.backend.users u = none ∧
      ∀ w ∈ (Ledger.ofRun backend es).writesOf u, ¬ w.IsCreate) ∨
    ∃ doc, n.backend.users u = some doc ∧
      ((Ledger.ofRun backend es).writesOf u).foldl (ProfileWrite.apply u) none =
        some (User.ofDictionary doc) := by
  have hRecord := (refines_run hRun).records u
  have hBase : (Ledger.ofRun backend es).base u = none := by
    rw [Ledger.ofRun_base]
    show (backend.users u).map User.ofDictionary = none
    rw [hEmpty, Option.map_none]
  cases hDoc : n.backend.users u with
  | none =>
    refine Or.inl ⟨rfl, fun w hMem hCreate => ?_⟩
    have hSome := Ledger.record_isSome_of_create _ hMem hCreate
    rw [hDoc, Option.map_none] at hRecord
    rw [← hRecord] at hSome
    exact absurd hSome (by simp)
  | some doc =>
    refine Or.inr ⟨doc, rfl, ?_⟩
    rw [hDoc, Option.map_some, Ledger.record, hBase] at hRecord
    exact hRecord.symm

/-- A registration, and an edit that its account starts and that is written
after it has signed out. -/
def editAfterSignOut : List (Net.Event Unit Unit Unit) :=
  [.call (.registerUserWithFirestore "ann@mail" "secret" "Ann" "ann.jpg" ()),
   .perform 0 (.signedIn ⟨"u", some "ann@mail", none, none⟩), .deliver 0,
   .perform 0 .success, .deliver 0,
   .call (.updateUserData ⟨"ann@mail", "Eve", false, "ann.jpg", "u"⟩ ()),
   .session none, .perform 1 .success]

theorem editAfterSignOut_stored :
    ∃ n doc, Async.run Net.step (Net.fresh Backend.empty) editAfterSignOut = some n ∧
      n.backend.users "u" = some doc ∧
      User.ofDictionary doc = ⟨"ann@mail", "Eve", false, "ann.jpg", "u"⟩ := by
  obtain ⟨n, hRun⟩ : ∃ n, Async.run Net.step (Net.fresh Backend.empty) editAfterSignOut = some n :=
    ⟨_, rfl⟩
  rcases profile_store_refines_records (fun _ => rfl) hRun "u" with ⟨-, hNone⟩ | ⟨doc, hDoc, hFold⟩
  · exact absurd trivial (hNone (.create "ann@mail" "Ann" "ann.jpg") (by decide))
  · refine ⟨n, doc, hRun, hDoc, ?_⟩
    have hRecord : ((Ledger.ofRun Backend.empty editAfterSignOut).writesOf "u").foldl
        (ProfileWrite.apply "u") none = some ⟨"ann@mail", "Eve", false, "ann.jpg", "u"⟩ := by
      decide
    rw [hRecord, Option.some.injEq] at hFold
    exact hFold.symm

end AggroApp
