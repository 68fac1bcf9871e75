import AggroApp.Model.Net

/-!
# AggroApp — the per-account record store

What the Firestore operations are for, stated without dictionaries, documents
or captured ids: every account has at most one `User` record, and each
operation does one write to the record of *its own* account. The account of an
operation is

* the account that is signed in when the operation is called, for the three
  updates;
* the account that Auth created, for a registration;
* the account that Auth signed in, for a Google sign-in.

A `Ledger` follows a run event by event. It keeps the session, what each
operation has still to do (its `Job`), and the writes applied so far in their
order of application. The record of an account is the fold of its own writes.
-/

namespace AggroApp

/-- A write to one account's record. -/
inductive ProfileWrite
  | create (email fullname profileImageUrl : String)
  | setHasSeenOnboarding
  | setFullname (fullname : String)
  | setProfileImageUrl (profileImageUrl : String)
  deriving DecidableEq, Repr

def ProfileWrite.IsCreate : ProfileWrite → Prop
  | .create .. => True
  | _ => False

/-- The effect of a write on the record of the account `u`. A create sets all
five fields, each update sets one field of a record that exists. -/
def ProfileWrite.apply (u : Uid) (record : Option User) : ProfileWrite → Option User
  | .create email fullname profileImageUrl => some ⟨email, fullname, false, profileImageUrl, u⟩
  | .setHasSeenOnboarding => record.map fun user => { user with hasSeenOnboarding := true }
  | .setFullname fullname => record.map fun user => { user with fullname }
  | .setProfileImageUrl profileImageUrl =>
    record.map fun user => { user with profileImageUrl }

/-- What an operation has still to do. -/
inductive Job
  | done
  | sheet
  | google
  | profile (user : AuthUser)
  | signUpUpload (email fullname : String)
  | signUpLocate (email fullname : String)
  | register (email fullname profileImageUrl : String)
  | upload (account : Uid)
  | locate (account : Uid)
  | write (account : Uid) (w : ProfileWrite)
  deriving DecidableEq, Repr

/-- The job of an operation that is called under `session`. -/
def Job.start {κ υ ι : Type} (session : Option Uid) : Operation κ υ ι → Job
  | .registerUserWithFirestore email _ fullname profileImageUrl _ =>
    .register email fullname profileImageUrl
  | .signInWitnGoogleFirestore _ _ => .google
  | .handleGoogleLogin _ => .sheet
  | .handleSignUp email _ fullname profileImage _ _ =>
    if profileImage.encodable then .signUpUpload email fullname else .done
  | .updateUserHasSeenOnboardingFirestore _ =>
    match session with
    | none => .done
    | some account => .write account .setHasSeenOnboarding
  | .updateUserData user _ =>
    match session with
    | none => .done
    | some account => .write account (.setFullname user.fullname)
  | .updateProfileImage image _ _ =>
    match session with
    | none => .done
    | some account => if image.encodable then .upload account else .done
  | _ => .done

/-- The job that is left when the next backend step of a job went as `outcome`
says, over the records `record`. -/
def Job.next (record : Uid → Option User) : Job → Outcome → Job
  | .sheet, .gid _ => .google
  | .google, .signedIn user => .profile user
  | .profile user, .success =>
    match record user.uid, user.email, user.displayName, user.photoURL with
    | none, some email, some fullname, some profileImageUrl =>
      .write user.uid (.create email fullname profileImageUrl)
    | _, _, _, _ => .done
  | .signUpUpload email fullname, _ => .signUpLocate email fullname
  | .signUpLocate email fullname, .url profileImageUrl =>
    .register email fullname profileImageUrl
  | .register email fullname profileImageUrl, .signedIn user =>
    .write user.uid (.create email fullname profileImageUrl)
  | .upload account, _ => .locate account
  | .locate account, .url profileImageUrl => .write account (.setProfileImageUrl profileImageUrl)
  | _, _ => .done

/-- The writes that a backend step applies. -/
def Job.applies : Job → Outcome → List (Uid × ProfileWrite)
  | .write account w, .success => [(account, w)]
  | _, _ => []

structure Ledger where
  base : Uid → Option User
  session : Option Uid
  jobs : List Job
  applied : List (Uid × ProfileWrite)

namespace Ledger

/-- The writes of the account `u`, in their order of application. -/
def writesOf (L : Ledger) (u : Uid) : List ProfileWrite :=
  (L.applied.filter fun entry => entry.1 = u).map Prod.snd

/-- The record of the account `u`: the fold of its own writes. -/
def record (L : Ledger) (u : Uid) : Option User :=
  (L.writesOf u).foldl (ProfileWrite.apply u) (L.base u)

/-- The ledger before the first event. -/
def opening (backend : Backend) : Ledger where
  base := fun u => (backend.users u).map User.ofDictionary
  session := backend.currentUser
  jobs := []
  applied := []

def sessionAfter (session : Option Uid) : Outcome → Option Uid
  | .signedIn user => some user.uid
  | _ => session

/-- Follow one event. -/
def observe {κ υ ι : Type} (L : Ledger) : Net.Event κ υ ι → Ledger
  | .call op => { L with jobs := L.jobs ++ [Job.start L.session op] }
  | .session session => { L with session }
  | .restart => { L with jobs := [] }
  | .perform i outcome =>
    let job := L.jobs[i]?.getD .done
    { L with
      session := sessionAfter L.session outcome
      jobs := L.jobs.set i (job.next L.record outcome)
      applied := L.applied ++ job.applies outcome }
  | .deliver _ => L

/-- The ledger of a run. -/
def ofRun {κ υ ι : Type} (backend : Backend) (es : List (Net.Event κ υ ι)) : Ledger :=
  es.foldl observe (opening backend)

theorem observe_base {κ υ ι : Type} (L : Ledger) (e : Net.Event κ υ ι) :
    (L.observe e).base = L.base := by
  cases e <;> rfl

theorem ofRun_base {κ υ ι : Type} (backend : Backend) (es : List (Net.Event κ υ ι)) :
    (ofRun backend es).base = (opening backend).base := by
  unfold ofRun
  generalize opening backend = L
  induction es generalizing L with
  | nil => rfl
  | cons e es ih => rw [List.foldl_cons, ih, observe_base]

-- ---------------------------------------------------------------------------
-- Records and writes
-- ---------------------------------------------------------------------------

theorem writesOf_append (L : Ledger) (es : List (Uid × ProfileWrite)) (u : Uid) :
    { L with applied := L.applied ++ es }.writesOf u =
      L.writesOf u ++ (es.filter fun entry => entry.1 = u).map Prod.snd := by
  simp only [writesOf, List.filter_append, List.map_append]

/-- A new write changes the record of its own account only. -/
theorem record_append (L : Ledger) (account : Uid) (w : ProfileWrite) (u : Uid) :
    { L with applied := L.applied ++ [(account, w)] }.record u =
      if account = u then w.apply u (L.record u) else L.record u := by
  unfold record
  rw [writesOf_append, List.foldl_append]
  by_cases h : account = u
  · simp [h]
  · simp [h]

/-- Once an account has a record it keeps one. -/
theorem foldl_apply_isSome (u : Uid) {record : Option User} (h : record.isSome)
    (ws : List ProfileWrite) : (ws.foldl (ProfileWrite.apply u) record).isSome := by
  induction ws generalizing record with
  | nil => exact h
  | cons w ws ih =>
    refine ih ?_
    cases w <;> simp [ProfileWrite.apply, h]

/-- A create gives the account a record, whatever follows it. -/
theorem record_isSome_of_create (L : Ledger) {u : Uid} {w : ProfileWrite}
    (hMem : w ∈ L.writesOf u) (hCreate : w.IsCreate) : (L.record u).isSome := by
  obtain ⟨before, after, hSplit⟩ := List.append_of_mem hMem
  unfold record
  rw [hSplit, List.foldl_append, List.foldl_cons]
  refine foldl_apply_isSome u ?_ after
  cases w with
  | create email fullname profileImageUrl => rfl
  | setHasSeenOnboarding => exact hCreate.elim
  | setFullname fullname => exact hCreate.elim
  | setProfileImageUrl profileImageUrl => exact hCreate.elim

end Ledger

end AggroApp
