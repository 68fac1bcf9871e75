import AggroApp.Model.Service

/-!
# AggroApp — the backends

Firebase Auth, Firestore, Storage and the Realtime Database as the app sees
them. `Backend.perform` carries out one call in flight: the outcome says how
the call went, the result is the new backend and the `Step` that the call's
callback takes when the answer is delivered. A call that fails has no effect.
An outcome that the backend cannot give (an `updateData` that succeeds on a
missing document, a new account under a uid that is taken) is not enabled.

Signing in or creating an account makes that account the current user of the
app, as Auth does.
-/

namespace AggroApp

/-- An Auth account. -/
structure Account where
  uid : Uid
  email : Option String
  deriving DecidableEq, Repr

/-- A picture below `STORAGE_PROFILE_IMAGES`, with the download URL that Storage
gave it. -/
structure StoredImage where
  data : JPEGData
  url : String
  deriving DecidableEq, Repr

structure Backend where
  accounts : List Account
  currentUser : Option Uid
  users : Users
  images : Filename → Option StoredImage
  database : UsersTree

/-- Nothing stored and nobody signed in. -/
def Backend.empty : Backend where
  accounts := []
  currentUser := none
  users := fun _ => none
  images := fun _ => none
  database := fun _ => none

/-- How a call went. -/
inductive Outcome
  | failure (error : Error)
  | success
  | signedIn (user : AuthUser)
  | gid (user : GIDGoogleUser)
  | url (url : String)
  deriving DecidableEq, Repr

/-- Auth grants `request` to `user`. `createUser` makes an account for an e-mail
that has none, with a new uid: no account has it, and no document is named by
it. A first sign-in with a credential makes the account too. -/
def Backend.authenticate (b : Backend) (request : AuthRequest) (user : AuthUser) :
    Option Backend :=
  match request with
  | .createUser email _ =>
    if (b.accounts.any fun account => account.uid = user.uid ∨ account.email = some email) ∨
        (b.users user.uid).isSome then
      none
    else
      some { b with
        accounts := b.accounts ++ [⟨user.uid, some email⟩]
        currentUser := some user.uid }
  | .signIn email _ =>
    if b.accounts.any fun account => account.uid = user.uid ∧ account.email = some email then
      some { b with currentUser := some user.uid }
    else
      none
  | .signInWith _ =>
    if b.accounts.any fun account => account.uid = user.uid then
      some { b with currentUser := some user.uid }
    else
      some { b with
        accounts := b.accounts ++ [⟨user.uid, user.email⟩]
        currentUser := some user.uid }

/-- The Firestore write of a `setData` that succeeds. -/
def Backend.setData (b : Backend) (uid : Uid) (values : Fields) : Backend :=
  { b with users := b.users.setData uid values }

/-- Storage keeps `data` under `filename`, reachable at `url`. -/
def Backend.store (b : Backend) (filename : Filename) (data : JPEGData) (url : String) :
    Backend :=
  { b with images := Function.update b.images filename (some ⟨data, url⟩) }

variable {κ υ ι : Type}

/-- Carry out a call in flight. -/
def Backend.perform (b : Backend) : Call κ υ ι → Outcome → Option (Backend × Step κ υ ι)
  | .auth _ callback, .failure error => some (b, callback.run none (some error))
  | .auth request callback, .signedIn user =>
    (b.authenticate request user).map fun b' => (b', callback.run (some user) none)
  | .gidSignIn completion, .failure error =>
    some (b, gidSignInCallback completion none (some error))
  | .gidSignIn completion, .gid user => some (b, gidSignInCallback completion (some user) none)
  | .sendPasswordReset _ completion, .failure error => some (b, .completed completion (some error))
  | .sendPasswordReset _ completion, .success => some (b, .completed completion none)
  | .getDocument _ callback, .failure error => some (b, callback.run none (some error))
  | .getDocument uid callback, .success => some (b, callback.run (some (b.users uid)) none)
  | .setData _ _ completion, .failure error => some (b, .completed completion (some error))
  | .setData uid values completion, .success =>
    some (b.setData uid values, .completed completion none)
  | .updateData _ _ callback, .failure error => some (b, callback.run (some error))
  | .updateData uid data callback, .success =>
    (b.users.updateData uid data).map fun users => ({ b with users }, callback.run none)
  | .putData filename _ callback, .failure _ => some (b, callback.stored filename)
  | .putData filename data callback, .url url =>
    some (b.store filename data url, callback.stored filename)
  | .downloadURL _ callback, .failure error => some (b, callback.run none (some error))
  | .downloadURL filename callback, .url url =>
    if (b.images filename).any fun image => image.url = url then
      some (b, callback.run (some url) none)
    else
      none
  -- without a cancel block nothing is called when the read fails
  | .observeSingleEvent _ _, .failure _ => some (b, .quit)
  | .observeSingleEvent uid callback, .success => some (b, callback.run uid (b.database uid))
  | .updateChildValues _ _ completion, .failure error =>
    some (b, .completed completion (some error))
  | .updateChildValues ref values completion, .success =>
    some ({ b with database := b.database.updateChildValues ref values },
      .completed completion none)
  | .setValue _ _ _ completion, .failure error => some (b, .completed completion (some error))
  | .setValue uid key value completion, .success =>
    some ({ b with database := b.database.setValue uid key value }, .completed completion none)
  | _, _ => none

-- ---------------------------------------------------------------------------
-- What a call can do
-- ---------------------------------------------------------------------------

/-- The ways in which a call in flight can go, with the backend and the callback
step that each leads to. -/
inductive Answered (b : Backend) : Call κ υ ι → Outcome → Backend → Step κ υ ι → Prop
  | authFailed (request : AuthRequest) (callback : AuthCallback κ) (error : Error) :
    Answered b (.auth request callback) (.failure error) b (callback.run none (some error))
  | authenticated (request : AuthRequest) (callback : AuthCallback κ) (user : AuthUser)
      (b' : Backend) (hAuth : b.authenticate request user = some b') :
    Answered b (.auth request callback) (.signedIn user) b' (callback.run (some user) none)
  | sheetFailed (completion : κ) (error : Error) :
    Answered b (.gidSignIn completion) (.failure error) b .quit
  | sheetGranted (completion : κ) (user : GIDGoogleUser) :
    Answered b (.gidSignIn completion) (.gid user) b
      (Service.signInWitnGoogleFirestore user completion)
  | resetFailed (email : String) (completion : κ) (error : Error) :
    Answered b (.sendPasswordReset email completion) (.failure error) b
      (.completed completion (some error))
  | resetSent (email : String) (completion : κ) :
    Answered b (.sendPasswordReset email completion) .success b (.completed completion none)
  | readFailed (uid : Uid) (callback : DocumentCallback κ υ) (error : Error) :
    Answered b (.getDocument uid callback) (.failure error) b (callback.run none (some error))
  | read (uid : Uid) (callback : DocumentCallback κ υ) :
    Answered b (.getDocument uid callback) .success b (callback.run (some (b.users uid)) none)
  | setFailed (uid : Uid) (values : Fields) (completion : κ) (error : Error) :
    Answered b (.setData uid values completion) (.failure error) b
      (.completed completion (some error))
  | set (uid : Uid) (values : Fields) (completion : κ) :
    Answered b (.setData uid values completion) .success (b.setData uid values)
      (.completed completion none)
  | updateFailed (uid : Uid) (data : Fields) (callback : UpdateCallback κ ι) (error : Error) :
    Answered b (.updateData uid data callback) (.failure error) b (callback.run (some error))
  | updated (uid : Uid) (data : Fields) (callback : UpdateCallback κ ι) (doc : Document)
      (hDoc : b.users uid = some doc) :
    Answered b (.updateData uid data callback) .success
      { b with users := Function.update b.users uid (some (doc.merge data)) } (callback.run none)
  | storeFailed (filename : Filename) (data : JPEGData) (callback : StorageCallback κ ι)
      (error : Error) :
    Answered b (.putData filename data callback) (.failure error) b (callback.stored filename)
  | stored (filename : Filename) (data : JPEGData) (callback : StorageCallback κ ι)
      (url : String) :
    Answered b (.putData filename data callback) (.url url) (b.store filename data url)
      (callback.stored filename)
  | locateFailed (filename : Filename) (callback : StorageCallback κ ι) (error : Error) :
    Answered b (.downloadURL filename callback) (.failure error) b
      (callback.run none (some error))
  | located (filename : Filename) (callback : StorageCallback κ ι) (image : StoredImage)
      (hImage : b.images filename = some image) :
    Answered b (.downloadURL filename callback) (.url image.url) b
      (callback.run (some image.url) none)
  | observeFailed (uid : Uid) (callback : EventCallback κ υ) (error : Error) :
    Answered b (.observeSingleEvent uid callback) (.failure error) b .quit
  | observed (uid : Uid) (callback : EventCallback κ υ) :
    Answered b (.observeSingleEvent uid callback) .success b (callback.run uid (b.database uid))
  | childrenFailed (ref : DatabaseReference) (values : Fields) (completion : κ) (error : Error) :
    Answered b (.updateChildValues ref values completion) (.failure error) b
      (.completed completion (some error))
  | childrenUpdated (ref : DatabaseReference) (values : Fields) (completion : κ) :
    Answered b (.updateChildValues ref values completion) .success
      { b with database := b.database.updateChildValues ref values } (.completed completion none)
  | valueFailed (uid : Uid) (key : String) (value : Value) (completion : κ) (error : Error) :
    Answered b (.setValue uid key value completion) (.failure error) b
      (.completed completion (some error))
  | valueSet (uid : Uid) (key : String) (value : Value) (completion : κ) :
    Answered b (.setValue uid key value completion) .success
      { b with database := b.database.setValue uid key value } (.completed completion none)

/-- Every performed call went in one of these ways. -/
theorem perform_answered {b b' : Backend} {call : Call κ υ ι} {outcome : Outcome}
    {step : Step κ υ ι} (h : b.perform call outcome = some (b', step)) :
    Answered b call outcome b' step := by
  unfold Backend.perform at h
  split at h
  case h_2 request callback user =>
    obtain ⟨b'', hAuth, hEq⟩ := Option.map_eq_some_iff.mp h
    rw [Prod.mk.injEq] at hEq
    obtain ⟨rfl, rfl⟩ := hEq
    exact .authenticated request callback user b'' hAuth
  case h_12 uid data callback =>
    obtain ⟨users, hUsers, hEq⟩ := Option.map_eq_some_iff.mp h
    obtain ⟨doc, hDoc, rfl⟩ := Users.updateData_eq_some hUsers
    rw [Prod.mk.injEq] at hEq
    obtain ⟨rfl, rfl⟩ := hEq
    exact .updated uid data callback doc hDoc
  case h_16 filename callback url =>
    cases hImage : b.images filename with
    | none => simp [hImage] at h
    | some image =>
      simp only [hImage, Option.any_some, decide_eq_true_eq, Option.ite_none_right_eq_some,
        Option.some.injEq, Prod.mk.injEq] at h
      obtain ⟨rfl, rfl, rfl⟩ := h
      exact .located filename callback image hImage
  all_goals
    first
    | (rw [Option.some.injEq, Prod.mk.injEq] at h
       obtain ⟨rfl, rfl⟩ := h
       constructor)
    | cases h

/-- A sign-in makes the account the current user and touches no stored data. -/
theorem Backend.authenticate_some {b b' : Backend} {request : AuthRequest} {user : AuthUser}
    (h : b.authenticate request user = some b') :
    b'.currentUser = some user.uid ∧ b'.users = b.users ∧ b'.images = b.images ∧
      b'.database = b.database := by
  cases request with
  | createUser email password =>
    rw [Backend.authenticate] at h
    split at h
    · exact absurd h (by simp)
    · rw [Option.some.injEq] at h
      exact h ▸ ⟨rfl, rfl, rfl, rfl⟩
  | signIn email password =>
    rw [Backend.authenticate] at h
    split at h
    · rw [Option.some.injEq] at h
      exact h ▸ ⟨rfl, rfl, rfl, rfl⟩
    · exact absurd h (by simp)
  | signInWith credential =>
    rw [Backend.authenticate] at h
    split at h <;> rw [Option.some.injEq] at h <;> exact h ▸ ⟨rfl, rfl, rfl, rfl⟩

/-- The session changes by a sign-in only; signing out is not among the calls. -/
theorem Answered.currentUser {b b' : Backend} {call : Call κ υ ι} {outcome : Outcome}
    {step : Step κ υ ι} (h : Answered b call outcome b' step) :
    b'.currentUser = b.currentUser ∨
      ∃ user, outcome = .signedIn user ∧ b'.currentUser = some user.uid := by
  cases h with
  | authenticated request callback user b' hAuth =>
    exact Or.inr ⟨user, rfl, (Backend.authenticate_some hAuth).1⟩
  | _ => exact Or.inl rfl

-- ---------------------------------------------------------------------------
-- Whose call it is
-- ---------------------------------------------------------------------------

/-- The completion that an operation was given. -/
inductive Owner (κ υ ι : Type)
  | outcome (completion : κ)
  | value (comletion : υ)
  | url (completion : ι)
  deriving DecidableEq, Repr

def AuthCallback.completion : AuthCallback κ → κ
  | .logUserIn completion => completion
  | .registerUserWithFirebase _ _ completion => completion
  | .registerUserWithFirestore _ _ _ completion => completion
  | .signInWithGoogle completion => completion
  | .signInWitnGoogleFirestore completion => completion

/-- The completion at the end of the chain that the call belongs to. -/
def Call.owner : Call κ υ ι → Owner κ υ ι
  | .auth _ callback => .outcome callback.completion
  | .gidSignIn completion => .outcome completion
  | .sendPasswordReset _ completion => .outcome completion
  | .getDocument _ (.signInWitnGoogleFirestore _ completion) => .outcome completion
  | .getDocument _ (.fetchUserWithFirestore comletion) => .value comletion
  | .setData _ _ completion => .outcome completion
  | .updateData _ _ (.direct completion) => .outcome completion
  | .updateData _ _ (.updateProfileImage _ completion) => .url completion
  | .putData _ _ (.updateProfileImage _ completion) => .url completion
  | .putData _ _ (.handleSignUp _ _ _ completion) => .outcome completion
  | .downloadURL _ (.updateProfileImage _ completion) => .url completion
  | .downloadURL _ (.handleSignUp _ _ _ completion) => .outcome completion
  | .observeSingleEvent _ (.signInWithGoogle _ completion) => .outcome completion
  | .observeSingleEvent _ (.fetchUser comletion) => .value comletion
  | .updateChildValues _ _ completion => .outcome completion
  | .setValue _ _ _ completion => .outcome completion

/-- The completion that the step runs, or that the chain it goes on with has. -/
def Step.owner : Step κ υ ι → Option (Owner κ υ ι)
  | .quit => none
  | .trap _ => none
  | .completed completion _ => some (.outcome completion)
  | .fetched comletion _ => some (.value comletion)
  | .uploaded completion _ => some (.url completion)
  | .wait call => some call.owner

theorem AuthCallback.run_owner (callback : AuthCallback κ) (result : Option AuthUser)
    (error : Option Error) :
    ∀ owner ∈ (callback.run result error : Step κ υ ι).owner,
      owner = .outcome callback.completion := by
  cases callback <;> cases error <;> cases result <;>
    simp [AuthCallback.run, Step.owner, Call.owner, AuthCallback.completion]

/-- What the Google sign-in can do with the answer of its document read. -/
theorem DocumentCallback.run_signIn (user : AuthUser) (completion : κ)
    (snapshot : Option (Option Document)) (error : Option Error) {step : Step κ υ ι}
    (h : (DocumentCallback.signInWitnGoogleFirestore user completion).run snapshot error = step) :
    step = .trap .snapshot ∨ step = .quit ∨ step = .completed completion error ∨
      ∃ email fullname profileImageUrl, step = .wait (.setData user.uid
        (profileValues email fullname profileImageUrl user.uid) completion) := by
  subst h
  rcases snapshot with _ | _ | document
  · exact Or.inl rfl
  · unfold DocumentCallback.run
    dsimp only
    split
    · exact Or.inr (Or.inl rfl)
    · split
      · exact Or.inr (Or.inl rfl)
      · split
        · exact Or.inr (Or.inl rfl)
        · exact Or.inr (Or.inr (Or.inr ⟨_, _, _, rfl⟩))
  · exact Or.inr (Or.inr (Or.inl rfl))

/-- The same in the Realtime Database. -/
theorem EventCallback.run_signIn (user : AuthUser) (completion : κ) (uid : Uid)
    (snapshot : Option Node) {step : Step κ υ ι}
    (h : (EventCallback.signInWithGoogle user completion).run uid snapshot = step) :
    step = .quit ∨ step = .completed completion none ∨
      ∃ email fullname,
        step = .wait (.updateChildValues .users (recordValues email fullname) completion) := by
  subst h
  rcases snapshot with _ | node
  · unfold EventCallback.run
    dsimp only
    split
    · exact Or.inl rfl
    · split
      · exact Or.inl rfl
      · exact Or.inr (Or.inr ⟨_, _, rfl⟩)
  · exact Or.inr (Or.inl rfl)

theorem DocumentCallback.run_owner (uid : Uid) (callback : DocumentCallback κ υ)
    (snapshot : Option (Option Document)) (error : Option Error) :
    ∀ owner ∈ (callback.run snapshot error : Step κ υ ι).owner,
      owner = (Call.getDocument uid callback).owner := by
  cases callback with
  | signInWitnGoogleFirestore user completion =>
    generalize hStep : DocumentCallback.run _ _ _ = step
    rcases DocumentCallback.run_signIn user completion snapshot error hStep with
      rfl | rfl | rfl | ⟨email, fullname, url, rfl⟩ <;> simp [Step.owner, Call.owner]
  | fetchUserWithFirestore comletion =>
    rcases snapshot with _ | _ | document <;> simp [DocumentCallback.run, Step.owner, Call.owner]

theorem EventCallback.run_owner (uid : Uid) (callback : EventCallback κ υ)
    (snapshot : Option Node) :
    ∀ owner ∈ (callback.run uid snapshot : Step κ υ ι).owner,
      owner = (Call.observeSingleEvent uid callback).owner := by
  cases callback with
  | signInWithGoogle user completion =>
    generalize hStep : EventCallback.run _ _ _ = step
    rcases EventCallback.run_signIn user completion uid snapshot hStep with
      rfl | rfl | ⟨email, fullname, rfl⟩ <;> simp [Step.owner, Call.owner]
  | fetchUser comletion =>
    rcases snapshot with _ | _ | document <;>
      simp [EventCallback.run, Node.dictionary, Step.owner, Call.owner]

theorem StorageCallback.run_owner (filename : Filename) (callback : StorageCallback κ ι)
    (url : Option String) (error : Option Error) :
    ∀ owner ∈ (callback.run url error : Step κ υ ι).owner,
      owner = (Call.downloadURL filename callback : Call κ υ ι).owner := by
  cases callback <;> cases url <;>
    simp [StorageCallback.run, Service.registerUserWithFirestore, AuthCallback.completion,
      Step.owner, Call.owner]

/-- A chain of calls keeps its completion. -/
theorem Answered.owner {b b' : Backend} {call : Call κ υ ι} {outcome : Outcome}
    {step : Step κ υ ι} (h : Answered b call outcome b' step) :
    ∀ owner ∈ step.owner, owner = call.owner := by
  cases h with
  | authFailed request callback error => exact callback.run_owner none (some error)
  | authenticated request callback user => exact callback.run_owner (some user) none
  | sheetGranted completion user =>
    simp [Service.signInWitnGoogleFirestore, Step.owner, Call.owner, AuthCallback.completion]
  | readFailed uid callback error => exact callback.run_owner uid none (some error)
  | read uid callback => exact callback.run_owner uid (some (b.users uid)) none
  | updateFailed uid data callback error =>
    cases callback <;> simp [UpdateCallback.run, Step.owner, Call.owner]
  | updated uid data callback doc hDoc =>
    cases callback <;> simp [UpdateCallback.run, Step.owner, Call.owner]
  | storeFailed filename data callback error =>
    cases callback <;> simp [StorageCallback.stored, Step.owner, Call.owner]
  | stored filename data callback url =>
    cases callback <;> simp [StorageCallback.stored, Step.owner, Call.owner]
  | locateFailed filename callback error => exact callback.run_owner filename none (some error)
  | located filename callback image hImage =>
    exact callback.run_owner filename (some image.url) none
  | observed uid callback => exact callback.run_owner uid (b.database uid)
  | _ => simp [Step.owner, Call.owner]

-- ---------------------------------------------------------------------------
-- One operation on its own
-- ---------------------------------------------------------------------------

/-- Carry a chain of calls through `outcomes`, one for each call in turn. -/
def Backend.drive (b : Backend) (step : Step κ υ ι) : List Outcome → Option (Backend × Step κ υ ι)
  | [] => some (b, step)
  | outcome :: outcomes =>
    match step with
    | .wait call =>
      (b.perform call outcome).bind fun (b', next) => b'.drive next outcomes
    | _ => none

/-- A chain that waits for a call has either come no further, or goes on from
what the call did. -/
theorem drive_wait {b b' : Backend} {call : Call κ υ ι} {step : Step κ υ ι}
    {outcomes : List Outcome} (h : b.drive (.wait call) outcomes = some (b', step)) :
    (outcomes = [] ∧ b' = b ∧ step = .wait call) ∨
    ∃ outcome rest b₁ next, outcomes = outcome :: rest ∧ Answered b call outcome b₁ next ∧
      b₁.drive next rest = some (b', step) := by
  cases outcomes with
  | nil =>
    rw [Backend.drive, Option.some.injEq, Prod.mk.injEq] at h
    exact Or.inl ⟨rfl, h.1.symm, h.2.symm⟩
  | cons outcome rest =>
    obtain ⟨⟨b₁, next⟩, hPerform, hRest⟩ := Option.bind_eq_some_iff.mp h
    exact Or.inr ⟨outcome, rest, b₁, next, rfl, perform_answered hPerform, hRest⟩

/-- A chain that has ended changes nothing any more. -/
theorem drive_ended {b b' : Backend} {start step : Step κ υ ι} {outcomes : List Outcome}
    (hStart : ∀ call, start ≠ .wait call) (h : b.drive start outcomes = some (b', step)) :
    outcomes = [] ∧ b' = b ∧ step = start := by
  cases outcomes with
  | nil =>
    rw [Backend.drive, Option.some.injEq, Prod.mk.injEq] at h
    exact ⟨rfl, h.1.symm, h.2.symm⟩
  | cons outcome rest =>
    cases start with
    | wait call => exact absurd rfl (hStart call)
    | _ => exact absurd h (by simp [Backend.drive])

end AggroApp
