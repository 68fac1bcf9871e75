import AggroApp.Model.Service

/-!
# AggroApp — what the operations report

An operation run on its own against arbitrary answers: every kind of backend
call is answered with a value or with an error, freely and independently of
the others (`Answers`). `Operation.report` follows the chain of callbacks to its
end and records how often the completion ran and with which error, how many
backend steps failed, and whether a forced unwrap trapped.

* `report_ended`         — no chain makes more than four calls.
* `faithful_iff`         — an operation reports its outcome faithfully exactly
  when `ReportsWhen` holds of the session and the answers.
* `unreported_outcomes`  — answers to which three operations do not.
-/

namespace AggroApp

/-- The answers of the backends. The block of `observeSingleEvent` is not called
at all when the read fails, which is `event = none`. -/
structure Answers where
  sheet : Except Error GIDGoogleUser
  auth : Except Error AuthUser
  document : Except Error (Option Document)
  write : Option Error
  stored : Option Error
  url : Except Error String
  event : Option (Option Node)
  databaseWrite : Option Error
  reset : Option Error

variable {κ υ ι : Type}

/-- The step that the callback of a call takes on its answer. -/
def Call.answer (answers : Answers) : Call κ υ ι → Step κ υ ι
  | .auth _ callback =>
    match answers.auth with
    | .error error => callback.run none (some error)
    | .ok user => callback.run (some user) none
  | .gidSignIn completion =>
    match answers.sheet with
    | .error error => gidSignInCallback completion none (some error)
    | .ok user => gidSignInCallback completion (some user) none
  | .sendPasswordReset _ completion => .completed completion answers.reset
  | .getDocument _ callback =>
    match answers.document with
    | .error error => callback.run none (some error)
    | .ok snapshot => callback.run (some snapshot) none
  | .setData _ _ completion => .completed completion answers.write
  | .updateData _ _ callback => callback.run answers.write
  | .putData filename _ callback => callback.stored filename
  | .downloadURL _ callback =>
    match answers.url with
    | .error error => callback.run none (some error)
    | .ok url => callback.run (some url) none
  | .observeSingleEvent uid callback =>
    match answers.event with
    | none => .quit
    | some snapshot => callback.run uid snapshot
  | .updateChildValues _ _ completion => .completed completion answers.databaseWrite
  | .setValue _ _ _ completion => .completed completion answers.databaseWrite

/-- The call was answered with an error. -/
def Call.failed (answers : Answers) : Call κ υ ι → Bool
  | .auth _ _ => answers.auth.isOk.not
  | .gidSignIn _ => answers.sheet.isOk.not
  | .sendPasswordReset _ _ => answers.reset.isSome
  | .getDocument _ _ => answers.document.isOk.not
  | .setData _ _ _ | .updateData _ _ _ => answers.write.isSome
  | .putData _ _ _ => answers.stored.isSome
  | .downloadURL _ _ => answers.url.isOk.not
  | .observeSingleEvent _ _ => answers.event.isNone
  | .updateChildValues _ _ _ | .setValue _ _ _ _ => answers.databaseWrite.isSome

/-- What has been seen of an operation: the errors its completion was called
with (a completion that takes a value is called without one), the number of
failed backend steps, a trap, and whether the chain has come to its end. -/
structure Report where
  calls : List (Option Error)
  failures : ℕ
  trapped : Option ForceUnwrap
  ended : Bool
  deriving DecidableEq, Repr

/-- Follow a chain of callbacks for up to `fuel` calls. -/
def Step.settle (answers : Answers) : ℕ → Step κ υ ι → Report
  | _, .quit => ⟨[], 0, none, true⟩
  | _, .trap what => ⟨[], 0, some what, true⟩
  | _, .completed _ error => ⟨[error], 0, none, true⟩
  | _, .fetched _ _ => ⟨[none], 0, none, true⟩
  | _, .uploaded _ _ => ⟨[none], 0, none, true⟩
  | 0, .wait _ => ⟨[], 0, none, false⟩
  | fuel + 1, .wait call =>
    let report := (call.answer answers).settle answers fuel
    { report with failures := report.failures + (call.failed answers).toNat }

def Operation.report (session : Option Uid) (answers : Answers) (op : Operation κ υ ι) : Report :=
  (op.start session).settle answers 4

/-- A completion for the outcome is called exactly once, and without an error
only if every backend step succeeded. -/
def Report.ReportsOutcome (r : Report) : Prop :=
  r.ended = true ∧ r.trapped = none ∧ ∃ error, r.calls = [error] ∧ (error = none → r.failures = 0)

/-- A completion for a value is called at most once, and only if every backend
step succeeded. -/
def Report.DeliversValue (r : Report) : Prop :=
  r.ended = true ∧ r.trapped = none ∧ r.calls.length ≤ 1 ∧ (r.calls ≠ [] → r.failures = 0)

/-- The operation reports its outcome faithfully. -/
def Operation.Faithful (session : Option Uid) (answers : Answers) (op : Operation κ υ ι) : Prop :=
  match op with
  | .fetchUser _ | .fetchUserWithFirestore _ | .updateProfileImage _ _ _ =>
    (op.report session answers).DeliversValue
  | _ => (op.report session answers).ReportsOutcome

-- ---------------------------------------------------------------------------
-- When the reports are faithful
-- ---------------------------------------------------------------------------

/-- The Google sign-in got through, its read too, and there is a document or the
account has an e-mail, a display name and a photo. -/
def Answers.GoogleSignsIn (answers : Answers) : Prop :=
  ∃ user snapshot, answers.auth = .ok user ∧ answers.document = .ok snapshot ∧
    (snapshot.isSome ∨ user.email.isSome ∧ user.displayName.isSome ∧ user.photoURL.isSome)

/-- The same for the Realtime Database, which asks for no photo. -/
def Answers.GoogleSignsInDatabase (answers : Answers) : Prop :=
  ∃ user snapshot, answers.auth = .ok user ∧ answers.event = some snapshot ∧
    (snapshot.isSome ∨ user.email.isSome ∧ user.displayName.isSome)

/-- The sessions and answers under which an operation reports faithfully. -/
def Operation.ReportsWhen (session : Option Uid) (answers : Answers) : Operation κ υ ι → Prop
  | .logUserIn _ _ _ | .resetPassword _ _ | .registerUserWithFirebase _ _ _ _
  | .registerUserWithFirestore _ _ _ _ _ | .fetchUser _ | .fetchUserWithFirestore _ => True
  | .signInWithGoogle _ _ => answers.GoogleSignsInDatabase
  | .signInWitnGoogleFirestore _ _ => answers.GoogleSignsIn
  | .updateUserHasSeenOnboarding _ | .updateUserHasSeenOnboardingFirestore _
  | .updateUserData _ _ => session.isSome
  | .updateProfileImage image _ _ =>
    image.encodable → session.isSome → answers.url.isOk →
      answers.stored = none ∧ answers.write = none
  | .handleGoogleLogin _ => answers.sheet.isOk ∧ answers.GoogleSignsIn
  | .handleSignUp _ _ _ profileImage _ _ =>
    profileImage.encodable ∧ answers.url.isOk ∧
      (answers.auth.isOk → answers.write = none → answers.stored = none)

-- ---------------------------------------------------------------------------
-- Single calls
-- ---------------------------------------------------------------------------

@[simp] theorem reportsOutcome_one (error : Option Error) (failures : ℕ) :
    (Report.mk [error] failures none true).ReportsOutcome ↔ (error = none → failures = 0) := by
  simp [Report.ReportsOutcome]

@[simp] theorem not_reportsOutcome_silent (failures : ℕ) (trapped : Option ForceUnwrap)
    (ended : Bool) : ¬ (Report.mk [] failures trapped ended).ReportsOutcome := by
  simp [Report.ReportsOutcome]

/-- A write that is the last call hands its own error to the completion. -/
theorem settle_setData (answers : Answers) (fuel : ℕ) (uid : Uid) (values : Fields)
    (completion : κ) :
    (Step.wait (.setData uid values completion) : Step κ υ ι).settle answers (fuel + 1) =
      ⟨[answers.write], answers.write.isSome.toNat, none, true⟩ := by
  simp [Step.settle, Call.answer, Call.failed]

theorem settle_updateData (answers : Answers) (fuel : ℕ) (uid : Uid) (data : Fields)
    (completion : κ) :
    (Step.wait (.updateData uid data (.direct completion)) : Step κ υ ι).settle answers
        (fuel + 1) =
      ⟨[answers.write], answers.write.isSome.toNat, none, true⟩ := by
  simp [Step.settle, Call.answer, Call.failed, UpdateCallback.run]

theorem settle_updateChildValues (answers : Answers) (fuel : ℕ) (ref : DatabaseReference)
    (values : Fields) (completion : κ) :
    (Step.wait (.updateChildValues ref values completion) : Step κ υ ι).settle answers
        (fuel + 1) =
      ⟨[answers.databaseWrite], answers.databaseWrite.isSome.toNat, none, true⟩ := by
  simp [Step.settle, Call.answer, Call.failed]

theorem settle_setValue (answers : Answers) (fuel : ℕ) (uid : Uid) (key : String)
    (value : Value) (completion : κ) :
    (Step.wait (.setValue uid key value completion) : Step κ υ ι).settle answers (fuel + 1) =
      ⟨[answers.databaseWrite], answers.databaseWrite.isSome.toNat, none, true⟩ := by
  simp [Step.settle, Call.answer, Call.failed]

/-- A call that has been answered is counted when the answer is an error. -/
theorem settle_wait (answers : Answers) (fuel : ℕ) (call : Call κ υ ι) :
    (Step.wait call).settle answers (fuel + 1) =
      { (call.answer answers).settle answers fuel with
        failures := ((call.answer answers).settle answers fuel).failures +
          (call.failed answers).toNat } := rfl

-- ---------------------------------------------------------------------------
-- Chains of calls
-- ---------------------------------------------------------------------------

/-- Registration: an Auth error or the error of the write. -/
theorem settle_registerUserWithFirestore (answers : Answers) (fuel : ℕ)
    (email password fullname url : String) (completion : κ) :
    (Service.registerUserWithFirestore email password fullname url completion :
        Step κ υ ι).settle answers (fuel + 2) =
      match answers.auth with
      | .error error => ⟨[some error], 1, none, true⟩
      | .ok _ => ⟨[answers.write], answers.write.isSome.toNat, none, true⟩ := by
  rw [Service.registerUserWithFirestore, settle_wait]
  cases hAuth : answers.auth with
  | error error =>
    simp [Call.answer, Call.failed, AuthCallback.run, Step.settle, hAuth, Except.isOk,
      Except.toBool]
  | ok user =>
    simp [Call.answer, Call.failed, AuthCallback.run, settle_setData, hAuth, Except.isOk,
      Except.toBool]

theorem settle_registerUserWithFirebase (answers : Answers) (fuel : ℕ)
    (email password fullname : String) (completion : κ) :
    (Service.registerUserWithFirebase email password fullname completion :
        Step κ υ ι).settle answers (fuel + 2) =
      match answers.auth with
      | .error error => ⟨[some error], 1, none, true⟩
      | .ok _ => ⟨[answers.databaseWrite], answers.databaseWrite.isSome.toNat, none, true⟩ := by
  rw [Service.registerUserWithFirebase, settle_wait]
  cases hAuth : answers.auth with
  | error error =>
    simp [Call.answer, Call.failed, AuthCallback.run, Step.settle, hAuth, Except.isOk,
      Except.toBool]
  | ok user =>
    simp [Call.answer, Call.failed, AuthCallback.run, settle_updateChildValues, hAuth,
      Except.isOk, Except.toBool]

/-- The read of a Google sign-in, and the create that may follow it. -/
theorem settle_googleRead (answers : Answers) (fuel : ℕ) (uid : Uid) (user : AuthUser)
    (completion : κ) :
    (Step.wait (.getDocument uid (.signInWitnGoogleFirestore user completion)) :
        Step κ υ ι).settle answers (fuel + 2) =
      match answers.document, user.email, user.displayName, user.photoURL with
      | .error _, _, _, _ => ⟨[], 1, some .snapshot, true⟩
      | .ok (some _), _, _, _ => ⟨[none], 0, none, true⟩
      | .ok none, some _, some _, some _ =>
        ⟨[answers.write], answers.write.isSome.toNat, none, true⟩
      | .ok none, _, _, _ => ⟨[], 0, none, true⟩ := by
  rw [settle_wait]
  cases hDoc : answers.document with
  | error error =>
    simp [Call.answer, Call.failed, DocumentCallback.run, Step.settle, hDoc, Except.isOk,
      Except.toBool]
  | ok snapshot =>
    cases snapshot with
    | some doc =>
      simp [Call.answer, Call.failed, DocumentCallback.run, Step.settle, hDoc, Except.isOk,
        Except.toBool]
    | none =>
      cases hEmail : user.email <;> cases hName : user.displayName <;>
        cases hPhoto : user.photoURL <;>
        simp [Call.answer, Call.failed, DocumentCallback.run, Step.settle, settle_setData, hDoc,
          hEmail, hName, hPhoto, Except.isOk, Except.toBool]

/-- The Google sign-in from the credential on. An error of the sign-in itself is
not reported. -/
theorem settle_signInWitnGoogleFirestore (answers : Answers) (fuel : ℕ) (user : GIDGoogleUser)
    (completion : κ) :
    (Service.signInWitnGoogleFirestore user completion : Step κ υ ι).settle answers (fuel + 3) =
      match answers.auth with
      | .error _ => ⟨[], 1, none, true⟩
      | .ok user =>
        (Step.wait (.getDocument user.uid (.signInWitnGoogleFirestore user completion)) :
          Step κ υ ι).settle answers (fuel + 2) := by
  rw [Service.signInWitnGoogleFirestore, settle_wait]
  cases hAuth : answers.auth with
  | error error =>
    simp [Call.answer, Call.failed, AuthCallback.run, Step.settle, hAuth, Except.isOk,
      Except.toBool]
  | ok user =>
    simp [Call.answer, Call.failed, AuthCallback.run, hAuth, Except.isOk, Except.toBool]

/-- A Google sign-in reports when it gets through and knows what to store, however
many failed steps came before it. -/
theorem google_reports_iff (answers : Answers) (fuel : ℕ) (user : GIDGoogleUser) (completion : κ) :
    ((Service.signInWitnGoogleFirestore user completion : Step κ υ ι).settle answers
      (fuel + 3)).ReportsOutcome ↔ answers.GoogleSignsIn := by
  rw [settle_signInWitnGoogleFirestore]
  unfold Answers.GoogleSignsIn
  cases hAuth : answers.auth with
  | error error => simp
  | ok user =>
    simp only [settle_googleRead]
    cases hDoc : answers.document with
    | error error => simp
    | ok snapshot =>
      cases snapshot with
      | some doc => simp
      | none =>
        cases hEmail : user.email <;> cases hName : user.displayName <;>
          cases hPhoto : user.photoURL <;> simp [hEmail, hName, hPhoto]

theorem googleDatabase_reports_iff (answers : Answers) (user : GIDGoogleUser) (completion : κ) :
    ((Service.signInWithGoogle user completion : Step κ υ ι).settle answers 4).ReportsOutcome ↔
      answers.GoogleSignsInDatabase := by
  rw [Service.signInWithGoogle, settle_wait]
  unfold Answers.GoogleSignsInDatabase
  cases hAuth : answers.auth with
  | error error => simp [Call.answer, AuthCallback.run, Step.settle, hAuth]
  | ok user =>
    simp only [Call.answer, AuthCallback.run, hAuth, settle_wait]
    cases hEvent : answers.event with
    | none => simp [Step.settle]
    | some snapshot =>
      cases snapshot with
      | some node =>
        simp [EventCallback.run, Step.settle, Call.failed, hAuth, hEvent, Except.isOk,
          Except.toBool]
      | none =>
        cases hEmail : user.email <;> cases hName : user.displayName <;>
          simp [EventCallback.run, Step.settle, settle_updateChildValues, Call.failed, hAuth,
            hEvent, hEmail, hName, Except.isOk, Except.toBool]

/-- The picture upload of the edit screen: the completion runs whenever there is
a URL, whether or not the upload and the profile write succeeded. -/
theorem settle_updateProfileImage (answers : Answers) (uid : Uid) (imageData : JPEGData)
    (filename : Filename) (completion : ι) :
    (Step.wait (.putData filename imageData (.updateProfileImage uid completion)) :
        Step κ υ ι).settle answers 4 =
      match answers.url with
      | .error _ => ⟨[], answers.stored.isSome.toNat + 1, none, true⟩
      | .ok _ =>
        ⟨[none], answers.write.isSome.toNat + answers.stored.isSome.toNat, none, true⟩ := by
  rw [settle_wait]
  simp only [Call.answer, StorageCallback.stored, settle_wait]
  cases hUrl : answers.url with
  | error error =>
    simp [StorageCallback.run, Step.settle, Call.failed, hUrl, Except.isOk, Except.toBool,
      Nat.add_comm]
  | ok url =>
    simp [StorageCallback.run, UpdateCallback.run, Step.settle, settle_wait, Call.answer,
      Call.failed, hUrl, Except.isOk, Except.toBool]

/-- The sign-up of the registration screen: the upload's own error is not looked
at, and a missing URL ends the chain in silence. -/
theorem settle_handleSignUp (answers : Answers) (email password fullname : String)
    (imageData : JPEGData) (filename : Filename) (completion : κ) :
    (Step.wait (.putData filename imageData (.handleSignUp email password fullname completion)) :
        Step κ υ ι).settle answers 4 =
      match answers.url, answers.auth with
      | .error _, _ => ⟨[], answers.stored.isSome.toNat + 1, none, true⟩
      | .ok _, .error error => ⟨[some error], 1 + answers.stored.isSome.toNat, none, true⟩
      | .ok _, .ok _ =>
        ⟨[answers.write], answers.write.isSome.toNat + answers.stored.isSome.toNat, none,
          true⟩ := by
  rw [settle_wait]
  simp only [Call.answer, StorageCallback.stored, settle_wait]
  cases hUrl : answers.url with
  | error error =>
    simp [StorageCallback.run, Step.settle, Call.failed, hUrl, Except.isOk, Except.toBool,
      Nat.add_comm]
  | ok url =>
    simp only [StorageCallback.run, settle_registerUserWithFirestore, Call.failed, hUrl]
    cases hAuth : answers.auth <;> simp [Except.isOk, Except.toBool]

-- ---------------------------------------------------------------------------
-- All operations
-- ---------------------------------------------------------------------------

/-- The calls that may still follow a call. -/
def Call.depth : Call κ υ ι → ℕ
  | .setData _ _ _ | .updateData _ _ _ | .sendPasswordReset _ _ | .updateChildValues _ _ _
  | .setValue _ _ _ _ => 0
  | .getDocument _ _ | .observeSingleEvent _ _ => 1
  | .auth _ (.registerUserWithFirestore _ _ _ _) | .auth _ (.registerUserWithFirebase _ _ _) => 1
  | .auth _ _ => 2
  | .downloadURL _ (.handleSignUp _ _ _ _) => 2
  | .downloadURL _ _ => 1
  | .putData _ _ (.handleSignUp _ _ _ _) => 3
  | .putData _ _ _ => 2
  | .gidSignIn _ => 3

/-- A callback only makes calls that are nearer to the end of the chain. -/
theorem answer_depth (answers : Answers) (call next : Call κ υ ι)
    (h : call.answer answers = .wait next) : next.depth < call.depth := by
  cases call with
  | auth request callback =>
    cases callback <;> cases hAuth : answers.auth <;>
      simp only [Call.answer, hAuth, AuthCallback.run, reduceCtorEq, Step.wait.injEq] at h <;>
      subst h <;> simp [Call.depth]
  | gidSignIn completion =>
    cases hSheet : answers.sheet <;>
      simp only [Call.answer, hSheet, gidSignInCallback, Service.signInWitnGoogleFirestore,
        reduceCtorEq, Step.wait.injEq] at h
    subst h
    simp [Call.depth]
  | getDocument uid callback =>
    cases callback with
    | fetchUserWithFirestore comletion =>
      simp only [Call.answer, DocumentCallback.run] at h
      repeat' split at h
      all_goals cases h
    | signInWitnGoogleFirestore user completion =>
      simp only [Call.answer, DocumentCallback.run] at h
      repeat' split at h
      all_goals cases h
      simp [Call.depth]
  | updateData uid data callback => cases callback <;> cases h
  | putData filename data callback =>
    cases callback <;> cases h <;> simp [Call.depth]
  | downloadURL filename callback =>
    cases callback <;> cases hUrl : answers.url <;>
      simp only [Call.answer, hUrl, StorageCallback.run, Service.registerUserWithFirestore,
        reduceCtorEq, Step.wait.injEq] at h <;>
      subst h <;> simp [Call.depth]
  | observeSingleEvent uid callback =>
    cases callback with
    | fetchUser comletion =>
      simp only [Call.answer, EventCallback.run] at h
      repeat' split at h
      all_goals cases h
    | signInWithGoogle user completion =>
      simp only [Call.answer, EventCallback.run] at h
      repeat' split at h
      all_goals cases h
      simp [Call.depth]
  | _ => cases h

theorem settle_ended (answers : Answers) (fuel : ℕ) (call : Call κ υ ι)
    (h : call.depth < fuel) : ((Step.wait call).settle answers fuel).ended = true := by
  induction fuel generalizing call with
  | zero => exact absurd h (Nat.not_lt_zero _)
  | succ fuel ih =>
    rw [settle_wait]
    show ((call.answer answers).settle answers fuel).ended = true
    cases hNext : call.answer answers with
    | wait next =>
      have hDepth := answer_depth answers call next hNext
      exact ih next (by omega)
    | _ => cases fuel <;> rfl

/-- Every operation comes to its end within four calls. -/
theorem report_ended (session : Option Uid) (answers : Answers) (op : Operation κ υ ι) :
    (op.report session answers).ended = true := by
  have hStart : ∀ call, op.start session = .wait call → call.depth < 4 := by
    intro call _
    cases call with
    | auth request callback => cases callback <;> simp [Call.depth]
    | downloadURL filename callback => cases callback <;> simp [Call.depth]
    | putData filename data callback => cases callback <;> simp [Call.depth]
    | _ => simp [Call.depth]
  unfold Operation.report
  cases hStep : op.start session with
  | wait call => exact settle_ended answers 4 call (hStart call hStep)
  | _ => rfl

/--
**Faithful reports, exactly.** Under any session and any answers, an operation
reports its outcome faithfully if and only if `ReportsWhen` holds.
-/
theorem faithful_iff (session : Option Uid) (answers : Answers) (op : Operation κ υ ι) :
    op.Faithful session answers ↔ op.ReportsWhen session answers := by
  cases op with
  | logUserIn email password completion =>
    show (Step.settle answers 4 (.wait _)).ReportsOutcome ↔ True
    cases hAuth : answers.auth <;>
      simp [Call.answer, AuthCallback.run, Step.settle, Call.failed, hAuth,
        Except.isOk, Except.toBool]
  | registerUserWithFirebase email password fullname completion =>
    show (Step.settle answers 4 (Service.registerUserWithFirebase _ _ _ _)).ReportsOutcome ↔ True
    rw [settle_registerUserWithFirebase]
    cases hAuth : answers.auth <;> simp
  | registerUserWithFirestore email password fullname url completion =>
    show (Step.settle answers 4 (Service.registerUserWithFirestore _ _ _ _ _)).ReportsOutcome ↔
      True
    rw [settle_registerUserWithFirestore]
    cases hAuth : answers.auth <;> simp
  | signInWithGoogle user completion => exact googleDatabase_reports_iff answers user completion
  | signInWitnGoogleFirestore user completion => exact google_reports_iff answers 1 user completion
  | fetchUser comletion =>
    show (Step.settle answers 4 (Service.fetchUser session _)).DeliversValue ↔ True
    cases session with
    | none => simp [Service.fetchUser, Step.settle, Report.DeliversValue]
    | some uid =>
      rw [Service.fetchUser, settle_wait]
      cases hEvent : answers.event with
      | none => simp [Call.answer, Step.settle, Report.DeliversValue, hEvent]
      | some snapshot =>
        cases hDict : snapshot.bind Node.dictionary <;>
          simp [Call.answer, EventCallback.run, Step.settle, Report.DeliversValue, Call.failed,
            hEvent, hDict]
  | fetchUserWithFirestore comletion =>
    show (Step.settle answers 4 (Service.fetchUserWithFirestore session _)).DeliversValue ↔ True
    cases session with
    | none => simp [Service.fetchUserWithFirestore, Step.settle, Report.DeliversValue]
    | some uid =>
      rw [Service.fetchUserWithFirestore, settle_wait]
      cases hDoc : answers.document with
      | error error =>
        simp [Call.answer, DocumentCallback.run, Step.settle, Report.DeliversValue, hDoc]
      | ok snapshot =>
        cases snapshot <;>
          simp [Call.answer, DocumentCallback.run, Step.settle, Report.DeliversValue, Call.failed,
            hDoc, Except.isOk, Except.toBool]
  | updateUserHasSeenOnboarding completion =>
    show (Step.settle answers 4 (Service.updateUserHasSeenOnboarding session _)).ReportsOutcome ↔
      session.isSome
    cases session with
    | none => simp [Service.updateUserHasSeenOnboarding, Step.settle]
    | some uid => rw [Service.updateUserHasSeenOnboarding, settle_setValue]; simp
  | updateUserHasSeenOnboardingFirestore completion =>
    show (Step.settle answers 4
      (Service.updateUserHasSeenOnboardingFirestore session _)).ReportsOutcome ↔ session.isSome
    cases session with
    | none => simp [Service.updateUserHasSeenOnboardingFirestore, Step.settle]
    | some uid => rw [Service.updateUserHasSeenOnboardingFirestore, settle_updateData]; simp
  | resetPassword email completion =>
    show (Step.settle answers 4 (.wait _)).ReportsOutcome ↔ True
    simp [Call.answer, Step.settle, Call.failed]
  | updateUserData user completion =>
    show (Step.settle answers 4 (Service.updateUserData session _ _)).ReportsOutcome ↔
      session.isSome
    cases session with
    | none => simp [Service.updateUserData, Step.settle]
    | some uid => rw [Service.updateUserData, settle_updateData]; simp
  | updateProfileImage image filename completion =>
    show (Step.settle answers 4 (Service.updateProfileImage session _ _ _)).DeliversValue ↔ _
    unfold Operation.ReportsWhen
    cases hEnc : image.encodable with
    | false =>
      simp [Service.updateProfileImage, UIImage.jpegData, Step.settle, Report.DeliversValue, hEnc]
    | true =>
      cases session with
      | none =>
        simp [Service.updateProfileImage, UIImage.jpegData, Step.settle, Report.DeliversValue,
          hEnc]
      | some uid =>
        simp only [Service.updateProfileImage, UIImage.jpegData, hEnc, if_true,
          settle_updateProfileImage]
        cases hUrl : answers.url <;>
          simp [Report.DeliversValue, Except.isOk, Except.toBool, and_comm]
  | handleGoogleLogin completion =>
    show (Step.settle answers 4 (.wait (.gidSignIn _))).ReportsOutcome ↔ _
    unfold Operation.ReportsWhen
    rw [settle_wait]
    cases hSheet : answers.sheet with
    | error error =>
      simp [Call.answer, gidSignInCallback, Step.settle, hSheet, Except.isOk, Except.toBool]
    | ok user =>
      rw [← @google_reports_iff κ υ ι answers 0 user completion]
      simp [Call.answer, gidSignInCallback, Call.failed, hSheet, Except.isOk, Except.toBool]
  | handleSignUp email password fullname profileImage filename completion =>
    unfold Operation.ReportsWhen
    cases hEnc : profileImage.encodable with
    | false =>
      simp [Operation.Faithful, Operation.report, Operation.start, UIImage.jpegData, Step.settle,
        hEnc]
    | true =>
      simp only [Operation.Faithful, Operation.report, Operation.start, UIImage.jpegData, hEnc,
        if_true, settle_handleSignUp, true_and]
      cases hUrl : answers.url with
      | error error => simp [Except.isOk, Except.toBool]
      | ok url =>
        cases hAuth : answers.auth with
        | error error => simp [Except.isOk, Except.toBool]
        | ok user =>
          simp only [Except.isOk, Except.toBool, reportsOutcome_one, Nat.add_eq_zero_iff,
            Bool.toNat_eq_zero, Option.isSome_eq_false_iff, Option.isNone_iff_eq_none]
          tauto

/-- Everything succeeds, for an account with a full profile and no document. -/
def goodAnswers : Answers where
  sheet := .ok ⟨some "token", "access"⟩
  auth := .ok ⟨"u", some "u@mail", some "Uma", some "u.jpg"⟩
  document := .ok none
  write := none
  stored := none
  url := .ok "stored.jpg"
  event := some none
  databaseWrite := none
  reset := none

/-- A sign-in error that the completion never hears of, a failed read that traps,
an update without a session that is never answered, and a failed profile write
that is reported as stored. -/
theorem unreported_outcomes :
    ¬ (Operation.signInWitnGoogleFirestore ⟨some "token", "access"⟩ () :
        Operation Unit Unit Unit).Faithful none
          { goodAnswers with auth := .error ⟨"network"⟩ } ∧
    ¬ (Operation.signInWitnGoogleFirestore ⟨some "token", "access"⟩ () :
        Operation Unit Unit Unit).Faithful none
          { goodAnswers with document := .error ⟨"offline"⟩ } ∧
    ¬ (Operation.updateUserData ⟨"u@mail", "Uma", true, "u.jpg", "u"⟩ () :
        Operation Unit Unit Unit).Faithful none goodAnswers ∧
    ¬ (Operation.updateProfileImage ⟨"pixels", true⟩ "name" () :
        Operation Unit Unit Unit).Faithful (some "u")
          { goodAnswers with write := some ⟨"denied"⟩ } := by
  refine ⟨?_, ?_, ?_, ?_⟩
  · rintro ⟨-, -, error, hCalls, -⟩
    exact List.cons_ne_nil _ _ hCalls.symm
  · rintro ⟨-, hTrapped, -⟩
    exact absurd hTrapped (by decide)
  · rintro ⟨-, -, error, hCalls, -⟩
    exact List.cons_ne_nil _ _ hCalls.symm
  · rintro ⟨-, -, -, hFailures⟩
    exact absurd (hFailures (by decide)) (by decide)

end AggroApp
