import AggroApp.Screens.Copies
import Mathlib.Data.List.Induction

/-!
# AggroApp — one press of the save button

`updateUserData` has three conditionals that overlap: after a change of the name
and of the picture it tells the home screen at once and writes twice, and each
answer, whether a success or an error, tells the home screen again. What it
writes depends on the change flags, which are not lowered when a field is
cleared; validity asks for the name or the picture, so a picture makes a form
valid that has an empty name.

A history lists what has happened to an edit screen, presses included.

* `pressBoth_saved_twice` / `save_once_iff` — one write and one notification,
  exactly when one field was changed and the write of a name succeeds.
* `clearedName_written` / `no_empty_name_iff` — no empty name is written,
  exactly when no press comes after the name was cleared.
-/

namespace AggroApp

namespace EditProfileViewController

-- ---------------------------------------------------------------------------
-- Histories
-- ---------------------------------------------------------------------------

/-- What happens to an edit screen. A save is pressed with the answers that its
writes are going to get, in their order. -/
inductive Event
  | fetched (user : User)
  | handleUpdateUserFullname (text : String)
  | imagePicked
  | imageUploaded (profileImageUrl : String)
  | handleDone (answers : ℕ → Option Error)

/-- A save works on copies and leaves the screen as it is. -/
def react (parses : URLParser) (c : EditProfileViewController) :
    Event → EditProfileViewController
  | .fetched user => c.setUser parses user
  | .handleUpdateUserFullname text => c.handleUpdateUserFullname text
  | .imagePicked => c.imagePicked
  | .imageUploaded profileImageUrl => c.imageUploaded profileImageUrl
  | .handleDone _ => c

/-- The screen after a history. -/
def after (parses : URLParser) (es : List Event) : EditProfileViewController :=
  es.foldl (react parses) new

/-- Every press of the history satisfies `P`, which may look at what was before. -/
def EveryPress (P : List Event → (ℕ → Option Error) → Prop) (es : List Event) : Prop :=
  ∀ past answers later, es = past ++ .handleDone answers :: later → P past answers

theorem EveryPress.congr {P Q : List Event → (ℕ → Option Error) → Prop} {es : List Event}
    (h : ∀ past answers, P past answers ↔ Q past answers) : EveryPress P es ↔ EveryPress Q es := by
  constructor
  · intro hP past answers later hSplit
    exact (h past answers).mp (hP past answers later hSplit)
  · intro hQ past answers later hSplit
    exact (h past answers).mpr (hQ past answers later hSplit)

/-- A history without presses. -/
theorem EveryPress.of_quiet {P : List Event → (ℕ → Option Error) → Prop} {es : List Event}
    (h : ∀ answers, .handleDone answers ∉ es) : EveryPress P es := by
  intro past answers later hSplit
  exact absurd (hSplit ▸ by simp) (h answers)

theorem EveryPress.concat {P : List Event → (ℕ → Option Error) → Prop} {es : List Event}
    (h : EveryPress P es) {answers : ℕ → Option Error} (hPress : P es answers) :
    EveryPress P (es ++ [.handleDone answers]) := by
  intro past answers' later hSplit
  rcases List.eq_nil_or_concat later with rfl | ⟨later, e, rfl⟩
  · obtain ⟨rfl, hEq⟩ := List.append_inj' hSplit rfl
    injection hEq with hDone
    injection hDone with hAnswers
    exact hAnswers ▸ hPress
  · have hLast : es ++ [Event.handleDone answers] =
        (past ++ .handleDone answers' :: later) ++ [e] := by simpa using hSplit
    exact h past answers' later (List.append_inj' hLast rfl).1

namespace Event

def user : Event → Option User
  | .fetched user => some user
  | _ => none

def text : Event → Option String
  | .handleUpdateUserFullname text => some text
  | _ => none

def url : Event → Option String
  | .imageUploaded profileImageUrl => some profileImageUrl
  | _ => none

def picks : Event → Bool
  | .imagePicked => true
  | _ => false

end Event

/-- The last value that the events of a history bring. -/
def latest {α : Type} (value : Event → Option α) (es : List Event) : Option α :=
  (es.filterMap value).getLast?

theorem latest_concat {α : Type} (value : Event → Option α) (es : List Event) (e : Event) :
    latest value (es ++ [e]) = (value e).or (latest value es) := by
  unfold latest
  rw [List.filterMap_append, List.getLast?_append]
  cases hValue : value e with
  | none => simp [hValue]
  | some x => simp [hValue]

/-- A picture has been picked. -/
def picked (es : List Event) : Bool := es.any Event.picks

/-- The screen holds what its history has brought last, and its flags tell what was
edited. -/
structure Holds (es : List Event) (c : EditProfileViewController) : Prop where
  user : c.user = latest Event.user es
  fullname : c.viewModel.fullname = latest Event.text es
  url : c.viewModel.profileImageUrl = latest Event.url es
  fullnameChanged : c.fullnameChanged = (latest Event.text es).isSome
  imageChanged : c.imageChanged = picked es

theorem Holds.react {es : List Event} {c : EditProfileViewController} (h : Holds es c)
    (parses : URLParser) (e : Event) : Holds (es ++ [e]) (c.react parses e) := by
  have hPicked : picked (es ++ [e]) = (picked es || e.picks) := by simp [picked]
  obtain ⟨hUser, hFullname, hUrl, hName, hImage⟩ := h
  cases e with
  | fetched user =>
    obtain ⟨hSet, hModel, hFlag, hFlag'⟩ := c.setUser_fields parses user
    constructor
    · rw [latest_concat, EditProfileViewController.react, hSet]
      rfl
    · rw [latest_concat, EditProfileViewController.react, hModel]
      exact hFullname
    · rw [latest_concat, EditProfileViewController.react, hModel]
      exact hUrl
    · rw [latest_concat, EditProfileViewController.react, hFlag]
      exact hName
    · rw [hPicked, EditProfileViewController.react, hFlag', hImage]
      exact (Bool.or_false _).symm
  | handleUpdateUserFullname text =>
    constructor <;> simp only [latest_concat, hPicked]
    · exact hUser
    · rfl
    · exact hUrl
    · rfl
    · exact hImage.trans (Bool.or_false _).symm
  | imagePicked =>
    constructor <;> simp only [latest_concat, hPicked]
    · exact hUser
    · exact hFullname
    · exact hUrl
    · exact hName
    · exact (Bool.or_true _).symm
  | imageUploaded url =>
    constructor <;> simp only [latest_concat, hPicked]
    · exact hUser
    · exact hFullname
    · rfl
    · exact hName
    · exact hImage.trans (Bool.or_false _).symm
  | handleDone answers =>
    constructor <;> simp only [latest_concat, hPicked]
    · exact hUser
    · exact hFullname
    · exact hUrl
    · exact hName
    · exact hImage.trans (Bool.or_false _).symm

theorem after_holds (parses : URLParser) (es : List Event) : Holds es (after parses es) := by
  induction es using List.reverseRecOn with
  | nil => exact ⟨rfl, rfl, rfl, rfl, rfl⟩
  | append_singleton es e ih =>
    rw [after, List.foldl_append]
    exact ih.react parses e

-- ---------------------------------------------------------------------------
-- What a press does
-- ---------------------------------------------------------------------------

/-- What a press can do outside the screen, with the history that leads to it. -/
inductive Pressed (past : List Event) : List Effect → Prop
  | unfetched (hUser : latest Event.user past = none) : Pressed past []
  | unchanged (user : User) (hUser : latest Event.user past = some user)
      (hText : latest Event.text past = none) (hPicked : picked past = false) : Pressed past []
  | trapped (user : User) (hUser : latest Event.user past = some user)
      (hPicked : picked past = true) (hUrl : latest Event.url past = none) :
    Pressed past [.trap .profileImageUrl]
  | image (user : User) (profileImageUrl : String) (hUser : latest Event.user past = some user)
      (hPicked : picked past = true) (hUrl : latest Event.url past = some profileImageUrl)
      (hText : latest Event.text past = none) :
    Pressed past [.wantsToUpdate { user with profileImageUrl }]
  | fullname (user : User) (fullname : String) (hUser : latest Event.user past = some user)
      (hPicked : picked past = false) (hText : latest Event.text past = some fullname) :
    Pressed past [.updateUserData { user with fullname }]
  | both (user : User) (profileImageUrl fullname : String)
      (hUser : latest Event.user past = some user) (hPicked : picked past = true)
      (hUrl : latest Event.url past = some profileImageUrl)
      (hText : latest Event.text past = some fullname) :
    Pressed past [.wantsToUpdate { user with profileImageUrl },
      .updateUserData { user with profileImageUrl, fullname },
      .updateUserData { user with profileImageUrl, fullname }]

theorem Holds.pressed {past : List Event} {c : EditProfileViewController} (h : Holds past c) :
    Pressed past c.updateUserData := by
  unfold updateUserData
  rw [h.user]
  cases hUser : latest Event.user past with
  | none => exact .unfetched hUser
  | some user =>
    cases hPicked : picked past with
    | false =>
      have hImage : c.imageChanged = false := h.imageChanged.trans hPicked
      cases hText : latest Event.text past with
      | none =>
        have hName : c.fullnameChanged = false := by rw [h.fullnameChanged, hText]; rfl
        simp only [saveFullname, saveBoth, hImage, hName, Bool.false_eq_true, if_false,
          Bool.and_self]
        exact .unchanged user hUser hText hPicked
      | some text =>
        have hName : c.fullnameChanged = true := by rw [h.fullnameChanged, hText]; rfl
        have hSome : c.viewModel.fullname = some text := h.fullname.trans hText
        simp only [saveFullname, saveBoth, hImage, hName, hSome, Bool.false_eq_true, if_false,
          if_true, Bool.and_false]
        exact .fullname user text hUser hPicked hText
    | true =>
      have hImage : c.imageChanged = true := h.imageChanged.trans hPicked
      cases hUrl : latest Event.url past with
      | none =>
        simp only [hImage, h.url.trans hUrl, if_true]
        exact .trapped user hUser hPicked hUrl
      | some url =>
        have hModel : c.viewModel.profileImageUrl = some url := h.url.trans hUrl
        cases hText : latest Event.text past with
        | none =>
          have hName : c.fullnameChanged = false := by rw [h.fullnameChanged, hText]; rfl
          simp only [saveFullname, saveBoth, hImage, hModel, hName, Bool.false_eq_true, if_false,
            if_true, Bool.false_and]
          exact .image user url hUser hPicked hUrl hText
        | some text =>
          have hName : c.fullnameChanged = true := by rw [h.fullnameChanged, hText]; rfl
          have hSome : c.viewModel.fullname = some text := h.fullname.trans hText
          simp only [saveFullname, saveBoth, hImage, hModel, hName, hSome, if_true, Bool.and_self]
          exact .both user url text hUser hPicked hUrl hText

/-- The effects of a press after `past`. -/
def press (parses : URLParser) (past : List Event) : List Effect :=
  (after parses past).updateUserData

theorem press_pressed (parses : URLParser) (past : List Event) :
    Pressed past (press parses past) :=
  (after_holds parses past).pressed

-- ---------------------------------------------------------------------------
-- One write, one notification
-- ---------------------------------------------------------------------------

/-- The user that the delegate is notified of at once. -/
def Effect.told : Effect → Option User
  | .wantsToUpdate user => some user
  | _ => none

/-- The user that `Service.updateUserData` is called with. -/
def Effect.written : Effect → Option User
  | .updateUserData user => some user
  | _ => none

def tells (effects : List Effect) : List User := effects.filterMap Effect.told

def writes (effects : List Effect) : List User := effects.filterMap Effect.written

section Effects

variable (user : User) (what : ForceUnwrap) (effects : List Effect)

@[simp] theorem tells_nil : tells [] = [] := rfl

@[simp] theorem tells_wantsToUpdate :
    tells (.wantsToUpdate user :: effects) = user :: tells effects := rfl

@[simp] theorem tells_updateUserData :
    tells (.updateUserData user :: effects) = tells effects := rfl

@[simp] theorem tells_trap : tells (.trap what :: effects) = tells effects := rfl

@[simp] theorem writes_nil : writes [] = [] := rfl

@[simp] theorem writes_wantsToUpdate :
    writes (.wantsToUpdate user :: effects) = writes effects := rfl

@[simp] theorem writes_updateUserData :
    writes (.updateUserData user :: effects) = user :: writes effects := rfl

@[simp] theorem writes_trap : writes (.trap what :: effects) = writes effects := rfl

end Effects

/-- The closure of a write, as `err`, with the user that it notifies the delegate of. -/
def written (user : User) (_err : Option Error) : User := user

/-- The users that the delegate is notified of: at once, and when the writes are
answered. -/
def notified (effects : List Effect) (answers : ℕ → Option Error) : List User :=
  tells effects ++ (writes effects).zipIdx.map fun (user, k) => written user (answers k)

/-- A write of the press fails. -/
def Failed (effects : List Effect) (answers : ℕ → Option Error) : Prop :=
  ∃ k < (writes effects).length, (answers k).isSome = true

/-- A field has been changed. -/
def Changed (past : List Event) : Prop :=
  (latest Event.text past).isSome = true ∨ picked past = true

/-- The fetched user with the latest value of each field that was changed. -/
def edited (past : List Event) (user : User) : User :=
  { user with
    fullname := (latest Event.text past).getD user.fullname
    profileImageUrl :=
      if picked past then (latest Event.url past).getD user.profileImageUrl
      else user.profileImageUrl }

/-- With a fetched user and a change, the press writes once at most, and notifies
the delegate once of the edited user, unless its write fails. -/
structure OncePerSave (parses : URLParser) (user : User) (past : List Event)
    (answers : ℕ → Option Error) : Prop where
  writes : (writes (press parses past)).length ≤ 1
  failed : Failed (press parses past) answers → notified (press parses past) answers = []
  stored : ¬ Failed (press parses past) answers →
    (notified (press parses past) answers).length = 1
  user : ∀ told ∈ notified (press parses past) answers, told = edited past user

/-- Only the picture was changed, and its URL is there; or only the name, and its
write succeeds. -/
def SavesOneField (past : List Event) (answers : ℕ → Option Error) : Prop :=
  (picked past = true ∧ latest Event.text past = none ∧ (latest Event.url past).isSome = true) ∨
    (picked past = false ∧ answers 0 = none)

theorem oncePerSave_iff {past : List Event} {user : User} (parses : URLParser)
    (answers : ℕ → Option Error) (hUser : latest Event.user past = some user)
    (hChanged : Changed past) :
    OncePerSave parses user past answers ↔ SavesOneField past answers := by
  have hPress := press_pressed parses past
  generalize hEffects : press parses past = effects at hPress
  cases hPress with
  | unfetched hNone => exact absurd (hNone.symm.trans hUser) (by simp)
  | unchanged user' hUser' hText hPicked =>
    rcases hChanged with hSome | hTrue
    · exact absurd hSome (by simp [hText])
    · exact absurd hTrue (by simp [hPicked])
  | trapped user' hUser' hPicked hUrl =>
    constructor
    · intro h
      have hOne := h.stored
      rw [hEffects] at hOne
      -- nothing is written and nobody is told
      exact absurd (hOne (by simp [Failed]))
        (by simp [notified])
    · rintro (⟨-, -, hSome⟩ | ⟨hFalse, -⟩)
      · exact absurd hSome (by simp [hUrl])
      · exact absurd (hFalse.symm.trans hPicked) (by simp)
  | image user' url hUser' hPicked hUrl hText =>
    have hEq : user' = user := Option.some.inj (hUser'.symm.trans hUser)
    subst hEq
    refine ⟨fun _ => Or.inl ⟨hPicked, hText, by rw [hUrl]; rfl⟩, fun _ => ?_⟩
    have hEdited : edited past user' = { user' with profileImageUrl := url } := by
      simp [edited, hText, hPicked, hUrl]
    have hFailed : ¬ Failed (press parses past) answers := by
      simp [hEffects, Failed]
    refine ⟨?_, fun h => absurd h hFailed, fun _ => ?_, ?_⟩
    · simp [hEffects]
    · simp [hEffects, notified]
    · simp [hEffects, notified, hEdited]
  | fullname user' text hUser' hPicked hText =>
    have hEq : user' = user := Option.some.inj (hUser'.symm.trans hUser)
    subst hEq
    have hEdited : edited past user' = { user' with fullname := text } := by
      simp [edited, hText, hPicked]
    have hFailed : Failed (press parses past) answers ↔ (answers 0).isSome = true := by
      simp [hEffects, Failed]
    have hNotified : notified (press parses past) answers = [edited past user'] := by
      simp [hEffects, notified, written, hEdited]
    constructor
    · intro h
      refine Or.inr ⟨hPicked, ?_⟩
      by_contra hError
      -- the delegate is told of a failed write as well
      have hNone := h.failed (hFailed.mpr (Option.isSome_iff_ne_none.mpr hError))
      exact absurd (hNotified.symm.trans hNone) (by simp)
    · rintro (⟨hTrue, -⟩ | ⟨-, hNone⟩)
      · exact absurd (hPicked.symm.trans hTrue) (by simp)
      · refine ⟨?_, fun h => absurd (hFailed.mp h) (by simp [hNone]), fun _ => ?_, ?_⟩
        · simp [hEffects]
        · rw [hNotified, List.length_singleton]
        · rw [hNotified]
          exact fun told hTold => List.mem_singleton.mp hTold
  | both user' url text hUser' hPicked hUrl hText =>
    constructor
    · intro h
      have hTwo := h.writes
      rw [hEffects] at hTwo
      exact absurd hTwo (by simp)
    · rintro (⟨-, hNone, -⟩ | ⟨hFalse, -⟩)
      · exact absurd (hText.symm.trans hNone) (by simp)
      · exact absurd (hFalse.symm.trans hPicked) (by simp)

/--
**One save, one write, one notification.** In every history of an edit screen,
each press with a fetched user and a change writes once at most and notifies the
delegate once of the edited user, or not at all when its write fails, exactly
when each of these presses saves one field.
-/
theorem save_once_iff (parses : URLParser) (es : List Event) :
    EveryPress (fun past answers => ∀ user, latest Event.user past = some user → Changed past →
      OncePerSave parses user past answers) es ↔
    EveryPress (fun past answers => (latest Event.user past).isSome = true → Changed past →
      SavesOneField past answers) es := by
  refine EveryPress.congr fun past answers => ?_
  constructor
  · intro h hFetched hChanged
    obtain ⟨user, hUser⟩ := Option.isSome_iff_exists.mp hFetched
    exact (oncePerSave_iff parses answers hUser hChanged).mp (h user hUser hChanged)
  · intro h user hUser hChanged
    have hFetched : (latest Event.user past).isSome = true := by rw [hUser]; rfl
    exact (oncePerSave_iff parses answers hUser hChanged).mpr (h hFetched hChanged)

/-- Ann changes her name and her picture, and saves. -/
def pressBoth : List Event :=
  [.fetched ⟨"ann@mail", "Ann", true, "a.jpg", "a"⟩, .handleUpdateUserFullname "Anna",
   .imagePicked, .imageUploaded "new.jpg", .handleDone fun _ => none]

theorem pressBoth_saved_twice :
    ¬ EveryPress (fun past answers => ∀ user, latest Event.user past = some user → Changed past →
      OncePerSave (fun _ => true) user past answers) pressBoth := by
  intro h
  have hSave := h (pressBoth.take 4) (fun _ => none) [] rfl _ rfl (Or.inr rfl)
  exact absurd hSave.writes (by decide)

-- ---------------------------------------------------------------------------
-- Empty names
-- ---------------------------------------------------------------------------

/-- Nothing is written under an empty name. -/
def NeverEmpty (parses : URLParser) (past : List Event) (_answers : ℕ → Option Error) : Prop :=
  ∀ user ∈ writes (press parses past), user.fullname ≠ ""

/-- The user has arrived, the name was cleared last, and no picture is awaited. -/
def ClearedName (past : List Event) : Prop :=
  (latest Event.user past).isSome = true ∧ latest Event.text past = some "" ∧
    (picked past = true → (latest Event.url past).isSome = true)

theorem neverEmpty_iff (parses : URLParser) (past : List Event) (answers : ℕ → Option Error) :
    NeverEmpty parses past answers ↔ ¬ ClearedName past := by
  have hPress := press_pressed parses past
  unfold NeverEmpty
  generalize press parses past = effects at hPress
  cases hPress with
  | unfetched hUser => simp [ClearedName, hUser, writes]
  | unchanged user hUser hText hPicked => simp [ClearedName, hText, writes]
  | trapped user hUser hPicked hUrl =>
    simp [ClearedName, hPicked, hUrl]
  | image user url hUser hPicked hUrl hText =>
    simp [ClearedName, hText]
  | fullname user text hUser hPicked hText =>
    simp [ClearedName, hUser, hPicked, hText]
  | both user url text hUser hPicked hUrl hText =>
    simp [ClearedName, hUser, hUrl, hText]

/--
**No empty name.** In every history of an edit screen, no press writes an empty
name exactly when no press comes after the name was cleared, with the user there
and no picture awaited.
-/
theorem no_empty_name_iff (parses : URLParser) (es : List Event) :
    EveryPress (NeverEmpty parses) es ↔ EveryPress (fun past _ => ¬ ClearedName past) es :=
  EveryPress.congr fun past answers => neverEmpty_iff parses past answers

/-- Ann types a name, clears the field and picks a picture, which makes the form valid. -/
def clearedName : List Event :=
  [.fetched ⟨"ann@mail", "Ann", true, "a.jpg", "a"⟩, .handleUpdateUserFullname "Anna",
   .handleUpdateUserFullname "", .imagePicked, .imageUploaded "new.jpg"]

/-- Asking for a valid form at every press does not help. -/
theorem clearedName_written :
    ¬ ∀ es,
      EveryPress (fun past _ => (after (fun _ => true) past).viewModel.formIsValid = true) es →
        EveryPress (NeverEmpty fun _ => true) es := by
  intro h
  have hQuiet : ∀ answers, .handleDone answers ∉ clearedName := by simp [clearedName]
  have hValid : (after (fun _ => true) clearedName).viewModel.formIsValid = true := by decide
  have hSave := h (clearedName ++ [.handleDone fun _ => none])
    ((EveryPress.of_quiet hQuiet).concat hValid) clearedName _ [] rfl
  exact hSave ⟨"ann@mail", "", true, "new.jpg", "a"⟩ (List.mem_cons_self) rfl

end EditProfileViewController

-- ---------------------------------------------------------------------------
-- The edit screens of the app
-- ---------------------------------------------------------------------------

open EditProfileViewController (react after press tells writes)

variable {parses : URLParser} {a a' : App}

/-- Without a user nothing is saved. -/
theorem EditProfileViewController.user_of_saves {c : EditProfileViewController}
    (h : c.updateUserData ≠ []) : c.user.isSome = true := by
  cases hUser : c.user with
  | none => exact absurd (by rw [updateUserData, hUser]) h
  | some user => rfl

/-- The notification comes first. -/
theorem EditProfileViewController.updateUserData_tells {c : EditProfileViewController}
    (h : tells c.updateUserData ≠ []) :
    ∃ user, c.updateUserData = .wantsToUpdate user :: c.saveFullname user := by
  have hQuiet : ∀ user, tells (c.saveFullname user) = [] := by
    intro user
    refine List.filterMap_eq_nil_iff.mpr fun effect hMem => ?_
    cases effect with
    | wantsToUpdate user' => exact absurd hMem (c.saveFullname_not_notifies user user')
    | _ => rfl
  cases hUser : c.user with
  | none => exact absurd (by rw [updateUserData, hUser]; rfl) h
  | some user =>
    by_cases hImage : c.imageChanged = true
    · cases hUrl : c.viewModel.profileImageUrl with
      | none => exact absurd (by simp [updateUserData, hUser, hImage, hUrl]) h
      | some profileImageUrl =>
        exact ⟨{ user with profileImageUrl }, by simp [updateUserData, hUser, hImage, hUrl]⟩
    · exact absurd (by simp [updateUserData, hUser, hImage, hQuiet]) h

namespace App

theorem complete_edits (error : Option Error) (completion : Completion) :
    (a.complete parses error completion).edits = a.edits := by
  cases completion with
  | handleLogin => cases error <;> rfl
  | handleSignUp => cases error <;> rfl
  | handleGoogleLogin => rfl
  | handleResetPassword => cases error <;> rfl
  | controllerWantsToDismiss =>
    rw [complete]
    cases a.user with
    | none => rfl
    | some user => exact setUser_edits _
  | updateUserData s user =>
    rw [complete, wantsToUpdate_eq, setUser_edits]
    rfl

theorem handleDone_edits (s : ℕ) (c : EditProfileViewController) :
    (a.handleDone parses s c).edits = a.edits := by
  refine handleDone_keeps (I := fun b => b.edits = a.edits) rfl fun b hb effect _ => ?_
  cases effect with
  | wantsToUpdate user =>
    rw [save, wantsToUpdate_eq, setUser_edits]
    exact hb
  | _ => exact hb

/-- A save of edit screen `s` starts its writes, and notifies at once or not at all. -/
theorem handleDone_tasks {uid : Uid} (hSession : a.net.backend.currentUser = some uid) (s : ℕ)
    (c : EditProfileViewController) :
    (a.handleDone parses s c).net.tasks = a.net.tasks ++
      (writes c.updateUserData).map fun user => .waiting (nameCall uid s user) := by
  unfold handleDone
  generalize c.updateUserData = effects
  induction effects generalizing a with
  | nil => exact (List.append_nil _).symm
  | cons effect effects ih =>
    cases effect with
    | wantsToUpdate user =>
      have hNet : (a.wantsToUpdate parses s user).net = a.net := by
        rw [wantsToUpdate_eq, setUser_net]
        rfl
      rw [List.foldl_cons, save, ih (hNet ▸ hSession), hNet]
      rfl
    | updateUserData user =>
      have hTasks : (a.call (.updateUserData user (.updateUserData s user))).net.tasks =
          a.net.tasks ++ [.waiting (nameCall uid s user)] := by
        rw [call, Net.call, Net.start, Operation.start, hSession]
        rfl
      rw [List.foldl_cons, save, ih (a := a.call _) hSession, hTasks, List.append_assoc]
      rfl
    | trap what =>
      rw [List.foldl_cons, save, ih (a := a.trap what) hSession]
      rfl

theorem save_front_none (h : a.front = none) (s : ℕ) (effect : EditProfileViewController.Effect) :
    (a.save parses s effect).front = none := by
  cases effect with
  | wantsToUpdate user =>
    rw [save, wantsToUpdate_eq, setUser_front]
    rcases a.dismissEdit_front s with hSame | hNone
    · exact hSame.trans h
    · exact hNone
  | _ => exact h

/-- The screen that has told the home screen is closed. -/
theorem handleDone_front {s : ℕ} {c : EditProfileViewController}
    (hEdit : a.presented = some (.edit s)) (hTells : tells c.updateUserData ≠ []) :
    (a.handleDone parses s c).front = none := by
  obtain ⟨user, hEffects⟩ := EditProfileViewController.updateUserData_tells hTells
  have hClosed : (a.wantsToUpdate parses s user).front = none := by
    rw [wantsToUpdate_eq, setUser_front, front, dismissEdit, hEdit]
    simp [dismissed]
  rw [handleDone, hEffects, List.foldl_cons]
  exact List.foldlRecOn (motive := fun b : App => b.front = none) _ _ hClosed
    fun b hb effect _ => save_front_none hb s effect

/-- A save that tells the home screen nothing only starts a write. -/
theorem handleDone_silent {s : ℕ} {c : EditProfileViewController}
    (hTells : tells c.updateUserData = []) :
    (a.handleDone parses s c).user = a.user ∧ (a.handleDone parses s c).front = a.front := by
  refine handleDone_keeps (I := fun b => b.user = a.user ∧ b.front = a.front) ⟨rfl, rfl⟩ ?_
  rintro b ⟨hUser, hFront⟩ effect hMem
  cases effect with
  | wantsToUpdate user =>
    have hTold : user ∈ tells c.updateUserData := List.mem_filterMap.mpr ⟨_, hMem, rfl⟩
    exact absurd (hTells ▸ hTold) List.not_mem_nil
  | _ => exact ⟨hUser, hFront⟩

/-- What an edit screen opens with, and what its events keep, holds of every edit
screen in every state. -/
theorem step_edits {P : EditProfileViewController → Prop} (hNew : P .new)
    (hReact : ∀ c e, P c → P (react parses c e)) {event : Event}
    (h : ∀ c ∈ a.edits, P c) (hStep : a.step parses event = some a') : ∀ c ∈ a'.edits, P c := by
  cases step_stepped hStep with
  | launch =>
    have hNone : (launch a.net a.log).edits = [] := by
      unfold launch authenticateUSer
      split <;> rfl
    simp [hNone]
  | handleSignUp profileImage email password fullname filename hLogin =>
    unfold App.handleSignUp
    split
    · exact h
    · split <;> exact h
  | handleResetPassword email hLogin =>
    unfold App.handleResetPassword
    split <;> exact h
  | logout signedOut hHome =>
    unfold App.logout
    split <;> exact h
  | handleEditProfile hHome => exact Async.forall_mem_concat h hNew
  | handleUpdateUserFullname s text hEdit =>
    exact Async.forall_mem_modify h fun c hc => hReact c (.handleUpdateUserFullname text) hc
  | imagePickerController s image filename hPicker =>
    unfold App.imagePickerController
    split
    · exact h
    · exact Async.forall_mem_modify h fun c hc => hReact c .imagePicked hc
  | handleDone s c hEdit hScreen hEnabled hHud => exact (handleDone_edits s c).symm ▸ h
  | deliver i call step hTask =>
    cases step with
    | completed completion error =>
      exact (complete_edits (a := a.receive i _) error completion).symm ▸ h
    | fetched comletion user =>
      cases comletion with
      | home => exact (setUser_edits (a := a.receive i _) user).symm ▸ h
      | edit s => exact Async.forall_mem_modify h fun c hc => hReact c (.fetched user) hc
    | uploaded completion url =>
      exact Async.forall_mem_modify h fun c hc => hReact c (.imageUploaded url) hc
    | _ => exact h
  | _ => exact h

/-- Every edit screen of a running app is what a history makes of a new one, so a
save in the app is a press after that history. -/
theorem edits_have_history (backend : Backend) (es : List Event) :
    Async.Always (App.step parses) (fun a => ∀ c ∈ a.edits, ∃ past, c = after parses past)
      (App.start backend) es := by
  refine Async.Always.of_step (fun a e a' h hStep => ?_) ?_
  · refine step_edits ⟨[], rfl⟩ ?_ h hStep
    rintro c e ⟨past, rfl⟩
    exact ⟨past ++ [e], by rw [after, after, List.foldl_append, List.foldl_cons, List.foldl_nil]⟩
  · have hNone : (start backend).edits = [] := by
      unfold start launch authenticateUSer
      split <;> rfl
    simp [hNone]

end App

end AggroApp
