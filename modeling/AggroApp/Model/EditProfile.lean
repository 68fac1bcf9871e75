import AggroApp.Model.Forms
import AggroApp.Model.Service

/-!
# AggroApp — the edit screen

`Controller/EditProfileViewController.swift` as far as it works on its own
state. What `updateUserData` does outside the screen (it notifies the delegate
and starts writes) is returned as a list of effects, in the order of the
source; `Model/App.lean` carries them out.

A change flag goes up when the user edits, the value it stands for arrives in
the view model: at once for the name, with the upload's URL for the picture.
-/

namespace AggroApp

/-- `URL(string:)` succeeds on a text. -/
abbrev URLParser := String → Bool

/-- The save button: a plain system button, enabled until it is laid out. -/
structure SaveButton where
  isEnabled : Bool
  titleColor : Option UIColor
  deriving DecidableEq, Repr

structure EditProfileViewController where
  user : Option User
  fullnameTextField : String
  fullnameChanged : Bool
  imageChanged : Bool
  viewModel : UpdateUserDataViewModel
  saveButton : SaveButton
  deriving DecidableEq, Repr

namespace EditProfileViewController

def new : EditProfileViewController where
  user := none
  fullnameTextField := ""
  fullnameChanged := false
  imageChanged := false
  viewModel := ⟨none, none⟩
  saveButton := ⟨true, none⟩

def updateForm (c : EditProfileViewController) : EditProfileViewController :=
  { c with
    saveButton.isEnabled := some c.viewModel.shouldEnableButton != none
    saveButton.titleColor := some (titleColor c.viewModel.formIsValid) }

/-- Lay out the widgets below the picture: a new text field, the save button
disabled. Without a picture URL the screen stays empty. -/
def configureProfileImage (parses : URLParser) (c : EditProfileViewController) :
    EditProfileViewController :=
  match c.user with
  | none => c
  | some user =>
    if parses user.profileImageUrl then
      { c with fullnameTextField := "", saveButton.isEnabled := false }
    else
      c

/-- The completion of `fetchUserWithFirestore`. -/
def setUser (parses : URLParser) (user : User) (c : EditProfileViewController) :
    EditProfileViewController :=
  configureProfileImage parses { c with user := some user }

/-- The arrival of the user changes what is shown, not what has been edited. -/
theorem setUser_fields (parses : URLParser) (user : User) (c : EditProfileViewController) :
    (c.setUser parses user).user = some user ∧
    (c.setUser parses user).viewModel = c.viewModel ∧
    (c.setUser parses user).fullnameChanged = c.fullnameChanged ∧
    (c.setUser parses user).imageChanged = c.imageChanged := by
  rw [setUser, configureProfileImage]
  dsimp only
  split <;> exact ⟨rfl, rfl, rfl, rfl⟩

/-- `handleUpdateUserFullname`: the text of the field has changed to `text`. -/
def handleUpdateUserFullname (text : String) (c : EditProfileViewController) :
    EditProfileViewController :=
  updateForm { c with
    fullnameTextField := text
    viewModel := { c.viewModel with fullname := some text }
    fullnameChanged := true }

/-- The picked picture is on its way to Storage. -/
def imagePicked (c : EditProfileViewController) : EditProfileViewController :=
  { c with imageChanged := true }

/-- The completion of `updateProfileImage`. -/
def imageUploaded (profileImageUrl : String) (c : EditProfileViewController) :
    EditProfileViewController :=
  updateForm { c with viewModel := { c.viewModel with profileImageUrl := some profileImageUrl } }

-- ---------------------------------------------------------------------------
-- Saving
-- ---------------------------------------------------------------------------

/-- What `updateUserData` does outside the screen. -/
inductive Effect
  | wantsToUpdate (user : User)
  | updateUserData (user : User)
  | trap (what : ForceUnwrap)
  deriving DecidableEq, Repr

/-- The third conditional of `updateUserData`. Both values were unwrapped before. -/
def saveBoth (c : EditProfileViewController) (user : User) : List Effect :=
  if c.fullnameChanged && c.imageChanged then
    match c.viewModel.profileImageUrl with
    | none => [.trap .profileImageUrl]
    | some profileImageUrl =>
      match c.viewModel.fullname with
      | none => [.trap .fullname]
      | some fullname => [.updateUserData { user with profileImageUrl, fullname }]
  else
    []

/-- The second conditional, and what follows it. -/
def saveFullname (c : EditProfileViewController) (user : User) : List Effect :=
  if c.fullnameChanged then
    match c.viewModel.fullname with
    | none => [.trap .fullname]
    | some fullname =>
      let user := { user with fullname }
      .updateUserData user :: c.saveBoth user
  else
    c.saveBoth user

/-- `updateUserData`. The closures share the variable `user`; its last value is
the one that the writes were started with. -/
def updateUserData (c : EditProfileViewController) : List Effect :=
  match c.user with
  | none => []
  | some user =>
    if c.imageChanged then
      match c.viewModel.profileImageUrl with
      | none => [.trap .profileImageUrl]
      | some profileImageUrl =>
        let user := { user with profileImageUrl }
        .wantsToUpdate user :: c.saveFullname user
    else
      c.saveFullname user

/-- The delegate is notified by the first conditional only. -/
theorem saveBoth_not_notifies (c : EditProfileViewController) (user user' : User) :
    .wantsToUpdate user' ∉ c.saveBoth user := by
  unfold saveBoth
  split
  · split
    · simp
    · split <;> simp
  · simp

theorem saveFullname_not_notifies (c : EditProfileViewController) (user user' : User) :
    .wantsToUpdate user' ∉ c.saveFullname user := by
  unfold saveFullname
  split
  · split
    · simp
    · simp only [List.mem_cons, reduceCtorEq, false_or]
      exact c.saveBoth_not_notifies _ user'
  · exact c.saveBoth_not_notifies user user'

/-- The user that is handed out. -/
def Effect.user : Effect → Option User
  | .wantsToUpdate user => some user
  | .updateUserData user => some user
  | .trap _ => none

/-- `user'` is `user` with another name or picture. -/
def SameAccount (user' user : User) : Prop :=
  user'.uid = user.uid ∧ user'.email = user.email ∧
    user'.hasSeenOnboarding = user.hasSeenOnboarding

theorem saveBoth_user (c : EditProfileViewController) (user : User) :
    ∀ effect ∈ c.saveBoth user, ∀ user' ∈ effect.user, SameAccount user' user := by
  intro effect hEffect user' hUser'
  unfold saveBoth at hEffect
  split at hEffect
  · split at hEffect
    · rw [List.mem_singleton] at hEffect
      subst hEffect
      exact absurd hUser' (by simp [Effect.user])
    · split at hEffect
      · rw [List.mem_singleton] at hEffect
        subst hEffect
        exact absurd hUser' (by simp [Effect.user])
      · rw [List.mem_singleton] at hEffect
        subst hEffect
        rw [Effect.user, Option.mem_some_iff] at hUser'
        exact hUser' ▸ ⟨rfl, rfl, rfl⟩
  · exact absurd hEffect List.not_mem_nil

theorem saveFullname_user (c : EditProfileViewController) (user : User) :
    ∀ effect ∈ c.saveFullname user, ∀ user' ∈ effect.user, SameAccount user' user := by
  intro effect hEffect user' hUser'
  unfold saveFullname at hEffect
  split at hEffect
  · split at hEffect
    · rw [List.mem_singleton] at hEffect
      subst hEffect
      exact absurd hUser' (by simp [Effect.user])
    · rcases List.mem_cons.mp hEffect with rfl | hBoth
      · rw [Effect.user, Option.mem_some_iff] at hUser'
        exact hUser' ▸ ⟨rfl, rfl, rfl⟩
      · exact c.saveBoth_user _ effect hBoth user' hUser'
  · exact c.saveBoth_user user effect hEffect user' hUser'

/-- Saving changes the name and the picture only. -/
theorem updateUserData_user (c : EditProfileViewController) :
    ∀ effect ∈ c.updateUserData, ∀ user' ∈ effect.user,
      ∃ user ∈ c.user, SameAccount user' user := by
  intro effect hEffect user' hUser'
  unfold updateUserData at hEffect
  split at hEffect
  · exact absurd hEffect List.not_mem_nil
  · rename_i user hUser
    refine ⟨user, hUser, ?_⟩
    split at hEffect
    · split at hEffect
      · rw [List.mem_singleton] at hEffect
        subst hEffect
        exact absurd hUser' (by simp [Effect.user])
      · rename_i url hUrl
        rcases List.mem_cons.mp hEffect with rfl | hRest
        · rw [Effect.user, Option.mem_some_iff] at hUser'
          exact hUser' ▸ ⟨rfl, rfl, rfl⟩
        · exact c.saveFullname_user _ effect hRest user' hUser'
    · exact c.saveFullname_user user effect hEffect user' hUser'

/-- The ways in which a save can go, with what has been edited in each. -/
inductive Saved (c : EditProfileViewController) : List Effect → Prop
  | nothing : Saved c []
  | trapped (what : ForceUnwrap) : Saved c [.trap what]
  | image (user : User) (profileImageUrl : String) (hUser : c.user = some user)
      (hUrl : c.viewModel.profileImageUrl = some profileImageUrl)
      (hFullname : c.fullnameChanged = false) :
    Saved c [.wantsToUpdate { user with profileImageUrl }]
  | fullname (user : User) (fullname : String) (hUser : c.user = some user)
      (hFullname : c.fullnameChanged = true) (hImage : c.imageChanged = false) :
    Saved c [.updateUserData { user with fullname }]
  | both (user : User) (profileImageUrl fullname : String) (hUser : c.user = some user)
      (hUrl : c.viewModel.profileImageUrl = some profileImageUrl)
      (hFullname : c.fullnameChanged = true) :
    Saved c [.wantsToUpdate { user with profileImageUrl },
      .updateUserData { user with profileImageUrl, fullname },
      .updateUserData { user with profileImageUrl, fullname }]

/-- With the name there that its flag stands for, a save goes in one of these ways. -/
theorem updateUserData_saved {c : EditProfileViewController}
    (hName : c.fullnameChanged = true → c.viewModel.fullname.isSome = true) :
    Saved c c.updateUserData := by
  unfold updateUserData
  split
  · exact .nothing
  · rename_i user hUser
    by_cases hFullname : c.fullnameChanged = true
    · obtain ⟨fullname, hSome⟩ := Option.isSome_iff_exists.mp (hName hFullname)
      split
      · rename_i hImage
        split
        · exact .trapped .profileImageUrl
        · rename_i url hUrl
          simp only [saveFullname, saveBoth, hFullname, hImage, hSome, hUrl, if_true,
            Bool.and_self]
          exact .both user url fullname hUser hUrl hFullname
      · rename_i hImage
        rw [Bool.not_eq_true] at hImage
        simp only [saveFullname, saveBoth, hFullname, hImage, hSome, if_true]
        exact .fullname user fullname hUser hFullname hImage
    · rw [Bool.not_eq_true] at hFullname
      split
      · split
        · exact .trapped .profileImageUrl
        · rename_i url hUrl
          simp only [saveFullname, saveBoth, hFullname]
          exact .image user url hUser hUrl hFullname
      · simp only [saveFullname, saveBoth, hFullname]
        exact .nothing

end EditProfileViewController

end AggroApp
