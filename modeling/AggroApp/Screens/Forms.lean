import AggroApp.Async.Runs
import AggroApp.Model.EditProfile

/-!
# AggroApp — submit buttons and validity

`updateForm` compares an optional `Bool` with `nil`, so it enables the button
after every event, whatever the text fields hold. The colours are computed from
the flag itself and do follow validity.

* `button_follows_validity_iff` — on each of the four screens the button
  follows validity exactly through those event sequences that leave no required
  field empty.
* `emptyPassword_enabled`       — two keystrokes that enable a login without a
  password.
* `colours_follow_validity`     — the colours of the three `AuthButton`s.
-/

namespace AggroApp

open Async

/-- A button agrees with the validity of its form, so a press finds the
required fields filled. -/
def Follows (isEnabled formIsValid : Bool) (filled : Prop) : Prop :=
  (isEnabled = true ↔ formIsValid = true) ∧ (isEnabled = true → filled)

/-- A button that is enabled whatever happens follows validity only while the
form is filled. -/
theorem follows_iff {isEnabled formIsValid : Bool} {filled : Prop} (hEnabled : isEnabled = true)
    (hValid : formIsValid = true ↔ filled) : Follows isEnabled formIsValid filled ↔ filled := by
  constructor
  · rintro ⟨-, hPress⟩
    exact hPress hEnabled
  · intro hFilled
    exact ⟨⟨fun _ => hValid.mpr hFilled, fun _ => hEnabled⟩, fun _ => hFilled⟩

/-- The view model's copy of a text field: nothing before the first edit, and
the text of the field from then on. -/
def Mirrors (copy : Option String) (text : String) : Prop :=
  copy = some text ∨ copy = none ∧ text = ""

theorem Mirrors.isFilled_iff {copy : Option String} {text : String} (h : Mirrors copy text) :
    isFilled copy = true ↔ text ≠ "" := by
  rcases h with rfl | ⟨rfl, rfl⟩ <;> simp

-- ---------------------------------------------------------------------------
-- Login
-- ---------------------------------------------------------------------------

namespace LoginViewController

/-- Every required field has text in it. -/
def Filled (c : LoginViewController) : Prop :=
  c.emailTextField ≠ "" ∧ c.passwordTextField ≠ ""

def ButtonFollows (c : LoginViewController) : Prop :=
  Follows c.loginButton.isEnabled c.viewModel.formIsValid c.Filled

/-- The view model has the texts of the fields. -/
def Synced (c : LoginViewController) : Prop :=
  Mirrors c.viewModel.email c.emailTextField ∧ Mirrors c.viewModel.password c.passwordTextField

theorem Synced.formIsValid_iff {c : LoginViewController} (h : c.Synced) :
    c.viewModel.formIsValid = true ↔ c.Filled := by
  rw [LoginViewModel.formIsValid, Bool.and_eq_true, h.1.isFilled_iff, h.2.isFilled_iff]
  rfl

theorem textDidChange_synced (c : LoginViewController) (event : Sender × String) (h : c.Synced) :
    (c.textDidChange event).Synced := by
  rcases event with ⟨_ | _, text⟩
  · exact ⟨Or.inl rfl, h.2⟩
  · exact ⟨h.1, Or.inl rfl⟩

theorem textDidChange_enabled (c : LoginViewController) (event : Sender × String) :
    (c.textDidChange event).loginButton.isEnabled = true := by
  rcases event with ⟨_ | _, text⟩ <;> rfl

theorem follows_iff (events : List (Sender × String)) :
    AfterEvery textDidChange ButtonFollows new events ↔
      AfterEvery textDidChange Filled new events :=
  AfterEvery.congr textDidChange_synced
    (fun c event h => AggroApp.follows_iff (c.textDidChange_enabled event)
      (c.textDidChange_synced event h).formIsValid_iff)
    ⟨Or.inr ⟨rfl, rfl⟩, Or.inr ⟨rfl, rfl⟩⟩

end LoginViewController

-- ---------------------------------------------------------------------------
-- Registration
-- ---------------------------------------------------------------------------

namespace RegistrationViewController

/-- Every required field has text in it. -/
def Filled (c : RegistrationViewController) : Prop :=
  (c.emailTextField ≠ "" ∧ c.passwordTextField ≠ "") ∧ c.fullnameTextField ≠ ""

def ButtonFollows (c : RegistrationViewController) : Prop :=
  Follows c.signUpButton.isEnabled c.viewModel.formIsValid c.Filled

/-- The view model has the texts of the fields. -/
def Synced (c : RegistrationViewController) : Prop :=
  Mirrors c.viewModel.email c.emailTextField ∧
    Mirrors c.viewModel.password c.passwordTextField ∧
    Mirrors c.viewModel.fullname c.fullnameTextField

theorem Synced.formIsValid_iff {c : RegistrationViewController} (h : c.Synced) :
    c.viewModel.formIsValid = true ↔ c.Filled := by
  rw [RegistrationViewModel.formIsValid, Bool.and_eq_true, Bool.and_eq_true, h.1.isFilled_iff,
    h.2.1.isFilled_iff, h.2.2.isFilled_iff]
  rfl

theorem textDidChange_synced (c : RegistrationViewController) (event : Sender × String)
    (h : c.Synced) : (c.textDidChange event).Synced := by
  rcases event with ⟨_ | _ | _, text⟩
  · exact ⟨Or.inl rfl, h.2⟩
  · exact ⟨h.1, Or.inl rfl, h.2.2⟩
  · exact ⟨h.1, h.2.1, Or.inl rfl⟩

theorem textDidChange_enabled (c : RegistrationViewController) (event : Sender × String) :
    (c.textDidChange event).signUpButton.isEnabled = true := by
  rcases event with ⟨_ | _ | _, text⟩ <;> rfl

theorem follows_iff (events : List (Sender × String)) :
    AfterEvery textDidChange ButtonFollows new events ↔
      AfterEvery textDidChange Filled new events :=
  AfterEvery.congr textDidChange_synced
    (fun c event h => AggroApp.follows_iff (c.textDidChange_enabled event)
      (c.textDidChange_synced event h).formIsValid_iff)
    ⟨Or.inr ⟨rfl, rfl⟩, Or.inr ⟨rfl, rfl⟩, Or.inr ⟨rfl, rfl⟩⟩

end RegistrationViewController

-- ---------------------------------------------------------------------------
-- Password reset
-- ---------------------------------------------------------------------------

namespace ResetPasswordViewController

/-- What happens to the form: the prefill, and edits. -/
inductive Event
  | loadEmail (email : String)
  | textDidChange (text : String)
  deriving DecidableEq, Repr

def handle (c : ResetPasswordViewController) : Event → ResetPasswordViewController
  | .loadEmail email => c.loadEmail (some email)
  | .textDidChange text => c.textDidChange text

/-- The required field has text in it. -/
def Filled (c : ResetPasswordViewController) : Prop := c.emailTextField ≠ ""

def ButtonFollows (c : ResetPasswordViewController) : Prop :=
  Follows c.resetPasswordButton.isEnabled c.viewModel.formIsValid c.Filled

/-- The view model has the text of the field. -/
def Synced (c : ResetPasswordViewController) : Prop :=
  Mirrors c.viewModel.email c.emailTextField

theorem handle_synced (c : ResetPasswordViewController) (event : Event) :
    (c.handle event).Synced := by
  cases event <;> exact Or.inl rfl

theorem handle_enabled (c : ResetPasswordViewController) (event : Event) :
    (c.handle event).resetPasswordButton.isEnabled = true := by
  cases event <;> rfl

theorem follows_iff (events : List Event) :
    AfterEvery handle ButtonFollows new events ↔ AfterEvery handle Filled new events :=
  AfterEvery.congr (fun c event _ => c.handle_synced event)
    (fun c event _ => AggroApp.follows_iff (c.handle_enabled event)
      (Mirrors.isFilled_iff (c.handle_synced event)))
    (show new.Synced from Or.inr ⟨rfl, rfl⟩)

end ResetPasswordViewController

-- ---------------------------------------------------------------------------
-- The edit screen
-- ---------------------------------------------------------------------------

namespace EditProfileViewController

/-- What happens to the form: edits of the name, and completed uploads. -/
inductive FormEvent
  | handleUpdateUserFullname (text : String)
  | imageUploaded (profileImageUrl : String)
  deriving DecidableEq, Repr

def handle (c : EditProfileViewController) : FormEvent → EditProfileViewController
  | .handleUpdateUserFullname text => c.handleUpdateUserFullname text
  | .imageUploaded profileImageUrl => c.imageUploaded profileImageUrl

/-- There is a name in the text field, or a picture with a URL. -/
def Filled (c : EditProfileViewController) : Prop :=
  c.fullnameTextField ≠ "" ∨ ∃ url, c.viewModel.profileImageUrl = some url ∧ url ≠ ""

def ButtonFollows (c : EditProfileViewController) : Prop :=
  Follows c.saveButton.isEnabled c.viewModel.formIsValid c.Filled

/-- The view model has the text of the field. -/
def Synced (c : EditProfileViewController) : Prop :=
  Mirrors c.viewModel.fullname c.fullnameTextField

theorem Synced.formIsValid_iff {c : EditProfileViewController} (h : c.Synced) :
    c.viewModel.formIsValid = true ↔ c.Filled := by
  have hUrl : isFilled c.viewModel.profileImageUrl = true ↔
      ∃ url, c.viewModel.profileImageUrl = some url ∧ url ≠ "" := by
    cases c.viewModel.profileImageUrl <;> simp
  rw [UpdateUserDataViewModel.formIsValid, Bool.or_eq_true, Mirrors.isFilled_iff h, hUrl]
  rfl

theorem handle_synced (c : EditProfileViewController) (event : FormEvent) (h : c.Synced) :
    (c.handle event).Synced := by
  cases event with
  | handleUpdateUserFullname text => exact Or.inl rfl
  | imageUploaded url => exact h

theorem handle_enabled (c : EditProfileViewController) (event : FormEvent) :
    (c.handle event).saveButton.isEnabled = true := by
  cases event <;> rfl

/-- A screen whose user has arrived has not been edited yet. -/
theorem setUser_synced (parses : URLParser) (user : User) : (new.setUser parses user).Synced := by
  rw [setUser, configureProfileImage]
  dsimp only
  split <;> exact Or.inr ⟨rfl, rfl⟩

theorem follows_iff (parses : URLParser) (user : User) (events : List FormEvent) :
    AfterEvery handle ButtonFollows (new.setUser parses user) events ↔
      AfterEvery handle Filled (new.setUser parses user) events :=
  AfterEvery.congr handle_synced
    (fun c event h => AggroApp.follows_iff (c.handle_enabled event)
      (c.handle_synced event h).formIsValid_iff)
    (setUser_synced parses user)

end EditProfileViewController

/--
**Buttons and validity.** On every screen, through any sequence of events, the
button follows the validity of the form after every event if and only if no
event leaves a required field empty.
-/
theorem button_follows_validity_iff (login : List (LoginViewController.Sender × String))
    (registration : List (RegistrationViewController.Sender × String))
    (reset : List ResetPasswordViewController.Event) (parses : URLParser) (user : User)
    (edit : List EditProfileViewController.FormEvent) :
    (AfterEvery LoginViewController.textDidChange LoginViewController.ButtonFollows .new login ↔
      AfterEvery LoginViewController.textDidChange LoginViewController.Filled .new login) ∧
    (AfterEvery RegistrationViewController.textDidChange
        RegistrationViewController.ButtonFollows .new registration ↔
      AfterEvery RegistrationViewController.textDidChange RegistrationViewController.Filled
        .new registration) ∧
    (AfterEvery ResetPasswordViewController.handle
        ResetPasswordViewController.ButtonFollows .new reset ↔
      AfterEvery ResetPasswordViewController.handle ResetPasswordViewController.Filled
        .new reset) ∧
    (AfterEvery EditProfileViewController.handle EditProfileViewController.ButtonFollows
        (EditProfileViewController.new.setUser parses user) edit ↔
      AfterEvery EditProfileViewController.handle EditProfileViewController.Filled
        (EditProfileViewController.new.setUser parses user) edit) :=
  ⟨LoginViewController.follows_iff login, RegistrationViewController.follows_iff registration,
    ResetPasswordViewController.follows_iff reset,
    EditProfileViewController.follows_iff parses user edit⟩

/-- Typing an e-mail enables the login button, with no password there. -/
theorem emptyPassword_enabled :
    ¬ AfterEvery LoginViewController.textDidChange LoginViewController.ButtonFollows .new
        [(.emailTextField, "ann@mail")] := by
  rintro ⟨⟨hIff, -⟩, -⟩
  exact absurd (hIff.mp rfl) (by decide)

/-- The colours come from the validity of the view model after every event. -/
theorem colours_follow_validity :
    (∀ (c : LoginViewController) event, (c.textDidChange event).loginButton =
      ⟨true, backgroundColor (c.textDidChange event).viewModel.formIsValid,
        titleColor (c.textDidChange event).viewModel.formIsValid⟩) ∧
    (∀ (c : RegistrationViewController) event, (c.textDidChange event).signUpButton =
      ⟨true, backgroundColor (c.textDidChange event).viewModel.formIsValid,
        titleColor (c.textDidChange event).viewModel.formIsValid⟩) ∧
    ∀ (c : ResetPasswordViewController) event, (c.handle event).resetPasswordButton =
      ⟨true, backgroundColor (c.handle event).viewModel.formIsValid,
        titleColor (c.handle event).viewModel.formIsValid⟩ := by
  refine ⟨?_, ?_, ?_⟩
  · rintro c ⟨_ | _, text⟩ <;> rfl
  · rintro c ⟨_ | _ | _, text⟩ <;> rfl
  · rintro c (_ | _) <;> rfl

end AggroApp
