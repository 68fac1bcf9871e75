/-!
# AggroApp — forms

The four forms of the app: their view models (`ViewModel/AuthenticationViewModel.swift`),
the submit button (`View/AuthButton.swift`), and the handlers of the login,
registration and reset screens that connect text fields, view model and button.
The edit screen, which is a form too, is in `Model/EditProfile.lean`.

A text field hands its text over as an optional that is never `nil`.
-/

namespace AggroApp

-- ---------------------------------------------------------------------------
-- Colours
-- ---------------------------------------------------------------------------

/-- A colour: components of 255, opacity in per cent. -/
structure UIColor where
  red : Nat
  green : Nat
  blue : Nat
  alpha : Nat
  deriving DecidableEq, Repr

def UIColor.white : UIColor := ⟨255, 255, 255, 100⟩

def UIColor.withAlphaComponent (color : UIColor) (alpha : Nat) : UIColor := { color with alpha }

/-- `UIColor(white: 1, alpha: 0.67)`. -/
def fadedTitle : UIColor := UIColor.white.withAlphaComponent 67

def vividBackground : UIColor := ⟨206, 7, 85, 100⟩

def fadedBackground : UIColor := (⟨218, 64, 122, 100⟩ : UIColor).withAlphaComponent 50

/-- The `buttonTitleColor` of all four view models. -/
def titleColor (formIsValid : Bool) : UIColor := if formIsValid then .white else fadedTitle

/-- The `buttonBackgroundColor` of the three authentication view models. -/
def backgroundColor (formIsValid : Bool) : UIColor :=
  if formIsValid then vividBackground else fadedBackground

-- ---------------------------------------------------------------------------
-- View models
-- ---------------------------------------------------------------------------

/-- `text?.isEmpty == false`. -/
def isFilled (text : Option String) : Bool := text.map String.isEmpty == some false

@[simp] theorem isFilled_none : isFilled none = false := rfl

@[simp] theorem isFilled_some (text : String) : isFilled (some text) = true ↔ text ≠ "" := by
  simp [isFilled]

structure LoginViewModel where
  email : Option String
  password : Option String
  deriving DecidableEq, Repr

def LoginViewModel.formIsValid (viewModel : LoginViewModel) : Bool :=
  isFilled viewModel.email && isFilled viewModel.password

def LoginViewModel.shouldEnableButton (viewModel : LoginViewModel) : Bool :=
  viewModel.formIsValid

structure RegistrationViewModel where
  email : Option String
  password : Option String
  fullname : Option String
  deriving DecidableEq, Repr

def RegistrationViewModel.formIsValid (viewModel : RegistrationViewModel) : Bool :=
  isFilled viewModel.email && isFilled viewModel.password && isFilled viewModel.fullname

def RegistrationViewModel.shouldEnableButton (viewModel : RegistrationViewModel) : Bool :=
  viewModel.formIsValid

structure ResetPasswordViewModel where
  email : Option String
  deriving DecidableEq, Repr

def ResetPasswordViewModel.formIsValid (viewModel : ResetPasswordViewModel) : Bool :=
  isFilled viewModel.email

def ResetPasswordViewModel.shouldEnableButton (viewModel : ResetPasswordViewModel) : Bool :=
  viewModel.formIsValid

structure UpdateUserDataViewModel where
  fullname : Option String
  profileImageUrl : Option String
  deriving DecidableEq, Repr

def UpdateUserDataViewModel.formIsValid (viewModel : UpdateUserDataViewModel) : Bool :=
  isFilled viewModel.fullname || isFilled viewModel.profileImageUrl

def UpdateUserDataViewModel.shouldEnableButton (viewModel : UpdateUserDataViewModel) : Bool :=
  viewModel.formIsValid

-- ---------------------------------------------------------------------------
-- The submit button
-- ---------------------------------------------------------------------------

structure AuthButton where
  isEnabled : Bool
  backgroundColor : UIColor
  titleColor : UIColor
  deriving DecidableEq, Repr

/-- `AuthButton.init(frame:)`. -/
def AuthButton.new : AuthButton := ⟨false, fadedBackground, fadedTitle⟩

/-- The animation block of the three `updateForm`s, on the `shouldEnableButton`
of the view model that is reached through the weak `self`. -/
def AuthButton.updateForm (shouldEnableButton : Option Bool) (formIsValid : Bool) :
    AuthButton where
  -- not the flag, but whether there is one: `self?.viewModel.shouldEnableButton != nil`
  isEnabled := shouldEnableButton != none
  backgroundColor := AggroApp.backgroundColor formIsValid
  titleColor := AggroApp.titleColor formIsValid

-- ---------------------------------------------------------------------------
-- The screens
-- ---------------------------------------------------------------------------

structure LoginViewController where
  emailTextField : String
  passwordTextField : String
  viewModel : LoginViewModel
  loginButton : AuthButton
  deriving DecidableEq, Repr

namespace LoginViewController

def new : LoginViewController := ⟨"", "", ⟨none, none⟩, .new⟩

inductive Sender
  | emailTextField
  | passwordTextField
  deriving DecidableEq, Repr

def updateForm (c : LoginViewController) : LoginViewController :=
  { c with
    loginButton := .updateForm (some c.viewModel.shouldEnableButton) c.viewModel.formIsValid }

/-- The text of `sender` has changed to `text`. -/
def textDidChange (c : LoginViewController) : Sender × String → LoginViewController
  | (.emailTextField, text) =>
    updateForm { c with
      emailTextField := text
      viewModel := { c.viewModel with email := some text } }
  | (.passwordTextField, text) =>
    updateForm { c with
      passwordTextField := text
      viewModel := { c.viewModel with password := some text } }

end LoginViewController

structure RegistrationViewController where
  emailTextField : String
  passwordTextField : String
  fullnameTextField : String
  viewModel : RegistrationViewModel
  signUpButton : AuthButton
  deriving DecidableEq, Repr

namespace RegistrationViewController

def new : RegistrationViewController := ⟨"", "", "", ⟨none, none, none⟩, .new⟩

inductive Sender
  | emailTextField
  | passwordTextField
  | fullnameTextField
  deriving DecidableEq, Repr

def updateForm (c : RegistrationViewController) : RegistrationViewController :=
  { c with
    signUpButton := .updateForm (some c.viewModel.shouldEnableButton) c.viewModel.formIsValid }

/-- The text of `sender` has changed to `text`. -/
def textDidChange (c : RegistrationViewController) :
    Sender × String → RegistrationViewController
  | (.emailTextField, text) =>
    updateForm { c with
      emailTextField := text
      viewModel := { c.viewModel with email := some text } }
  | (.passwordTextField, text) =>
    updateForm { c with
      passwordTextField := text
      viewModel := { c.viewModel with password := some text } }
  | (.fullnameTextField, text) =>
    updateForm { c with
      fullnameTextField := text
      viewModel := { c.viewModel with fullname := some text } }

end RegistrationViewController

structure ResetPasswordViewController where
  emailTextField : String
  viewModel : ResetPasswordViewModel
  resetPasswordButton : AuthButton
  deriving DecidableEq, Repr

namespace ResetPasswordViewController

def new : ResetPasswordViewController := ⟨"", ⟨none⟩, .new⟩

def updateForm (c : ResetPasswordViewController) : ResetPasswordViewController :=
  { c with
    resetPasswordButton :=
      .updateForm (some c.viewModel.shouldEnableButton) c.viewModel.formIsValid }

/-- The text of the field has changed to `text`. -/
def textDidChange (c : ResetPasswordViewController) (text : String) :
    ResetPasswordViewController :=
  updateForm { c with
    emailTextField := text
    viewModel := { c.viewModel with email := some text } }

/-- Prefill with the e-mail that the login screen hands over. -/
def loadEmail (c : ResetPasswordViewController) (email : Option String) :
    ResetPasswordViewController :=
  match email with
  | none => c
  | some email =>
    updateForm { c with
      viewModel := { c.viewModel with email := some email }
      emailTextField := email }

end ResetPasswordViewController

end AggroApp
