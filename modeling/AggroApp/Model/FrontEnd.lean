import AggroApp.Model.App
import AggroApp.Model.PaperOnboarding

/-!
# AggroApp — the front end

`Model/App.lean` knows which screen is presented, and takes any texts from it. Here are
the screens themselves: the navigation controller of the login screen, which the
registration and the reset screen are pushed onto, and the onboarding pages. A button
sends what the fields of its screen hold, once it is enabled.

A screen is new when it is presented, and keeps what it has until it is dismissed. The
closure of a reset request knows its own screen only by its delegate, the login screen,
which pops what is on top when the link has been sent. The edit screens are part of the
app.
-/

namespace AggroApp

-- ---------------------------------------------------------------------------
-- The login screens
-- ---------------------------------------------------------------------------

inductive PushedScreen
  | registration (c : RegistrationViewController) (profileImage : Option UIImage)
  | resetPassword (c : ResetPasswordViewController)
  deriving DecidableEq, Repr

/-- The navigation controller with the login screen at its root. -/
structure LoginScreens where
  login : LoginViewController
  /-- The screen on top of it. -/
  pushed : Option PushedScreen
  /-- How many were pushed so far, which is the number of the last one. -/
  pushes : ℕ
  /-- The reset requests: the task, and the number of the screen that made it. -/
  requests : List (ℕ × ℕ)
  deriving DecidableEq, Repr

namespace LoginScreens

def new : LoginScreens := ⟨.new, none, 0, []⟩

def pushViewController (s : LoginScreens) (screen : PushedScreen) : LoginScreens :=
  { s with pushed := some screen, pushes := s.pushes + 1 }

/-- The root is never popped. -/
def popViewController (s : LoginScreens) : LoginScreens := { s with pushed := none }

/-- The reset screen has loaded the e-mail when it appears. -/
def showForgotPassword (s : LoginScreens) : LoginScreens :=
  s.pushViewController
    (.resetPassword (ResetPasswordViewController.new.loadEmail (some s.login.emailTextField)))

def showRegistrationViewController (s : LoginScreens) : LoginScreens :=
  s.pushViewController (.registration .new none)

/-- What is done on the screen on top, but for its submit buttons. -/
inductive Event
  | loginTextDidChange (event : LoginViewController.Sender × String)
  | showForgotPassword
  | showRegistrationViewController
  | registrationTextDidChange (event : RegistrationViewController.Sender × String)
  /-- `handleAddProfilePhoto`, and what was picked. -/
  | imagePickerController (image : Option UIImage)
  | showLoginViewController
  | resetTextDidChange (text : String)
  | handleDismissal
  deriving DecidableEq, Repr

def handle (s : LoginScreens) (event : Event) : Option LoginScreens :=
  match s.pushed, event with
  | none, .loginTextDidChange event => some { s with login := s.login.textDidChange event }
  | none, .showForgotPassword => some s.showForgotPassword
  | none, .showRegistrationViewController => some s.showRegistrationViewController
  | some (.registration c profileImage), .registrationTextDidChange event =>
    some { s with pushed := some (.registration (c.textDidChange event) profileImage) }
  | some (.registration c profileImage), .imagePickerController image =>
    some { s with pushed := some (.registration c (image.or profileImage)) }
  | some (.registration _ _), .showLoginViewController => some s.popViewController
  | some (.resetPassword c), .resetTextDidChange text =>
    some { s with pushed := some (.resetPassword (c.textDidChange text)) }
  | some (.resetPassword _), .handleDismissal => some s.popViewController
  | _, _ => none

inductive Press
  | handleLogin
  | handleGoogleLogin
  | handleSignUp (filename : Filename)
  | handleResetPassword
  deriving DecidableEq, Repr

/-- What a press asks of the app. The texts are those of the fields, but for the reset
screen, which sends its view model's. -/
def press (s : LoginScreens) (press : Press) : Option App.Event :=
  match s.pushed, press with
  | none, .handleLogin =>
    if s.login.loginButton.isEnabled then
      some (.handleLogin s.login.emailTextField s.login.passwordTextField)
    else
      none
  | none, .handleGoogleLogin => some .handleGoogleLogin
  | some (.registration c profileImage), .handleSignUp filename =>
    if c.signUpButton.isEnabled then
      some (.handleSignUp profileImage c.emailTextField c.passwordTextField c.fullnameTextField
        filename)
    else
      none
  | some (.resetPassword c), .handleResetPassword =>
    if c.resetPasswordButton.isEnabled then some (.handleResetPassword c.viewModel.email) else none
  | _, _ => none

/-- The request of a reset screen, if there is one, has become task `i`. -/
def noteRequest (s : LoginScreens) (i : ℕ) : App.Event → LoginScreens
  | .handleResetPassword (some _) => { s with requests := s.requests ++ [(i, s.pushes)] }
  | _ => s

/-- The link of task `i` has been sent. A request of an earlier navigation controller
finds no screen to pop. -/
def didSendResetPasswordLink (s : LoginScreens) (i : ℕ) : LoginScreens :=
  if i ∈ s.requests.map Prod.fst then s.popViewController else s

end LoginScreens

-- ---------------------------------------------------------------------------
-- The front end
-- ---------------------------------------------------------------------------

/-- The screens in front that `App` knows by name only. -/
inductive FrontScreen
  | login (s : LoginScreens)
  | onboarding (c : OnboardingViewController)
  deriving DecidableEq, Repr

namespace FrontScreen

/-- The screen in front, now that the app presents this one. -/
def follow (screen : Option FrontScreen) : Option Screen → Option FrontScreen
  | some .login =>
    match screen with
    | some (.login s) => some (.login s)
    | _ => some (.login .new)
  | some .onboarding =>
    match screen with
    | some (.onboarding c) => some (.onboarding c)
    | _ => (OnboardingViewController.load onboardingItems).map .onboarding
  | _ => none

def didSendResetPasswordLink (i : ℕ) : FrontScreen → FrontScreen
  | .login s => .login (s.didSendResetPasswordLink i)
  | screen => screen

end FrontScreen

/-- The delivery reports that a reset link has been sent. -/
def App.sendsLink (a : App) (i : ℕ) : Bool :=
  match a.net.tasks[i]? with
  | some (.answered _ (.completed .handleResetPassword none)) => true
  | _ => false

/-- The event is a press on one of the screens in front. -/
def App.Event.onScreen : App.Event → Bool
  | .handleLogin _ _ | .handleGoogleLogin | .handleSignUp _ _ _ _ _ | .handleResetPassword _
  | .controllerWantsToDismiss => true
  | _ => false

structure FrontEnd where
  app : App
  screen : Option FrontScreen

namespace FrontEnd

inductive Event
  | login (event : LoginScreens.Event)
  | press (press : LoginScreens.Press)
  | gesture (gesture : OnboardingViewController.Gesture)
  | dismissOnboarding
  /-- Everything else that happens to the app. -/
  | app (event : App.Event)
  deriving DecidableEq, Repr

/-- What the event leaves in front, before the app presents or dismisses anything. -/
def left (f : FrontEnd) : App.Event → Option FrontScreen
  | .launch => none
  | .deliver i =>
    if f.app.sendsLink i then f.screen.map (·.didSendResetPasswordLink i) else f.screen
  | _ => f.screen

/-- The app has gone on by `event`. -/
def goOn (f : FrontEnd) (event : App.Event) (app : App) : FrontEnd :=
  ⟨app, FrontScreen.follow (f.left event) app.presented⟩

def step (parses : URLParser) (f : FrontEnd) : Event → Option FrontEnd
  | .login event =>
    match f.app.trapped, f.screen with
    | none, some (.login s) => (s.handle event).map fun s => { f with screen := some (.login s) }
    | _, _ => none
  | .press press =>
    match f.screen with
    | some (.login s) =>
      (s.press press).bind fun event => (f.app.step parses event).map fun app =>
        ({ f with screen := some (.login (s.noteRequest f.app.net.tasks.length event)) } :
          FrontEnd).goOn event app
    | _ => none
  | .gesture gesture =>
    match f.app.trapped, f.screen with
    | none, some (.onboarding c) =>
      (c.handle gesture).map fun c => { f with screen := some (.onboarding c) }
    | _, _ => none
  | .dismissOnboarding =>
    match f.screen with
    | some (.onboarding c) =>
      if c.getStartedButton then
        (f.app.step parses .controllerWantsToDismiss).map (f.goOn .controllerWantsToDismiss)
      else
        none
    | _ => none
  | .app event =>
    if event.onScreen then none else (f.app.step parses event).map (f.goOn event)

/-- A process that has just been launched. -/
def start (backend : Backend) : FrontEnd :=
  ⟨App.start backend, FrontScreen.follow none (App.start backend).presented⟩

end FrontEnd

end AggroApp
