import AggroApp.Model.App
import AggroApp.Model.ProgressHUD

/-!
# AggroApp — the display

`Model/App.lean` keeps two summaries of what is seen: whether the loader is wanted,
and the text of the welcome label. Here is what stands behind them. Each event makes
a list of `ViewCall`s, in the order of the source: requests to the shared progress
HUD, and layers that are put in front of the others on the home screen. Nothing is
ever taken off the home screen again; `configureUI`, which runs once more after each
saved profile, covers what is there with a second gradient.

A `Device` is an app with its HUD and its home screen. The HUD's animations take
their time, and views may go away between the events of the app.
-/

namespace AggroApp

/-- The views that `showLoader` is called on. -/
inductive View
  | home
  | login
  | registration
  | resetPassword
  | edit (screen : ℕ)
  deriving DecidableEq, Repr

inductive ViewCall
  | showLoader (view : View) (show' : Bool)
  | configureGradientBackground
  | addWelcomeLabel
  /-- `welcomeLabel.text`, and its `alpha` to 1. -/
  | setWelcomeLabel (text : String)
  | addProfileImageView (profileImageUrl : String)
  deriving DecidableEq, Repr

-- ---------------------------------------------------------------------------
-- What the handlers call
-- ---------------------------------------------------------------------------

namespace ViewCall

def configureProfileImage (parses : URLParser) (user : User) : List ViewCall :=
  if parses user.profileImageUrl then
    [.showLoader .home true, .showLoader .home false, .addProfileImageView user.profileImageUrl]
  else
    [.showLoader .home true]

def showWelcomeLable (user : User) : List ViewCall :=
  if user.hasSeenOnboarding then [.setWelcomeLabel ("Welcome, " ++ user.fullname ++ "!")] else []

/-- The `didSet` of the home screen's user. -/
def setUser (parses : URLParser) (user : User) : List ViewCall :=
  configureProfileImage parses user ++ showWelcomeLable user

def configureUI : List ViewCall := [.configureGradientBackground, .addWelcomeLabel]

def wantsToUpdate (parses : URLParser) (user : User) : List ViewCall :=
  setUser parses user ++ configureUI ++ configureProfileImage parses user

def complete (parses : URLParser) (user : Option User) : Completion → List ViewCall
  | .handleLogin => [.showLoader .login false]
  | .handleGoogleLogin => []
  | .handleSignUp => [.showLoader .registration false]
  | .handleResetPassword => [.showLoader .resetPassword false]
  | .controllerWantsToDismiss =>
    match user with
    | none => []
    | some user => setUser parses { user with hasSeenOnboarding := true }
  | .updateUserData _ user => wantsToUpdate parses user

def take (parses : URLParser) (user : Option User) : AppStep → List ViewCall
  | .completed completion _ => complete parses user completion
  | .fetched .home user => setUser parses user
  | .uploaded (.imagePickerController s) _ => [.showLoader (.edit s) false]
  | _ => []

def save (parses : URLParser) : EditProfileViewController.Effect → List ViewCall
  | .wantsToUpdate user => wantsToUpdate parses user
  | _ => []

end ViewCall

/-- The calls that an event of a running process makes. -/
def App.viewCalls (parses : URLParser) (a : App) : App.Event → List ViewCall
  | .handleLogin _ _ => [.showLoader .login true]
  | .handleSignUp profileImage _ _ _ _ =>
    if (profileImage.bind fun image => image.jpegData 10).isSome then
      [.showLoader .registration true]
    else
      []
  | .handleResetPassword email => if email.isSome then [.showLoader .resetPassword true] else []
  | .imagePickerController image _ =>
    match image, a.picking with
    | some _, some s => [.showLoader (.edit s) true]
    | _, _ => []
  | .handleDone =>
    match a.editing with
    | some (_, c) => c.updateUserData.flatMap (ViewCall.save parses)
    | none => []
  | .deliver i =>
    match a.net.tasks[i]? with
    | some (.answered _ step) => ViewCall.take parses a.user step
    | _ => []
  | _ => []

-- ---------------------------------------------------------------------------
-- The home screen
-- ---------------------------------------------------------------------------

inductive HomeLayer
  | gradient
  | welcomeLabel
  | profileImageView (profileImageUrl : String)
  deriving DecidableEq, Repr

structure HomeView where
  /-- From the front to the back. -/
  layers : List HomeLayer
  /-- The text of the label, once it has been faded in. -/
  welcomeLabel : Option String
  deriving DecidableEq, Repr

namespace HomeView

/-- `addSubview` brings a view that is there already to the front. -/
def draw (home : HomeView) : ViewCall → HomeView
  | .configureGradientBackground => { home with layers := .gradient :: home.layers }
  | .addWelcomeLabel => { home with layers := .welcomeLabel :: home.layers.erase .welcomeLabel }
  | .setWelcomeLabel text => { home with welcomeLabel := some text }
  | .addProfileImageView profileImageUrl =>
    { home with layers := .profileImageView profileImageUrl :: home.layers }
  | .showLoader _ _ => home

/-- The screen after `viewDidLoad`. -/
def loaded : HomeView := ViewCall.configureUI.foldl draw ⟨[], none⟩

/-- A gradient covers all that is behind it. -/
def uncovered (home : HomeView) : List HomeLayer := home.layers.takeWhile (· ≠ .gradient)

/-- All the pictures have the same place, so the one in front is seen. -/
def profileImage (home : HomeView) : Option String :=
  home.uncovered.findSome? fun layer => match layer with
    | .profileImageView profileImageUrl => some profileImageUrl
    | _ => none

def greeting (home : HomeView) : Option String :=
  if .welcomeLabel ∈ home.uncovered then home.welcomeLabel else none

end HomeView

-- ---------------------------------------------------------------------------
-- Devices
-- ---------------------------------------------------------------------------

/-- `UIViewController.hud` on a call. -/
def JGProgressHUD.request (hud : JGProgressHUD View) : ViewCall → JGProgressHUD View
  | .showLoader view true => hud.showInView view
  | .showLoader _ false => hud.dismiss
  | _ => hud

structure Device where
  app : App
  hud : JGProgressHUD View
  home : HomeView

namespace Device

inductive Event
  | app (event : App.Event)
  | animationDidFinish
  | release (view : View)
  deriving DecidableEq, Repr

/-- A process that has just been launched. -/
def launched (app : App) : Device := ⟨app, .new, .loaded⟩

/-- The app has gone on to `app`, and made these calls. -/
def display (d : Device) (app : App) (calls : List ViewCall) : Device where
  app := app
  hud := calls.foldl JGProgressHUD.request d.hud
  home := calls.foldl HomeView.draw d.home

def step (parses : URLParser) (d : Device) : Event → Option Device
  | .app .launch => (d.app.step parses .launch).map launched
  | .app event =>
    (d.app.step parses event).map fun app => d.display app (d.app.viewCalls parses event)
  | .animationDidFinish =>
    if d.hud.transitioning.isSome then
      some { d with hud := d.hud.animationDidFinish }
    else
      none
  | .release view => some { d with hud := d.hud.release view }

def start (backend : Backend) : Device := launched (App.start backend)

/-- The event of the app, if it is one. -/
def Event.app? : Event → Option App.Event
  | .app event => some event
  | _ => none

variable {parses : URLParser} {d d' : Device}

/-- What an event of the app does to the device. -/
theorem step_app {e : App.Event} (h : d.step parses (.app e) = some d') :
    ∃ app, d.app.step parses e = some app ∧
      ((e = .launch ∧ d' = launched app) ∨
        (e ≠ .launch ∧ d' = d.display app (d.app.viewCalls parses e))) := by
  cases e with
  | launch =>
    obtain ⟨app, hStep, rfl⟩ := Option.map_eq_some_iff.mp h
    exact ⟨app, hStep, Or.inl ⟨rfl, rfl⟩⟩
  | _ =>
    obtain ⟨app, hStep, rfl⟩ := Option.map_eq_some_iff.mp h
    exact ⟨app, hStep, Or.inr ⟨by simp, rfl⟩⟩

/-- Nothing on the display gets in the way of the app. -/
theorem run_app {es : List Event} (h : Async.run (Device.step parses) d es = some d') :
    Async.run (App.step parses) d.app (es.filterMap Event.app?) = some d'.app := by
  induction es generalizing d with
  | nil =>
    rw [Async.run_nil, Option.some.injEq] at h
    exact h ▸ Async.run_nil d.app
  | cons e es ih =>
    obtain ⟨b, hStep, hRest⟩ := Async.run_cons_some h
    cases e with
    | app event =>
      obtain ⟨app, hApp, hSame⟩ := step_app hStep
      have hEq : b.app = app := by
        rcases hSame with ⟨-, rfl⟩ | ⟨-, rfl⟩ <;> rfl
      show (d.app.step parses event).bind (fun a => Async.run (App.step parses) a _) = some d'.app
      rw [hApp, ← hEq]
      exact ih hRest
    | animationDidFinish =>
      obtain ⟨-, hEq⟩ := Option.ite_none_right_eq_some.mp hStep
      have hSame : b.app = d.app := by
        rw [← Option.some.inj hEq]
      exact hSame ▸ ih hRest
    | release view =>
      have hSame : b.app = d.app := by
        rw [← Option.some.inj hStep]
      exact hSame ▸ ih hRest

end Device

-- ---------------------------------------------------------------------------
-- What the app keeps of it
-- ---------------------------------------------------------------------------

/-- The last request to the loader. -/
def ViewCall.requested (hud : Bool) : ViewCall → Bool
  | .showLoader _ show' => show'
  | _ => hud

/-- The last text of the label. -/
def ViewCall.labelled (welcomeLabel : String) : ViewCall → String
  | .setWelcomeLabel text => text
  | _ => welcomeLabel

/-- `a'` has come from `a` by these calls, as far as the app keeps account of them. -/
def App.Shows (a a' : App) (calls : List ViewCall) : Prop :=
  a'.hud = calls.foldl ViewCall.requested a.hud ∧
    a'.welcomeLabel = calls.foldl ViewCall.labelled a.welcomeLabel

namespace App.Shows

variable {parses : URLParser} {a a' a'' : App} {calls calls' : List ViewCall}

theorem frame (hHud : a'.hud = a.hud) (hLabel : a'.welcomeLabel = a.welcomeLabel) :
    a.Shows a' [] := ⟨hHud, hLabel⟩

theorem trans (h : a.Shows a' calls) (h' : a'.Shows a'' calls') :
    a.Shows a'' (calls ++ calls') := by
  constructor
  · rw [List.foldl_append, ← h.1, h'.1]
  · rw [List.foldl_append, ← h.2, h'.2]

theorem setUser (user : User) : a.Shows (a.setUser parses user) (ViewCall.setUser parses user) := by
  rw [setUser_eq, ViewCall.setUser, ViewCall.configureProfileImage, ViewCall.showWelcomeLable]
  cases hParses : parses user.profileImageUrl <;> cases hSeen : user.hasSeenOnboarding <;>
    simp [Shows, ViewCall.requested, ViewCall.labelled]

theorem wantsToUpdate (s : ℕ) (user : User) :
    a.Shows (a.wantsToUpdate parses s user) (ViewCall.wantsToUpdate parses user) := by
  have hSet : (a.dismissEdit s).Shows ((a.dismissEdit s).setUser parses user)
      (ViewCall.setUser parses user) := setUser user
  have hAgain : ((a.dismissEdit s).setUser parses user).Shows
      ((a.dismissEdit s).setUser parses user)
      (ViewCall.configureUI ++ ViewCall.configureProfileImage parses user) := by
    rw [setUser_eq]
    cases hParses : parses user.profileImageUrl <;>
      simp [Shows, ViewCall.configureUI, ViewCall.configureProfileImage, hParses,
        ViewCall.requested, ViewCall.labelled]
  rw [wantsToUpdate_eq, ViewCall.wantsToUpdate, List.append_assoc]
  have hDismiss : a.Shows (a.dismissEdit s) [] := frame rfl rfl
  exact hDismiss.trans (hSet.trans hAgain)

theorem take (step : AppStep) :
    a.Shows (a.take parses step) (ViewCall.take parses a.user step) := by
  cases step with
  | completed completion error =>
    rw [App.take, ViewCall.take]
    cases completion with
    | handleLogin | handleSignUp => cases error <;> exact ⟨rfl, rfl⟩
    | handleGoogleLogin => exact frame rfl rfl
    | handleResetPassword => cases error <;> exact ⟨rfl, rfl⟩
    | controllerWantsToDismiss =>
      cases hUser : a.user with
      | none =>
        rw [complete_unloaded hUser]
        exact frame rfl rfl
      | some user =>
        rw [complete_dismissed hUser]
        exact setUser _
    | updateUserData s user => exact wantsToUpdate s user
  | fetched comletion user =>
    cases comletion with
    | home => exact setUser user
    | edit s => exact frame rfl rfl
  | uploaded completion url =>
    cases completion with
    | imagePickerController s => exact ⟨rfl, rfl⟩
  | _ => exact frame rfl rfl

theorem saves (s : ℕ) (effects : List EditProfileViewController.Effect) :
    a.Shows (effects.foldl (save parses s) a) (effects.flatMap (ViewCall.save parses)) := by
  induction effects generalizing a with
  | nil => exact frame rfl rfl
  | cons effect effects ih =>
    have hEffect : a.Shows (a.save parses s effect) (ViewCall.save parses effect) := by
      cases effect with
      | wantsToUpdate user => exact wantsToUpdate s user
      | _ => exact frame rfl rfl
    rw [List.foldl_cons, List.flatMap_cons]
    exact hEffect.trans ih

/-- The app keeps account of the calls that an event makes. -/
theorem step {e : Event} (hLaunch : e ≠ .launch) (hStep : a.step parses e = some a') :
    a.Shows a' (a.viewCalls parses e) := by
  cases step_stepped hStep with
  | launch => exact absurd rfl hLaunch
  | handleSignUp profileImage email password fullname filename hLogin =>
    cases profileImage with
    | none => exact frame rfl rfl
    | some image =>
      rw [viewCalls, Option.bind_some, App.handleSignUp]
      cases hData : image.jpegData 10 <;> exact ⟨rfl, rfl⟩
  | handleResetPassword email hLogin => cases email <;> exact ⟨rfl, rfl⟩
  | logout signedOut hHome => cases signedOut <;> exact frame rfl rfl
  | imagePickerController s image filename hPicker =>
    cases image <;> simp [viewCalls, picking, hPicker] <;> exact ⟨rfl, rfl⟩
  | handleDone s c hEdit hScreen hEnabled hHud =>
    have hEditing : a.editing = some (s, c) := editing_of_presented hEdit hScreen
    rw [viewCalls, hEditing]
    exact saves s c.updateUserData
  | perform i outcome call backend step hTask hAnswered => exact frame rfl rfl
  | deliver i call step hTask =>
    rw [viewCalls, hTask]
    have hReceive : a.Shows (a.receive i step) [] := frame rfl rfl
    exact hReceive.trans (take step)
  | _ => exact ⟨rfl, rfl⟩

end App.Shows

end AggroApp
