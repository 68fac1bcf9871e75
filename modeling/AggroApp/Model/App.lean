import AggroApp.Model.EditProfile
import AggroApp.Model.Net

/-!
# AggroApp — the app

The running app on one device: the home screen (`Controller/HomeViewController.swift`),
the screens it presents, the shared loader of `Utils/Extensions.swift`, and the
service operations in flight with the completions that the controllers gave
them. Home and the edit screens keep their controllers; of the login screens
only the submit handlers matter here, their forms are in `Model/Forms.lean`.

Events are what the user does on the presented screen, the steps of the
backends, and a launch of the process. Animated transitions count as done when
they are asked for. A trap leaves nothing but a launch to do.

`URL(string:)` is a parameter.
-/

namespace AggroApp

/-- The completions that the controllers hand to `Service`, by the method that
holds the closure; the closure of `updateUserData` has captured its screen and
its user. -/
inductive Completion
  | handleLogin
  | handleGoogleLogin
  | handleSignUp
  | handleResetPassword
  | controllerWantsToDismiss
  | updateUserData (screen : ℕ) (user : User)
  deriving DecidableEq, Repr

/-- The completions of `fetchUserWithFirestore`. -/
inductive UserCompletion
  | home
  | edit (screen : ℕ)
  deriving DecidableEq, Repr

/-- The completion of `updateProfileImage`. -/
inductive ImageCompletion
  | imagePickerController (screen : ℕ)
  deriving DecidableEq, Repr

/-- What stands in front of the home screen. The registration and reset screens
are pushed onto the login screen. -/
inductive Screen
  | login
  | onboarding
  | edit (screen : ℕ)
  | imagePicker (screen : ℕ)
  deriving DecidableEq, Repr

/-- What the controllers have reported to the user or to each other. -/
inductive Notice
  | authenticationComplete (currentUser : Option Uid)
  | onboarding (user : User)
  | message (title message : String)
  deriving DecidableEq, Repr

/-- A call of the app in flight. -/
abbrev AppCall := Call Completion UserCompletion ImageCompletion

abbrev AppStep := Step Completion UserCompletion ImageCompletion

abbrev AppTask := Task Completion UserCompletion ImageCompletion

abbrev AppNet := Net Completion UserCompletion ImageCompletion

structure App where
  net : AppNet
  /-- `HomeViewController.user`. -/
  user : Option User
  welcomeLabel : String
  /-- Every edit screen that was opened; its closures keep a closed one alive. -/
  edits : List EditProfileViewController
  presented : Option Screen
  /-- `UIViewController.hud` is displayed. -/
  hud : Bool
  trapped : Option ForceUnwrap
  log : List Notice

namespace App

-- ---------------------------------------------------------------------------
-- What a controller can do
-- ---------------------------------------------------------------------------

def showLoader (a : App) (show' : Bool) : App := { a with hud := show' }

def showMessage (a : App) (title message : String) : App :=
  { a with log := a.log ++ [.message title message] }

/-- `present(controller, animated:)`: refused while something is presented. -/
def present (a : App) (screen : Screen) : App :=
  { a with presented := a.presented.or (some screen) }

/-- `dismiss(animated:)` on the home screen. -/
def dismiss (a : App) : App := { a with presented := none }

/-- What is presented after `dismiss(animated:)` on edit screen `s`: an image
picker in front of it goes first. -/
def dismissed (s : ℕ) : Screen → Option Screen
  | .imagePicker t => if t = s then some (.edit t) else some (.imagePicker t)
  | .edit t => if t = s then none else some (.edit t)
  | screen => some screen

def dismissEdit (a : App) (s : ℕ) : App := { a with presented := a.presented.bind (dismissed s) }

/-- Start a service operation. -/
def call (a : App) (op : Operation Completion UserCompletion ImageCompletion) : App :=
  { a with net := a.net.call op }

def updateEdit (a : App) (s : ℕ) (f : EditProfileViewController → EditProfileViewController) :
    App :=
  { a with edits := a.edits.modify s f }

def trap (a : App) (what : ForceUnwrap) : App := { a with trapped := some what }

-- ---------------------------------------------------------------------------
-- The home screen
-- ---------------------------------------------------------------------------

def presentOnboardingViewControllerIfNeccessary (a : App) : App :=
  match a.user with
  | none => a
  | some user =>
    if user.hasSeenOnboarding then
      a
    else
      { a.present .onboarding with log := a.log ++ [.onboarding user] }

/-- The loader is shown, and hidden again only when the picture has a URL. -/
def configureProfileImage (parses : URLParser) (a : App) : App :=
  match a.user with
  | none => a
  | some user =>
    let a := a.showLoader true
    if parses user.profileImageUrl then a.showLoader false else a

def showWelcomeLable (a : App) : App :=
  match a.user with
  | none => a
  | some user =>
    if user.hasSeenOnboarding then
      { a with welcomeLabel := "Welcome, " ++ user.fullname ++ "!" }
    else
      a

/-- Assign `user`, which runs its `didSet`. -/
def setUser (parses : URLParser) (a : App) (user : User) : App :=
  ((({ a with user := some user } : App).presentOnboardingViewControllerIfNeccessary
    ).configureProfileImage parses).showWelcomeLable

def fetchUserWithFirestore (a : App) : App := a.call (.fetchUserWithFirestore .home)

def presentLoginController (a : App) : App := a.present .login

/-- `logout`; `signedOut` tells whether `signOut()` went through. -/
def logout (a : App) (signedOut : Bool) : App :=
  if signedOut then
    ({ a with net := a.net.setSession none } : App).presentLoginController
  else
    a

def authenticateUSer (a : App) : App :=
  match a.net.backend.currentUser with
  | none => a.presentLoginController
  | some _ => a.fetchUserWithFirestore

def authenticationComplete (a : App) : App :=
  (({ a with log := a.log ++ [.authenticationComplete a.net.backend.currentUser] } : App
    ).dismiss).fetchUserWithFirestore

/-- `controller(_:wantsToUpdate:)`, called by edit screen `s`. -/
def wantsToUpdate (parses : URLParser) (a : App) (s : ℕ) (user : User) : App :=
  ((a.dismissEdit s).setUser parses user).configureProfileImage parses

def handleEditProfile (a : App) : App :=
  (({ a with edits := a.edits ++ [.new] } : App).present (.edit a.edits.length)).call
    (.fetchUserWithFirestore (.edit a.edits.length))

/-- `controllerWantsToDismiss`, called by the onboarding screen. -/
def controllerWantsToDismiss (a : App) : App :=
  a.dismiss.call (.updateUserHasSeenOnboardingFirestore .controllerWantsToDismiss)

/-- A process that has just been loaded. -/
def loaded (net : AppNet) (log : List Notice) : App where
  net := net
  user := none
  welcomeLabel := ""
  edits := []
  presented := none
  hud := false
  trapped := none
  log := log

/-- A new process on what the backends hold. -/
def launch (net : AppNet) (log : List Notice) : App := (loaded net.restart log).authenticateUSer

-- ---------------------------------------------------------------------------
-- The login screens
-- ---------------------------------------------------------------------------

def handleLogin (a : App) (email password : String) : App :=
  (a.showLoader true).call (.logUserIn email password .handleLogin)

def handleGoogleLogin (a : App) : App := a.call (.handleGoogleLogin .handleGoogleLogin)

def handleSignUp (a : App) (profileImage : Option UIImage) (email password fullname : String)
    (filename : Filename) : App :=
  match profileImage with
  | none => a.showMessage "Error" "You need choose profile image"
  | some image =>
    match image.jpegData 10 with
    | none => a
    | some _ =>
      (a.showLoader true).call
        (.handleSignUp email password fullname image filename .handleSignUp)

/-- `email` is the view model's copy, which is missing until the first edit. -/
def handleResetPassword (a : App) (email : Option String) : App :=
  match email with
  | none => a
  | some email => (a.showLoader true).call (.resetPassword email .handleResetPassword)

-- ---------------------------------------------------------------------------
-- The edit screens
-- ---------------------------------------------------------------------------

/-- `imagePickerController(_:didFinishPickingMediaWithInfo:)` of edit screen `s`. -/
def imagePickerController (a : App) (s : ℕ) (image : Option UIImage) (filename : Filename) :
    App :=
  match image with
  | none => a
  | some image =>
    (((a.updateEdit s .imagePicked).showLoader true).call
      (.updateProfileImage image filename (.imagePickerController s))).dismissEdit s

/-- What `updateUserData` of edit screen `s` does outside the screen. -/
def save (parses : URLParser) (s : ℕ) (a : App) : EditProfileViewController.Effect → App
  | .wantsToUpdate user => a.wantsToUpdate parses s user
  | .updateUserData user => a.call (.updateUserData user (.updateUserData s user))
  | .trap what => a.trap what

/-- `handleDone` of edit screen `s`. -/
def handleDone (parses : URLParser) (a : App) (s : ℕ) (c : EditProfileViewController) : App :=
  c.updateUserData.foldl (save parses s) a

-- ---------------------------------------------------------------------------
-- The completions
-- ---------------------------------------------------------------------------

/-- The closures of `handleLogin` and `handleSignUp`, from `showLoader(false)` on. -/
def finishAuthentication (a : App) (error : Option Error) : App :=
  let a := a.showLoader false
  match error with
  | some error => a.showMessage "Error" error.localizedDescription
  | none => a.authenticationComplete

def complete (parses : URLParser) (a : App) (error : Option Error) : Completion → App
  | .handleLogin => a.finishAuthentication error
  | .handleSignUp => a.finishAuthentication error
  -- the error is not looked at
  | .handleGoogleLogin => a.authenticationComplete
  | .handleResetPassword =>
    let a := a.showLoader false
    match error with
    | some error => a.showMessage "Error" error.localizedDescription
    | none =>
      a.showMessage "Success"
        "We sent a link and instructions to your email to reset your password"
  -- nor here: `self.user?.hasSeenOnboarding = true`
  | .controllerWantsToDismiss =>
    match a.user with
    | none => a
    | some user => a.setUser parses { user with hasSeenOnboarding := true }
  | .updateUserData s user => a.wantsToUpdate parses s user

def fetched (parses : URLParser) (a : App) (user : User) : UserCompletion → App
  | .home => a.setUser parses user
  | .edit s => a.updateEdit s (.setUser parses user)

def uploaded (a : App) (profileImageUrl : String) : ImageCompletion → App
  | .imagePickerController s => (a.updateEdit s (.imageUploaded profileImageUrl)).showLoader false

/-- A callback has been called and took this step. -/
def take (parses : URLParser) (a : App) : AppStep → App
  | .quit => a
  | .trap what => a.trap what
  | .completed completion error => a.complete parses error completion
  | .fetched comletion user => a.fetched parses user comletion
  | .uploaded completion profileImageUrl => a.uploaded profileImageUrl completion
  | .wait _ => a

-- ---------------------------------------------------------------------------
-- Events
-- ---------------------------------------------------------------------------

/-- The user's events act on the screen in front. -/
inductive Event
  | launch
  | handleLogin (email password : String)
  | handleGoogleLogin
  | handleSignUp (profileImage : Option UIImage) (email password fullname : String)
      (filename : Filename)
  | handleResetPassword (email : Option String)
  | logout (signedOut : Bool)
  | handleEditProfile
  | controllerWantsToDismiss
  | handleCancel
  | handleUpdateUserFullname (text : String)
  | handleChangeProfilePhoto
  | imagePickerController (image : Option UIImage) (filename : Filename)
  | imagePickerControllerDidCancel
  | handleDone
  | perform (i : ℕ) (outcome : Outcome)
  | deliver (i : ℕ)
  deriving DecidableEq, Repr

/-- The edit screen in front, with its number. -/
def editing (a : App) : Option (ℕ × EditProfileViewController) :=
  match a.presented with
  | some (.edit s) => a.edits[s]?.map fun c => (s, c)
  | _ => none

/-- The number of the edit screen whose image picker is in front. -/
def picking (a : App) : Option ℕ :=
  match a.presented with
  | some (.imagePicker s) => some s
  | _ => none

/-- An event of a process that runs. -/
def handle (parses : URLParser) (a : App) : Event → Option App
  | .launch => some (launch a.net a.log)
  | .handleLogin email password =>
    if a.presented = some .login then some (a.handleLogin email password) else none
  | .handleGoogleLogin =>
    if a.presented = some .login then some a.handleGoogleLogin else none
  | .handleSignUp profileImage email password fullname filename =>
    if a.presented = some .login then
      some (a.handleSignUp profileImage email password fullname filename)
    else
      none
  | .handleResetPassword email =>
    if a.presented = some .login then some (a.handleResetPassword email) else none
  | .logout signedOut => if a.presented = none then some (a.logout signedOut) else none
  | .handleEditProfile => if a.presented = none then some a.handleEditProfile else none
  | .controllerWantsToDismiss =>
    if a.presented = some .onboarding then some a.controllerWantsToDismiss else none
  | .handleCancel => a.editing.map fun (s, _) => a.dismissEdit s
  | .handleUpdateUserFullname text =>
    a.editing.map fun (s, _) => a.updateEdit s (.handleUpdateUserFullname text)
  | .handleChangeProfilePhoto =>
    a.editing.map fun (s, _) => { a with presented := some (.imagePicker s) }
  | .imagePickerController image filename =>
    a.picking.map fun s => a.imagePickerController s image filename
  | .imagePickerControllerDidCancel => a.picking.map fun s => a.dismissEdit s
  -- the save button has to be enabled, and the loader out of the way
  | .handleDone =>
    a.editing.bind fun (s, c) =>
      if c.saveButton.isEnabled && !a.hud then some (a.handleDone parses s c) else none
  | .perform i outcome => (a.net.perform i outcome).map fun net => { a with net }
  | .deliver i => (a.net.deliver i).map fun (net, step) => ({ a with net } : App).take parses step

def step (parses : URLParser) (a : App) (event : Event) : Option App :=
  match a.trapped, event with
  | none, event => a.handle parses event
  | some _, .launch => some (launch a.net a.log)
  | some _, _ => none

/-- The app is launched on what the backends hold, sessions included. -/
def start (backend : Backend) : App := launch (Net.fresh backend) []

-- ---------------------------------------------------------------------------
-- Assigning the user
-- ---------------------------------------------------------------------------

variable {parses : URLParser} {a a' : App}

theorem configureProfileImage_eq {user : User} (h : a.user = some user) :
    a.configureProfileImage parses = { a with hud := !parses user.profileImageUrl } := by
  rw [configureProfileImage, h]
  cases hParses : parses user.profileImageUrl <;> simp [hParses, showLoader, h]

/-- Everything that an assignment of `user` does. -/
theorem setUser_eq (parses : URLParser) (a : App) (user : User) :
    a.setUser parses user = { a with
      user := some user
      welcomeLabel := if user.hasSeenOnboarding then "Welcome, " ++ user.fullname ++ "!"
        else a.welcomeLabel
      presented := if user.hasSeenOnboarding then a.presented
        else a.presented.or (some .onboarding)
      hud := !parses user.profileImageUrl
      log := if user.hasSeenOnboarding then a.log else a.log ++ [.onboarding user] } := by
  cases hSeen : user.hasSeenOnboarding with
  | true =>
    have hPresent : ({ a with user := some user } : App).presentOnboardingViewControllerIfNeccessary
        = { a with user := some user } := by
      simp [presentOnboardingViewControllerIfNeccessary, hSeen]
    rw [setUser, hPresent, configureProfileImage_eq rfl]
    simp [showWelcomeLable, hSeen]
  | false =>
    have hPresent : ({ a with user := some user } : App).presentOnboardingViewControllerIfNeccessary
        = { a with user := some user, presented := a.presented.or (some .onboarding),
                   log := a.log ++ [.onboarding user] } := by
      simp [presentOnboardingViewControllerIfNeccessary, present, hSeen]
    rw [setUser, hPresent, configureProfileImage_eq rfl]
    simp [showWelcomeLable, hSeen]

@[simp] theorem setUser_net (user : User) : (a.setUser parses user).net = a.net := by
  rw [setUser_eq]

@[simp] theorem setUser_user (user : User) : (a.setUser parses user).user = some user := by
  rw [setUser_eq]

@[simp] theorem setUser_edits (user : User) : (a.setUser parses user).edits = a.edits := by
  rw [setUser_eq]

@[simp] theorem setUser_trapped (user : User) : (a.setUser parses user).trapped = a.trapped := by
  rw [setUser_eq]

@[simp] theorem setUser_hud (user : User) :
    (a.setUser parses user).hud = !parses user.profileImageUrl := by
  rw [setUser_eq]

/-- The second `configureProfileImage` repeats what the `didSet` did. -/
theorem wantsToUpdate_eq (parses : URLParser) (a : App) (s : ℕ) (user : User) :
    a.wantsToUpdate parses s user = (a.dismissEdit s).setUser parses user := by
  have hUser : ((a.dismissEdit s).setUser parses user).user = some user := setUser_user user
  rw [wantsToUpdate, configureProfileImage_eq hUser, setUser_eq]

theorem complete_dismissed {user : User} (hUser : a.user = some user) (error : Option Error) :
    a.complete parses error .controllerWantsToDismiss =
      a.setUser parses { user with hasSeenOnboarding := true } := by
  rw [complete, hUser]

theorem complete_unloaded (hUser : a.user = none) (error : Option Error) :
    a.complete parses error .controllerWantsToDismiss = a := by
  rw [complete, hUser]

/-- What every effect of a save keeps, the save keeps. -/
theorem handleDone_keeps {I : App → Prop} {s : ℕ} {c : EditProfileViewController} (h : I a)
    (hEffect : ∀ b, I b → ∀ effect ∈ c.updateUserData, I (b.save parses s effect)) :
    I (a.handleDone parses s c) := by
  unfold handleDone
  exact List.foldlRecOn _ _ h hEffect

-- ---------------------------------------------------------------------------
-- What a step can do
-- ---------------------------------------------------------------------------

/-- The app after task `i` has been answered by the backend. -/
def answer (a : App) (i : ℕ) (backend : Backend) (call : AppCall) (step : AppStep) : App :=
  { a with net := ⟨backend, a.net.tasks.set i (.answered call step)⟩ }

/-- The app after the answer of task `i` has left the network. -/
def receive (a : App) (i : ℕ) (step : AppStep) : App :=
  { a with net := ⟨a.net.backend, a.net.tasks.set i (Task.ofStep step)⟩ }

/-- The steps of the app, with what enables each and where it leads. -/
inductive Stepped (parses : URLParser) (a : App) : Event → App → Prop
  | launch : Stepped parses a .launch (launch a.net a.log)
  | handleLogin (email password : String) (hLogin : a.presented = some .login) :
    Stepped parses a (.handleLogin email password) (a.handleLogin email password)
  | handleGoogleLogin (hLogin : a.presented = some .login) :
    Stepped parses a .handleGoogleLogin a.handleGoogleLogin
  | handleSignUp (profileImage : Option UIImage) (email password fullname : String)
      (filename : Filename) (hLogin : a.presented = some .login) :
    Stepped parses a (.handleSignUp profileImage email password fullname filename)
      (a.handleSignUp profileImage email password fullname filename)
  | handleResetPassword (email : Option String) (hLogin : a.presented = some .login) :
    Stepped parses a (.handleResetPassword email) (a.handleResetPassword email)
  | logout (signedOut : Bool) (hHome : a.presented = none) :
    Stepped parses a (.logout signedOut) (a.logout signedOut)
  | handleEditProfile (hHome : a.presented = none) :
    Stepped parses a .handleEditProfile a.handleEditProfile
  | controllerWantsToDismiss (hOnboarding : a.presented = some .onboarding) :
    Stepped parses a .controllerWantsToDismiss a.controllerWantsToDismiss
  | handleCancel (s : ℕ) (hEdit : a.presented = some (.edit s)) :
    Stepped parses a .handleCancel (a.dismissEdit s)
  | handleUpdateUserFullname (s : ℕ) (text : String) (hEdit : a.presented = some (.edit s)) :
    Stepped parses a (.handleUpdateUserFullname text)
      (a.updateEdit s (.handleUpdateUserFullname text))
  | handleChangeProfilePhoto (s : ℕ) (hEdit : a.presented = some (.edit s)) :
    Stepped parses a .handleChangeProfilePhoto { a with presented := some (.imagePicker s) }
  | imagePickerController (s : ℕ) (image : Option UIImage) (filename : Filename)
      (hPicker : a.presented = some (.imagePicker s)) :
    Stepped parses a (.imagePickerController image filename)
      (a.imagePickerController s image filename)
  | imagePickerControllerDidCancel (s : ℕ) (hPicker : a.presented = some (.imagePicker s)) :
    Stepped parses a .imagePickerControllerDidCancel (a.dismissEdit s)
  | handleDone (s : ℕ) (c : EditProfileViewController) (hEdit : a.presented = some (.edit s))
      (hScreen : a.edits[s]? = some c) (hEnabled : c.saveButton.isEnabled = true)
      (hHud : a.hud = false) :
    Stepped parses a .handleDone (a.handleDone parses s c)
  | perform (i : ℕ) (outcome : Outcome) (call : AppCall) (backend : Backend) (step : AppStep)
      (hTask : a.net.tasks[i]? = some (.waiting call))
      (hAnswered : Answered a.net.backend call outcome backend step) :
    Stepped parses a (.perform i outcome) (a.answer i backend call step)
  | deliver (i : ℕ) (call : AppCall) (step : AppStep)
      (hTask : a.net.tasks[i]? = some (.answered call step)) :
    Stepped parses a (.deliver i) ((a.receive i step).take parses step)

theorem editing_eq_some {s : ℕ} {c : EditProfileViewController} (h : a.editing = some (s, c)) :
    a.presented = some (.edit s) ∧ a.edits[s]? = some c := by
  unfold editing at h
  split at h
  · rename_i t hPresented
    obtain ⟨c', hScreen, hEq⟩ := Option.map_eq_some_iff.mp h
    rw [Prod.mk.injEq] at hEq
    exact ⟨hEq.1 ▸ hPresented, hEq.1 ▸ hEq.2 ▸ hScreen⟩
  · exact absurd h (by simp)

theorem editing_of_presented {s : ℕ} {c : EditProfileViewController}
    (hEdit : a.presented = some (.edit s)) (hScreen : a.edits[s]? = some c) :
    a.editing = some (s, c) := by
  rw [editing, hEdit]
  simp [hScreen]

theorem picking_eq_some {s : ℕ} (h : a.picking = some s) :
    a.presented = some (.imagePicker s) := by
  unfold picking at h
  split at h
  · rename_i t hPresented
    exact Option.some.inj h ▸ hPresented
  · exact absurd h (by simp)

/-- An event of a running process is one of these steps. -/
theorem handle_stepped {event : Event} (h : a.handle parses event = some a') :
    Stepped parses a event a' := by
  cases event with
  | launch => exact Option.some.inj h ▸ .launch
  | handleLogin email password =>
    obtain ⟨hLogin, hEq⟩ := Option.ite_none_right_eq_some.mp h
    exact Option.some.inj hEq ▸ .handleLogin email password hLogin
  | handleGoogleLogin =>
    obtain ⟨hLogin, hEq⟩ := Option.ite_none_right_eq_some.mp h
    exact Option.some.inj hEq ▸ .handleGoogleLogin hLogin
  | handleSignUp profileImage email password fullname filename =>
    obtain ⟨hLogin, hEq⟩ := Option.ite_none_right_eq_some.mp h
    exact Option.some.inj hEq ▸ .handleSignUp profileImage email password fullname filename hLogin
  | handleResetPassword email =>
    obtain ⟨hLogin, hEq⟩ := Option.ite_none_right_eq_some.mp h
    exact Option.some.inj hEq ▸ .handleResetPassword email hLogin
  | logout signedOut =>
    obtain ⟨hHome, hEq⟩ := Option.ite_none_right_eq_some.mp h
    exact Option.some.inj hEq ▸ .logout signedOut hHome
  | handleEditProfile =>
    obtain ⟨hHome, hEq⟩ := Option.ite_none_right_eq_some.mp h
    exact Option.some.inj hEq ▸ .handleEditProfile hHome
  | controllerWantsToDismiss =>
    obtain ⟨hOnboarding, hEq⟩ := Option.ite_none_right_eq_some.mp h
    exact Option.some.inj hEq ▸ .controllerWantsToDismiss hOnboarding
  | handleCancel =>
    obtain ⟨⟨s, c⟩, hEditing, rfl⟩ := Option.map_eq_some_iff.mp h
    exact .handleCancel s (editing_eq_some hEditing).1
  | handleUpdateUserFullname text =>
    obtain ⟨⟨s, c⟩, hEditing, rfl⟩ := Option.map_eq_some_iff.mp h
    exact .handleUpdateUserFullname s text (editing_eq_some hEditing).1
  | handleChangeProfilePhoto =>
    obtain ⟨⟨s, c⟩, hEditing, rfl⟩ := Option.map_eq_some_iff.mp h
    exact .handleChangeProfilePhoto s (editing_eq_some hEditing).1
  | imagePickerController image filename =>
    obtain ⟨s, hPicking, rfl⟩ := Option.map_eq_some_iff.mp h
    exact .imagePickerController s image filename (picking_eq_some hPicking)
  | imagePickerControllerDidCancel =>
    obtain ⟨s, hPicking, rfl⟩ := Option.map_eq_some_iff.mp h
    exact .imagePickerControllerDidCancel s (picking_eq_some hPicking)
  | handleDone =>
    obtain ⟨⟨s, c⟩, hEditing, hSave⟩ := Option.bind_eq_some_iff.mp h
    obtain ⟨hGate, hEq⟩ := Option.ite_none_right_eq_some.mp hSave
    rw [Bool.and_eq_true, Bool.not_eq_true'] at hGate
    obtain ⟨hEdit, hScreen⟩ := editing_eq_some hEditing
    exact Option.some.inj hEq ▸ .handleDone s c hEdit hScreen hGate.1 hGate.2
  | perform i outcome =>
    obtain ⟨net, hPerform, rfl⟩ := Option.map_eq_some_iff.mp h
    obtain ⟨call, step, hTask, hAnswered, hTasks⟩ := Net.perform_eq_some hPerform
    have hNet : net = ⟨net.backend, a.net.tasks.set i (.answered call step)⟩ := by rw [← hTasks]
    rw [hNet]
    exact .perform i outcome call net.backend step hTask hAnswered
  | deliver i =>
    obtain ⟨⟨net, step⟩, hDeliver, rfl⟩ := Option.map_eq_some_iff.mp h
    obtain ⟨call, hTask, hBackend, hTasks⟩ := Net.deliver_eq_some hDeliver
    have hNet : net = ⟨a.net.backend, a.net.tasks.set i (Task.ofStep step)⟩ := by
      rw [← hTasks, ← hBackend]
    rw [hNet]
    exact .deliver i call step hTask

/-- After a trap the only step is a launch. -/
theorem step_stepped {event : Event} (h : a.step parses event = some a') :
    Stepped parses a event a' := by
  unfold step at h
  split at h
  · exact handle_stepped h
  · exact Option.some.inj h ▸ .launch
  · exact absurd h (by simp)

-- ---------------------------------------------------------------------------
-- The operations in flight
-- ---------------------------------------------------------------------------

/-- `a'` has the tasks of `a` and operations that it has started since. -/
def Extends (a a' : App) : Prop :=
  ∃ started : List AppTask, a'.net.tasks = a.net.tasks ++ started ∧
    ∀ task ∈ started, ∃ session op, task = Task.ofStep (Operation.start session op)

namespace Extends

theorem frame (h : a'.net = a.net) : a.Extends a' := ⟨[], by rw [h, List.append_nil], by simp⟩

theorem trans {a'' : App} (h : a.Extends a') (h' : a'.Extends a'') : a.Extends a'' := by
  obtain ⟨started, hTasks, hStarted⟩ := h
  obtain ⟨started', hTasks', hStarted'⟩ := h'
  refine ⟨started ++ started', by rw [hTasks', hTasks, List.append_assoc], ?_⟩
  intro task hMem
  rcases List.mem_append.mp hMem with hOld | hNew
  · exact hStarted task hOld
  · exact hStarted' task hNew

theorem call (op : Operation Completion UserCompletion ImageCompletion) : a.Extends (a.call op) :=
  ⟨[_], rfl, fun _ hMem => ⟨_, op, List.mem_singleton.mp hMem⟩⟩

/-- Start an operation after a change that does not concern the net. -/
theorem then_call (h : a'.net = a.net) (op : Operation Completion UserCompletion ImageCompletion) :
    a.Extends (a'.call op) :=
  (frame h).trans (call op)

theorem authenticationComplete : a.Extends a.authenticationComplete := then_call rfl _

theorem wantsToUpdate (s : ℕ) (user : User) : a.Extends (a.wantsToUpdate parses s user) :=
  frame (by rw [wantsToUpdate_eq, setUser_net]; rfl)

theorem finishAuthentication (error : Option Error) : a.Extends (a.finishAuthentication error) := by
  cases error with
  | some error => exact frame rfl
  | none => exact then_call rfl _

theorem complete (error : Option Error) (completion : Completion) :
    a.Extends (a.complete parses error completion) := by
  cases completion with
  | handleLogin => exact finishAuthentication error
  | handleSignUp => exact finishAuthentication error
  | handleGoogleLogin => exact authenticationComplete
  | handleResetPassword => cases error <;> exact frame rfl
  | controllerWantsToDismiss =>
    rw [App.complete]
    cases a.user with
    | none => exact frame rfl
    | some user => exact frame (setUser_net _)
  | updateUserData s user => exact wantsToUpdate s user

theorem take (step : AppStep) : a.Extends (a.take parses step) := by
  cases step with
  | completed completion error => exact complete error completion
  | fetched comletion user =>
    cases comletion with
    | home => exact frame (setUser_net user)
    | edit s => exact frame rfl
  | _ => exact frame rfl

theorem handleDone (s : ℕ) (c : EditProfileViewController) :
    a.Extends (a.handleDone parses s c) := by
  refine handleDone_keeps (frame rfl) fun b hb effect _ => hb.trans ?_
  cases effect with
  | wantsToUpdate user => exact wantsToUpdate s user
  | updateUserData user => exact call _
  | trap what => exact frame rfl

theorem authenticateUSer : a.Extends a.authenticateUSer := by
  unfold App.authenticateUSer
  split
  · exact frame rfl
  · exact call _

end Extends

/-- The user's events start operations, and do nothing else to those in flight. -/
theorem Stepped.grows {event : Event} (h : Stepped parses a event a')
    (hLaunch : event ≠ .launch) (hPerform : ∀ i outcome, event ≠ .perform i outcome)
    (hDeliver : ∀ i, event ≠ .deliver i) : a.Extends a' := by
  cases h with
  | launch => exact absurd rfl hLaunch
  | perform i outcome => exact absurd rfl (hPerform i outcome)
  | deliver i => exact absurd rfl (hDeliver i)
  | handleSignUp profileImage email password fullname filename hLogin =>
    unfold App.handleSignUp
    split
    · exact .frame rfl
    · split
      · exact .frame rfl
      · exact .then_call rfl _
  | handleResetPassword email hLogin =>
    unfold App.handleResetPassword
    split
    · exact .frame rfl
    · exact .then_call rfl _
  | logout signedOut hHome =>
    unfold App.logout
    split
    · exact ⟨[], (List.append_nil _).symm, by simp⟩
    · exact .frame rfl
  | imagePickerController s image filename hPicker =>
    unfold App.imagePickerController
    split
    · exact .frame rfl
    · exact (Extends.then_call rfl _).trans (.frame rfl)
  | handleDone s c hEdit hScreen hEnabled hHud => exact .handleDone s c
  | handleLogin | handleGoogleLogin | handleEditProfile | controllerWantsToDismiss =>
    exact .then_call rfl _
  | _ => exact .frame rfl

theorem Extends.tasks {P : AppTask → Prop} (h : a.Extends a')
    (hStart : ∀ session op, P (Task.ofStep (Operation.start session op)))
    (hTasks : ∀ task ∈ a.net.tasks, P task) : ∀ task ∈ a'.net.tasks, P task := by
  obtain ⟨started, hEq, hStarted⟩ := h
  intro task hMem
  rw [hEq] at hMem
  rcases List.mem_append.mp hMem with hOld | hNew
  · exact hTasks task hOld
  · obtain ⟨session, op, rfl⟩ := hStarted task hNew
    exact hStart session op

theorem launch_tasks {P : AppTask → Prop} (net : AppNet) (log : List Notice)
    (hStart : ∀ session op, P (Task.ofStep (Operation.start session op))) :
    ∀ task ∈ (launch net log).net.tasks, P task :=
  Extends.authenticateUSer.tasks hStart (by simp [loaded, Net.restart])

theorem start_tasks {P : AppTask → Prop} {backend : Backend}
    (hStart : ∀ session op, P (Task.ofStep (Operation.start session op))) :
    ∀ task ∈ (start backend).net.tasks, P task :=
  launch_tasks _ _ hStart

/--
**Task rule.** What every operation starts with, and what an answer and its
delivery keep, holds of every task in every state.
-/
theorem step_tasks {P : AppTask → Prop}
    (hStart : ∀ session op, P (Task.ofStep (Operation.start session op)))
    (hAnswer : ∀ b call outcome b' step, Answered b call outcome b' step → P (.waiting call) →
      P (.answered call step))
    (hReceive : ∀ call step, P (.answered call step) → P (Task.ofStep step))
    {event : Event} (h : ∀ task ∈ a.net.tasks, P task) (hStep : a.step parses event = some a') :
    ∀ task ∈ a'.net.tasks, P task := by
  have hStepped := step_stepped hStep
  have hGrows := hStepped.grows
  cases hStepped with
  | launch => exact launch_tasks a.net a.log hStart
  | perform i outcome call backend step hTask hAnswered =>
    exact Async.forall_mem_set h (hAnswer _ _ _ _ _ hAnswered (h _ (List.mem_of_getElem? hTask)))
  | deliver i call step hTask =>
    have hReceived : ∀ task ∈ (a.receive i step).net.tasks, P task :=
      Async.forall_mem_set h (hReceive _ _ (h _ (List.mem_of_getElem? hTask)))
    exact (Extends.take step).tasks hStart hReceived
  | _ => exact (hGrows (by simp) (by simp) (by simp)).tasks hStart h

-- ---------------------------------------------------------------------------
-- The backends
-- ---------------------------------------------------------------------------

@[simp] theorem wantsToUpdate_net (s : ℕ) (user : User) :
    (a.wantsToUpdate parses s user).net = a.net := by
  rw [wantsToUpdate_eq, setUser_net]
  rfl

@[simp] theorem finishAuthentication_backend (error : Option Error) :
    (a.finishAuthentication error).net.backend = a.net.backend := by
  cases error <;> rfl

/-- What the screens do with an answer reaches the backends by calls only. -/
theorem take_backend (step : AppStep) : (a.take parses step).net.backend = a.net.backend := by
  cases step with
  | completed completion error =>
    rw [take]
    cases completion with
    | handleLogin => exact finishAuthentication_backend error
    | handleSignUp => exact finishAuthentication_backend error
    | handleGoogleLogin => rfl
    | handleResetPassword => cases error <;> rfl
    | controllerWantsToDismiss =>
      cases hUser : a.user with
      | none => rw [complete_unloaded hUser]
      | some user => rw [complete_dismissed hUser, setUser_net]
    | updateUserData s user => rw [complete, wantsToUpdate_net]
  | fetched comletion user =>
    cases comletion with
    | home => rw [take, fetched, setUser_net]
    | edit s => rfl
  | _ => rfl

theorem handleDone_backend (s : ℕ) (c : EditProfileViewController) :
    (a.handleDone parses s c).net.backend = a.net.backend := by
  have hKept : ∀ b : App, b.net.backend = a.net.backend → ∀ effect ∈ c.updateUserData,
      (b.save parses s effect).net.backend = a.net.backend := by
    intro b hb effect _
    cases effect with
    | wantsToUpdate user => rw [save, wantsToUpdate_net, hb]
    | updateUserData user => exact hb
    | trap what => exact hb
  exact handleDone_keeps (I := fun b => b.net.backend = a.net.backend) rfl hKept

theorem launch_backend (net : AppNet) (log : List Notice) :
    (launch net log).net.backend = net.backend := by
  unfold launch authenticateUSer
  split <;> rfl

/-- The stores change when the backend performs a call. Every other event leaves
them as they are, and may sign out. -/
theorem Stepped.backend {event : Event} (h : Stepped parses a event a') :
    ((∀ i outcome, event ≠ .perform i outcome) ∧ ∃ session,
      a'.net.backend = { a.net.backend with currentUser := session }) ∨
    ∃ i outcome call step, event = .perform i outcome ∧
      a.net.tasks[i]? = some (.waiting call) ∧
      Answered a.net.backend call outcome a'.net.backend step := by
  have hSame : ∀ b : Backend, b = a.net.backend →
      ∃ session, b = { a.net.backend with currentUser := session } :=
    fun b hb => ⟨a.net.backend.currentUser, hb⟩
  cases h with
  | perform i outcome call backend step hTask hAnswered =>
    exact Or.inr ⟨i, outcome, call, step, rfl, hTask, hAnswered⟩
  | launch => exact Or.inl ⟨by simp, hSame _ (launch_backend a.net a.log)⟩
  | handleSignUp profileImage email password fullname filename hLogin =>
    refine Or.inl ⟨by simp, hSame _ ?_⟩
    unfold App.handleSignUp
    split
    · rfl
    · split <;> rfl
  | handleResetPassword email hLogin =>
    refine Or.inl ⟨by simp, hSame _ ?_⟩
    unfold App.handleResetPassword
    split <;> rfl
  | logout signedOut hHome =>
    refine Or.inl ⟨by simp, ?_⟩
    unfold App.logout
    split
    · exact ⟨none, rfl⟩
    · exact hSame _ rfl
  | imagePickerController s image filename hPicker =>
    refine Or.inl ⟨by simp, hSame _ ?_⟩
    unfold App.imagePickerController
    split <;> rfl
  | handleDone s c hEdit hScreen hEnabled hHud =>
    exact Or.inl ⟨by simp, hSame _ (handleDone_backend s c)⟩
  | deliver i call step hTask => exact Or.inl ⟨by simp, hSame _ (take_backend step)⟩
  | _ => exact Or.inl ⟨by simp, hSame _ rfl⟩

end App

end AggroApp
