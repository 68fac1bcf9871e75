import AggroApp.Model.Display

/-!
# AggroApp — what is displayed

The app asks for the loader, for pictures and for greetings; whether they are seen
is decided by the HUD and by what is drawn over what.

## Results

* `hidden_loader_goes` — a loader that is no longer wanted goes, whatever animations
  and views come in between.
* `loader_shown_iff`   — a loader that is wanted is displayed exactly when it was not
  asked for on its way out, and its view has stayed.
* `home_shows_user_iff` — the home screen shows the picture and the greeting of its
  user exactly when each user that was assigned has a picture URL that parses, and
  nobody who is yet to be onboarded has followed somebody who is.
-/

namespace AggroApp

open Async

variable {parses : URLParser} {a a' : App} {d d' : Device}

-- ---------------------------------------------------------------------------
-- What an event calls
-- ---------------------------------------------------------------------------

/-- The user that the notification of a save hands to the home screen. -/
def EditProfileViewController.toldAtOnce (effects : List Effect) : Option User :=
  effects.findSome? fun effect => match effect with
    | .wantsToUpdate user => some user
    | _ => none

/-- The user that the event assigns on the home screen. -/
def App.assigns (a : App) : App.Event → Option User
  | .handleDone =>
    a.editing.bind fun (_, c) => EditProfileViewController.toldAtOnce c.updateUserData
  | .deliver i =>
    match a.net.tasks[i]? with
    | some (.answered _ (.completed .controllerWantsToDismiss _)) =>
      a.user.map fun user => { user with hasSeenOnboarding := true }
    | some (.answered _ (.completed (.updateUserData _ user) _)) => some user
    | some (.answered _ (.fetched .home user)) => some user
    | _ => none
  | _ => none

/-- The lists of calls that there are, with the user that is assigned and the one
that stands on the home screen afterwards. -/
inductive Called (parses : URLParser) (user : Option User) :
    Option User → Option User → List ViewCall → Prop
  | nothing : Called parses user none user []
  | loader (view : View) (show' : Bool) : Called parses user none user [.showLoader view show']
  | assigned (new : User) :
    Called parses user (some new) (some new) (ViewCall.setUser parses new)
  | updated (new : User) :
    Called parses user (some new) (some new) (ViewCall.wantsToUpdate parses new)

/-- What a callback calls, for the user that it assigns. -/
theorem Called.take {i : ℕ} {call : AppCall} {step : AppStep}
    (hTask : a.net.tasks[i]? = some (.answered call step)) :
    Called parses a.user (a.assigns (.deliver i)) ((a.receive i step).take parses step).user
      (ViewCall.take parses a.user step) := by
  have hSet : ∀ user, ((a.receive i step).setUser parses user).user = some user :=
    fun user => App.setUser_user user
  rw [App.assigns, hTask]
  cases step with
  | completed completion error =>
    cases completion with
    | handleLogin => cases error <;> exact .loader .login false
    | handleGoogleLogin => exact .nothing
    | handleSignUp => cases error <;> exact .loader .registration false
    | handleResetPassword => cases error <;> exact .loader .resetPassword false
    | controllerWantsToDismiss =>
      cases hUser : a.user with
      | none =>
        have hNone : (a.receive i (.completed .controllerWantsToDismiss error)).user = none := hUser
        rw [App.take, App.complete_unloaded hNone, hNone]
        exact .nothing
      | some user =>
        have hSome : (a.receive i (.completed .controllerWantsToDismiss error)).user = some user :=
          hUser
        rw [App.take, App.complete_dismissed hSome, hSet]
        exact .assigned _
    | updateUserData s user =>
      rw [App.take, App.complete, App.wantsToUpdate_eq, App.setUser_user]
      exact .updated user
  | fetched comletion user =>
    cases comletion with
    | home =>
      rw [App.take, App.fetched, hSet]
      exact .assigned user
    | edit s => exact .nothing
  | uploaded completion url =>
    cases completion with
    | imagePickerController s => exact .loader (.edit s) false
  | _ => exact .nothing

/-- Writes and traps call nothing, and leave the user of the home screen alone. -/
theorem saves_quietly {effects : List EditProfileViewController.Effect} (s : ℕ)
    (h : ∀ user, .wantsToUpdate user ∉ effects) :
    EditProfileViewController.toldAtOnce effects = none ∧
      (effects.foldl (App.save parses s) a).user = a.user ∧
      effects.flatMap (ViewCall.save parses) = [] := by
  induction effects generalizing a with
  | nil => exact ⟨rfl, rfl, rfl⟩
  | cons effect effects ih =>
    have hRest : ∀ user, .wantsToUpdate user ∉ effects :=
      fun user hMem => h user (List.mem_cons_of_mem effect hMem)
    cases effect with
    | wantsToUpdate user => exact absurd List.mem_cons_self (h user)
    | updateUserData user =>
      exact ih (a := a.call (.updateUserData user (.updateUserData s user))) hRest
    | trap what => exact ih (a := a.trap what) hRest

/-- A save notifies the home screen once, or not at all. -/
theorem Called.handleDone (s : ℕ) (c : EditProfileViewController) :
    Called parses a.user (EditProfileViewController.toldAtOnce c.updateUserData)
      (a.handleDone parses s c).user (c.updateUserData.flatMap (ViewCall.save parses)) := by
  have hQuiet : ∀ effects : List EditProfileViewController.Effect,
      (∀ user, .wantsToUpdate user ∉ effects) →
      Called parses a.user (EditProfileViewController.toldAtOnce effects)
        (effects.foldl (App.save parses s) a).user (effects.flatMap (ViewCall.save parses)) := by
    intro effects hNone
    obtain ⟨hNotified, hUser, hCalls⟩ :
        _ ∧ (effects.foldl (App.save parses s) a).user = a.user ∧ _ := saves_quietly s hNone
    rw [hNotified, hUser, hCalls]
    exact .nothing
  unfold App.handleDone EditProfileViewController.updateUserData
  cases c.user with
  | none => exact hQuiet [] (by simp)
  | some user =>
    cases c.imageChanged with
    | false => exact hQuiet _ (c.saveFullname_not_notifies user)
    | true =>
      cases c.viewModel.profileImageUrl with
      | none => exact hQuiet _ (by simp)
      | some url =>
        let new : User := { user with profileImageUrl := url }
        obtain ⟨-, hUser, hCalls⟩ :
            _ ∧ ((c.saveFullname new).foldl (App.save parses s)
              (a.wantsToUpdate parses s new)).user = (a.wantsToUpdate parses s new).user ∧ _ :=
          saves_quietly s (c.saveFullname_not_notifies new)
        dsimp only
        rw [if_pos rfl, List.foldl_cons, List.flatMap_cons, hCalls, List.append_nil]
        show Called parses a.user (some new)
          ((c.saveFullname new).foldl (App.save parses s) (a.wantsToUpdate parses s new)).user _
        rw [hUser, App.wantsToUpdate_eq, App.setUser_user]
        exact .updated new

theorem App.step_called {e : App.Event} (hLaunch : e ≠ .launch)
    (hStep : a.step parses e = some a') :
    Called parses a.user (a.assigns e) a'.user (a.viewCalls parses e) := by
  cases App.step_stepped hStep with
  | launch => exact absurd rfl hLaunch
  | handleLogin => exact .loader .login true
  | handleSignUp profileImage email password fullname filename hLogin =>
    cases profileImage with
    | none => exact .nothing
    | some image =>
      rw [App.viewCalls, Option.bind_some, App.handleSignUp]
      cases hData : image.jpegData 10 with
      | none => exact .nothing
      | some data => exact .loader .registration true
  | handleResetPassword email hLogin =>
    cases email with
    | none => exact .nothing
    | some email => exact .loader .resetPassword true
  | logout signedOut hHome => cases signedOut <;> exact .nothing
  | imagePickerController s image filename hPicker =>
    cases image with
    | none => exact .nothing
    | some image =>
      have hPicking : a.picking = some s := by rw [App.picking, hPicker]
      simp only [App.viewCalls, hPicking]
      exact .loader (.edit s) true
  | handleDone s c hEdit hScreen hEnabled hHud =>
    have hEditing : a.editing = some (s, c) := App.editing_of_presented hEdit hScreen
    rw [App.viewCalls, App.assigns, hEditing]
    exact .handleDone s c
  | deliver i call step hTask =>
    rw [App.viewCalls, hTask]
    exact .take hTask
  | _ => exact .nothing

-- ---------------------------------------------------------------------------
-- The loader
-- ---------------------------------------------------------------------------

/-- A process starts without the loader. -/
theorem App.launch_hud (net : AppNet) (log : List Notice) : (App.launch net log).hud = false := by
  unfold App.launch App.authenticateUSer
  split <;> rfl

theorem App.launch_user (net : AppNet) (log : List Notice) : (App.launch net log).user = none := by
  unfold App.launch App.authenticateUSer
  split <;> rfl

theorem App.start_hud (backend : Backend) : (App.start backend).hud = false :=
  App.launch_hud _ _

namespace JGProgressHUD

variable {hud : JGProgressHUD View}

theorem WellFormed.request (h : hud.WellFormed) (call : ViewCall) :
    (hud.request call).WellFormed := by
  cases call with
  | showLoader view show' =>
    cases show' with
    | true => exact h.showInView view
    | false => exact h.dismiss
  | _ => exact h

theorem WellFormed.requests (h : hud.WellFormed) (calls : List ViewCall) :
    (calls.foldl JGProgressHUD.request hud).WellFormed := by
  induction calls generalizing hud with
  | nil => exact h
  | cons call calls ih => exact ih (h.request call)

/-- Asking twice to be shown is asking once. -/
theorem destination_showInView_twice (h : hud.WellFormed) (view : View) :
    ((hud.showInView view).showInView view).destination.isSome = hud.accepts := by
  have hOnce := destination_showInView h view
  rw [destination_showInView (h.showInView view), accepts, hOnce]
  cases hAccepts : hud.accepts with
  | true => rfl
  | false =>
    have hBusy : hud.transitioning.isSome = true := by
      rw [accepts, Bool.or_eq_false_iff] at hAccepts
      simpa using hAccepts.2
    obtain ⟨transition, hRuns⟩ := Option.isSome_iff_exists.mp hBusy
    rw [showInView, hRuns]
    simp [hRuns]

end JGProgressHUD

/-- Where the HUD is bound for after the calls of an event: gone, if the last request
was to hide it, and otherwise there, if it accepts to be shown. -/
theorem Called.destination {user assigns user' : Option User} {calls : List ViewCall}
    (h : Called parses user assigns user' calls) {hud : JGProgressHUD View} (hHud : hud.WellFormed)
    (wanted : Bool) (hWanted : hud.destination.isSome = wanted) :
    (calls.foldl JGProgressHUD.request hud).destination.isSome =
        calls.foldl ViewCall.requested wanted ↔
      (calls.foldl ViewCall.requested false = true → hud.accepts = true) := by
  have hShow : (hud.showInView .home).destination.isSome = hud.accepts :=
    JGProgressHUD.destination_showInView hHud .home
  have hAgain : ((hud.showInView .home).showInView .home).destination.isSome = hud.accepts :=
    JGProgressHUD.destination_showInView_twice hHud .home
  cases h with
  | nothing => exact ⟨fun _ hNever => absurd hNever (by simp), fun _ => hWanted⟩
  | loader view show' =>
    cases show' with
    | true =>
      show (hud.showInView view).destination.isSome = true ↔ (true = true → hud.accepts = true)
      rw [JGProgressHUD.destination_showInView hHud view]
      simp
    | false =>
      show hud.dismiss.destination.isSome = false ↔ (false = true → _)
      rw [JGProgressHUD.destination_dismiss]
      simp
  | assigned new =>
    cases hParses : parses new.profileImageUrl <;> cases hSeen : new.hasSeenOnboarding <;>
      simp [ViewCall.setUser, ViewCall.configureProfileImage, ViewCall.showWelcomeLable, hParses,
        hSeen, JGProgressHUD.request, ViewCall.requested, JGProgressHUD.destination_dismiss, hShow]
  | updated new =>
    cases hParses : parses new.profileImageUrl <;> cases hSeen : new.hasSeenOnboarding <;>
      simp [ViewCall.wantsToUpdate, ViewCall.setUser, ViewCall.configureProfileImage,
        ViewCall.showWelcomeLable, ViewCall.configureUI, hParses, hSeen, JGProgressHUD.request,
        ViewCall.requested, JGProgressHUD.destination_dismiss, hAgain]

/-- The event keeps the loader displayed if it is wanted: it does not ask for it on its
way out, and does not take its view away. -/
def Device.KeepsDisplayed (parses : URLParser) (d : Device) : Device.Event → Prop
  | .app event =>
    (d.app.viewCalls parses event).foldl ViewCall.requested false = true → d.hud.accepts = true
  | .animationDidFinish => True
  | .release view => d.hud.destination ≠ some view

namespace Device

theorem step_wellFormed {e : Device.Event} (h : d.hud.WellFormed)
    (hStep : d.step parses e = some d') : d'.hud.WellFormed := by
  cases e with
  | app event =>
    obtain ⟨app, -, ⟨-, rfl⟩ | ⟨-, rfl⟩⟩ := step_app hStep
    · exact .new
    · exact h.requests _
  | animationDidFinish =>
    obtain ⟨-, hEq⟩ := Option.ite_none_right_eq_some.mp hStep
    exact Option.some.inj hEq ▸ h.animationDidFinish
  | release view => exact Option.some.inj hStep ▸ h.release view

/-- The HUD is bound for the screen if and only if the app wants the loader. -/
def LoaderArrives (d : Device) : Prop := d.hud.destination.isSome = d.app.hud

/-- An event of the app moves the app's flag by the calls that it makes. -/
theorem display_hud {e : App.Event} (hLaunch : e ≠ .launch)
    (hStep : a.step parses e = some a') :
    a'.hud = (a.viewCalls parses e).foldl ViewCall.requested a.hud :=
  (App.Shows.step hLaunch hStep).1

theorem launch_hud (hStep : a.step parses .launch = some a') : a'.hud = false := by
  cases App.step_stepped hStep with
  | launch => exact App.launch_hud a.net a.log

/-- Whatever was asked for before, after a dismissal the HUD goes. -/
theorem requests_go {hud : JGProgressHUD View} {wanted : Bool}
    (h : wanted = false → hud.destination = none) (calls : List ViewCall) :
    calls.foldl ViewCall.requested wanted = false →
      (calls.foldl JGProgressHUD.request hud).destination = none := by
  induction calls generalizing hud wanted with
  | nil => exact h
  | cons call calls ih =>
    refine ih ?_
    cases call with
    | showLoader view show' =>
      cases show' with
      | true => exact fun hNever => absurd hNever (by simp [ViewCall.requested])
      | false => exact fun _ => hud.destination_dismiss
    | _ => exact h

theorem step_goes {e : Device.Event} (h : d.app.hud = false → d.hud.destination = none)
    (hStep : d.step parses e = some d') : d'.app.hud = false → d'.hud.destination = none := by
  cases e with
  | app event =>
    obtain ⟨app, hApp, ⟨rfl, rfl⟩ | ⟨hLaunch, rfl⟩⟩ := step_app hStep
    · exact fun _ => rfl
    · have hFlag := display_hud hLaunch hApp
      rw [display, hFlag]
      exact requests_go h _
  | animationDidFinish =>
    obtain ⟨-, hEq⟩ := Option.ite_none_right_eq_some.mp hStep
    rw [← Option.some.inj hEq, JGProgressHUD.destination_animationDidFinish]
    exact h
  | release view =>
    rw [← Option.some.inj hStep, JGProgressHUD.destination_release]
    intro hOff
    rw [h hOff]
    rfl

/-- Each step keeps the loader displayed exactly when it is one that does. -/
theorem step_arrives {e : Device.Event} (hHud : d.hud.WellFormed) (h : d.LoaderArrives)
    (hStep : d.step parses e = some d') : d'.LoaderArrives ↔ d.KeepsDisplayed parses e := by
  cases e with
  | app event =>
    obtain ⟨app, hApp, ⟨rfl, rfl⟩ | ⟨hLaunch, rfl⟩⟩ := step_app hStep
    · have hOff : app.hud = false := launch_hud hApp
      refine iff_of_true ?_ fun hNever => absurd hNever (by simp [App.viewCalls])
      rw [LoaderArrives, launched, hOff]
      rfl
    · have hFlag := display_hud hLaunch hApp
      rw [LoaderArrives, KeepsDisplayed, display, hFlag]
      exact (App.step_called hLaunch hApp).destination hHud d.app.hud h
  | animationDidFinish =>
    obtain ⟨-, hEq⟩ := Option.ite_none_right_eq_some.mp hStep
    refine iff_of_true ?_ trivial
    rw [← Option.some.inj hEq, LoaderArrives, JGProgressHUD.destination_animationDidFinish]
    exact h
  | release view =>
    rw [← Option.some.inj hStep, LoaderArrives, JGProgressHUD.destination_release, KeepsDisplayed,
      ← h]
    by_cases hThere : d.hud.destination = some view
    · simp [hThere]
    · simp [hThere]

end Device

/--
**The loader is displayed exactly when its requests are not lost.** In every run of a
device from a launch, the HUD, once its animations have ended, is displayed if and
only if the app wants the loader, in each state that is reached, exactly when no
event asks for the loader while the HUD is on its way out, and no view goes away with
the HUD in it.
-/
theorem loader_shown_iff (parses : URLParser) (backend : Backend) (es : List Device.Event) :
    Always (Device.step parses) (fun d => d.hud.settle.displayed = d.app.hud)
        (Device.start backend) es ↔
      Along (Device.step parses) (Device.KeepsDisplayed parses) (Device.start backend) es := by
  have hSettled : ∀ d : Device, d.hud.WellFormed →
      (d.hud.settle.displayed = d.app.hud ↔ d.LoaderArrives) := by
    intro d hHud
    rw [(JGProgressHUD.settle_spec hHud).2.2]
    exact Iff.rfl
  refine always_iff_along (fun _ _ _ hHud hStep => Device.step_wellFormed hHud hStep)
    (fun d e d' hHud h hStep => ?_) .new ?_
  · rw [hSettled d' (Device.step_wellFormed hHud hStep)]
    exact Device.step_arrives hHud ((hSettled d hHud).mp h) hStep
  · rw [hSettled _ .new, Device.LoaderArrives, Device.start, Device.launched,
      App.start_hud backend]
    rfl

/--
**A loader that is no longer wanted goes.** In every state of every run of a device,
if the app does not want the loader, then the HUD is hidden and idle as soon as its
animations have ended.
-/
theorem hidden_loader_goes (parses : URLParser) (backend : Backend) (es : List Device.Event) :
    Always (Device.step parses) (fun d => d.app.hud = false →
      d.hud.settle.displayed = false ∧ d.hud.settle.targetView = none ∧
        d.hud.settle.transitioning = none) (Device.start backend) es := by
  have hAlways : Always (Device.step parses) (fun d => d.hud.WellFormed ∧
      (d.app.hud = false → d.hud.destination = none)) (Device.start backend) es :=
    .of_step (fun d e d' h hStep => ⟨Device.step_wellFormed h.1 hStep,
      Device.step_goes h.2 hStep⟩) ⟨.new, fun _ => rfl⟩
  refine hAlways.mono fun d h hOff => ?_
  obtain ⟨hIdle, hThere, hDisplayed⟩ := JGProgressHUD.settle_spec h.1
  rw [hDisplayed, hThere, h.2 hOff]
  exact ⟨rfl, rfl, hIdle⟩

-- ---------------------------------------------------------------------------
-- The home screen
-- ---------------------------------------------------------------------------

/-- What the label says to a user who has been onboarded. -/
def User.greeting (user : User) : Option String :=
  if user.hasSeenOnboarding then some ("Welcome, " ++ user.fullname ++ "!") else none

/-- The label is not covered, and only pictures with a URL were ever added. -/
structure HomeView.WellFormed (parses : URLParser) (home : HomeView) : Prop where
  label : .welcomeLabel ∈ home.uncovered
  pictures : ∀ url, .profileImageView url ∈ home.layers → parses url = true

theorem HomeView.wellFormed_loaded : HomeView.loaded.WellFormed parses where
  label := by decide
  pictures := fun url hMem => absurd hMem (by simp [loaded, ViewCall.configureUI, draw])

theorem HomeView.WellFormed.greeting {home : HomeView} (h : home.WellFormed parses) :
    home.greeting = home.welcomeLabel := if_pos h.label

/-- A picture that is seen has a URL that parses. -/
theorem HomeView.WellFormed.seen {home : HomeView} (h : home.WellFormed parses) {url : String}
    (hSeen : home.profileImage = some url) : parses url = true := by
  obtain ⟨layer, hMem, hLayer⟩ := List.exists_of_findSome?_eq_some hSeen
  have hThere : layer ∈ home.layers := (List.takeWhile_sublist _).subset hMem
  cases layer with
  | profileImageView url' =>
    rw [Option.some.injEq] at hLayer
    exact h.pictures url (hLayer ▸ hThere)
  | _ => exact absurd hLayer (by simp)

/-- What the home screen shows after the calls of an event. -/
structure HomeView.Drawn (parses : URLParser) (assigns : Option User) (home home' : HomeView) :
    Prop where
  wellFormed : home'.WellFormed parses
  same : assigns = none →
    home'.profileImage = home.profileImage ∧ home'.welcomeLabel = home.welcomeLabel
  picture : ∀ user ∈ assigns, parses user.profileImageUrl = true →
    home'.profileImage = some user.profileImageUrl
  label : ∀ user ∈ assigns, home'.welcomeLabel = user.greeting.or home.welcomeLabel

theorem HomeView.foldl_setUser (home : HomeView) (user : User) :
    (ViewCall.setUser parses user).foldl draw home =
      ⟨if parses user.profileImageUrl then .profileImageView user.profileImageUrl :: home.layers
        else home.layers, user.greeting.or home.welcomeLabel⟩ := by
  cases hParses : parses user.profileImageUrl <;> cases hSeen : user.hasSeenOnboarding <;>
    simp [ViewCall.setUser, ViewCall.configureProfileImage, ViewCall.showWelcomeLable, hParses,
      hSeen, draw, User.greeting]

theorem HomeView.foldl_wantsToUpdate (home : HomeView) (user : User) :
    ∃ hidden : List HomeLayer,
      (ViewCall.wantsToUpdate parses user).foldl draw home =
        ⟨(if parses user.profileImageUrl then [.profileImageView user.profileImageUrl] else []) ++
          .welcomeLabel :: .gradient :: hidden, user.greeting.or home.welcomeLabel⟩ ∧
      ∀ url, .profileImageView url ∈ hidden →
        url = user.profileImageUrl ∧ parses user.profileImageUrl = true ∨
          .profileImageView url ∈ home.layers := by
  rw [ViewCall.wantsToUpdate, List.foldl_append, List.foldl_append, foldl_setUser]
  cases hParses : parses user.profileImageUrl with
  | true =>
    refine ⟨(.profileImageView user.profileImageUrl :: home.layers).erase .welcomeLabel, ?_, ?_⟩
    · simp [ViewCall.configureUI, ViewCall.configureProfileImage, hParses, draw]
    · intro url hMem
      rcases List.mem_cons.mp (List.mem_of_mem_erase hMem) with hNew | hOld
      · rw [HomeLayer.profileImageView.injEq] at hNew
        exact Or.inl ⟨hNew, rfl⟩
      · exact Or.inr hOld
  | false =>
    refine ⟨home.layers.erase .welcomeLabel, ?_, fun url hMem =>
      Or.inr (List.mem_of_mem_erase hMem)⟩
    simp [ViewCall.configureUI, ViewCall.configureProfileImage, hParses, draw]

/-- The user that is assigned stands on the home screen afterwards. -/
theorem Called.user {user assigns user' : Option User} {calls : List ViewCall}
    (h : Called parses user assigns user' calls) : user' = assigns.or user := by
  cases h <;> rfl

theorem Called.drawn {user assigns user' : Option User} {calls : List ViewCall}
    (h : Called parses user assigns user' calls) {home : HomeView}
    (hHome : home.WellFormed parses) :
    home.Drawn parses assigns (calls.foldl HomeView.draw home) := by
  cases h with
  | nothing => exact ⟨hHome, fun _ => ⟨rfl, rfl⟩, by simp, by simp⟩
  | loader view show' => exact ⟨hHome, fun _ => ⟨rfl, rfl⟩, by simp, by simp⟩
  | assigned new =>
    rw [HomeView.foldl_setUser]
    have hLabel := hHome.label
    rw [HomeView.uncovered] at hLabel
    cases hParses : parses new.profileImageUrl with
    | true =>
      refine ⟨⟨?_, fun url hMem => ?_⟩, by simp, ?_, ?_⟩
      · simpa [HomeView.uncovered] using hLabel
      · rcases List.mem_cons.mp hMem with hNew | hOld
        · rw [HomeLayer.profileImageView.injEq] at hNew
          exact hNew ▸ hParses
        · exact hHome.pictures url hOld
      · simp [HomeView.profileImage, HomeView.uncovered]
      · simp
    | false =>
      exact ⟨⟨hHome.label, hHome.pictures⟩, by simp, by simp [hParses], by simp⟩
  | updated new =>
    obtain ⟨hidden, hEq, hHidden⟩ :
        ∃ hidden, (ViewCall.wantsToUpdate parses new).foldl HomeView.draw home = _ ∧ _ :=
      home.foldl_wantsToUpdate new
    rw [hEq]
    have hPictures : ∀ url, .profileImageView url ∈ hidden → parses url = true := by
      intro url hMem
      rcases hHidden url hMem with ⟨rfl, hParses⟩ | hOld
      · exact hParses
      · exact hHome.pictures url hOld
    cases hParses : parses new.profileImageUrl with
    | true =>
      refine ⟨⟨?_, fun url hMem => ?_⟩, by simp, ?_, ?_⟩
      · simp [HomeView.uncovered]
      · simp only [if_true, List.cons_append, List.nil_append, List.mem_cons,
          HomeLayer.profileImageView.injEq, reduceCtorEq, false_or] at hMem
        rcases hMem with rfl | hOld
        · exact hParses
        · exact hPictures url hOld
      · simp [HomeView.profileImage, HomeView.uncovered]
      · simp
    | false =>
      refine ⟨⟨?_, fun url hMem => ?_⟩, by simp, by simp [hParses], ?_⟩
      · simp [HomeView.uncovered]
      · simp only [Bool.false_eq_true, if_false, List.nil_append, List.mem_cons, reduceCtorEq,
          false_or] at hMem
        exact hPictures url hMem
      · simp

namespace Device

/-- The home screen shows the picture of its user, and the greeting if there is one. -/
def HomeShowsUser (d : Device) : Prop :=
  d.home.profileImage = d.app.user.map User.profileImageUrl ∧
    d.home.greeting = d.app.user.bind User.greeting

/-- The event assigns a user who can be shown in the place of the one before: the
picture has a URL that parses, and there is a greeting unless there was none. -/
def KeepsHome (parses : URLParser) (d : Device) : Device.Event → Prop
  | .app event => ∀ user ∈ d.app.assigns event, parses user.profileImageUrl = true ∧
      (user.hasSeenOnboarding = true ∨ ∀ old ∈ d.app.user, old.hasSeenOnboarding = false)
  | _ => True

theorem step_home {e : Device.Event} (h : d.home.WellFormed parses)
    (hStep : d.step parses e = some d') : d'.home.WellFormed parses := by
  cases e with
  | app event =>
    obtain ⟨app, hApp, ⟨-, rfl⟩ | ⟨hLaunch, rfl⟩⟩ := step_app hStep
    · exact HomeView.wellFormed_loaded
    · exact ((App.step_called hLaunch hApp).drawn h).wellFormed
  | animationDidFinish =>
    obtain ⟨-, hEq⟩ := Option.ite_none_right_eq_some.mp hStep
    exact Option.some.inj hEq ▸ h
  | release view => exact Option.some.inj hStep ▸ h

theorem launch_user (hStep : a.step parses .launch = some a') : a'.user = none := by
  cases App.step_stepped hStep with
  | launch => exact App.launch_user a.net a.log

/-- A greeting stands in for the one before if it is there, or if that was not. -/
theorem greeting_or {user : User} {old : Option User} :
    user.greeting.or (old.bind User.greeting) = user.greeting ↔
      (user.hasSeenOnboarding = true ∨ ∀ old' ∈ old, old'.hasSeenOnboarding = false) := by
  cases hSeen : user.hasSeenOnboarding with
  | true => simp [User.greeting, hSeen]
  | false =>
    cases old with
    | none => simp [User.greeting, hSeen]
    | some old => cases hOld : old.hasSeenOnboarding <;> simp [User.greeting, hSeen, hOld]

/-- Each step keeps the home screen right exactly when it is one that does. -/
theorem step_shows {e : Device.Event} (hHome : d.home.WellFormed parses) (h : d.HomeShowsUser)
    (hStep : d.step parses e = some d') : d'.HomeShowsUser ↔ d.KeepsHome parses e := by
  cases e with
  | app event =>
    obtain ⟨app, hApp, ⟨rfl, rfl⟩ | ⟨hLaunch, rfl⟩⟩ := step_app hStep
    · refine iff_of_true ?_ (by simp [KeepsHome, App.assigns])
      rw [HomeShowsUser, launched, launch_user hApp]
      exact ⟨rfl, rfl⟩
    · have hCalled := App.step_called hLaunch hApp
      have hDrawn := hCalled.drawn hHome
      have hLabel : d.home.welcomeLabel = d.app.user.bind User.greeting :=
        hHome.greeting.symm.trans h.2
      have hUser := hCalled.user
      simp only [HomeShowsUser, KeepsHome, display]
      rw [hDrawn.wellFormed.greeting, hUser]
      cases hAssigns : d.app.assigns event with
      | none =>
        obtain ⟨hPicture, hText⟩ := hDrawn.same hAssigns
        rw [hPicture, hText]
        exact iff_of_true ⟨h.1, hLabel⟩ (by simp)
      | some new =>
        rw [hDrawn.label new hAssigns, hLabel]
        have hPicture : ((d.app.viewCalls parses event).foldl HomeView.draw d.home).profileImage =
            some new.profileImageUrl ↔ parses new.profileImageUrl = true := by
          cases hParses : parses new.profileImageUrl with
          | true => exact iff_of_true (hDrawn.picture new hAssigns hParses) rfl
          | false =>
            refine iff_of_false (fun hSeen => ?_) (by simp)
            exact absurd (hParses.symm.trans (hDrawn.wellFormed.seen hSeen)) (by simp)
        simp only [Option.some_or, Option.map_some, Option.bind_some,
          Option.mem_some_iff, forall_eq']
        exact and_congr hPicture greeting_or
  | animationDidFinish =>
    obtain ⟨-, hEq⟩ := Option.ite_none_right_eq_some.mp hStep
    exact iff_of_true (Option.some.inj hEq ▸ h) trivial
  | release view => exact iff_of_true (Option.some.inj hStep ▸ h) trivial

end Device

/--
**The home screen shows its user exactly when each can take the place of the one
before.** In every run of a device from a launch, the picture in front and the
greeting are those of the home screen's user in each state that is reached, exactly
when every user that is assigned has a picture URL that parses, and one who is yet to
be onboarded does not follow one who is. Otherwise the picture or the name of the
user before stays on the screen, or a gradient covers it.
-/
theorem home_shows_user_iff (parses : URLParser) (backend : Backend) (es : List Device.Event) :
    Always (Device.step parses) Device.HomeShowsUser (Device.start backend) es ↔
      Along (Device.step parses) (Device.KeepsHome parses) (Device.start backend) es := by
  have hUser : (App.start backend).user = none := App.launch_user _ _
  refine always_iff_along (fun _ _ _ hHome hStep => Device.step_home hHome hStep)
    (fun _ _ _ hHome h hStep => Device.step_shows hHome h hStep) HomeView.wellFormed_loaded ?_
  rw [Device.HomeShowsUser, Device.start, Device.launched, hUser]
  exact ⟨rfl, rfl⟩

end AggroApp
