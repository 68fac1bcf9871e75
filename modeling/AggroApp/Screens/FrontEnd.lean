import AggroApp.Model.FrontEnd
import AggroApp.Screens.Pages
import AggroApp.Screens.Sources

/-!
# AggroApp — the screens in front of the app

`Model/App.lean` lets the user send any texts and end the onboarding at any time. The
screens of `Model/FrontEnd.lean` are more particular, so each of their runs is a run of
the app, and a particular one.

## Results

* `front_end_refines_app`        — runs of the front end are runs of the app, in which
  what is sent was put into a field of its kind.
* `onboarding_ends_on_last_page` — the onboarding can be ended exactly on its last page.
* `password_stays_out`           — what is typed as a password only is in no profile.
-/

namespace AggroApp

open Async OnboardingViewController

variable {parses : URLParser} {a a' : App} {f f' : FrontEnd} {s s' t : LoginScreens} {i : ℕ}

-- ---------------------------------------------------------------------------
-- What a step can do
-- ---------------------------------------------------------------------------

namespace FrontScreen

/-- A login screen in front has been there before, or is new. -/
theorem follow_login {screen : Option FrontScreen} {presented : Option Screen}
    (h : follow screen presented = some (.login t)) : screen = some (.login t) ∨ t = .new := by
  unfold follow at h
  split at h
  · split at h
    · exact Or.inl h
    · exact Or.inr (FrontScreen.login.inj (Option.some.inj h)).symm
  · split at h
    · exact absurd h (by simp)
    · obtain ⟨c, -, hEq⟩ := Option.map_eq_some_iff.mp h
      exact absurd hEq (by simp)
  · exact absurd h (by simp)

/-- And so has an onboarding screen. -/
theorem follow_onboarding {screen : Option FrontScreen} {presented : Option Screen}
    {c : OnboardingViewController} (h : follow screen presented = some (.onboarding c)) :
    screen = some (.onboarding c) ∨ load onboardingItems = some c := by
  unfold follow at h
  split at h
  · split at h
    · exact absurd h (by simp)
    · exact absurd h (by simp)
  · split at h
    · exact Or.inl h
    · obtain ⟨c', hLoad, hEq⟩ := Option.map_eq_some_iff.mp h
      exact Or.inr (FrontScreen.onboarding.inj hEq ▸ hLoad)
  · exact absurd h (by simp)

/-- A presented onboarding is in front. -/
theorem follow_presented (screen : Option FrontScreen) :
    ∃ c, follow screen (some .onboarding) = some (.onboarding c) := by
  match screen with
  | some (.onboarding c) => exact ⟨c, rfl⟩
  | some (.login s) => exact ⟨_, rfl⟩
  | none => exact ⟨_, rfl⟩

end FrontScreen

theorem LoginScreens.press_onScreen {press : LoginScreens.Press} {event : App.Event}
    (h : s.press press = some event) : event.onScreen = true := by
  unfold LoginScreens.press at h
  split at h
  · obtain ⟨-, hEq⟩ := Option.ite_none_right_eq_some.mp h
    exact Option.some.inj hEq ▸ rfl
  · exact Option.some.inj h ▸ rfl
  · obtain ⟨-, hEq⟩ := Option.ite_none_right_eq_some.mp h
    exact Option.some.inj hEq ▸ rfl
  · obtain ⟨-, hEq⟩ := Option.ite_none_right_eq_some.mp h
    exact Option.some.inj hEq ▸ rfl
  · exact absurd h (by simp)

namespace FrontEnd

/-- The steps of the front end: the screen in front changes, or the app goes on. -/
inductive Stepped (parses : URLParser) (f : FrontEnd) : Event → FrontEnd → Prop
  | login (event : LoginScreens.Event) (s s' : LoginScreens)
      (hScreen : f.screen = some (.login s)) (hHandle : s.handle event = some s') :
    Stepped parses f (.login event) ⟨f.app, some (.login s')⟩
  | press (press : LoginScreens.Press) (s : LoginScreens) (event : App.Event) (app : App)
      (hScreen : f.screen = some (.login s)) (hPress : s.press press = some event)
      (hStep : f.app.step parses event = some app) :
    Stepped parses f (.press press)
      ⟨app, FrontScreen.follow (some (.login (s.noteRequest f.app.net.tasks.length event)))
        app.presented⟩
  | gesture (gesture : Gesture) (c c' : OnboardingViewController)
      (hScreen : f.screen = some (.onboarding c)) (hHandle : c.handle gesture = some c') :
    Stepped parses f (.gesture gesture) ⟨f.app, some (.onboarding c')⟩
  | dismissOnboarding (c : OnboardingViewController) (app : App)
      (hScreen : f.screen = some (.onboarding c)) (hButton : c.getStartedButton = true)
      (hStep : f.app.step parses .controllerWantsToDismiss = some app) :
    Stepped parses f .dismissOnboarding ⟨app, FrontScreen.follow f.screen app.presented⟩
  | app (event : App.Event) (app : App) (hOther : event.onScreen = false)
      (hStep : f.app.step parses event = some app) :
    Stepped parses f (.app event) (f.goOn event app)

/-- A press starts an operation, and leaves the screens where they are. -/
theorem left_press {press : LoginScreens.Press} {event : App.Event}
    (h : s.press press = some event) (f : FrontEnd) : f.left event = f.screen := by
  have hOn := LoginScreens.press_onScreen h
  cases event with
  | launch | deliver => exact absurd hOn (by simp [App.Event.onScreen])
  | _ => rfl

theorem step_stepped {e : Event} (h : f.step parses e = some f') : Stepped parses f e f' := by
  cases e with
  | login event =>
    simp only [step] at h
    split at h
    · rename_i s hRuns hScreen
      obtain ⟨s', hHandle, rfl⟩ := Option.map_eq_some_iff.mp h
      exact .login event s s' hScreen hHandle
    · exact absurd h (by simp)
  | press press =>
    simp only [step] at h
    split at h
    · rename_i s hScreen
      obtain ⟨event, hPress, hMap⟩ := Option.bind_eq_some_iff.mp h
      obtain ⟨app, hStep, rfl⟩ := Option.map_eq_some_iff.mp hMap
      rw [goOn, left_press hPress]
      exact .press press s event app hScreen hPress hStep
    · exact absurd h (by simp)
  | gesture gesture =>
    simp only [step] at h
    split at h
    · rename_i c hRuns hScreen
      obtain ⟨c', hHandle, rfl⟩ := Option.map_eq_some_iff.mp h
      exact .gesture gesture c c' hScreen hHandle
    · exact absurd h (by simp)
  | dismissOnboarding =>
    simp only [step] at h
    split at h
    · rename_i c hScreen
      obtain ⟨hButton, hMap⟩ := Option.ite_none_right_eq_some.mp h
      obtain ⟨app, hStep, rfl⟩ := Option.map_eq_some_iff.mp hMap
      exact .dismissOnboarding c app hScreen hButton hStep
    · exact absurd h (by simp)
  | app event =>
    obtain ⟨hOther, hMap⟩ := Option.ite_none_left_eq_some.mp h
    obtain ⟨app, hStep, rfl⟩ := Option.map_eq_some_iff.mp hMap
    exact .app event app (by simpa using hOther) hStep

/-- The login screen in front was there before the event, less what a link has popped. -/
theorem left_login {event : App.Event} (h : f.left event = some (.login t)) :
    event ≠ .launch ∧ ∃ s, f.screen = some (.login s) ∧ (t = s ∨ t = s.popViewController) := by
  cases event with
  | launch => exact absurd h (by simp [left])
  | deliver i =>
    refine ⟨by simp, ?_⟩
    simp only [left] at h
    split_ifs at h
    · obtain ⟨screen, hScreen, hEq⟩ := Option.map_eq_some_iff.mp h
      cases screen with
      | onboarding c => exact absurd hEq (by simp [FrontScreen.didSendResetPasswordLink])
      | login s =>
        refine ⟨s, hScreen, ?_⟩
        rw [← FrontScreen.login.inj hEq, LoginScreens.didSendResetPasswordLink]
        split_ifs
        · exact Or.inr rfl
        · exact Or.inl rfl
    · exact ⟨t, h, Or.inl rfl⟩
  | _ => exact ⟨by simp, t, h, Or.inl rfl⟩

theorem left_onboarding {event : App.Event} {c : OnboardingViewController}
    (h : f.left event = some (.onboarding c)) : f.screen = some (.onboarding c) := by
  cases event with
  | launch => exact absurd h (by simp [left])
  | deliver i =>
    simp only [left] at h
    split_ifs at h
    · obtain ⟨screen, hScreen, hEq⟩ := Option.map_eq_some_iff.mp h
      cases screen with
      | login s => exact absurd hEq (by simp [FrontScreen.didSendResetPasswordLink])
      | onboarding c' => exact hEq ▸ hScreen
    · exact h
  | _ => exact h

end FrontEnd

-- ---------------------------------------------------------------------------
-- What is sent was typed
-- ---------------------------------------------------------------------------

/-- What the user puts into a field, with the kind of the field. -/
inductive Input
  | email (text : String)
  | password (text : String)
  | fullname (text : String)
  | picture (image : UIImage)
  deriving DecidableEq, Repr

def LoginScreens.Event.input : LoginScreens.Event → Option Input
  | .loginTextDidChange (.emailTextField, text) => some (.email text)
  | .loginTextDidChange (.passwordTextField, text) => some (.password text)
  | .registrationTextDidChange (.emailTextField, text) => some (.email text)
  | .registrationTextDidChange (.passwordTextField, text) => some (.password text)
  | .registrationTextDidChange (.fullnameTextField, text) => some (.fullname text)
  | .imagePickerController image => image.map .picture
  | .resetTextDidChange text => some (.email text)
  | _ => none

def FrontEnd.Event.input : FrontEnd.Event → Option Input
  | .login event => event.input
  | _ => none

/-- The event that goes to the app as it is. -/
def FrontEnd.Event.app? : FrontEnd.Event → Option App.Event
  | .app event => some event
  | _ => none

/-- The inputs of the events, and the empty texts that the fields begin with. -/
def Input.Given (es : List FrontEnd.Event) (x : Input) : Prop :=
  x = .email "" ∨ x = .password "" ∨ x = .fullname "" ∨ ∃ e ∈ es, e.input = some x

/-- A press sends inputs only, each in its place, and a reset request has an e-mail. -/
def App.Event.Sends (T : Input → Prop) : App.Event → Prop
  | .handleLogin email password => T (.email email) ∧ T (.password password)
  | .handleSignUp profileImage email password fullname _ =>
    T (.email email) ∧ T (.password password) ∧ T (.fullname fullname) ∧
      ∀ image ∈ profileImage, T (.picture image)
  | .handleResetPassword email => ∃ text, email = some text ∧ T (.email text)
  | _ => True

theorem App.Event.Sends.of_other {T : Input → Prop} {event : App.Event}
    (h : event.onScreen = false) : event.Sends T := by
  cases event with
  | handleLogin | handleSignUp | handleResetPassword => exact absurd h (by simp [onScreen])
  | _ => trivial

variable {T : Input → Prop}

/-- The fields hold inputs of their kinds. -/
def PushedScreen.Holds (T : Input → Prop) : PushedScreen → Prop
  | .registration c profileImage =>
    T (.email c.emailTextField) ∧ T (.password c.passwordTextField) ∧
      T (.fullname c.fullnameTextField) ∧ ∀ image ∈ profileImage, T (.picture image)
  | .resetPassword c => ∃ text, c.viewModel.email = some text ∧ T (.email text)

namespace LoginScreens

structure Holds (T : Input → Prop) (s : LoginScreens) : Prop where
  email : T (.email s.login.emailTextField)
  password : T (.password s.login.passwordTextField)
  pushed : ∀ screen ∈ s.pushed, screen.Holds T

/-- The texts that every field begins with. -/
structure Empty (T : Input → Prop) : Prop where
  email : T (.email "")
  password : T (.password "")
  fullname : T (.fullname "")

theorem Empty.new (h : Empty T) : LoginScreens.new.Holds T :=
  ⟨h.email, h.password, by simp [LoginScreens.new]⟩

namespace Holds

theorem popViewController (h : s.Holds T) : s.popViewController.Holds T :=
  ⟨h.email, h.password, by simp [LoginScreens.popViewController]⟩

theorem put_on_top (h : s.Holds T) {screen : PushedScreen} (hScreen : screen.Holds T) :
    ({ s with pushed := some screen } : LoginScreens).Holds T := by
  refine ⟨h.email, h.password, fun other hOther => ?_⟩
  rw [Option.mem_def, Option.some.injEq] at hOther
  exact hOther ▸ hScreen

theorem noteRequest (h : s.Holds T) (i : ℕ) (event : App.Event) :
    (s.noteRequest i event).Holds T := by
  unfold LoginScreens.noteRequest
  split
  · exact ⟨h.email, h.password, h.pushed⟩
  · exact h

/-- One case for each event: the field that it changes gets the input. -/
theorem handle (h : s.Holds T) (hEmpty : Empty T) {event : Event}
    (hInput : ∀ x ∈ event.input, T x) (hHandle : s.handle event = some s') : s'.Holds T := by
  unfold LoginScreens.handle at hHandle
  split at hHandle
  · -- the fields of the login screen
    rename_i event hTop
    obtain rfl := Option.some.inj hHandle
    obtain ⟨sender, text⟩ := event
    have hPushed : ∀ screen ∈ s.pushed, screen.Holds T := h.pushed
    cases sender with
    | emailTextField => exact ⟨hInput _ rfl, h.password, hPushed⟩
    | passwordTextField => exact ⟨h.email, hInput _ rfl, hPushed⟩
  · obtain rfl := Option.some.inj hHandle
    have hScreen : (PushedScreen.resetPassword
        (ResetPasswordViewController.new.loadEmail (some s.login.emailTextField))).Holds T :=
      ⟨s.login.emailTextField, rfl, h.email⟩
    have hTop := h.put_on_top hScreen
    exact ⟨hTop.email, hTop.password, hTop.pushed⟩
  · obtain rfl := Option.some.inj hHandle
    have hScreen : (PushedScreen.registration .new none).Holds T :=
      ⟨hEmpty.email, hEmpty.password, hEmpty.fullname, by simp⟩
    have hTop := h.put_on_top hScreen
    exact ⟨hTop.email, hTop.password, hTop.pushed⟩
  · -- the fields of the registration screen
    rename_i c profileImage event hTop
    obtain rfl := Option.some.inj hHandle
    obtain ⟨hEmail, hPassword, hFullname, hImage⟩ := h.pushed _ hTop
    obtain ⟨sender, text⟩ := event
    refine h.put_on_top ?_
    cases sender with
    | emailTextField => exact ⟨hInput _ rfl, hPassword, hFullname, hImage⟩
    | passwordTextField => exact ⟨hEmail, hInput _ rfl, hFullname, hImage⟩
    | fullnameTextField => exact ⟨hEmail, hPassword, hInput _ rfl, hImage⟩
  · rename_i c profileImage image hTop
    obtain rfl := Option.some.inj hHandle
    obtain ⟨hEmail, hPassword, hFullname, hImage⟩ := h.pushed _ hTop
    refine h.put_on_top ⟨hEmail, hPassword, hFullname, fun picked hPicked => ?_⟩
    cases image with
    | none => exact hImage picked hPicked
    | some image => exact hInput _ (congrArg (Option.map Input.picture) hPicked)
  · exact Option.some.inj hHandle ▸ h.popViewController
  · rename_i c text hTop
    obtain rfl := Option.some.inj hHandle
    exact h.put_on_top ⟨text, rfl, hInput _ rfl⟩
  · exact Option.some.inj hHandle ▸ h.popViewController
  · exact absurd hHandle (by simp)

theorem press (h : s.Holds T) {press : Press} {event : App.Event}
    (hPress : s.press press = some event) : event.Sends T := by
  unfold LoginScreens.press at hPress
  split at hPress
  · obtain ⟨-, hEq⟩ := Option.ite_none_right_eq_some.mp hPress
    exact Option.some.inj hEq ▸ ⟨h.email, h.password⟩
  · exact Option.some.inj hPress ▸ trivial
  · rename_i c profileImage filename hTop
    obtain ⟨-, hEq⟩ := Option.ite_none_right_eq_some.mp hPress
    exact Option.some.inj hEq ▸ h.pushed _ hTop
  · rename_i c hTop
    obtain ⟨-, hEq⟩ := Option.ite_none_right_eq_some.mp hPress
    exact Option.some.inj hEq ▸ h.pushed _ hTop
  · exact absurd hPress (by simp)

end Holds

end LoginScreens

namespace FrontEnd

/-- The login screens in front hold inputs only. -/
def Holds (T : Input → Prop) (f : FrontEnd) : Prop :=
  ∀ s, f.screen = some (.login s) → s.Holds T

theorem Holds.follow (hEmpty : LoginScreens.Empty T) {screen : Option FrontScreen}
    (h : ∀ s, screen = some (.login s) → s.Holds T) (app : App) :
    Holds T ⟨app, FrontScreen.follow screen app.presented⟩ := by
  intro t hFollow
  rcases FrontScreen.follow_login hFollow with hThere | rfl
  · exact h t hThere
  · exact hEmpty.new

theorem Holds.step (h : f.Holds T) (hEmpty : LoginScreens.Empty T) {e : Event}
    (hInput : ∀ x ∈ e.input, T x) (hStep : f.step parses e = some f') : f'.Holds T := by
  cases step_stepped hStep with
  | login event s s' hScreen hHandle =>
    intro t hThere
    obtain rfl := FrontScreen.login.inj (Option.some.inj hThere)
    exact (h s hScreen).handle hEmpty hInput hHandle
  | press press s event app hScreen hPress hApp =>
    refine .follow hEmpty (fun t hThere => ?_) app
    obtain rfl := FrontScreen.login.inj (Option.some.inj hThere)
    exact (h s hScreen).noteRequest _ event
  | gesture gesture c c' hScreen hHandle =>
    intro t hThere
    exact absurd hThere (by simp)
  | dismissOnboarding c app hScreen hButton hApp => exact .follow hEmpty h app
  | app event app hOther hApp =>
    refine .follow hEmpty (fun t hLeft => ?_) app
    obtain ⟨-, s, hScreen, rfl | rfl⟩ := left_login hLeft
    · exact h _ hScreen
    · exact (h _ hScreen).popViewController

/-- The app stays where it is, or takes an event: a press, or the event itself. -/
theorem step_app {e : Event} (h : f.Holds T) (hStep : f.step parses e = some f') :
    (f'.app = f.app ∧ e.app? = none) ∨
    ∃ event, f.app.step parses event = some f'.app ∧ event.Sends T ∧
      e.app? = if event.onScreen then none else some event := by
  cases step_stepped hStep with
  | login | gesture => exact Or.inl ⟨rfl, rfl⟩
  | press press s event app hScreen hPress hApp =>
    refine Or.inr ⟨event, hApp, (h s hScreen).press hPress, ?_⟩
    rw [if_pos (LoginScreens.press_onScreen hPress)]
    rfl
  | dismissOnboarding c app hScreen hButton hApp =>
    exact Or.inr ⟨.controllerWantsToDismiss, hApp, trivial, rfl⟩
  | app event app hOther hApp =>
    refine Or.inr ⟨event, hApp, .of_other hOther, ?_⟩
    rw [hOther]
    rfl

/-- What the app goes through in a run of the front end. -/
theorem run_app {es : List Event} (h : f.Holds T) (hEmpty : LoginScreens.Empty T)
    (hInput : ∀ e ∈ es, ∀ x ∈ e.input, T x) (hRun : run (FrontEnd.step parses) f es = some f') :
    ∃ as, run (App.step parses) f.app as = some f'.app ∧
      as.filter (fun event => !event.onScreen) = es.filterMap Event.app? ∧
      ∀ event ∈ as, event.Sends T := by
  induction es generalizing f with
  | nil =>
    rw [run_nil, Option.some.injEq] at hRun
    exact ⟨[], hRun ▸ run_nil f.app, rfl, by simp⟩
  | cons e es ih =>
    rw [List.forall_mem_cons] at hInput
    obtain ⟨b, hStep, hRest⟩ := run_cons_some hRun
    obtain ⟨as, hApp, hOthers, hSends⟩ := ih (h.step hEmpty hInput.1 hStep) hInput.2 hRest
    rcases step_app h hStep with ⟨hSame, hNone⟩ | ⟨event, hEvent, hSent, hOther⟩
    · refine ⟨as, hSame ▸ hApp, ?_, hSends⟩
      rw [List.filterMap_cons_none hNone, hOthers]
    · refine ⟨event :: as, run_cons hEvent hApp, ?_, List.forall_mem_cons.mpr ⟨hSent, hSends⟩⟩
      cases hOn : event.onScreen with
      | true =>
        rw [hOn, if_pos rfl] at hOther
        rw [List.filterMap_cons_none hOther, List.filter_cons_of_neg (by simp [hOn]), hOthers]
      | false =>
        rw [hOn, if_neg (by simp)] at hOther
        rw [List.filterMap_cons_some hOther, List.filter_cons_of_pos (by simp [hOn]), hOthers]

end FrontEnd

/-- The same from a launch. -/
theorem FrontEnd.run_start {backend : Backend} {es : List FrontEnd.Event}
    (hEmpty : LoginScreens.Empty T) (hInput : ∀ e ∈ es, ∀ x ∈ e.input, T x)
    (hRun : run (FrontEnd.step parses) (FrontEnd.start backend) es = some f) :
    ∃ as, run (App.step parses) (App.start backend) as = some f.app ∧
      as.filter (fun event => !event.onScreen) = es.filterMap FrontEnd.Event.app? ∧
      ∀ event ∈ as, event.Sends T := by
  have hStart : (FrontEnd.start backend).Holds T := .follow hEmpty (by simp) _
  exact run_app hStart hEmpty hInput hRun

/--
**The front end refines the app.** Every run of the front end is a run of the app, with
the same events but for the presses in place of what is done on the screens. Each press
sends texts that were typed into a field of their kind, or left empty there, and a
picture that was picked; and a reset request always has an e-mail.
-/
theorem front_end_refines_app {backend : Backend} {es : List FrontEnd.Event}
    (hRun : run (FrontEnd.step parses) (FrontEnd.start backend) es = some f) :
    ∃ as, run (App.step parses) (App.start backend) as = some f.app ∧
      as.filter (fun event => !event.onScreen) = es.filterMap FrontEnd.Event.app? ∧
      ∀ event ∈ as, event.Sends (Input.Given es) :=
  FrontEnd.run_start ⟨Or.inl rfl, Or.inr (Or.inl rfl), Or.inr (Or.inr (Or.inl rfl))⟩
    (fun e hMem _ hInput => Or.inr (Or.inr (Or.inr ⟨e, hMem, hInput⟩))) hRun

/-- A reset is asked for, its screen is left, and the registration is opened before the
link has been sent. -/
def lateLink : List FrontEnd.Event :=
  [.login (.loginTextDidChange (.emailTextField, "ann@mail")), .login .showForgotPassword,
   .press .handleResetPassword, .app (.perform 0 .success), .login .handleDismissal,
   .login .showRegistrationViewController, .app (.deliver 0)]

theorem lateLink_refines :
    ∃ f, run (FrontEnd.step fun _ => true) (FrontEnd.start .empty) lateLink = some f ∧
      ∃ as, run (App.step fun _ => true) (App.start .empty) as = some f.app ∧
        as.filter (fun event => !event.onScreen) = lateLink.filterMap FrontEnd.Event.app? ∧
        ∀ event ∈ as, event.Sends (Input.Given lateLink) := by
  have hSome :
      (run (FrontEnd.step fun _ => true) (FrontEnd.start .empty) lateLink).isSome = true := rfl
  obtain ⟨f, hRun⟩ := Option.isSome_iff_exists.mp hSome
  exact ⟨f, hRun, front_end_refines_app hRun⟩

-- ---------------------------------------------------------------------------
-- Passwords
-- ---------------------------------------------------------------------------

/-- Everything but this text. -/
def Sources.except (text : String) : Sources := ⟨{x | x ≠ text}, {x | x ≠ text}, {x | x ≠ text}⟩

/-- If the event brings the text, then into a password field. -/
def FrontEnd.Event.Spares (text : String) : FrontEnd.Event → Prop
  | .login event => event.input ≠ some (.email text) ∧ event.input ≠ some (.fullname text)
  | .app event => event.Sourced (.except text)
  | _ => True

/--
**Passwords stay out.** A text that is typed into password fields only, and that no
profile has at first, is never in a profile: neither in a stored or a shown one, nor in
one that is being edited or on its way to the store.
-/
theorem password_stays_out {backend : Backend} {es : List FrontEnd.Event} {text : String}
    (hText : text ≠ "") (hBackend : backend.Sourced (.except text))
    (hSpares : ∀ e ∈ es, e.Spares text)
    (hRun : run (FrontEnd.step parses) (FrontEnd.start backend) es = some f) :
    f.app.Sourced (.except text) := by
  have hEmpty : LoginScreens.Empty fun x => x ≠ .email text ∧ x ≠ .fullname text :=
    ⟨by simpa using hText.symm, by simp, by simpa using hText.symm⟩
  have hInput : ∀ e ∈ es, ∀ x ∈ e.input, x ≠ .email text ∧ x ≠ .fullname text := by
    intro e hMem x hx
    cases e with
    | login event =>
      obtain ⟨hEmail, hName⟩ := hSpares _ hMem
      have hIs : event.input = some x := hx
      exact ⟨fun h => hEmail (h ▸ hIs), fun h => hName (h ▸ hIs)⟩
    | _ => exact absurd hx (by simp [FrontEnd.Event.input])
  obtain ⟨as, hApp, hOthers, hSends⟩ := FrontEnd.run_start hEmpty hInput hRun
  refine App.Sourced.run hBackend (fun event hMem => ?_) hApp
  by_cases hOn : event.onScreen = true
  · cases event with
    | handleSignUp profileImage email password fullname filename =>
      obtain ⟨hEmail, -, hName, -⟩ := hSends _ hMem
      exact ⟨fun h => hEmail.1 (congrArg Input.email h),
        fun h => hName.2 (congrArg Input.fullname h)⟩
    | handleUpdateUserFullname | perform => exact absurd hOn (by simp [App.Event.onScreen])
    | _ => trivial
  · have hThere : event ∈ es.filterMap FrontEnd.Event.app? :=
      hOthers ▸ List.mem_filter.mpr ⟨hMem, by simpa using hOn⟩
    obtain ⟨e, hFrom, hIs⟩ := List.mem_filterMap.mp hThere
    cases e with
    | app event' =>
      obtain rfl := Option.some.inj hIs
      exact hSpares _ hFrom
    | _ => exact absurd hIs (by simp [FrontEnd.Event.app?])

/-- Kim signs up through the registration screen. -/
def kimSignsUp : List FrontEnd.Event :=
  [.login .showRegistrationViewController,
   .login (.registrationTextDidChange (.emailTextField, "kim@mail")),
   .login (.registrationTextDidChange (.passwordTextField, "secret")),
   .login (.registrationTextDidChange (.fullnameTextField, "Kim")),
   .login (.imagePickerController (some ⟨"selfie", true⟩)), .press (.handleSignUp "file"),
   .app (.perform 0 (.url "selfie.jpg")), .app (.deliver 0),
   .app (.perform 0 (.url "selfie.jpg")), .app (.deliver 0),
   .app (.perform 0 (.signedIn ⟨"k", some "kim@mail", none, none⟩)), .app (.deliver 0),
   .app (.perform 0 .success), .app (.deliver 0)]

theorem kimSignsUp_stays_out :
    ∃ f, run (FrontEnd.step fun _ => true) (FrontEnd.start .empty) kimSignsUp = some f ∧
      f.app.Sourced (.except "secret") := by
  have hSome :
      (run (FrontEnd.step fun _ => true) (FrontEnd.start .empty) kimSignsUp).isSome = true := rfl
  obtain ⟨f, hRun⟩ := Option.isSome_iff_exists.mp hSome
  have hBackend : Backend.empty.Sourced (.except "secret") :=
    ⟨fun _ _ hDoc => absurd hDoc (by simp [Backend.empty]),
      fun _ _ hImage => absurd hImage (by simp [Backend.empty])⟩
  have hGrants : (Sources.except "secret").Grants ⟨"k", some "kim@mail", none, none⟩ :=
    ⟨by simp [Sources.except], by simp, by simp⟩
  have hPicture : "selfie.jpg" ∈ (Sources.except "secret").pictures := by simp [Sources.except]
  have hSpares : ∀ e ∈ kimSignsUp, e.Spares "secret" := by
    simp [kimSignsUp, FrontEnd.Event.Spares, LoginScreens.Event.input, App.Event.Sourced,
      Outcome.Sourced, hGrants, hPicture]
  exact ⟨f, hRun, password_stays_out (by simp) hBackend hSpares hRun⟩

-- ---------------------------------------------------------------------------
-- The end of the onboarding
-- ---------------------------------------------------------------------------

namespace FrontEnd

/-- An onboarding that is presented is in front, and shows one of its pages. -/
structure Onboards (f : FrontEnd) : Prop where
  presented : f.app.presented = some .onboarding → ∃ c, f.screen = some (.onboarding c)
  page : ∀ c, f.screen = some (.onboarding c) → ∃ i, OnShow onboardingItems i c

namespace Onboards

theorem follow {screen : Option FrontScreen}
    (h : ∀ c, screen = some (.onboarding c) → ∃ i, OnShow onboardingItems i c) (app : App) :
    Onboards ⟨app, FrontScreen.follow screen app.presented⟩ := by
  refine ⟨fun hPresented => ?_, fun c hThere => ?_⟩
  · show ∃ c, FrontScreen.follow screen app.presented = some (.onboarding c)
    have hOnboarding : app.presented = some .onboarding := hPresented
    rw [hOnboarding]
    exact FrontScreen.follow_presented screen
  · rcases FrontScreen.follow_onboarding hThere with hOld | hNew
    · exact h c hOld
    · have hItems : onboardingItems ≠ [] := by decide
      obtain ⟨c₀, hLoad, hShow, -⟩ := load_onShow hItems
      obtain rfl := Option.some.inj (hLoad.symm.trans hNew)
      exact ⟨0, hShow⟩

theorem step (h : f.Onboards) {e : Event} (hStep : f.step parses e = some f') : f'.Onboards := by
  cases step_stepped hStep with
  | login event s s' hScreen hHandle =>
    refine ⟨fun hPresented => ?_, fun c hThere => absurd hThere (by simp)⟩
    obtain ⟨c, hOther⟩ := h.presented hPresented
    exact absurd (hScreen.symm.trans hOther) (by simp)
  | press press s event app hScreen hPress hApp =>
    exact follow (fun c hThere => absurd hThere (by simp)) app
  | gesture gesture c c' hScreen hHandle =>
    refine ⟨fun _ => ⟨c', rfl⟩, fun c'' hThere => ?_⟩
    obtain rfl := FrontScreen.onboarding.inj (Option.some.inj hThere)
    obtain ⟨i, hShow⟩ := h.page c hScreen
    obtain ⟨next, hNext, hShow', -⟩ := hShow.gesture gesture
    obtain rfl := Option.some.inj (hHandle.symm.trans hNext)
    exact ⟨_, hShow'⟩
  | dismissOnboarding c app hScreen hButton hApp => exact follow h.page app
  | app event app hOther hApp => exact follow (fun c hLeft => h.page c (left_onboarding hLeft)) app

end Onboards

end FrontEnd

/--
**The onboarding ends on its last page.** In every state of every run in which the
onboarding is presented, one of its pages is on show, every gesture is taken, and the
onboarding can be ended exactly on the last page.
-/
theorem onboarding_ends_on_last_page (parses : URLParser) (backend : Backend)
    (es : List FrontEnd.Event) :
    Always (FrontEnd.step parses) (fun f => f.app.trapped = none →
      f.app.presented = some .onboarding → ∃ c i, f.screen = some (.onboarding c) ∧
        OnShow onboardingItems i c ∧ (∀ g, (f.step parses (.gesture g)).isSome = true) ∧
        ((f.step parses .dismissOnboarding).isSome = true ↔ i + 1 = onboardingItems.length))
      (FrontEnd.start backend) es := by
  have hAlways : Always (FrontEnd.step parses) FrontEnd.Onboards (FrontEnd.start backend) es :=
    .of_step (fun _ _ _ h hStep => h.step hStep) (.follow (by simp) _)
  refine hAlways.mono fun f h hRuns hPresented => ?_
  obtain ⟨c, hScreen⟩ := h.presented hPresented
  obtain ⟨i, hShow⟩ := h.page c hScreen
  refine ⟨c, i, hScreen, hShow, fun g => ?_, ?_⟩
  · obtain ⟨c', hHandle, -⟩ := hShow.gesture g
    simp [FrontEnd.step, hRuns, hScreen, hHandle]
  · have hTaken : (f.app.step parses .controllerWantsToDismiss).isSome = true := by
      simp [App.step, App.handle, hRuns, hPresented]
    have hButton : c.getStartedButton = true ↔ i + 1 = onboardingItems.length := by
      rw [hShow.getStartedButton]
      exact and_iff_left (by decide)
    simp only [FrontEnd.step, hScreen, ← hButton]
    split_ifs with hShown
    · simpa [hShown] using hTaken
    · simp [hShown]

end AggroApp
