import AggroApp.Screens.FrontEnd

/-!
# AggroApp — late links

A reset request is answered at any time. By then its screen may have been left, and
another one may be on top; when the link has been sent, the login screen pops what is on
top.

## Results

* `link_pops_its_screen_iff` — a link pops no other screen than the one it was asked for
  on, exactly when no screen is pushed while a request is in flight.
-/

namespace AggroApp

open Async

variable {parses : URLParser} {a a' : App} {f f' : FrontEnd} {s s' t : LoginScreens} {i : ℕ}

-- ---------------------------------------------------------------------------
-- Operations in flight
-- ---------------------------------------------------------------------------

/-- The operation has not ended. -/
def App.InFlight (a : App) (i : ℕ) : Prop := ∃ task, a.net.tasks[i]? = some task ∧ task ≠ .ended

theorem App.Extends.inFlight (h : a.Extends a') (hi : i < a.net.tasks.length) :
    a'.InFlight i ↔ a.InFlight i := by
  obtain ⟨started, hTasks, -⟩ := h
  rw [App.InFlight, App.InFlight, hTasks, List.getElem?_append_left hi]

/-- What is in flight was so before, unless it has been started since. -/
theorem App.inFlight_step {e : App.Event} (hStep : a.step parses e = some a')
    (hLaunch : e ≠ .launch) (hi : i < a.net.tasks.length) (h : a'.InFlight i) :
    a.InFlight i := by
  have hStepped := step_stepped hStep
  have hGrows := hStepped.grows
  have hSet : ∀ (j : ℕ) (old new : AppTask), a.net.tasks[j]? = some old → old ≠ .ended →
      (∃ task, (a.net.tasks.set j new)[i]? = some task ∧ task ≠ .ended) → a.InFlight i := by
    rintro j old new hOld hRuns ⟨task, hTask, hFlies⟩
    rcases getElem?_set_cases hTask with ⟨rfl, -⟩ | ⟨-, hOther⟩
    · exact ⟨old, hOld, hRuns⟩
    · exact ⟨task, hOther, hFlies⟩
  cases hStepped with
  | launch => exact absurd rfl hLaunch
  | perform j outcome call backend step hTask hAnswered => exact hSet j _ _ hTask (by simp) h
  | deliver j call step hTask =>
    have hReceived : i < (a.receive j step).net.tasks.length := by
      rw [App.receive, List.length_set]
      exact hi
    exact hSet j _ _ hTask (by simp) (((Extends.take step).inFlight hReceived).mp h)
  | _ => exact ((hGrows (by simp) (by simp) (by simp)).inFlight hi).mp h

theorem App.step_length {e : App.Event} (hStep : a.step parses e = some a')
    (hLaunch : e ≠ .launch) : a.net.tasks.length ≤ a'.net.tasks.length := by
  have hStepped := step_stepped hStep
  have hGrows := hStepped.grows
  have hLength : ∀ b : App, b.Extends a' → b.net.tasks.length ≤ a'.net.tasks.length := by
    rintro b ⟨started, hTasks, -⟩
    rw [hTasks, List.length_append]
    omega
  cases hStepped with
  | launch => exact absurd rfl hLaunch
  | perform j outcome call backend step hTask hAnswered =>
    rw [App.answer, List.length_set]
  | deliver j call step hTask =>
    have hTaken := hLength _ (Extends.take step)
    rwa [App.receive, List.length_set] at hTaken
  | _ => exact hLength a (hGrows (by simp) (by simp) (by simp))

/-- A screen is pushed. -/
def LoginScreens.Event.pushes : LoginScreens.Event → Bool
  | .showForgotPassword | .showRegistrationViewController => true
  | _ => false

/-- A screen is pushed onto the login screen, or what is on top stays or goes. -/
theorem LoginScreens.handle_pushes {event : LoginScreens.Event}
    (hHandle : s.handle event = some s') : s'.requests = s.requests ∧
      ((event.pushes = false ∧ s'.pushes = s.pushes ∧ (s.pushed = none → s'.pushed = none)) ∨
        (event.pushes = true ∧ s'.pushes = s.pushes + 1 ∧ s'.pushed ≠ none)) := by
  unfold LoginScreens.handle at hHandle
  split at hHandle
  case h_2 | h_3 =>
    obtain rfl := Option.some.inj hHandle
    exact ⟨rfl, Or.inr ⟨rfl, rfl, Option.some_ne_none _⟩⟩
  case h_9 => exact absurd hHandle (by simp)
  case h_1 hTop =>
    obtain rfl := Option.some.inj hHandle
    exact ⟨rfl, Or.inl ⟨rfl, rfl, id⟩⟩
  case h_6 | h_8 =>
    obtain rfl := Option.some.inj hHandle
    exact ⟨rfl, Or.inl ⟨rfl, rfl, fun _ => rfl⟩⟩
  all_goals
    rename_i hTop
    obtain rfl := Option.some.inj hHandle
    exact ⟨rfl, Or.inl ⟨rfl, rfl, fun hNone => absurd (hNone.symm.trans hTop) (by simp)⟩⟩

theorem LoginScreens.press_ne_launch {press : LoginScreens.Press} {event : App.Event}
    (hPress : s.press press = some event) : event ≠ .launch := by
  rintro rfl
  exact absurd (LoginScreens.press_onScreen hPress) (by decide)

/-- A request that is noted is the task that has just been started. -/
theorem LoginScreens.noteRequest_cases {event : App.Event} {n : ℕ}
    (hStep : a.step parses event = some a')
    (h : (i, n) ∈ (s.noteRequest a.net.tasks.length event).requests) :
    (i, n) ∈ s.requests ∨
      (i = a.net.tasks.length ∧ n = s.pushes ∧ i < a'.net.tasks.length) := by
  unfold LoginScreens.noteRequest at h
  split at h
  · rename_i email
    rcases List.mem_append.mp h with hOld | hNew
    · exact Or.inl hOld
    · obtain ⟨rfl, rfl⟩ := Prod.mk.inj (List.mem_singleton.mp hNew)
      refine Or.inr ⟨rfl, rfl, ?_⟩
      cases App.step_stepped hStep with
      | handleResetPassword email hLogin =>
        show a.net.tasks.length < (a.net.tasks ++ [_]).length
        rw [List.length_append, List.length_singleton]
        omega
  · exact Or.inl h

@[simp] theorem LoginScreens.noteRequest_pushes (s : LoginScreens) (i : ℕ) (event : App.Event) :
    (s.noteRequest i event).pushes = s.pushes := by
  unfold LoginScreens.noteRequest
  split <;> rfl

@[simp] theorem LoginScreens.noteRequest_pushed (s : LoginScreens) (i : ℕ) (event : App.Event) :
    (s.noteRequest i event).pushed = s.pushed := by
  unfold LoginScreens.noteRequest
  split <;> rfl

namespace FrontEnd

/-- A login screen after an event that does not touch the login screens: it was there
before, less what a link has popped, or it has no requests. -/
theorem goOn_login {event : App.Event} {app : App}
    (h : (f.goOn event app).screen = some (.login t)) :
    t = .new ∨ event ≠ .launch ∧ ∃ s, f.screen = some (.login s) ∧
      t.requests = s.requests ∧ t.pushes = s.pushes ∧ (t.pushed = s.pushed ∨ t.pushed = none) := by
  rcases FrontScreen.follow_login h with hLeft | rfl
  · obtain ⟨hLaunch, s, hScreen, rfl | rfl⟩ := left_login hLeft
    · exact Or.inr ⟨hLaunch, _, hScreen, rfl, rfl, Or.inl rfl⟩
    · exact Or.inr ⟨hLaunch, s, hScreen, rfl, rfl, Or.inr rfl⟩
  · exact Or.inl rfl

/-- A login screen after a press is the one that was pressed on, with the request
noted, or a new one. -/
theorem press_login {n : ℕ} {event : App.Event} {presented : Option Screen}
    (h : FrontScreen.follow (some (.login (s.noteRequest n event))) presented =
      some (.login t)) : t = .new ∨ t = s.noteRequest n event := by
  rcases FrontScreen.follow_login h with hSame | hNew
  · exact Or.inr (FrontScreen.login.inj (Option.some.inj hSame)).symm
  · exact Or.inl hNew

/-- The requests are tasks, made by screens that have been pushed. -/
def Numbered (f : FrontEnd) : Prop :=
  ∀ s, f.screen = some (.login s) → ∀ i n, (i, n) ∈ s.requests →
    i < f.app.net.tasks.length ∧ n ≤ s.pushes

theorem Numbered.step (h : f.Numbered) {e : Event} (hStep : f.step parses e = some f') :
    f'.Numbered := by
  intro t hThere i n hMem
  cases step_stepped hStep with
  | login event s s' hScreen hHandle =>
    obtain rfl := FrontScreen.login.inj (Option.some.inj hThere)
    obtain ⟨hRequests, hPushes⟩ := LoginScreens.handle_pushes hHandle
    obtain ⟨hTask, hNumber⟩ := h s hScreen i n (hRequests ▸ hMem)
    refine ⟨hTask, ?_⟩
    rcases hPushes with ⟨-, hSame, -⟩ | ⟨-, hNext, -⟩ <;> omega
  | press press s event app hScreen hPress hApp =>
    rcases press_login hThere with rfl | rfl
    · exact absurd hMem (by simp [LoginScreens.new])
    · have hLength := App.step_length hApp (LoginScreens.press_ne_launch hPress)
      rw [LoginScreens.noteRequest_pushes]
      rcases LoginScreens.noteRequest_cases hApp hMem with hOld | ⟨-, rfl, hNew⟩
      · obtain ⟨hTask, hNumber⟩ := h s hScreen i n hOld
        exact ⟨Nat.lt_of_lt_of_le hTask hLength, hNumber⟩
      · exact ⟨hNew, Nat.le_refl _⟩
  | gesture gesture c c' hScreen hHandle => exact absurd hThere (by simp)
  | dismissOnboarding c app hScreen hButton hApp =>
    rcases FrontScreen.follow_login hThere with hSame | rfl
    · exact absurd (hScreen.symm.trans hSame) (by simp)
    · exact absurd hMem (by simp [LoginScreens.new])
  | app event app hOther hApp =>
    rcases goOn_login hThere with rfl | ⟨hLaunch, s, hScreen, hRequests, hPushes, -⟩
    · exact absurd hMem (by simp [LoginScreens.new])
    · obtain ⟨hTask, hNumber⟩ := h s hScreen i n (hRequests ▸ hMem)
      have hLength := App.step_length hApp hLaunch
      show i < app.net.tasks.length ∧ n ≤ t.pushes
      exact ⟨by omega, by omega⟩

/-- A link that may still come finds the screen on top that it was asked for on, or none
but the login screen. -/
def PopsItsScreen (f : FrontEnd) : Prop :=
  ∀ s, f.screen = some (.login s) → ∀ i n, (i, n) ∈ s.requests → f.app.InFlight i →
    s.pushed = none ∨ n = s.pushes

/-- No screen is pushed while a request is in flight. -/
def KeepsTop (f : FrontEnd) : Event → Prop
  | .login event => event.pushes = true → ∀ s, f.screen = some (.login s) →
      ∀ i n, (i, n) ∈ s.requests → ¬ f.app.InFlight i
  | _ => True

theorem step_popsItsScreen (hNumbered : f.Numbered) (h : f.PopsItsScreen) {e : Event}
    (hStep : f.step parses e = some f') : f'.PopsItsScreen ↔ f.KeepsTop e := by
  cases step_stepped hStep with
  | login event s s' hScreen hHandle =>
    obtain ⟨hRequests, hPushes⟩ := LoginScreens.handle_pushes hHandle
    rcases hPushes with ⟨hStays, hSame, hTop⟩ | ⟨hPush, hNext, hTop⟩
    · refine iff_of_true (fun t hThere i n hMem hFlies => ?_) fun hPush => ?_
      · obtain rfl := FrontScreen.login.inj (Option.some.inj hThere)
        rw [hSame]
        exact (h s hScreen i n (hRequests ▸ hMem) hFlies).imp_left hTop
      · exact absurd (hStays.symm.trans hPush) (by simp)
    · constructor
      · intro hPops hPush t hThere i n hMem hFlies
        obtain rfl := FrontScreen.login.inj (Option.some.inj (hScreen.symm.trans hThere))
        -- the new screen has made no request yet
        have hNumber := (hNumbered s hScreen i n hMem).2
        rcases hPops s' rfl i n (hRequests.symm ▸ hMem) hFlies with hNone | hSame
        · exact hTop hNone
        · omega
      · intro hKeeps t hThere i n hMem hFlies
        obtain rfl := FrontScreen.login.inj (Option.some.inj hThere)
        exact absurd hFlies (hKeeps hPush s hScreen i n (hRequests ▸ hMem))
  | press press s event app hScreen hPress hApp =>
    refine iff_of_true (fun t hThere i n hMem hFlies => ?_) trivial
    rcases press_login hThere with rfl | rfl
    · exact Or.inl rfl
    · rw [LoginScreens.noteRequest_pushed, LoginScreens.noteRequest_pushes]
      rcases LoginScreens.noteRequest_cases hApp hMem with hOld | ⟨-, hNew, -⟩
      · have hTask := (hNumbered s hScreen i n hOld).1
        exact h s hScreen i n hOld
          (App.inFlight_step hApp (LoginScreens.press_ne_launch hPress) hTask hFlies)
      · exact Or.inr hNew
  | gesture gesture c c' hScreen hHandle =>
    exact iff_of_true (fun t hThere => absurd hThere (by simp)) trivial
  | dismissOnboarding c app hScreen hButton hApp =>
    refine iff_of_true (fun t hThere i n hMem hFlies => ?_) trivial
    rcases FrontScreen.follow_login hThere with hSame | rfl
    · exact absurd (hScreen.symm.trans hSame) (by simp)
    · exact Or.inl rfl
  | app event app hOther hApp =>
    refine iff_of_true (fun t hThere i n hMem hFlies => ?_) trivial
    rcases goOn_login hThere with rfl | ⟨hLaunch, s, hScreen, hRequests, hPushes, hTop⟩
    · exact Or.inl rfl
    · have hOld : (i, n) ∈ s.requests := hRequests ▸ hMem
      have hTask := (hNumbered s hScreen i n hOld).1
      rcases hTop with hTop | hTop
      · rw [hTop, hPushes]
        exact h s hScreen i n hOld (App.inFlight_step hApp hLaunch hTask hFlies)
      · exact Or.inl hTop

/-- A screen that a delivery takes from the top has made the request. -/
theorem PopsItsScreen.deliver (h : f.PopsItsScreen) (hScreen : f.screen = some (.login s))
    (hTop : s.pushed ≠ none) (hStep : f.step parses (.app (.deliver i)) = some f')
    (hLogin : f'.screen = some (.login t)) (hOld : t ≠ .new) (hPopped : t.pushed = none) :
    (i, s.pushes) ∈ s.requests := by
  cases step_stepped hStep with
  | app event app hOther hApp =>
    rcases FrontScreen.follow_login hLogin with hLeft | rfl
    · simp only [left, hScreen, Option.map_some] at hLeft
      split_ifs at hLeft with hSends
      · have hSent := FrontScreen.login.inj (Option.some.inj hLeft)
        rw [LoginScreens.didSendResetPasswordLink] at hSent
        split_ifs at hSent with hAsked
        · obtain ⟨⟨j, n⟩, hMem, rfl⟩ := List.mem_map.mp hAsked
          have hFlies : f.app.InFlight j := by
            unfold App.sendsLink at hSends
            split at hSends
            · rename_i call hTask
              exact ⟨_, hTask, by simp⟩
            · exact absurd hSends (by simp)
          rcases h s hScreen j n hMem hFlies with hNone | rfl
          · exact absurd hNone hTop
          · exact hMem
        · exact absurd (hSent ▸ hPopped) hTop
      · exact absurd (FrontScreen.login.inj (Option.some.inj hLeft) ▸ hPopped) hTop
    · exact absurd rfl hOld

end FrontEnd

/--
**Late links.** In every state of a run each reset link that may still come finds the
screen on top that it was asked for on, or none to pop, if and only if no screen is
pushed onto the login screen while one of its reset requests is in flight. Otherwise the
link may take away the registration, or another reset.
-/
theorem link_pops_its_screen_iff (parses : URLParser) (backend : Backend)
    (es : List FrontEnd.Event) :
    Always (FrontEnd.step parses) FrontEnd.PopsItsScreen (FrontEnd.start backend) es ↔
      Along (FrontEnd.step parses) FrontEnd.KeepsTop (FrontEnd.start backend) es := by
  have hNew : ∀ t, (FrontEnd.start backend).screen = some (.login t) → t = .new := by
    intro t hThere
    have hFollow : FrontScreen.follow none _ = some (.login t) := hThere
    rcases FrontScreen.follow_login hFollow with hNone | hNew
    · exact absurd hNone (by simp)
    · exact hNew
  refine always_iff_along (I := FrontEnd.Numbered) (fun _ _ _ hNumbered hStep =>
    hNumbered.step hStep) (fun _ _ _ hNumbered h hStep =>
      FrontEnd.step_popsItsScreen hNumbered h hStep) ?_ ?_
  · intro t hThere i n hMem
    exact absurd (hNew t hThere ▸ hMem) (by simp [LoginScreens.new])
  · intro t hThere i n hMem hFlies
    exact Or.inl (hNew t hThere ▸ rfl)

/-- The link was asked for on the first screen, and has taken away the second one. -/
example : ((run (FrontEnd.step fun _ => true) (FrontEnd.start .empty) lateLink).bind (·.screen)) =
    some (.login ⟨LoginViewController.new.textDidChange (.emailTextField, "ann@mail"), none, 2,
      [(0, 1)]⟩) := rfl

end AggroApp
