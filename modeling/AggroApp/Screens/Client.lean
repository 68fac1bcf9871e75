import AggroApp.Model.App

/-!
# AggroApp — the app as a client of the backends

`Net.step` lets any operation be called at any time, under any session. The app
is one of its clients: whatever a screen does, for the operations in flight and
for the backends it is a run of that system, in which the app itself starts
operations, signs out, or has just been launched.

## Results

* `App.step_client`   — one event of the app is a run of the net.
* `app_refines_net`   — a whole run of the app is one, with the same outcomes.
* `App.always_of_net` — an invariant of the net holds along the runs of the app.
-/

namespace AggroApp

open Async

variable {parses : URLParser} {a a' : App}

/-- Events of the net. -/
abbrev NetEvent := Net.Event Completion UserCompletion ImageCompletion

/-- The app starts operations, signs out and is launched; it does not sign in. -/
def Net.Event.FromApp : NetEvent → Prop
  | .perform _ _ => False
  | .session currentUser => currentUser = none
  | _ => True

/-- The call that the event performs, and how it went. -/
def Net.Event.performed : NetEvent → Option (ℕ × Outcome)
  | .perform i outcome => some (i, outcome)
  | _ => none

def App.Event.performed : App.Event → Option (ℕ × Outcome)
  | .perform i outcome => some (i, outcome)
  | _ => none

theorem Net.Event.FromApp.performed {e : NetEvent} (h : e.FromApp) : e.performed = none := by
  cases e with
  | perform i outcome => exact h.elim
  | _ => rfl

/-- `n'` is reached from `n` by what a screen can do. -/
def Net.Leads (n n' : AppNet) : Prop :=
  ∃ ns : List NetEvent, run Net.step n ns = some n' ∧ ∀ e ∈ ns, e.FromApp

namespace Net.Leads

variable {n n' n'' : AppNet}

theorem refl (n : AppNet) : n.Leads n := ⟨[], run_nil n, by simp⟩

theorem trans (h : n.Leads n') (h' : n'.Leads n'') : n.Leads n'' := by
  obtain ⟨ns, hRun, hApp⟩ := h
  obtain ⟨ns', hRun', hApp'⟩ := h'
  refine ⟨ns ++ ns', run_trans hRun hRun', fun e hMem => ?_⟩
  rcases List.mem_append.mp hMem with hOld | hNew
  · exact hApp e hOld
  · exact hApp' e hNew

theorem event {e : NetEvent} (hStep : n.step e = some n') (hApp : e.FromApp) : n.Leads n' := by
  exact ⟨[e], run_cons hStep (run_nil n'), fun e' hMem => List.mem_singleton.mp hMem ▸ hApp⟩

/-- A screen leaves the net alone. -/
theorem frame (h : a'.net = a.net) : a.net.Leads a'.net := h ▸ refl a.net

theorem call (op : Operation Completion UserCompletion ImageCompletion) :
    a.net.Leads (a.call op).net :=
  event (e := .call op) rfl trivial

/-- A screen starts an operation after a change that does not concern the net. -/
theorem then_call (h : a'.net = a.net) (op : Operation Completion UserCompletion ImageCompletion) :
    a.net.Leads (a'.call op).net :=
  (frame h).trans (call op)

theorem complete (error : Option Error) (completion : Completion) :
    a.net.Leads (a.complete parses error completion).net := by
  have hFinish : a.net.Leads (a.finishAuthentication error).net := by
    cases error with
    | some error => exact frame rfl
    | none => exact then_call rfl _
  cases completion with
  | handleLogin => exact hFinish
  | handleSignUp => exact hFinish
  | handleGoogleLogin => exact then_call rfl _
  | handleResetPassword => cases error <;> exact frame rfl
  | controllerWantsToDismiss =>
    cases hUser : a.user with
    | none =>
      rw [App.complete_unloaded hUser]
      exact refl a.net
    | some user =>
      rw [App.complete_dismissed hUser]
      exact frame (App.setUser_net _)
  | updateUserData s user => exact frame (App.wantsToUpdate_net s user)

theorem take (step : AppStep) : a.net.Leads (a.take parses step).net := by
  cases step with
  | completed completion error => exact complete error completion
  | fetched comletion user =>
    cases comletion with
    | home => exact frame (App.setUser_net user)
    | edit s => exact frame rfl
  | _ => exact frame rfl

theorem handleDone (s : ℕ) (c : EditProfileViewController) :
    a.net.Leads (a.handleDone parses s c).net := by
  have hKept : ∀ b : App, a.net.Leads b.net → ∀ effect ∈ c.updateUserData,
      a.net.Leads (b.save parses s effect).net := by
    intro b hb effect _
    cases effect with
    | wantsToUpdate user => exact hb.trans (frame (App.wantsToUpdate_net s user))
    | updateUserData user => exact hb.trans (call _)
    | trap what => exact hb
  exact App.handleDone_keeps (I := fun b => a.net.Leads b.net) (refl a.net) hKept

theorem launch (net : AppNet) (log : List Notice) : net.Leads (App.launch net log).net := by
  have hRestart : net.Leads (App.loaded net.restart log).net := event (e := .restart) rfl trivial
  refine hRestart.trans ?_
  unfold App.launch App.authenticateUSer
  split
  · exact frame rfl
  · exact call _

end Net.Leads

/-- A call is performed as in the net. -/
theorem App.step_perform {i : ℕ} {outcome : Outcome}
    (hStep : a.step parses (.perform i outcome) = some a') :
    a.net.step (.perform i outcome) = some a'.net := by
  unfold App.step at hStep
  split at hStep
  · obtain ⟨net, hPerform, rfl⟩ := Option.map_eq_some_iff.mp hStep
    exact hPerform
  · rename_i hEvent
    exact absurd hEvent (by simp)
  · exact absurd hStep (by simp)

/-- An event of the app performs a call, or it is what a screen can do. -/
theorem App.step_client {e : App.Event} (hStep : a.step parses e = some a') :
    (∃ i outcome, e = .perform i outcome ∧ a.net.step (.perform i outcome) = some a'.net) ∨
      ((∀ i outcome, e ≠ .perform i outcome) ∧ a.net.Leads a'.net) := by
  cases App.step_stepped hStep with
  | perform i outcome call backend step hTask hAnswered =>
    exact Or.inl ⟨i, outcome, rfl, App.step_perform hStep⟩
  | launch => exact Or.inr ⟨by simp, .launch a.net a.log⟩
  | handleSignUp profileImage email password fullname filename hLogin =>
    refine Or.inr ⟨by simp, ?_⟩
    unfold App.handleSignUp
    split
    · exact .frame rfl
    · split
      · exact .refl a.net
      · exact .then_call rfl _
  | handleResetPassword email hLogin =>
    refine Or.inr ⟨by simp, ?_⟩
    unfold App.handleResetPassword
    split
    · exact .refl a.net
    · exact .then_call rfl _
  | logout signedOut hHome =>
    refine Or.inr ⟨by simp, ?_⟩
    unfold App.logout
    split
    · exact .event (e := .session none) rfl rfl
    · exact .refl a.net
  | imagePickerController s image filename hPicker =>
    refine Or.inr ⟨by simp, ?_⟩
    unfold App.imagePickerController
    split
    · exact .refl a.net
    · exact (Net.Leads.then_call rfl _).trans (.frame rfl)
  | handleDone s c hEdit hScreen hEnabled hHud => exact Or.inr ⟨by simp, .handleDone s c⟩
  | deliver i call step hTask =>
    have hReceived : a.net.Leads (a.receive i step).net := by
      refine .event (e := .deliver i) ?_ trivial
      simp only [Net.step, Net.deliver, hTask, Option.map_some]
      rfl
    exact Or.inr ⟨by simp, hReceived.trans (.take step)⟩
  | handleLogin | handleGoogleLogin | handleEditProfile | controllerWantsToDismiss =>
    exact Or.inr ⟨by simp, .then_call rfl _⟩
  | _ => exact Or.inr ⟨by simp, .frame rfl⟩

/-- The outcomes of a run of the app, in a run of the net. -/
theorem App.run_client {es : List App.Event} (hRun : run (App.step parses) a es = some a') :
    ∃ ns : List NetEvent, run Net.step a.net ns = some a'.net ∧
      ns.filterMap Net.Event.performed = es.filterMap App.Event.performed ∧
      ∀ uid, .session (some uid) ∉ ns := by
  induction es generalizing a with
  | nil =>
    rw [run_nil, Option.some.injEq] at hRun
    exact ⟨[], hRun ▸ run_nil a.net, rfl, by simp⟩
  | cons e es ih =>
    obtain ⟨b, hStep, hRest⟩ := run_cons_some hRun
    obtain ⟨ns, hNet, hPerformed, hSession⟩ := ih hRest
    rcases App.step_client hStep with ⟨i, outcome, rfl, hPerform⟩ | ⟨hOther, ms, hLeads, hApp⟩
    · refine ⟨.perform i outcome :: ns, run_cons hPerform hNet, ?_, by simpa using hSession⟩
      exact congrArg ((i, outcome) :: ·) hPerformed
    · refine ⟨ms ++ ns, run_trans hLeads hNet, ?_, fun uid hMem => ?_⟩
      · have hNone : e.performed = none := by
          cases e with
          | perform i outcome => exact absurd rfl (hOther i outcome)
          | _ => rfl
        have hNothing : ms.filterMap Net.Event.performed = [] :=
          List.filterMap_eq_nil_iff.mpr fun e hMem => (hApp e hMem).performed
        rw [List.filterMap_append, hNothing, List.nil_append, hPerformed,
          List.filterMap_cons_none hNone]
      · rcases List.mem_append.mp hMem with hNew | hOld
        · exact absurd (hApp _ hNew) (by simp [Net.Event.FromApp])
        · exact hSession uid hOld

/--
**The app refines the net.** For the operations in flight and the backends, every run
of the app is a run of the net: one with the same outcomes in the same order, in which
a session begins by an outcome only.
-/
theorem app_refines_net {backend : Backend} {es : List App.Event}
    (hRun : run (App.step parses) (App.start backend) es = some a) :
    ∃ ns : List NetEvent, run Net.step (Net.fresh backend) ns = some a.net ∧
      ns.filterMap Net.Event.performed = es.filterMap App.Event.performed ∧
      ∀ uid, .session (some uid) ∉ ns := by
  obtain ⟨ms, hLaunch, hApp⟩ := Net.Leads.launch (.fresh backend) []
  obtain ⟨ns, hNet, hPerformed, hSession⟩ := App.run_client hRun
  refine ⟨ms ++ ns, run_trans hLaunch hNet, ?_, fun uid hMem => ?_⟩
  · have hNothing : ms.filterMap Net.Event.performed = [] :=
      List.filterMap_eq_nil_iff.mpr fun e hMem => (hApp e hMem).performed
    rw [List.filterMap_append, hNothing, List.nil_append, hPerformed]
  · rcases List.mem_append.mp hMem with hNew | hOld
    · exact absurd (hApp _ hNew) (by simp [Net.Event.FromApp])
    · exact hSession uid hOld

/-- Ann has a profile, and is signed out. -/
def annSignedOut : Backend where
  accounts := [⟨"ann", some "ann@mail"⟩]
  currentUser := none
  users := Backend.empty.users.setData "ann" (profileValues "ann@mail" "Ann" "ann.jpg" "ann")
  images := fun _ => none
  database := fun _ => none

/-- She signs in, ends the onboarding, and signs out before that is written. -/
def loginAndLogout : List App.Event :=
  [.handleLogin "ann@mail" "secret",
   .perform 0 (.signedIn ⟨"ann", some "ann@mail", none, none⟩), .deliver 0, .perform 1 .success,
   .deliver 1, .controllerWantsToDismiss, .logout true]

theorem loginAndLogout_refines :
    ∃ a, run (App.step fun _ => true) (App.start annSignedOut) loginAndLogout = some a ∧
      ∃ ns : List NetEvent, run Net.step (Net.fresh annSignedOut) ns = some a.net ∧
        ns.filterMap Net.Event.performed = loginAndLogout.filterMap App.Event.performed ∧
        ∀ uid, .session (some uid) ∉ ns := by
  have hSome :
      (run (App.step fun _ => true) (App.start annSignedOut) loginAndLogout).isSome = true := rfl
  obtain ⟨a, hRun⟩ := Option.isSome_iff_exists.mp hSome
  exact ⟨a, hRun, app_refines_net hRun⟩

/--
**Transfer.** What the events of the net keep, under a condition on the calls that
are performed, holds along the runs of the app whose calls meet it.
-/
theorem App.always_of_net {I : AppNet → Prop} (cond : AppNet → ℕ → Outcome → Prop)
    (hApp : ∀ n e n', I n → Net.Event.FromApp e → n.step e = some n' → I n')
    (hPerform : ∀ n i outcome n', I n → cond n i outcome → n.step (.perform i outcome) = some n' →
      I n')
    (hInit : I a.net) {es : List App.Event}
    (hAlong : Along (App.step parses) (fun b e => ∀ i outcome, e = .perform i outcome →
      cond b.net i outcome) a es) :
    Always (App.step parses) (fun b => I b.net) a es := by
  have hRefines : ∀ b e b', (∀ i outcome, e = .perform i outcome → cond b.net i outcome) →
      App.step parses b e = some b' → ∃ ns : List NetEvent, run Net.step b.net ns = some b'.net ∧
        Along Net.step (fun n e => e.FromApp ∨ ∃ i outcome, e = .perform i outcome ∧
          cond n i outcome) b.net ns := by
    intro b e b' hCond hStep
    rcases App.step_client hStep with ⟨i, outcome, rfl, hNet⟩ | ⟨-, ns, hRun, hFromApp⟩
    · exact ⟨[.perform i outcome], run_cons hNet (run_nil b'.net), fun n _ =>
        ⟨Or.inr ⟨i, outcome, rfl, hCond i outcome rfl⟩, trivial⟩⟩
    · exact ⟨ns, hRun, .of_mem fun e hMem n => Or.inl (hFromApp e hMem)⟩
  refine Always.of_refinement hRefines ?_ hInit hAlong
  rintro n e n' hI (hFromApp | ⟨i, outcome, rfl, hCond⟩) hStep
  · exact hApp n e n' hI hFromApp hStep
  · exact hPerform n i outcome n' hI hCond hStep

end AggroApp
