import Mathlib.Data.Option.Basic

/-!
# AggroApp — the progress HUD

`JGProgressHUD.m` of the pod, as the app uses it: `showInView:` and `dismiss` with
the default fade animation, no delegate and no minimum display time. Both take an
animation's time, and while one runs the HUD does not listen: it forgets a request
to be shown, and keeps one to be dismissed for later.

`targetView` is a weak reference. The view may go away at any time, and the HUD with
it; `animationDidFinish` is called all the same.
-/

namespace AggroApp

/-- What the running animation does: `_presenting` of the `JGProgressHUDAnimation`. -/
inductive Transition
  | presenting
  | dismissing
  deriving DecidableEq, Repr

structure JGProgressHUD (ν : Type) where
  targetView : Option ν
  hidden : Bool
  /-- `_transitioning`, with the animation that runs. -/
  transitioning : Option Transition
  dismissAfterTransitionFinished : Bool
  deriving DecidableEq, Repr

namespace JGProgressHUD

variable {ν : Type} {hud : JGProgressHUD ν}

/-- `initWithStyle:`. -/
def new : JGProgressHUD ν := ⟨none, true, none, false⟩

/-- `showInView:`; the fade animation unhides the HUD when it starts. -/
def showInView (hud : JGProgressHUD ν) (view : ν) : JGProgressHUD ν :=
  match hud.transitioning with
  | some _ => hud
  | none =>
    match hud.targetView with
    -- "The HUD is already visible! Ignoring."
    | some _ => hud
    | none =>
      { hud with targetView := some view, hidden := false, transitioning := some .presenting }

/-- `dismiss`. -/
def dismiss (hud : JGProgressHUD ν) : JGProgressHUD ν :=
  match hud.transitioning with
  | some _ => { hud with dismissAfterTransitionFinished := true }
  | none =>
    match hud.targetView with
    | none => hud
    | some _ => { hud with transitioning := some .dismissing }

/-- A dismissal that was asked for in the meantime comes next. -/
def cleanUpAfterPresentation (hud : JGProgressHUD ν) : JGProgressHUD ν :=
  let presented := { hud with hidden := false, transitioning := none }
  if hud.dismissAfterTransitionFinished then
    { presented.dismiss with dismissAfterTransitionFinished := false }
  else
    presented

def cleanUpAfterDismissal (_hud : JGProgressHUD ν) : JGProgressHUD ν where
  targetView := none
  hidden := true
  transitioning := none
  dismissAfterTransitionFinished := false

/-- `animationDidFinish:` of the animation that runs. -/
def animationDidFinish (hud : JGProgressHUD ν) : JGProgressHUD ν :=
  match hud.transitioning with
  | none => hud
  | some .presenting => hud.cleanUpAfterPresentation
  | some .dismissing => hud.cleanUpAfterDismissal

/-- The view has gone away. -/
def release [DecidableEq ν] (hud : JGProgressHUD ν) (view : ν) : JGProgressHUD ν :=
  { hud with targetView := if hud.targetView = some view then none else hud.targetView }

/-- `isVisible`, for a HUD that is not hidden. -/
def displayed (hud : JGProgressHUD ν) : Bool := hud.targetView.isSome && !hud.hidden

-- ---------------------------------------------------------------------------
-- Well-formed HUDs
-- ---------------------------------------------------------------------------

/-- A dismissal is pending only while an animation runs, and a HUD in a view is
not hidden. -/
structure WellFormed (hud : JGProgressHUD ν) : Prop where
  pending : hud.dismissAfterTransitionFinished = true → hud.transitioning.isSome = true
  unhidden : hud.targetView.isSome = true → hud.hidden = false

namespace WellFormed

theorem new : (JGProgressHUD.new : JGProgressHUD ν).WellFormed :=
  ⟨by simp [JGProgressHUD.new], by simp [JGProgressHUD.new]⟩

theorem showInView (h : hud.WellFormed) (view : ν) : (hud.showInView view).WellFormed := by
  unfold JGProgressHUD.showInView
  split
  · exact h
  · split
    · exact h
    · exact ⟨fun _ => rfl, fun _ => rfl⟩

theorem dismiss (h : hud.WellFormed) : hud.dismiss.WellFormed := by
  unfold JGProgressHUD.dismiss
  split
  · rename_i hRuns
    exact ⟨fun _ => by simp [hRuns], h.unhidden⟩
  · split
    · exact h
    · exact ⟨fun _ => rfl, h.unhidden⟩

theorem release [DecidableEq ν] (h : hud.WellFormed) (view : ν) :
    (hud.release view).WellFormed := by
  refine ⟨h.pending, fun hSome => h.unhidden ?_⟩
  simp only [JGProgressHUD.release] at hSome
  split at hSome
  · exact absurd hSome (by simp)
  · exact hSome

theorem animationDidFinish (h : hud.WellFormed) : hud.animationDidFinish.WellFormed := by
  unfold JGProgressHUD.animationDidFinish
  split
  · exact h
  · unfold cleanUpAfterPresentation
    dsimp only
    split
    · unfold JGProgressHUD.dismiss
      cases hud.targetView <;> exact ⟨by simp, by simp⟩
    · rename_i hNotPending
      exact ⟨fun hPending => absurd hPending hNotPending, by simp⟩
  · exact ⟨by simp [cleanUpAfterDismissal], by simp [cleanUpAfterDismissal]⟩

end WellFormed

-- ---------------------------------------------------------------------------
-- Settling
-- ---------------------------------------------------------------------------

/-- The animation that runs ends, and so does the dismissal that may come after it. -/
def settle (hud : JGProgressHUD ν) : JGProgressHUD ν := hud.animationDidFinish.animationDidFinish

/-- The view that the HUD will be in when its animations have ended. -/
def destination (hud : JGProgressHUD ν) : Option ν :=
  match hud.transitioning with
  | none => hud.targetView
  | some .presenting => if hud.dismissAfterTransitionFinished then none else hud.targetView
  | some .dismissing => none

/-- A request to be shown is not lost: the HUD is there to stay, or nothing is going on. -/
def accepts (hud : JGProgressHUD ν) : Bool := hud.destination.isSome || hud.transitioning.isNone

/-- A dismissal is never lost. -/
theorem destination_dismiss (hud : JGProgressHUD ν) : hud.dismiss.destination = none := by
  unfold dismiss
  split
  · rename_i transition hRuns
    cases transition <;> simp [destination, hRuns]
  · rename_i hIdle
    split
    · rename_i hNowhere
      simp [destination, hIdle, hNowhere]
    · rfl

/-- A request to be shown is lost while the HUD is on its way out. -/
theorem destination_showInView (h : hud.WellFormed) (view : ν) :
    (hud.showInView view).destination.isSome = hud.accepts := by
  unfold showInView accepts
  split
  · rename_i transition hRuns
    simp [hRuns]
  · rename_i hIdle
    split
    · rename_i target hThere
      simp [destination, hIdle, hThere]
    · have hNotPending : hud.dismissAfterTransitionFinished = false := by
        rw [Bool.eq_false_iff]
        exact fun hPending => absurd (h.pending hPending) (by simp [hIdle])
      simp [destination, hIdle, hNotPending]

theorem destination_animationDidFinish (hud : JGProgressHUD ν) :
    hud.animationDidFinish.destination = hud.destination := by
  unfold animationDidFinish
  split
  · rfl
  · rename_i hPresenting
    unfold cleanUpAfterPresentation
    dsimp only
    split
    · rename_i hPending
      cases hThere : hud.targetView <;> simp [dismiss, destination, hPresenting, hPending]
    · rename_i hNotPending
      simp [destination, hPresenting, hNotPending]
  · rename_i hDismissing
    simp [cleanUpAfterDismissal, destination, hDismissing]

theorem destination_release [DecidableEq ν] (hud : JGProgressHUD ν) (view : ν) :
    (hud.release view).destination =
      if hud.destination = some view then none else hud.destination := by
  unfold destination release
  cases hud.transitioning with
  | none => rfl
  | some transition =>
    cases transition with
    | presenting => cases hud.dismissAfterTransitionFinished <;> simp
    | dismissing => simp

/-- The presenting animation is not started by the end of another one. -/
theorem animationDidFinish_transitioning (hud : JGProgressHUD ν) :
    hud.animationDidFinish.transitioning = none ∨
      hud.animationDidFinish.transitioning = some .dismissing := by
  unfold animationDidFinish
  split
  · rename_i hIdle
    exact Or.inl hIdle
  · unfold cleanUpAfterPresentation
    dsimp only
    split
    · cases hThere : hud.targetView with
      | none => exact Or.inl (by simp [dismiss])
      | some view => exact Or.inr (by simp [dismiss])
    · exact Or.inl rfl
  · exact Or.inl rfl

/-- Two animations bring the HUD to its destination. -/
theorem settle_spec (h : hud.WellFormed) :
    hud.settle.transitioning = none ∧ hud.settle.targetView = hud.destination ∧
      hud.settle.displayed = hud.destination.isSome := by
  have hIdle : hud.settle.transitioning = none := by
    unfold settle
    rcases hud.animationDidFinish_transitioning with hNone | hDismissing
    · rw [animationDidFinish, hNone]
      exact hNone
    · rw [animationDidFinish, hDismissing]
      rfl
  have hThere : hud.settle.targetView = hud.destination := by
    have hSame : hud.settle.destination = hud.destination := by
      rw [settle, destination_animationDidFinish, destination_animationDidFinish]
    rwa [destination, hIdle] at hSame
  refine ⟨hIdle, hThere, ?_⟩
  have hUnhidden := h.animationDidFinish.animationDidFinish.unhidden
  rw [displayed, hThere]
  cases hView : hud.destination with
  | none => rfl
  | some view =>
    have hShown : hud.settle.hidden = false := hUnhidden (by
      show hud.settle.targetView.isSome = true
      rw [hThere, hView]
      rfl)
    rw [hShown]
    rfl

end JGProgressHUD

end AggroApp
