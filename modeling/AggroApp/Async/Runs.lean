import Mathlib.Data.List.Basic

/-!
# Runs of a partial step function

A system is a step function `step : σ → ε → Option σ`: the event `e` is
enabled in `s` when `step s e` is a state. A run is a list of events. The
predicates here talk about what happens on the way:

* `run step s es`        — the state after `es`, when every event is enabled;
* `Along step cond s es` — every step taken meets `cond`, which may look at
  the state before the step and at the event;
* `Always step P s es`   — every state reached satisfies `P`.

## Results

* `Always.of_invariant` / `Along.of_invariant` — the induction behind every
  safety proof, with a side condition on the steps of the run.
* `always_iff_along`    — a condition that is exact at each step is exact for
  whole runs.
* `run_simulation`      — an observer that follows every step follows runs.
* `run_total`           — a system whose events are always enabled never gets stuck.
* `Always.of_refinement` — an invariant of an abstract system holds along the
  runs of a system that refines it.
* `run_observed`        — notes taken of a run do not influence it.
* `AfterEvery.congr`    — the same for handlers, which are total.
-/

namespace Async

section Runs

variable {σ ε : Type*} (step : σ → ε → Option σ)

/-- The state after the events `es`, if each is enabled when its turn comes. -/
def run (s : σ) (es : List ε) : Option σ := es.foldlM step s

/-- Every step that the run takes meets `cond`. -/
def Along (cond : σ → ε → Prop) : σ → List ε → Prop
  | _, [] => True
  | s, e :: es => ∀ t, step s e = some t → cond s e ∧ Along cond t es

/-- Every state that the run reaches satisfies `P`, the first one included. -/
def Always (P : σ → Prop) : σ → List ε → Prop
  | s, [] => P s
  | s, e :: es => P s ∧ ∀ t, step s e = some t → Always P t es

/-- A decidable condition can be checked along a run. -/
instance Along.decidable {cond : σ → ε → Prop} [∀ s e, Decidable (cond s e)] :
    (s : σ) → (es : List ε) → Decidable (Along step cond s es)
  | _, [] => isTrue trivial
  | s, e :: es =>
    match hStep : step s e with
    | none => isTrue fun t ht => absurd (hStep.symm.trans ht) (by simp)
    | some t =>
      have : Decidable (Along step cond t es) := Along.decidable t es
      decidable_of_iff (cond s e ∧ Along step cond t es)
        ⟨fun h u hu => Option.some.inj (hStep.symm.trans hu) ▸ h, fun h => h t hStep⟩

end Runs

variable {σ ε α : Type*} {step : σ → ε → Option σ}
variable {P I : σ → Prop} {cond cond' : σ → ε → Prop}
variable {s t : σ} {es fs : List ε}

@[simp] theorem run_nil (s : σ) : run step s [] = some s := rfl

/-- The first step of a run that gets through. -/
theorem run_cons_some {e : ε} (h : run step s (e :: es) = some t) :
    ∃ u, step s e = some u ∧ run step u es = some t :=
  Option.bind_eq_some_iff.mp h

theorem Always.head (h : Always step P s es) : P s := by
  cases es with
  | nil => exact h
  | cons e es => exact h.1

/-- A property that always holds holds after every prefix of the run. -/
theorem Always.of_prefix (h : Always step P s (es ++ fs))
    (hRun : run step s es = some t) : P t := by
  induction es generalizing s with
  | nil =>
    rw [run_nil, Option.some.injEq] at hRun
    exact hRun ▸ h.head
  | cons e es ih =>
    obtain ⟨u, hStep, hRest⟩ := run_cons_some hRun
    exact ih (h.2 u hStep) hRest

theorem Always.last (h : Always step P s es) (hRun : run step s es = some t) : P t := by
  have hAppend : Always step P s (es ++ []) := by rwa [List.append_nil]
  exact hAppend.of_prefix hRun

theorem Always.mono {Q : σ → Prop} (hPQ : ∀ s, P s → Q s) (h : Always step P s es) :
    Always step Q s es := by
  induction es generalizing s with
  | nil => exact hPQ s h
  | cons e es ih => exact ⟨hPQ s h.1, fun t hStep => ih (h.2 t hStep)⟩

/-- A step in the middle of a run meets what is met along the run. -/
theorem Along.at_step {e : ε} {u : σ} (h : Along step cond s (es ++ e :: fs))
    (hRun : run step s es = some t) (hStep : step t e = some u) : cond t e := by
  induction es generalizing s with
  | nil =>
    rw [run_nil, Option.some.injEq] at hRun
    subst hRun
    exact (h u hStep).1
  | cons e' es ih =>
    obtain ⟨v, hv, hRest⟩ := run_cons_some hRun
    exact ih (h v hv).2 hRest

/-- An unconditional condition is met along every run. -/
theorem Along.of_forall (h : ∀ s e, cond s e) : Along step cond s es := by
  induction es generalizing s with
  | nil => trivial
  | cons e es ih => exact fun t _ => ⟨h s e, ih⟩

/-- What is known of the events of a run can be used at its steps. -/
theorem Along.and_mem {p : ε → Prop} (h : Along step cond s es) (hMem : ∀ e ∈ es, p e) :
    Along step (fun s e => cond s e ∧ p e) s es := by
  induction es generalizing s with
  | nil => trivial
  | cons e es ih =>
    intro t ht
    obtain ⟨hCond, hRest⟩ := h t ht
    rw [List.forall_mem_cons] at hMem
    exact ⟨⟨hCond, hMem.1⟩, ih hRest hMem.2⟩

/--
**Invariant rule.** `I` holds at the start and every step that meets `cond`
preserves it, so it holds in every state of a run whose steps all meet `cond`.
-/
theorem Always.of_invariant
    (hStep : ∀ s e t, I s → cond s e → step s e = some t → I t)
    (hInit : I s) (hAlong : Along step cond s es) : Always step I s es := by
  induction es generalizing s with
  | nil => exact hInit
  | cons e es ih =>
    refine ⟨hInit, fun t ht => ?_⟩
    obtain ⟨hCond, hRest⟩ := hAlong t ht
    exact ih (hStep s e t hInit hCond ht) hRest

/-- What every step keeps, every run keeps. -/
theorem Always.of_step (hStep : ∀ s e t, I s → step s e = some t → I t) (hInit : I s) :
    Always step I s es :=
  .of_invariant (fun s e t hI _ => hStep s e t hI) hInit (Along.of_forall fun _ _ => trivial)

/-- The invariant rule for a property of the steps: under the invariant, each
step that meets `cond` also meets `cond'`. -/
theorem Along.of_invariant
    (hStep : ∀ s e t, I s → cond s e → step s e = some t → I t)
    (hCond : ∀ s e t, I s → cond s e → step s e = some t → cond' s e)
    (hInit : I s) (hAlong : Along step cond s es) : Along step cond' s es := by
  induction es generalizing s with
  | nil => trivial
  | cons e es ih =>
    intro t ht
    obtain ⟨hc, hRest⟩ := hAlong t ht
    exact ⟨hCond s e t hInit hc ht, ih (hStep s e t hInit hc ht) hRest⟩

/--
**Exact conditions.** If, from a state of `I` with `P`, a step keeps `P`
exactly when `cond` holds, then a run keeps `P` throughout exactly when all its
steps meet `cond`.
-/
theorem always_iff_along
    (hI : ∀ s e t, I s → step s e = some t → I t)
    (hExact : ∀ s e t, I s → P s → step s e = some t → (P t ↔ cond s e))
    (hInit : I s) (hP : P s) : Always step P s es ↔ Along step cond s es := by
  induction es generalizing s with
  | nil => exact ⟨fun _ => trivial, fun _ => hP⟩
  | cons e es ih =>
    constructor
    · intro h t ht
      have hPt : P t := (h.2 t ht).head
      exact ⟨(hExact s e t hInit hP ht).mp hPt,
        (ih (hI s e t hInit ht) hPt).mp (h.2 t ht)⟩
    · intro h
      refine ⟨hP, fun t ht => ?_⟩
      obtain ⟨hc, hRest⟩ := h t ht
      have hPt : P t := (hExact s e t hInit hP ht).mpr hc
      exact (ih (hI s e t hInit ht) hPt).mpr hRest

/--
**Observer rule.** If the observer `obs` keeps the relation `R` over each
enabled step, it keeps it over every run.
-/
theorem run_simulation {R : σ → α → Prop} {obs : α → ε → α}
    (hStep : ∀ s a e t, R s a → step s e = some t → R t (obs a e))
    {a : α} (hR : R s a) (hRun : run step s es = some t) : R t (es.foldl obs a) := by
  induction es generalizing s a with
  | nil =>
    rw [run_nil, Option.some.injEq] at hRun
    exact hRun ▸ hR
  | cons e es ih =>
    obtain ⟨u, hu, hRest⟩ := run_cons_some hRun
    exact ih (hStep s a e u hR hu) hRest

-- ---------------------------------------------------------------------------
-- Refinement
-- ---------------------------------------------------------------------------

theorem run_append (s : σ) (es fs : List ε) :
    run step s (es ++ fs) = (run step s es).bind fun t => run step t fs :=
  List.foldlM_append

/-- A run after a run. -/
theorem run_trans {u : σ} (h : run step s es = some t) (h' : run step t fs = some u) :
    run step s (es ++ fs) = some u := by
  rw [run_append, h]
  exact h'

/-- A step before a run. -/
theorem run_cons {e : ε} {u : σ} (hStep : step s e = some u) (hRun : run step u es = some t) :
    run step s (e :: es) = some t := by
  have hCons : run step s (e :: es) = (step s e).bind fun v => run step v es := rfl
  rw [hCons, hStep]
  exact hRun

/--
**Total refinement rule.** If every event is enabled where `R` relates the state
to an abstract one, and `next` follows it there, then no run gets stuck.
-/
theorem run_total {R : σ → α → Prop} {next : α → ε → α}
    (hStep : ∀ s a e, R s a → ∃ t, step s e = some t ∧ R t (next a e))
    {a : α} (hR : R s a) (es : List ε) :
    ∃ t, run step s es = some t ∧ R t (es.foldl next a) := by
  induction es generalizing s a with
  | nil => exact ⟨s, run_nil s, hR⟩
  | cons e es ih =>
    obtain ⟨u, hu, hNext⟩ := hStep s a e hR
    obtain ⟨t, hRun, hEnd⟩ := ih hNext
    exact ⟨t, run_cons hu hRun, hEnd⟩

/-- Events that meet the condition in every state meet it along every run. -/
theorem Along.of_mem (h : ∀ e ∈ es, ∀ s, cond s e) : Along step cond s es := by
  induction es generalizing s with
  | nil => trivial
  | cons e es ih =>
    rw [List.forall_mem_cons] at h
    exact fun t _ => ⟨h.1 s, ih h.2⟩

section Refinement

variable {σ' ε' : Type*} {step' : σ' → ε' → Option σ'} {f : σ → σ'}

/--
**Refinement rule.** If every step under `cond` is a run of the abstract system
under `cond'`, then what the steps of the abstract system keep under `cond'`
holds along the runs of the refined one.
-/
theorem Always.of_refinement {I : σ' → Prop} {cond' : σ' → ε' → Prop}
    (hRefines : ∀ s e t, cond s e → step s e = some t →
      ∃ es', run step' (f s) es' = some (f t) ∧ Along step' cond' (f s) es')
    (hStep : ∀ s e t, I s → cond' s e → step' s e = some t → I t)
    (hInit : I (f s)) (hAlong : Along step cond s es) : Always step (fun s => I (f s)) s es := by
  refine .of_invariant (fun s e t hI hCond ht => ?_) hInit hAlong
  obtain ⟨es', hRun, hAlong'⟩ := hRefines s e t hCond ht
  exact (Always.of_invariant hStep hI hAlong').last hRun

end Refinement

-- ---------------------------------------------------------------------------
-- Notes of a run
-- ---------------------------------------------------------------------------

/-- The system together with notes that are taken of each step. -/
def observed (step : σ → ε → Option σ) (obs : σ → ε → α → α) (s : σ × α) (e : ε) :
    Option (σ × α) :=
  (step s.1 e).map fun t => (t, obs s.1 e s.2)

theorem observed_eq_some {obs : σ → ε → α → α} {x y : σ × α} {e : ε}
    (h : observed step obs x e = some y) : step x.1 e = some y.1 ∧ y.2 = obs x.1 e x.2 := by
  obtain ⟨t, hStep, rfl⟩ := Option.map_eq_some_iff.mp h
  exact ⟨hStep, rfl⟩

/-- Taking notes does not influence the system. -/
theorem run_observed {obs : σ → ε → α → α} (x : σ × α) (es : List ε) :
    (run (observed step obs) x es).map Prod.fst = run step x.1 es := by
  induction es generalizing x with
  | nil => rfl
  | cons e es ih =>
    have hCons : run (observed step obs) x (e :: es) =
        (observed step obs x e).bind fun y => run (observed step obs) y es := rfl
    have hPlain : run step x.1 (e :: es) = (step x.1 e).bind fun t => run step t es := rfl
    rw [hCons, hPlain, observed]
    cases step x.1 e with
    | none => rfl
    | some t => exact ih (t, obs x.1 e x.2)

-- ---------------------------------------------------------------------------
-- Handlers
-- ---------------------------------------------------------------------------

/-- `P` holds after every event that a total handler is given. Unlike `Always`
it does not ask for anything before the first one. -/
def AfterEvery (handle : σ → ε → σ) (P : σ → Prop) : σ → List ε → Prop
  | _, [] => True
  | s, e :: es => P (handle s e) ∧ AfterEvery handle P (handle s e) es

/-- Two properties that agree after one event, under an invariant, agree after
every event. -/
theorem AfterEvery.congr {handle : σ → ε → σ} {Q : σ → Prop}
    (hI : ∀ s e, I s → I (handle s e))
    (hPQ : ∀ s e, I s → (P (handle s e) ↔ Q (handle s e))) (hInit : I s) :
    AfterEvery handle P s es ↔ AfterEvery handle Q s es := by
  induction es generalizing s with
  | nil => exact Iff.rfl
  | cons e es ih => exact and_congr (hPQ s e hInit) (ih (hI s e hInit))

end Async
