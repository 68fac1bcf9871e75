import Mathlib.Algebra.BigOperators.Ring.List
import Mathlib.Algebra.Ring.Nat
import AggroApp.Async.Pool
import AggroApp.Async.Runs

/-!
# Potentials

Accounting over the runs of a partial step function. A potential `Φ : σ → ℕ` is
what a state still owes; an event costs `cost e` and brings `credit e`.

* `run_accounts`   — if each step is paid for, so is each run.
* `exists_rest`    — if costly events are paid for by the potential alone, and
  one of them is enabled as long as there is potential left, every state comes
  to rest, within as many events as its potential.
* `sum_map_set`, `sum_map_modify`, `sum_map_concat` — the potential of a pool, entry
  by entry.
-/

namespace Async

variable {σ ε : Type*} {step : σ → ε → Option σ} {s t : σ} {es : List ε}

/--
**Accounting rule.** What is left after a run, together with the cost of its
events, is covered by what there was before and what the events brought.
-/
theorem run_accounts {Φ : σ → ℕ} {cost credit : ε → ℕ}
    (hStep : ∀ s e t, step s e = some t → Φ t + cost e ≤ Φ s + credit e)
    (hRun : run step s es = some t) :
    Φ t + (es.map cost).sum ≤ Φ s + (es.map credit).sum := by
  induction es generalizing s with
  | nil =>
    rw [run_nil, Option.some.injEq] at hRun
    exact hRun ▸ Nat.le_refl _
  | cons e es ih =>
    obtain ⟨u, hu, hRest⟩ := run_cons_some hRun
    have hHead := hStep s e u hu
    have hTail := ih hRest
    rw [List.map_cons, List.sum_cons, List.map_cons, List.sum_cons]
    omega

/-- A run of events that each cost something is no longer than its potential. -/
theorem run_length_le {Φ : σ → ℕ} {idle : ε → Prop}
    (hStep : ∀ s e t, idle e → step s e = some t → Φ t < Φ s)
    (hIdle : ∀ e ∈ es, idle e) (hRun : run step s es = some t) : es.length + Φ t ≤ Φ s := by
  induction es generalizing s with
  | nil =>
    rw [run_nil, Option.some.injEq] at hRun
    exact hRun ▸ Nat.le_of_eq (Nat.zero_add (Φ s))
  | cons e es ih =>
    obtain ⟨u, hu, hRest⟩ := run_cons_some hRun
    rw [List.forall_mem_cons] at hIdle
    have hHead := hStep s e u hIdle.1 hu
    have hTail := ih hIdle.2 hRest
    rw [List.length_cons]
    omega

/-- As long as a state is not at rest one of the events is enabled, and each of
them lowers the potential: so some run of them comes to rest. -/
theorem exists_rest {Φ : σ → ℕ} {idle : ε → Prop} {rest : σ → Prop}
    (hStep : ∀ s e t, idle e → step s e = some t → Φ t < Φ s)
    (hEnabled : ∀ s, ¬ rest s → ∃ e t, idle e ∧ step s e = some t) (s : σ) :
    ∃ es t, (∀ e ∈ es, idle e) ∧ run step s es = some t ∧ rest t := by
  by_cases hRest : rest s
  · exact ⟨[], s, by simp, run_nil s, hRest⟩
  · obtain ⟨e, u, hIdle, hu⟩ := hEnabled s hRest
    have hLess : Φ u < Φ s := hStep s e u hIdle hu
    obtain ⟨es, t, hAll, hRun, hEnd⟩ := exists_rest hStep hEnabled u
    exact ⟨e :: es, t, List.forall_mem_cons.mpr ⟨hIdle, hAll⟩, run_cons hu hRun, hEnd⟩
termination_by Φ s

-- ---------------------------------------------------------------------------
-- The potential of a pool
-- ---------------------------------------------------------------------------

variable {α : Type*} {w : α → ℕ} {l : List α}

theorem sum_map_concat (l : List α) (a : α) : ((l ++ [a]).map w).sum = (l.map w).sum + w a := by
  rw [List.map_append, List.sum_append, List.map_cons, List.map_nil, List.sum_singleton]

/-- Count the entries with a property. -/
theorem sum_map_toNat (p : α → Bool) (l : List α) :
    (l.map fun x => (p x).toNat).sum = l.countP p := by
  induction l with
  | nil => rfl
  | cons x l ih =>
    rw [List.map_cons, List.sum_cons, ih, List.countP_cons, Nat.add_comm]
    cases p x <;> rfl

/-- Exchange an entry for another. -/
theorem sum_map_set {i : ℕ} {x : α} (h : l[i]? = some x) (a : α) :
    ((l.set i a).map w).sum + w x = (l.map w).sum + w a := by
  induction l generalizing i with
  | nil => exact absurd h (by simp)
  | cons y l ih =>
    cases i with
    | zero =>
      rw [List.getElem?_cons_zero, Option.some.injEq] at h
      rw [List.set_cons_zero, List.map_cons, List.sum_cons, List.map_cons, List.sum_cons, h]
      omega
    | succ i =>
      rw [List.getElem?_cons_succ] at h
      have hTail := ih h
      rw [List.set_cons_succ, List.map_cons, List.sum_cons, List.map_cons, List.sum_cons]
      omega

/-- Modify an entry. -/
theorem sum_map_modify {i : ℕ} {x : α} (h : l[i]? = some x) (f : α → α) :
    ((l.modify i f).map w).sum + w x = (l.map w).sum + w (f x) := by
  have : Inhabited α := ⟨x⟩
  rw [List.modify_eq_set, h]
  exact sum_map_set h (f x)

end Async
