import Mathlib.Data.List.Forall2

/-!
# Append-only pools

A pool of concurrent activities is a list: a new activity is appended and keeps
its index for life, a step of activity `i` replaces entry `i`. The lemmas carry
facts about all entries, facts about all entries but one (`AllBut`), and
relations between two pools that grow together, over these two updates.
-/

namespace Async

variable {α β : Type*} {l : List α} {m : List β} {i : ℕ} {a : α} {b : β}

theorem forall_mem_concat {P : α → Prop} (h : ∀ x ∈ l, P x) (ha : P a) :
    ∀ x ∈ l ++ [a], P x := by
  intro x hx
  rcases List.mem_append.mp hx with hxl | hxa
  · exact h x hxl
  · rw [List.mem_singleton] at hxa
    exact hxa ▸ ha

theorem forall_mem_set {P : α → Prop} (h : ∀ x ∈ l, P x) (ha : P a) :
    ∀ x ∈ l.set i a, P x := by
  intro x hx
  rcases List.mem_or_eq_of_mem_set hx with hxl | rfl
  · exact h x hxl
  · exact ha

theorem forall_mem_modify {P : α → Prop} {f : α → α} (h : ∀ x ∈ l, P x)
    (hf : ∀ x, P x → P (f x)) : ∀ x ∈ l.modify i f, P x := by
  induction l generalizing i with
  | nil => simp
  | cons y l ih =>
    rw [List.forall_mem_cons] at h
    cases i with
    | zero =>
      rw [List.modify_zero_cons, List.forall_mem_cons]
      exact ⟨hf y h.1, h.2⟩
    | succ i =>
      rw [List.modify_succ_cons, List.forall_mem_cons]
      exact ⟨h.1, ih h.2⟩

/-- The entry that was replaced, or an entry with another index. -/
theorem getElem?_set_cases {j : ℕ} {x : α} (h : (l.set i a)[j]? = some x) :
    j = i ∧ x = a ∨ j ≠ i ∧ l[j]? = some x := by
  by_cases hij : j = i
  · subst hij
    rw [List.getElem?_set] at h
    split_ifs at h with hLen
    · exact Or.inl ⟨rfl, (Option.some.inj h).symm⟩
    · exact absurd rfl ‹_›
  · rw [List.getElem?_set_ne (Ne.symm hij)] at h
    exact Or.inr ⟨hij, h⟩

/-- The entry that was appended, or an older one. -/
theorem getElem?_concat_cases {j : ℕ} {x : α} (h : (l ++ [a])[j]? = some x) :
    j = l.length ∧ x = a ∨ l[j]? = some x := by
  rcases Nat.lt_trichotomy j l.length with hlt | rfl | hgt
  · rw [List.getElem?_append_left hlt] at h
    exact Or.inr h
  · rw [List.getElem?_concat_length] at h
    exact Or.inl ⟨rfl, (Option.some.inj h).symm⟩
  · rw [List.getElem?_eq_none (by simp; omega)] at h
    exact absurd h (by simp)

/-- The entry that was modified, or an entry with another index. -/
theorem getElem?_modify_cases {j : ℕ} {f : α → α} {x : α} (h : (l.modify i f)[j]? = some x) :
    (j = i ∧ ∃ y, l[j]? = some y ∧ x = f y) ∨ j ≠ i ∧ l[j]? = some x := by
  by_cases hij : j = i
  · subst hij
    rw [List.getElem?_modify_eq] at h
    obtain ⟨y, hOld, rfl⟩ := Option.map_eq_some_iff.mp h
    exact Or.inl ⟨rfl, y, hOld, rfl⟩
  · rw [List.getElem?_modify_ne _ _ (Ne.symm hij)] at h
    exact Or.inr ⟨hij, h⟩

/-- Modify an entry in what `g` does not see. -/
theorem map_modify_of_eq {g : α → β} {f : α → α} (hf : ∀ x, g (f x) = g x) (l : List α) (i : ℕ) :
    (l.modify i f).map g = l.map g := by
  induction l generalizing i with
  | nil => rw [List.modify_nil]
  | cons y l ih =>
    cases i with
    | zero => rw [List.modify_zero_cons, List.map_cons, List.map_cons, hf]
    | succ i => rw [List.modify_succ_cons, List.map_cons, List.map_cons, ih]

/-- Replace an entry by one that `g` does not tell from it. -/
theorem map_set_of_eq {g : α → β} {x : α} (h : l[i]? = some x) (hg : g a = g x) :
    (l.set i a).map g = l.map g := by
  obtain ⟨hLt, hEq⟩ := List.getElem?_eq_some_iff.mp h
  rw [List.map_set, hg, ← hEq, ← List.getElem_map g (h := by rwa [List.length_map])]
  exact List.set_getElem_self (by rwa [List.length_map])

/-- Replace an entry by one on which `p` says the same. -/
theorem any_set_of_eq {p : α → Bool} {x : α} (h : l[i]? = some x) (hp : p a = p x) :
    (l.set i a).any p = l.any p := by
  induction l generalizing i with
  | nil => rfl
  | cons y l ih =>
    cases i with
    | zero =>
      rw [List.getElem?_cons_zero, Option.some.injEq] at h
      rw [List.set_cons_zero, List.any_cons, List.any_cons, hp, h]
    | succ i => rw [List.set_cons_succ, List.any_cons, List.any_cons, ih h]

/-- Take an entry out of the count. -/
theorem any_eq_set_or {p : α → Bool} {x : α} (h : l[i]? = some x) (ha : p a = false) :
    l.any p = ((l.set i a).any p || p x) := by
  induction l generalizing i with
  | nil => exact absurd h (by simp)
  | cons y l ih =>
    cases i with
    | zero =>
      rw [List.getElem?_cons_zero, Option.some.injEq] at h
      rw [List.set_cons_zero, List.any_cons, List.any_cons, ha, h, Bool.false_or, Bool.or_comm]
    | succ i => rw [List.set_cons_succ, List.any_cons, List.any_cons, ih h, Bool.or_assoc]

-- ---------------------------------------------------------------------------
-- All entries but one
-- ---------------------------------------------------------------------------

/-- Every entry but that at `i` satisfies `P`. -/
def AllBut (P : α → Prop) (l : List α) (i : ℕ) : Prop :=
  ∀ j x, l[j]? = some x → j ≠ i → P x

namespace AllBut

variable {P Q : α → Prop}

theorem mono (h : AllBut P l i) (hPQ : ∀ x, P x → Q x) : AllBut Q l i :=
  fun j x hx hNe => hPQ x (h j x hx hNe)

/-- Replace the entry that is left out. -/
theorem set (h : AllBut P l i) : AllBut P (l.set i a) i := by
  intro j x hx hNe
  rcases getElem?_set_cases hx with ⟨hEq, -⟩ | ⟨-, hOld⟩
  · exact absurd hEq hNe
  · exact h j x hOld hNe

/-- Replace the entry that is left out by one that satisfies `P`. -/
theorem forall_mem_set (h : AllBut P l i) (ha : P a) : ∀ x ∈ l.set i a, P x := by
  intro x hMem
  obtain ⟨j, hx⟩ := List.getElem?_of_mem hMem
  rcases getElem?_set_cases hx with ⟨-, rfl⟩ | ⟨hNe, hOld⟩
  · exact ha
  · exact h j x hOld hNe

/-- Replace another entry. -/
theorem set_other (h : AllBut P l i) (ha : P a) (k : ℕ) : AllBut P (l.set k a) i := by
  intro j x hx hNe
  rcases getElem?_set_cases hx with ⟨-, rfl⟩ | ⟨-, hOld⟩
  · exact ha
  · exact h j x hOld hNe

theorem concat (h : AllBut P l i) (ha : P a) : AllBut P (l ++ [a]) i := by
  intro j x hx hNe
  rcases getElem?_concat_cases hx with ⟨-, rfl⟩ | hOld
  · exact ha
  · exact h j x hOld hNe

/-- Append the entry that is left out. -/
theorem of_concat (h : ∀ x ∈ l, P x) : AllBut P (l ++ [a]) l.length := by
  intro j x hx hNe
  rcases getElem?_concat_cases hx with ⟨hEq, -⟩ | hOld
  · exact absurd hEq hNe
  · exact h x (List.mem_of_getElem? hOld)

end AllBut

-- ---------------------------------------------------------------------------
-- Two pools that grow together
-- ---------------------------------------------------------------------------

variable {R : α → β → Prop}

theorem forall₂_concat (h : List.Forall₂ R l m) (hab : R a b) :
    List.Forall₂ R (l ++ [a]) (m ++ [b]) :=
  List.rel_append h (.cons hab .nil)

theorem forall₂_set (h : List.Forall₂ R l m) (hab : R a b) (i : ℕ) :
    List.Forall₂ R (l.set i a) (m.set i b) := by
  induction h generalizing i with
  | nil => exact .nil
  | cons hxy hRest ih =>
    cases i with
    | zero => exact .cons hab hRest
    | succ i => exact .cons hxy (ih i)

/-- Related pools have related entries at each index. -/
theorem forall₂_getElem? (h : List.Forall₂ R l m) (ha : l[i]? = some a) :
    ∃ b, m[i]? = some b ∧ R a b := by
  induction h generalizing i with
  | nil => exact absurd ha (by simp)
  | cons hxy hRest ih =>
    cases i with
    | zero =>
      rw [List.getElem?_cons_zero, Option.some.injEq] at ha
      exact ⟨_, rfl, ha ▸ hxy⟩
    | succ i =>
      rw [List.getElem?_cons_succ] at ha
      exact ih ha

end Async
