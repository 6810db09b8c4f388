/-
  Grainlift.Lib.Runs — the maximal runs of a list whose elements pass a test.

  `runs p l index start` reads `l` from `index` on, inside a run since `start` if there is
  one, and answers the ranges: where each run begins and how long it is. The ranges are not
  empty, lie in the list in order and apart (`runs_within`, `runs_pairwise`), and the
  list's slices at them, one after the other, are what passes the test (`runs_filter`).
-/

import Mathlib.Data.List.Basic

namespace Grainlift.Lib

variable {α β : Type}

def runs (p : α → Bool) : List α → (index : Nat) → (start : Option Nat) → List (Nat × Nat)
  | [], _, none => []
  | [], index, some start => [(start, index - start)]
  | a :: l, index, none => if p a then runs p l (index + 1) (some index) else runs p l (index + 1) none
  | a :: l, index, some start =>
    if p a then runs p l (index + 1) (some start) else (start, index - start) :: runs p l (index + 1) none

def slice (l : List α) (r : Nat × Nat) : List α := (l.drop r.1).take r.2

theorem slice_length {l : List α} {r : Nat × Nat} (h : r.1 + r.2 ≤ l.length) : (slice l r).length = r.2 := by
  simp only [slice, List.length_take, List.length_drop]
  omega

theorem runs_map (p : β → Bool) (f : α → β) (l : List α) (index : Nat) (start : Option Nat) :
    runs p (l.map f) index start = runs (fun a => p (f a)) l index start := by
  induction l generalizing index start with
  | nil => cases start <;> rfl
  | cons a l ih => cases start <;> simp only [List.map_cons, runs, ih]

theorem runs_within {p : α → Bool} {l : List α} {index : Nat} {start : Option Nat} (h : ∀ s ∈ start, s < index) :
    ∀ r ∈ runs p l index start, start.getD index ≤ r.1 ∧ 0 < r.2 ∧ r.1 + r.2 ≤ index + l.length := by
  induction l generalizing index start with
  | nil =>
    cases start with
    | none => simp [runs]
    | some s =>
      have hs := h s rfl
      simp only [runs, List.mem_singleton, forall_eq, Option.getD_some, List.length_nil]
      omega
  | cons a l ih =>
    intro r hr
    rw [List.length_cons]
    cases start with
    | none =>
      simp only [runs] at hr
      split at hr
      · have := ih (by simp) r hr
        simp only [Option.getD_some] at this
        simp only [Option.getD_none]
        omega
      · have := ih (by simp) r hr
        simp only [Option.getD_none] at this ⊢
        omega
    | some s =>
      have hs := h s rfl
      simp only [runs] at hr
      split at hr
      · have := ih (by simp; omega) r hr
        simp only [Option.getD_some] at this ⊢
        omega
      · rcases List.mem_cons.mp hr with rfl | hr
        · simp only [Option.getD_some]
          omega
        · have := ih (by simp) r hr
          simp only [Option.getD_none] at this
          simp only [Option.getD_some]
          omega

/-- Between two runs there is an element that fails. -/
theorem runs_pairwise {p : α → Bool} {l : List α} {index : Nat} {start : Option Nat} (h : ∀ s ∈ start, s < index) :
    (runs p l index start).Pairwise fun r r' => r.1 + r.2 < r'.1 := by
  induction l generalizing index start with
  | nil => cases start <;> simp [runs]
  | cons a l ih =>
    cases start with
    | none =>
      simp only [runs]
      split <;> exact ih (by simp)
    | some s =>
      have hs := h s rfl
      simp only [runs]
      split
      · exact ih (by simp; omega)
      · refine List.pairwise_cons.mpr ⟨?_, ih (by simp)⟩
        intro r hr
        have := (runs_within (by simp) r hr).1
        simp only [Option.getD_none] at this
        simp only
        omega

/-- A run that ends where `after` begins. -/
theorem slice_before {before : List α} {start : Nat} (h : start < before.length) (after : List α) :
    slice (before ++ after) (start, before.length - start) = before.drop start := by
  have hlen : (before.drop start).length = before.length - start := List.length_drop
  rw [slice, List.drop_append_of_le_length (Nat.le_of_lt h), List.take_append_of_le_length (Nat.le_of_eq hlen.symm),
    List.take_of_length_le (Nat.le_of_eq hlen)]

/-- With the run that is open at `before`'s end. -/
theorem runs_flatMap (p : α → Bool) (before l : List α) (start : Option Nat) (h : ∀ s ∈ start, s < before.length) :
    (runs p l before.length start).flatMap (slice (before ++ l)) =
      start.elim [] (fun s => before.drop s) ++ l.filter p := by
  induction l generalizing before start with
  | nil =>
    cases start with
    | none => rfl
    | some s => simp [runs, ← slice_before (h s rfl) []]
  | cons a l ih =>
    have hlist : before ++ a :: l = before ++ [a] ++ l := by simp
    have hlen : before.length + 1 = (before ++ [a]).length := by simp
    have hnone : (runs p l (before.length + 1) none).flatMap (slice (before ++ a :: l)) = l.filter p := by
      rw [hlist, hlen, ih _ none (by simp)]
      rfl
    have hsome : ∀ s ≤ before.length, (runs p l (before.length + 1) (some s)).flatMap (slice (before ++ a :: l)) =
        before.drop s ++ a :: l.filter p := by
      intro s hs
      rw [hlist, hlen, ih _ (some s) (by simp; omega), Option.elim_some, List.drop_append_of_le_length hs]
      simp
    cases start with
    | none =>
      by_cases ha : p a = true
      · simp only [runs, ha, if_true, hsome _ (Nat.le_refl _), List.filter_cons_of_pos]
        simp
      · simp only [runs, if_neg ha, hnone, List.filter_cons_of_neg ha, Option.elim_none, List.nil_append]
    | some s =>
      by_cases ha : p a = true
      · simp only [runs, ha, if_true, hsome s (Nat.le_of_lt (h s rfl)), List.filter_cons_of_pos, Option.elim_some]
      · simp only [runs, if_neg ha, List.flatMap_cons, slice_before (h s rfl), hnone, List.filter_cons_of_neg ha,
          Option.elim_some]

/-- The slices at the runs are what passes the test. -/
theorem runs_filter (p : α → Bool) (l : List α) : (runs p l 0 none).flatMap (slice l) = l.filter p :=
  runs_flatMap p [] l none (by simp)

end Grainlift.Lib
