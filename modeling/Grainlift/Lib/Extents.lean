/-
  Grainlift.Lib.Extents — how much is referred to, when several references may be to one
  thing.

  A reference is a key and how far it extends. Of a finite set of them, `largest S k` is how
  far the references to `k` extend and `extent S` the sum of that over all keys. It depends
  on what is covered (`Covers.extent_le`), so a reference that reaches no further than
  another of its key adds nothing.

  `tally` keeps the largest extent of each key in a table; what it holds after any list of
  references is said by their set (`tallied_foldl`), whatever their order.
-/

import Grainlift.Lib.Table
import Mathlib.Algebra.Order.BigOperators.Group.Finset
import Mathlib.Data.Finset.Lattice.Fold
import Mathlib.Order.Lattice.Nat

namespace Grainlift.Lib.Extents

variable {κ : Type} [DecidableEq κ] {S T : Finset (κ × Nat)} {e : κ × Nat} {k : κ}

def keys (S : Finset (κ × Nat)) : Finset κ := S.image Prod.fst

def largest (S : Finset (κ × Nat)) (k : κ) : Nat := (S.filter fun e => e.1 = k).sup Prod.snd

def extent (S : Finset (κ × Nat)) : Nat := ∑ k ∈ keys S, largest S k

/-- Every reference of `T` is within one of `S`. -/
def Covers (S T : Finset (κ × Nat)) : Prop := ∀ e ∈ T, ∃ e' ∈ S, e'.1 = e.1 ∧ e.2 ≤ e'.2

theorem mem_keys : k ∈ keys S ↔ ∃ n, (k, n) ∈ S := by
  simp [keys]

theorem le_largest (h : e ∈ S) : e.2 ≤ largest S e.1 :=
  Finset.le_sup (f := Prod.snd) (Finset.mem_filter.mpr ⟨h, rfl⟩)

theorem largest_le {n : Nat} (h : ∀ e ∈ S, e.1 = k → e.2 ≤ n) : largest S k ≤ n := by
  apply Finset.sup_le
  intro e he
  obtain ⟨hm, hk⟩ := Finset.mem_filter.mp he
  exact h e hm hk

/-- Some reference extends that far. -/
theorem largest_mem (h : k ∈ keys S) : (k, largest S k) ∈ S := by
  obtain ⟨n, hn⟩ := mem_keys.mp h
  have hne : (S.filter fun e => e.1 = k).Nonempty := ⟨(k, n), Finset.mem_filter.mpr ⟨hn, rfl⟩⟩
  obtain ⟨e, he, hsup⟩ := Finset.exists_mem_eq_sup _ hne Prod.snd
  obtain ⟨hm, rfl⟩ := Finset.mem_filter.mp he
  have heq : largest S e.1 = e.2 := hsup
  rw [heq]
  exact hm

theorem largest_insert (e : κ × Nat) (S : Finset (κ × Nat)) (k : κ) :
    largest (insert e S) k = if k = e.1 then max (largest S k) e.2 else largest S k := by
  unfold largest
  rw [Finset.filter_insert]
  by_cases hk : k = e.1
  · rw [if_pos hk.symm, if_pos hk, Finset.sup_insert, max_comm]
  · rw [if_neg (Ne.symm hk), if_neg hk]

theorem le_extent (h : e ∈ S) : e.2 ≤ extent S := by
  have hk : e.1 ∈ keys S := mem_keys.mpr ⟨e.2, h⟩
  exact (le_largest h).trans (Finset.single_le_sum (f := largest S) (fun _ _ => Nat.zero_le _) hk)

theorem Covers.extent_le (h : Covers S T) : extent T ≤ extent S := by
  have hkeys : keys T ⊆ keys S := by
    intro k hk
    obtain ⟨n, hn⟩ := mem_keys.mp hk
    obtain ⟨e, he, rfl, -⟩ := h _ hn
    exact mem_keys.mpr ⟨e.2, he⟩
  have hlargest : ∀ k ∈ keys T, largest T k ≤ largest S k := by
    intro k _
    apply largest_le
    intro e he heq
    subst heq
    obtain ⟨e', he', hk, hle⟩ := h e he
    rw [← hk]
    exact hle.trans (le_largest he')
  exact (Finset.sum_le_sum hlargest).trans (Finset.sum_le_sum_of_subset hkeys)

/-! ## A table of the largest -/

/-- The reference is counted. -/
def tally (t : Table κ Nat) (e : κ × Nat) : Table κ Nat := t.insert e.1 (max ((t.lookup e.1).getD 0) e.2)

/-- The table holds what the references extend to. -/
def Tallied (t : Table κ Nat) (S : Finset (κ × Nat)) : Prop :=
  ∀ k, t.lookup k = if k ∈ keys S then some (largest S k) else none

theorem tallied_empty : Tallied (∅ : Table κ Nat) ∅ := by
  intro k
  simp [keys]

theorem Tallied.tally {t : Table κ Nat} (h : Tallied t S) (e : κ × Nat) : Tallied (tally t e) (insert e S) := by
  intro k
  have hkeys : keys (insert e S) = insert e.1 (keys S) := Finset.image_insert _ _ _
  rw [hkeys, largest_insert]
  unfold Extents.tally
  by_cases hk : k = e.1
  · subst hk
    rw [AList.lookup_insert, if_pos (Finset.mem_insert_self _ _), if_pos rfl, h e.1]
    split
    · rfl
    · rename_i hnone
      have hzero : largest S e.1 = 0 := by
        refine Nat.le_zero.mp (largest_le ?_)
        intro e' he' hk'
        exact absurd (mem_keys.mpr ⟨e'.2, by rw [← hk']; exact he'⟩) hnone
      rw [hzero]
      rfl
  · rw [AList.lookup_insert_ne hk, if_neg hk, h k]
    simp only [Finset.mem_insert, hk, false_or]

theorem tallied_foldl {t : Table κ Nat} (h : Tallied t S) (l : List (κ × Nat)) :
    Tallied (l.foldl tally t) (S ∪ l.toFinset) := by
  induction l generalizing t S with
  | nil => simpa using h
  | cons e l ih =>
    have hunion : S ∪ (e :: l).toFinset = insert e S ∪ l.toFinset := by
      ext x
      simp only [Finset.mem_union, List.mem_toFinset, List.mem_cons, Finset.mem_insert]
      tauto
    rw [List.foldl_cons, hunion]
    exact ih (h.tally e)

theorem Tallied.total {t : Table κ Nat} (h : Tallied t S) : Table.total (fun n => n) t = extent S := by
  have hvalue : ∀ x ∈ t.entries, x.2 = largest S x.1 := by
    intro x hx
    have hl : t.lookup x.1 = some x.2 := Table.mem_entries.mp hx
    rw [h x.1] at hl
    split at hl
    · exact (Option.some.inj hl).symm
    · cases hl
  have hkeys : (t.entries.map Sigma.fst).toFinset = keys S := by
    ext k
    have hmem : k ∈ t.entries.map Sigma.fst ↔ (t.lookup k).isSome := (AList.lookup_isSome (s := t)).symm
    rw [List.mem_toFinset, hmem, h k]
    split <;> simp_all
  have hmap : t.entries.map (fun x => x.2) = (t.entries.map Sigma.fst).map (largest S) := by
    rw [List.map_map]
    exact List.map_congr_left hvalue
  unfold Table.total extent
  rw [hmap, ← hkeys]
  exact (List.sum_toFinset _ t.nodupKeys).symm

/-- A sum that stops at a bound. -/
theorem foldl_saturating {M a : Nat} (h : a ≤ M) (l : List Nat) :
    l.foldl (fun a b => min (a + b) M) a = min (a + l.sum) M := by
  induction l generalizing a with
  | nil => simpa using h
  | cons b l ih =>
    rw [List.foldl_cons, ih (Nat.min_le_right _ _), List.sum_cons]
    omega

end Grainlift.Lib.Extents
