/-
  Grainlift.Lib.Table — hash maps, by their contents.

  A table is an association list with distinct keys (Mathlib's `AList` at a constant
  family); the order of its entries means nothing and no definition reads it. Added
  here: `size`, `retain` (keep the entries that pass a test), `count` (how many do),
  `total` (the sum of a measure of the entries) and `insertAll`, with how each of them
  moves under `insert` and `erase`; and what a loop over keys it must not have seen before
  lets through (`nodup_of_seen`).
-/

import Mathlib.Algebra.GroupWithZero.Nat
import Mathlib.Data.List.AList

namespace Grainlift.Lib

abbrev Table (K V : Type) := AList fun _ : K => V

namespace Table

variable {K V : Type}

def size (t : Table K V) : Nat := t.entries.length

def count (p : K → V → Bool) (t : Table K V) : Nat := t.entries.countP fun e => p e.1 e.2

def total (f : V → Nat) (t : Table K V) : Nat := (t.entries.map fun e => f e.2).sum

def retain (p : K → V → Bool) (t : Table K V) : Table K V :=
  ⟨t.entries.filter fun e => p e.1 e.2, t.nodupKeys.sublist List.filter_sublist⟩

@[simp] theorem size_empty : size (∅ : Table K V) = 0 := rfl
@[simp] theorem count_empty (p : K → V → Bool) : count p (∅ : Table K V) = 0 := rfl
@[simp] theorem total_empty (f : V → Nat) : total f (∅ : Table K V) = 0 := rfl

theorem size_retain_le (p : K → V → Bool) (t : Table K V) : size (retain p t) ≤ size t := List.length_filter_le _ _

theorem retain_count (p q : K → V → Bool) (t : Table K V) : count q (retain p t) ≤ count q t :=
  List.filter_sublist.countP_le

@[simp] theorem retain_retain (p : K → V → Bool) (t : Table K V) : retain p (retain p t) = retain p t := by
  simp [retain, List.filter_filter]

variable [DecidableEq K]

theorem mem_entries {k : K} {v : V} {t : Table K V} : (⟨k, v⟩ : (_ : K) × V) ∈ t.entries ↔ t.lookup k = some v :=
  (AList.mem_lookup_iff (s := t)).symm

/-- An entry can be taken to the front; what is left is the table without its key. -/
theorem entries_perm {k : K} {v : V} {t : Table K V} (h : t.lookup k = some v) :
    t.entries.Perm (⟨k, v⟩ :: (t.erase k).entries) := by
  have hk : k ∈ t.entries.keys := List.mem_keys_of_mem (mem_entries.mpr h)
  obtain ⟨b, l₁, l₂, -, hl, he⟩ := List.exists_of_kerase hk
  have hb : t.lookup k = some b := mem_entries.mp (by rw [hl]; simp)
  obtain rfl : b = v := by rw [hb] at h; exact Option.some.inj h
  have hperm : (l₁ ++ ⟨k, b⟩ :: l₂).Perm (⟨k, b⟩ :: (l₁ ++ l₂)) := List.perm_middle
  rw [← hl, ← he] at hperm
  exact hperm

theorem erase_of_lookup_none {k : K} {t : Table K V} (h : t.lookup k = none) : t.erase k = t :=
  AList.ext (List.kerase_of_notMem_keys (AList.lookup_eq_none.mp h))

theorem entries_insert_none {k : K} (v : V) {t : Table K V} (h : t.lookup k = none) :
    (t.insert k v).entries = ⟨k, v⟩ :: t.entries :=
  AList.entries_insert_of_notMem (AList.lookup_eq_none.mp h)

theorem lookup_of_erase {k k' : K} {v : V} {t : Table K V} (h : (t.erase k').lookup k = some v) :
    t.lookup k = some v := by
  by_cases hk : k = k'
  · subst hk
    rw [AList.lookup_erase] at h
    cases h
  · rwa [AList.lookup_erase_ne hk] at h

theorem erase_insert_of_lookup_none {k : K} (v : V) {t : Table K V} (h : t.lookup k = none) :
    (t.insert k v).erase k = t := by
  have he : (t.insert k v).erase k = t.erase k := AList.ext (List.kerase_cons_eq rfl)
  rw [he, erase_of_lookup_none h]

/-- What `retain` keeps depends on the entries that are there. -/
theorem retain_congr {p q : K → V → Bool} {t : Table K V} (h : ∀ k v, t.lookup k = some v → p k v = q k v) :
    retain p t = retain q t :=
  AList.ext (List.filter_congr fun e he => h e.1 e.2 (mem_entries.mp he))

theorem retain_true {p : K → V → Bool} {t : Table K V} (h : ∀ k v, t.lookup k = some v → p k v = true) :
    retain p t = t :=
  AList.ext (List.filter_eq_self.mpr fun e he => h e.1 e.2 (mem_entries.mp he))

theorem erase_eq_retain (k : K) (t : Table K V) : t.erase k = retain (fun k' _ => decide (k' ≠ k)) t := by
  apply AList.ext
  show t.entries.kerase k = t.entries.filter fun e => decide (e.1 ≠ k)
  have hn := t.nodupKeys
  generalize t.entries = l at hn ⊢
  induction l with
  | nil => rfl
  | cons e l ih =>
    rw [List.nodupKeys_cons] at hn
    by_cases hk : k = e.1
    · have hl : ∀ x ∈ l, decide (x.1 ≠ k) = true := by
        intro x hx
        have : x.1 ∈ l.keys := List.mem_keys_of_mem hx
        grind
      rw [List.kerase_cons_eq hk, List.filter_cons_of_neg (by simp [hk]), List.filter_eq_self.mpr hl]
    · rw [List.kerase_cons_ne hk, List.filter_cons_of_pos (by simp [Ne.symm hk]), ih hn.2]

theorem retain_erase (p : K → V → Bool) (k : K) (t : Table K V) :
    retain p (t.erase k) = retain (fun k' v => p k' v && decide (k' ≠ k)) t := by
  rw [erase_eq_retain]
  simp [retain, List.filter_filter]

/-! ## Size, count and total under `erase` -/

theorem size_erase {k : K} {v : V} {t : Table K V} (h : t.lookup k = some v) : size (t.erase k) + 1 = size t := by
  have := (entries_perm h).length_eq
  simpa [size] using this.symm

theorem size_erase_le (k : K) (t : Table K V) : size (t.erase k) ≤ size t :=
  (List.kerase_sublist k t.entries).length_le

theorem count_erase (p : K → V → Bool) {k : K} {v : V} {t : Table K V} (h : t.lookup k = some v) :
    count p (t.erase k) + (if p k v then 1 else 0) = count p t := by
  have := (entries_perm h).countP_eq fun e => p e.1 e.2
  simp only [count, this, List.countP_cons]

theorem count_erase_le (p : K → V → Bool) (k : K) (t : Table K V) : count p (t.erase k) ≤ count p t :=
  (List.kerase_sublist k t.entries).countP_le

theorem total_erase (f : V → Nat) {k : K} {v : V} {t : Table K V} (h : t.lookup k = some v) :
    total f (t.erase k) + f v = total f t := by
  have := ((entries_perm h).map fun e => f e.2).sum_nat
  simp only [total, this, List.map_cons, List.sum_cons]
  omega

/-! ## Size, count and total under `insert` -/

theorem size_insert {k : K} (v : V) {t : Table K V} (h : t.lookup k = none) : size (t.insert k v) = size t + 1 := by
  simp only [size, entries_insert_none v h, List.length_cons]

theorem count_insert (p : K → V → Bool) {k : K} (v : V) {t : Table K V} (h : t.lookup k = none) :
    count p (t.insert k v) = count p t + (if p k v then 1 else 0) := by
  simp only [count, entries_insert_none v h, List.countP_cons]

/-- Over an entry already there, as new ones are counted alike, nothing moves. -/
theorem size_insert_some {k : K} {v : V} (w : V) {t : Table K V} (h : t.lookup k = some v) :
    size (t.insert k w) = size t := by
  have : (t.insert k w).entries = ⟨k, w⟩ :: (t.erase k).entries := rfl
  rw [← size_erase h, size, this, List.length_cons, size]

theorem count_insert_some (p : K → V → Bool) {k : K} {v : V} (w : V) {t : Table K V} (h : t.lookup k = some v)
    (hp : p k w = p k v) : count p (t.insert k w) = count p t := by
  have : (t.insert k w).entries = ⟨k, w⟩ :: (t.erase k).entries := rfl
  rw [← count_erase p h, count, this, List.countP_cons, hp, count]

/-- Over an entry already there, or as a new one: `insert` is `erase` and a new entry. -/
theorem total_insert (f : V → Nat) (k : K) (v : V) (t : Table K V) :
    total f (t.insert k v) = total f (t.erase k) + f v := by
  have : (t.insert k v).entries = ⟨k, v⟩ :: (t.erase k).entries := rfl
  simp only [total, this, List.map_cons, List.sum_cons]
  omega

/-! ## Lookup under `retain` -/

@[simp] theorem lookup_retain (p : K → V → Bool) (t : Table K V) (k : K) :
    (retain p t).lookup k = (t.lookup k).filter (p k) := by
  cases h : t.lookup k with
  | none =>
    refine AList.lookup_eq_none.mpr fun hk => AList.lookup_eq_none.mp h ?_
    exact (List.filter_sublist.map _).subset hk
  | some v =>
    cases hp : p k v with
    | true =>
      have : (⟨k, v⟩ : (_ : K) × V) ∈ (retain p t).entries := List.mem_filter.mpr ⟨mem_entries.mpr h, hp⟩
      simpa [Option.filter, hp] using mem_entries.mp this
    | false =>
      have : (retain p t).lookup k = none := by
        cases hr : (retain p t).lookup k with
        | none => rfl
        | some w =>
          obtain ⟨hm, hw⟩ := List.mem_filter.mp (mem_entries.mpr hr)
          have hv : t.lookup k = some w := mem_entries.mp hm
          rw [h] at hv
          cases hv
          simp [hp] at hw
      simpa [Option.filter, hp] using this

/-! ## Many insertions -/

/-- The pairs inserted in order, a later one over an earlier one of its key. -/
def insertAll (t : Table K V) (l : List (K × V)) : Table K V := l.foldl (fun t e => t.insert e.1 e.2) t

theorem lookup_insertAll_of_notMem {k : K} {l : List (K × V)} (t : Table K V) (h : k ∉ l.map Prod.fst) :
    (t.insertAll l).lookup k = t.lookup k := by
  induction l generalizing t with
  | nil => rfl
  | cons e l ih =>
    simp only [List.map_cons, List.mem_cons, not_or] at h
    show AList.lookup k (insertAll (t.insert e.1 e.2) l) = t.lookup k
    rw [ih _ h.2, AList.lookup_insert_ne h.1]

theorem lookup_insertAll_of_mem {k : K} {v : V} {l : List (K × V)} (t : Table K V) (hl : (l.map Prod.fst).Nodup)
    (h : (k, v) ∈ l) : (t.insertAll l).lookup k = some v := by
  induction l generalizing t with
  | nil => cases h
  | cons e l ih =>
    simp only [List.map_cons, List.nodup_cons] at hl
    show AList.lookup k (insertAll (t.insert e.1 e.2) l) = some v
    rcases List.mem_cons.mp h with rfl | h
    · rw [lookup_insertAll_of_notMem _ hl.1, AList.lookup_insert]
    · exact ih _ hl.2 h

theorem lookup_insertAll_cases {k : K} {v : V} {l : List (K × V)} {t : Table K V}
    (h : (t.insertAll l).lookup k = some v) : (k, v) ∈ l ∨ (k ∉ l.map Prod.fst ∧ t.lookup k = some v) := by
  induction l generalizing t with
  | nil => exact .inr ⟨by simp, h⟩
  | cons e l ih =>
    rcases ih h with hm | ⟨hk, ht⟩
    · exact .inl (List.mem_cons_of_mem _ hm)
    · by_cases hke : k = e.1
      · subst hke
        rw [AList.lookup_insert] at ht
        cases ht
        exact .inl List.mem_cons_self
      · rw [AList.lookup_insert_ne hke] at ht
        exact .inr ⟨by simp [hke, hk], ht⟩

end Table

/-- A loop that stops at a key it has seen lets through only distinct keys. -/
theorem nodup_of_seen {K α ε : Type} {key : α → K} {f : List K → List α → Except ε Unit}
    (hstep : ∀ seen a rest, f seen (a :: rest) = .ok () → key a ∉ seen ∧ f (key a :: seen) rest = .ok ())
    {seen : List K} {l : List α} (h : f seen l = .ok ()) : (l.map key).Nodup ∧ ∀ a ∈ l, key a ∉ seen := by
  induction l generalizing seen with
  | nil => exact ⟨List.nodup_nil, by simp⟩
  | cons a rest ih =>
    obtain ⟨hseen, hrest⟩ := hstep seen a rest h
    obtain ⟨hnodup, hnew⟩ := ih hrest
    refine ⟨?_, ?_⟩
    · rw [List.map_cons, List.nodup_cons]
      refine ⟨?_, hnodup⟩
      intro hm
      obtain ⟨x, hx, hk⟩ := List.mem_map.mp hm
      exact hnew x hx (by rw [hk]; exact List.mem_cons_self)
    · intro x hx
      rcases List.mem_cons.mp hx with rfl | hx
      · exact hseen
      · intro hm
        exact hnew x hx (List.mem_cons_of_mem _ hm)

end Grainlift.Lib
