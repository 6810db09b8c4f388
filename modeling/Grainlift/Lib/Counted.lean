/-
  Grainlift.Lib.Counted — programs that share a reference-counted value, as Rust's `Arc`.

  A step takes a reference, gives one back, upgrades a weak one, or hands one over to an
  owner that outlives the program; whoever gives back the last one finalizes the value.
  Other steps are operations, of which some need the value alive and one kind is the
  finalizer's. A program that runs on a borrowed owner has that owner's reference to rely
  on.

  The discipline `refs` reads off a program's text that it never gives back what it does
  not have, uses the value only under a reference, and finalizes it only after it gave back
  the last. Proved: among any number of such programs, whatever the order of their steps,
  the count is that of the owners and of what the programs hold, and the value is finalized
  once, after the count came to zero (`Books.Balanced`, `balanced_next`).
-/

import Grainlift.Lib.Program
import Grainlift.Lib.Machine

namespace Grainlift.Lib.Counted

variable {K Op ρ : Type} {A : Op → Type}

inductive Step (K Op : Type) where
  | clone
  /-- Of a weak reference. -/
  | upgrade
  | release
  /-- The reference goes to the owner `k`. -/
  | keep (k : K)
  | op (o : Op)

/-- An upgrade says whether the value was alive, a release whether it was the last one. -/
@[reducible] def Ans (K : Type) (A : Op → Type) : Step K Op → Type
  | .clone | .keep _ => Unit
  | .upgrade | .release => Bool
  | .op o => A o

/-- What an operation needs of the value. -/
inductive Need where
  | alive
  /-- To have given back the last reference. -/
  | last
  | nothing
  deriving DecidableEq

/-! ## The discipline -/

/-- What one program has: its references, and whether it is to finalize the value. -/
structure Share where
  own : Nat
  last : Bool

def Share.none : Share := ⟨0, false⟩

/-- A reference, of its own or of the owner it borrows. -/
def Share.Live (borrows : Prop) (g : Share) : Prop := borrows ∨ 0 < g.own

def refs (needs : Op → Need) (borrows : Prop) : Discipline (Ans K A) Share where
  allows g
    | .clone => g.Live borrows
    | .upgrade => True
    | .release | .keep _ => 0 < g.own
    | .op o =>
      match needs o with
      | .alive => g.Live borrows
      | .last => g.last = true
      | .nothing => True
  next g
    | .clone, _ => { g with own := g.own + 1 }
    | .upgrade, upgraded => if upgraded then { g with own := g.own + 1 } else g
    | .release, last => ⟨g.own - 1, g.last || last⟩
    | .keep _, _ => { g with own := g.own - 1 }
    | .op o, _ => if needs o = .last then { g with last := false } else g

section

variable {needs : Op → Need} {borrows : Prop} {g : Share} {o : Op} {post : Share → ρ → Prop}

theorem allows_alive (h : needs o = .alive) :
    (refs (K := K) (A := A) needs borrows).allows g (.op o) ↔ g.Live borrows := by
  show (match needs o with | .alive => g.Live borrows | .last => g.last = true | .nothing => True) ↔ _
  rw [h]

theorem allows_last (h : needs o = .last) :
    (refs (K := K) (A := A) needs borrows).allows g (.op o) ↔ g.last = true := by
  show (match needs o with | .alive => g.Live borrows | .last => g.last = true | .nothing => True) ↔ _
  rw [h]

theorem next_op (h : needs o ≠ .last) (a : A o) : (refs (K := K) (A := A) needs borrows).next g (.op o) a = g :=
  if_neg h

theorem next_last (h : needs o = .last) (a : A o) :
    (refs (K := K) (A := A) needs borrows).next g (.op o) a = { g with last := false } := if_pos h

/-- An operation on the value alive. -/
theorem follows_alive (h : needs o = .alive) (hl : g.Live borrows) {k : A o → Prog (Ans K A) ρ}
    (hk : ∀ a, (refs needs borrows).Follows g (k a) post) : (refs needs borrows).Follows g (.call (.op o) k) post := by
  refine ⟨(allows_alive h).mpr hl, fun a => ?_⟩
  rw [next_op (by simp [h])]
  exact hk a

/-- An operation that needs nothing. -/
theorem follows_nothing (h : needs o = .nothing) {k : A o → Prog (Ans K A) ρ}
    (hk : ∀ a, (refs needs borrows).Follows g (k a) post) : (refs needs borrows).Follows g (.call (.op o) k) post := by
  refine ⟨?_, fun a => ?_⟩
  · show match needs o with | .alive => g.Live borrows | .last => g.last = true | .nothing => True
    rw [h]
    trivial
  · rw [next_op (by simp [h])]
    exact hk a

end

/-! ## The books -/

/-- The count, the references of the owners, and how often the value was finalized. -/
structure Books where
  count : Nat
  owned : Nat
  finalized : Nat

/-- The answers of a step on the count. -/
def Books.Answers (b : Books) : (st : Step K Op) → Ans K A st → Prop
  | .upgrade, upgraded => upgraded = decide (0 < b.count)
  | .release, last => last = decide (b.count = 1)
  | _, _ => True

def Books.next (needs : Op → Need) (b : Books) : (st : Step K Op) → Ans K A st → Books
  | .clone, _ => { b with count := b.count + 1 }
  | .upgrade, upgraded => if upgraded then { b with count := b.count + 1 } else b
  | .release, _ => { b with count := b.count - 1 }
  | .keep _, _ => { b with owned := b.owned + 1 }
  | .op o, _ => if needs o = .last then { b with finalized := b.finalized + 1 } else b

/-- The finalizations of a value with that count. -/
def owed (count : Nat) : Nat := if count = 0 then 1 else 0

@[simp] theorem owed_zero : owed 0 = 1 := rfl

theorem owed_pos {n : Nat} (h : 0 < n) : owed n = 0 := if_neg (by omega)

/-- The references of all programs together. -/
def shared : List Share → Nat
  | [] => 0
  | g :: gs => g.own + shared gs

theorem shared_append (gs : List Share) (g : Share) : shared (gs ++ [g]) = shared gs + g.own := by
  induction gs with
  | nil =>
    show g.own + 0 = 0 + g.own
    omega
  | cons x gs ih =>
    show x.own + shared (gs ++ [g]) = x.own + shared gs + g.own
    omega

theorem shared_eq_zero {gs : List Share} (h : ∀ g ∈ gs, g.own = 0) : shared gs = 0 := by
  induction gs with
  | nil => rfl
  | cons x gs ih =>
    have hx := h x List.mem_cons_self
    have hgs := ih fun g hg => h g (List.mem_cons_of_mem x hg)
    show x.own + shared gs = 0
    omega

structure Books.Balanced (b : Books) (gs : List Share) : Prop where
  sum : b.count = b.owned + shared gs
  due : b.finalized + gs.countP Share.last = owed b.count

variable {needs : Op → Need} {borrows : Prop} {b : Books} {gs : List Share} {g g' : Share} {i : Nat}

theorem shared_set (h : gs[i]? = some g) (g' : Share) : shared (gs.set i g') + g.own = shared gs + g'.own := by
  induction gs generalizing i with
  | nil => cases h
  | cons x gs ih =>
    cases i with
    | zero =>
      cases h
      show g'.own + shared gs + g.own = g.own + shared gs + g'.own
      omega
    | succ i =>
      have hi := ih (i := i) h
      show x.own + shared (gs.set i g') + g.own = x.own + shared gs + g'.own
      omega

theorem own_le (h : gs[i]? = some g) : g.own ≤ shared gs := by
  have hs := shared_set h Share.none
  have h0 : Share.none.own = 0 := rfl
  omega

namespace Books.Balanced

theorem count_pos (hb : b.Balanced gs) (h : gs[i]? = some g) (hown : borrows → 0 < b.owned) (hl : g.Live borrows) :
    0 < b.count := by
  have hle := own_le h
  have hsum := hb.sum
  rcases hl with hl | hl
  · have := hown hl
    omega
  · omega

/-- Nothing is finalized while a reference is left. -/
theorem alive (hb : b.Balanced gs) (h : 0 < b.count) : b.finalized = 0 ∧ ∀ g ∈ gs, g.last = false := by
  have hdue := hb.due
  rw [owed_pos h] at hdue
  refine ⟨by omega, fun g hg => ?_⟩
  have hnot := List.countP_eq_zero.mp (show gs.countP Share.last = 0 by omega) g hg
  exact Bool.eq_false_iff.mpr hnot

/-- Who is to finalize the value is the only one, and it was not done before. -/
theorem finalizer (hb : b.Balanced gs) (h : gs[i]? = some g) (hl : g.last = true) : b.count = 0 ∧ b.finalized = 0 := by
  have hpos : 0 < gs.countP Share.last := List.countP_pos_iff.mpr ⟨g, List.mem_of_getElem? h, hl⟩
  have hdue := hb.due
  rcases Nat.eq_zero_or_pos b.count with hc | hc
  · rw [hc, owed_zero] at hdue
    exact ⟨hc, by omega⟩
  · rw [owed_pos hc] at hdue
    omega

theorem start (hb : b.Balanced gs) : b.Balanced (gs ++ [.none]) := by
  refine ⟨?_, ?_⟩
  · rw [shared_append]
    exact hb.sum
  · simpa [Share.none] using hb.due

theorem starts (hb : b.Balanced gs) (n : Nat) : b.Balanced (gs ++ List.replicate n .none) := by
  induction n with
  | zero => simpa using hb
  | succ n ih =>
    rw [List.replicate_succ', ← List.append_assoc]
    exact ih.start

/-- An owner's reference goes to a program. -/
theorem take (hb : b.Balanced gs) (h : 0 < b.owned) :
    ({ b with owned := b.owned - 1 } : Books).Balanced (gs ++ [⟨1, false⟩]) := by
  refine ⟨?_, ?_⟩
  · have hsum := hb.sum
    rw [shared_append]
    show b.count = b.owned - 1 + (shared gs + 1)
    omega
  · simpa using hb.due

/-- No program has a reference of its own left. -/
theorem settled (hb : b.Balanced gs) (h : ∀ g ∈ gs, g.own = 0 ∧ g.last = false) :
    b.count = b.owned ∧ b.finalized = owed b.owned := by
  have hzero := shared_eq_zero fun g hg => (h g hg).1
  have hlast : gs.countP Share.last = 0 := List.countP_eq_zero.mpr fun g hg => by simp [(h g hg).2]
  have hcount : b.count = b.owned := by
    have hsum := hb.sum
    omega
  refine ⟨hcount, ?_⟩
  have hdue := hb.due
  rw [hcount] at hdue
  omega

end Books.Balanced

/-- Books in which one program's part has changed. -/
theorem Books.Balanced.replace (hb : b.Balanced gs) (h : gs[i]? = some g) {b' : Books} {g' : Share}
    (hsum : b'.count + b.owned + g.own = b.count + b'.owned + g'.own)
    (hdue : b'.finalized + g'.last.toNat + owed b.count = b.finalized + g.last.toNat + owed b'.count) :
    b'.Balanced (gs.set i g') := by
  have hold := hb.sum
  have hlast : b.finalized + gs.countP Share.last = owed b.count := hb.due
  have hset := shared_set h g'
  have hcount := countP_set_of_some Share.last h g'
  refine ⟨by omega, ?_⟩
  show b'.finalized + (gs.set i g').countP Share.last = owed b'.count
  omega

/-- A step of one program keeps the books. -/
theorem balanced_next (hb : b.Balanced gs) (h : gs[i]? = some g) (hown : borrows → 0 < b.owned) (st : Step K Op)
    (a : Ans K A st) (hallows : (refs (K := K) (A := A) needs borrows).allows g st) (ha : b.Answers st a) :
    (b.next needs st a).Balanced (gs.set i ((refs needs borrows).next g st a)) := by
  have hsum := hb.sum
  have hle := own_le h
  cases st with
  | clone =>
    have hpos := hb.count_pos h hown hallows
    refine hb.replace h ?_ ?_
    · show b.count + 1 + b.owned + g.own = b.count + b.owned + (g.own + 1)
      omega
    · show b.finalized + g.last.toNat + owed b.count = b.finalized + g.last.toNat + owed (b.count + 1)
      rw [owed_pos hpos, owed_pos (Nat.succ_pos _)]
  | upgrade =>
    have ha : a = decide (0 < b.count) := ha
    subst ha
    by_cases hpos : 0 < b.count
    · simp only [refs, Books.next, hpos, decide_true, if_true]
      refine hb.replace h ?_ ?_
      · show b.count + 1 + b.owned + g.own = b.count + b.owned + (g.own + 1)
        omega
      · show b.finalized + g.last.toNat + owed b.count = b.finalized + g.last.toNat + owed (b.count + 1)
        rw [owed_pos hpos, owed_pos (Nat.succ_pos _)]
    · simp only [refs, Books.next, hpos, decide_false, Bool.false_eq_true, if_false]
      exact hb.replace h rfl rfl
  | release =>
    have ha : a = decide (b.count = 1) := ha
    subst ha
    have hown : 0 < g.own := hallows
    have hlast := (hb.alive (by omega)).2 g (List.mem_of_getElem? h)
    refine hb.replace h ?_ ?_
    · show b.count - 1 + b.owned + g.own = b.count + b.owned + (g.own - 1)
      omega
    · show b.finalized + (g.last || decide (b.count = 1)).toNat + owed b.count =
        b.finalized + g.last.toNat + owed (b.count - 1)
      rw [hlast, Bool.false_or, owed_pos (show 0 < b.count by omega)]
      by_cases hone : b.count = 1
      · simp [hone]
      · rw [owed_pos (show 0 < b.count - 1 by omega)]
        simp [hone]
  | keep k =>
    have hown : 0 < g.own := hallows
    refine hb.replace h ?_ rfl
    show b.count + b.owned + g.own = b.count + (b.owned + 1) + (g.own - 1)
    omega
  | op o =>
    by_cases hn : needs o = .last
    · have hlast : g.last = true := by
        simp only [refs, hn] at hallows
        exact hallows
      simp only [refs, Books.next, hn, if_true]
      refine hb.replace h rfl ?_
      show b.finalized + 1 + false.toNat + owed b.count = b.finalized + g.last.toNat + owed b.count
      rw [hlast]
      rfl
    · simp only [refs, Books.next, hn, if_false]
      exact hb.replace h rfl rfl

end Grainlift.Lib.Counted
