/-
  Grainlift.Lib.Mutex — programs that take locks, and threads that run them.

  A step of such a program takes a lock, gives one back, or performs an operation of its
  own. `guarded l p` holds `l` while `p` runs and gives it back whatever `p` ends in, as a
  guard in Rust does.

  Who holds what is a map from locks to threads. `advance` is one step of one thread: a
  lock that is held cannot be taken, and only its holder gives it back. The discipline
  `within C` reads a program with the set of locks it holds as its ghost state: it takes
  none twice, gives back only what it holds, and takes a lock or performs an operation only
  with a set that `C` admits. Proved: a step of a thread moves the ghost state as it moves the locks
  (`advance_follows`) and leaves every other thread's locks alone (`advance_other`), so a
  discipline read off a program's text holds of the thread in every interleaving. Run
  alone, the locks change nothing (`run_guarded`).
-/

import Grainlift.Lib.Program
import Mathlib.Order.BooleanAlgebra.Set

namespace Grainlift.Lib.Mutex

open Function

variable {L T Op σ ρ τ : Type} {A : Op → Type}

inductive Step (L Op : Type) where
  | lock (l : L)
  | unlock (l : L)
  | op (o : Op)

@[reducible] def Ans (L : Type) (A : Op → Type) : Step L Op → Type
  | .lock _ | .unlock _ => Unit
  | .op o => A o

def guarded (l : L) (p : Prog (Ans L A) ρ) : Prog (Ans L A) ρ :=
  .call (.lock l) fun _ => p.bind fun r => .call (.unlock l) fun _ => .done r

theorem uses_guarded {B : Step L Op → Prop} {l : L} {p : Prog (Ans L A) ρ} (hl : B (.lock l)) (hu : B (.unlock l))
    (hp : p.Uses B) : (guarded l p).Uses B :=
  ⟨hl, fun _ => hp.bind fun _ => ⟨hu, fun _ => trivial⟩⟩

/-! ## Run alone -/

/-- Operations performed by `exec`, with nobody else to wait for. -/
def plain (exec : (o : Op) → σ → A o × σ) : (s : Step L Op) → σ → Ans L A s × σ
  | .lock _, x | .unlock _, x => ((), x)
  | .op o, x => exec o x

@[simp] theorem run_guarded (exec : (o : Op) → σ → A o × σ) (l : L) (p : Prog (Ans L A) ρ) (x : σ) :
    (guarded l p).run (plain exec) x = p.run (plain exec) x := by
  show (p.bind _).run (plain exec) x = _
  rw [Prog.run_bind]
  rfl

/-! ## Threads -/

def heldBy (holder : L → Option T) (t : T) : Set L := fun l => holder l = some t

@[simp] theorem mem_heldBy {holder : L → Option T} {t : T} {l : L} : l ∈ heldBy holder t ↔ holder l = some t := Iff.rfl

theorem heldBy_take [DecidableEq L] {holder : L → Option T} {l : L} (t : T) :
    heldBy (update holder l (some t)) t = insert l (heldBy holder t) := by
  ext m
  by_cases hm : m = l
  · subst hm
    simp
  · simp [hm]

theorem heldBy_take_other [DecidableEq L] {holder : L → Option T} {l : L} {t u : T} (hl : holder l = none)
    (hu : u ≠ t) :
    heldBy (update holder l (some t)) u = heldBy holder u := by
  ext m
  by_cases hm : m = l
  · subst hm
    simp [hl, hu.symm]
  · simp [hm]

section Threads

variable [DecidableEq L] [DecidableEq T]

/-- The guard of `t` over `l` goes. -/
def release (holder : L → Option T) (t : T) (l : L) : L → Option T :=
  if holder l = some t then update holder l none else holder

/-- One step of the thread `t` at `p`; none where it is done or waits for a lock. -/
def advance (exec : (o : Op) → σ → A o × σ) (t : T) (holder : L → Option T) (x : σ) :
    Prog (Ans L A) ρ → Option (Prog (Ans L A) ρ × (L → Option T) × σ)
  | .done _ => none
  | .call (.lock l) k => if holder l = none then some (k (), update holder l (some t), x) else none
  | .call (.unlock l) k => some (k (), release holder t l, x)
  | .call (.op o) k => some (k (exec o x).1, holder, (exec o x).2)

theorem heldBy_release (holder : L → Option T) (t : T) (l : L) :
    heldBy (release holder t l) t = heldBy holder t \ {l} := by
  ext m
  unfold release
  by_cases hm : m = l
  · subst hm
    by_cases hl : holder m = some t
    · simp [hl]
    · simp [hl]
  · by_cases hl : holder l = some t
    · simp [hl, hm]
    · simp [hl]

theorem heldBy_release_other (holder : L → Option T) {t u : T} (l : L) (hu : u ≠ t) :
    heldBy (release holder t l) u = heldBy holder u := by
  unfold release
  by_cases hl : holder l = some t
  · ext m
    by_cases hm : m = l
    · subst hm
      simp [hl, hu.symm]
    · simp [hl, hm]
  · simp [hl]

end Threads

/-! ## The locks a thread holds -/

/-- Each lock once, each given back by its holder, and locks and operations only under the
    locks that `C` admits. -/
def within (C : Set L → Step L Op → Prop) : Discipline (Ans L A) (Set L) where
  allows g
    | .lock l => l ∉ g ∧ C g (.lock l)
    | .unlock l => l ∈ g
    | .op o => C g (.op o)
  next g
    | .lock l, _ => insert l g
    | .unlock l, _ => g \ {l}
    | .op _, _ => g

variable {C : Set L → Step L Op → Prop} {g : Set L}

/-- The program keeps to the discipline and ends with the locks it began with. -/
def Balanced (C : Set L → Step L Op → Prop) (g : Set L) (p : Prog (Ans L A) ρ) : Prop :=
  (within C).Follows g p fun g' _ => g' = g

theorem balanced_done (r : ρ) : Balanced C g (.done r : Prog (Ans L A) ρ) := rfl

theorem balanced_ask {o : Op} (h : C g (.op o)) : Balanced C g (Prog.ask (.op o) : Prog (Ans L A) _) :=
  ⟨h, fun _ => rfl⟩

theorem balanced_bind {p : Prog (Ans L A) ρ} {f : ρ → Prog (Ans L A) τ} (hp : Balanced C g p)
    (hf : ∀ r, Balanced C g (f r)) : Balanced C g (p.bind f) := by
  refine Discipline.follows_bind.mpr (hp.mono ?_)
  intro g' r hg
  subst hg
  exact hf r

theorem balanced_guarded {l : L} {p : Prog (Ans L A) ρ} (hl : l ∉ g) (hC : C g (.lock l))
    (hp : Balanced C (insert l g) p) : Balanced C g (guarded l p) := by
  refine ⟨⟨hl, hC⟩, fun _ => Discipline.follows_bind.mpr (hp.mono ?_)⟩
  intro g' r hg
  subst hg
  exact ⟨Set.mem_insert l g, fun _ => Set.insert_sdiff_self_of_notMem hl⟩

section Act

variable {ε δ α β : Type}

theorem balanced_seq {x : Act (Ans L A) ε α} {f : α → Act (Ans L A) ε β} (hx : Balanced C g x)
    (hf : ∀ a, Balanced C g (f a)) : Balanced C g (x >>= f : Act (Ans L A) ε β) := by
  apply balanced_bind hx
  intro r
  cases r with
  | ok a => exact hf a
  | error e => exact balanced_done _

end Act

/-! ## One step of one thread -/

section Advance

variable [DecidableEq L] [DecidableEq T] {exec : (o : Op) → σ → A o × σ} {t u : T} {holder holder' : L → Option T}
  {x x' : σ} {p p' : Prog (Ans L A) ρ} {post : Set L → ρ → Prop}

theorem advance_follows (h : (within C).Follows (heldBy holder t) p post)
    (ha : advance exec t holder x p = some (p', holder', x')) : (within C).Follows (heldBy holder' t) p' post := by
  cases p with
  | done r => cases ha
  | call o k =>
    cases o with
    | lock l =>
      simp only [advance] at ha
      split at ha
      · cases ha
        rw [heldBy_take]
        exact h.2 ()
      · cases ha
    | unlock l =>
      cases ha
      rw [heldBy_release]
      exact h.2 ()
    | op o =>
      cases ha
      exact h.2 _

theorem advance_other (hu : u ≠ t) (ha : advance exec t holder x p = some (p', holder', x')) :
    heldBy holder' u = heldBy holder u := by
  cases p with
  | done r => cases ha
  | call o k =>
    cases o with
    | lock l =>
      simp only [advance] at ha
      split at ha
      · rename_i hl
        cases ha
        exact heldBy_take_other hl hu
      · cases ha
    | unlock l =>
      cases ha
      exact heldBy_release_other holder l hu
    | op o =>
      cases ha
      rfl

/-- What a thread can still come to, it could come to before. -/
theorem advance_uses {B : Step L Op → Prop} (h : p.Uses B) (ha : advance exec t holder x p = some (p', holder', x')) :
    p'.Uses B := by
  cases p with
  | done r => cases ha
  | call o k =>
    cases o with
    | lock l =>
      simp only [advance] at ha
      split at ha
      · cases ha
        exact h.2 ()
      · cases ha
    | unlock l =>
      cases ha
      exact h.2 ()
    | op o =>
      cases ha
      exact h.2 _

end Advance

end Grainlift.Lib.Mutex
