/-
  Grainlift.Lib.LockOrder — locks taken in one order.

  Every lock has a rank. The discipline `climbing rank` reads a program with the set of
  locks it holds as its ghost state: it takes a lock only above all it holds, and gives
  back only what it holds. `advance_climbs`: what a program's text says of it holds of the
  thread that runs it in every interleaving.

  Proved: where threads wait only above what they hold, following who waits for whom leads
  from every thread to one that does not wait (`waits_end`), so nobody waits for himself;
  and a program gets nearer to its end with every step of its thread (`advance_left`),
  however many ways there are to go on (`left_wf`).
-/

import Grainlift.Lib.Mutex
import Mathlib.Logic.Hydra

namespace Grainlift.Lib.Mutex

open Function Relation

variable {L T Op σ ρ τ : Type} {A : Op → Type} {rank : L → Nat} {g : Set L}

/-- Locks in rising rank, each given back by its holder. -/
def climbing (rank : L → Nat) : Discipline (Ans L A) (Set L) where
  allows g
    | .lock l => ∀ m ∈ g, rank m < rank l
    | .unlock l => l ∈ g
    | .op _ => True
  next g
    | .lock l, _ => insert l g
    | .unlock l, _ => g \ {l}
    | .op _, _ => g

/-- The program keeps to the order and ends with the locks it began with. -/
def Climbs (rank : L → Nat) (g : Set L) (p : Prog (Ans L A) ρ) : Prop :=
  (climbing rank).Follows g p fun g' _ => g' = g

theorem climbs_done (r : ρ) : Climbs rank g (.done r : Prog (Ans L A) ρ) := rfl

theorem climbs_ask (o : Op) : Climbs rank g (Prog.ask (.op o) : Prog (Ans L A) _) := ⟨trivial, fun _ => rfl⟩

theorem climbs_bind {p : Prog (Ans L A) ρ} {f : ρ → Prog (Ans L A) τ} (hp : Climbs rank g p)
    (hf : ∀ r, Climbs rank g (f r)) : Climbs rank g (p.bind f) := by
  refine Discipline.follows_bind.mpr (hp.mono ?_)
  intro g' r hg
  subst hg
  exact hf r

theorem climbs_guarded {l : L} {p : Prog (Ans L A) ρ} (hl : ∀ m ∈ g, rank m < rank l)
    (hp : Climbs rank (insert l g) p) : Climbs rank g (guarded l p) := by
  have hnot : l ∉ g := fun hm => lt_irrefl _ (hl l hm)
  refine ⟨hl, fun _ => Discipline.follows_bind.mpr (hp.mono ?_)⟩
  intro g' r hg
  subst hg
  exact ⟨Set.mem_insert l g, fun _ => Set.insert_sdiff_self_of_notMem hnot⟩

theorem climbs_seq {ε α β : Type} {x : Act (Ans L A) ε α} {f : α → Act (Ans L A) ε β} (hx : Climbs rank g x)
    (hf : ∀ a, Climbs rank g (f a)) : Climbs rank g (x >>= f : Act (Ans L A) ε β) := by
  apply climbs_bind hx
  intro r
  cases r with
  | ok a => exact hf a
  | error e => exact climbs_done _

theorem advance_climbs [DecidableEq L] [DecidableEq T] {exec : (o : Op) → σ → A o × σ} {t : T}
    {holder holder' : L → Option T} {x x' : σ} {p p' : Prog (Ans L A) ρ} {post : Set L → ρ → Prop}
    (h : (climbing rank).Follows (heldBy holder t) p post)
    (ha : advance exec t holder x p = some (p', holder', x')) :
    (climbing rank).Follows (heldBy holder' t) p' post := by
  cases p with
  | done r => cases ha
  | call o k =>
    cases o with
    | lock l =>
      simp only [advance] at ha
      split at ha
      · cases ha
        rw [heldBy_take]
        exact h.2 ()
      · cases ha
    | unlock l =>
      cases ha
      rw [heldBy_release]
      exact h.2 ()
    | op o =>
      cases ha
      exact h.2 _

/-! ## Who waits for whom -/

section Waiting

/-- By the lock a thread waits for, and who holds it. -/
def WaitsFor (waits : T → Option L) (holder : L → Option T) (t u : T) : Prop :=
  ∃ l, waits t = some l ∧ holder l = some u

variable {waits : T → Option L} {holder : L → Option T}

theorem waits_end {top : Nat} (htop : ∀ l, rank l ≤ top)
    (habove : ∀ t l m, waits t = some l → holder m = some t → rank m < rank l) (t : T) :
    ∃ u, ReflTransGen (WaitsFor waits holder) t u ∧ ∀ l, waits u = some l → holder l = none := by
  -- the locks along a chain of waits rise in rank, so the chain ends
  have hchain : ∀ n t l, waits t = some l → top - rank l < n →
      ∃ u, ReflTransGen (WaitsFor waits holder) t u ∧ ∀ l, waits u = some l → holder l = none := by
    intro n
    induction n with
    | zero =>
      intro t l hw hn
      omega
    | succ n ih =>
      intro t l hw hn
      cases hl : holder l with
      | none =>
        refine ⟨t, .refl, ?_⟩
        intro m hm
        rw [hw] at hm
        cases hm
        exact hl
      | some u =>
        have hfirst : WaitsFor waits holder t u := ⟨l, hw, hl⟩
        cases hu : waits u with
        | none => exact ⟨u, .single hfirst, fun m hm => by rw [hu] at hm; cases hm⟩
        | some m =>
          have hrise := habove u m l hu hl
          have hm := htop m
          obtain ⟨v, hv, hfree⟩ := ih u m hu (by omega)
          exact ⟨v, .head hfirst hv, hfree⟩
  cases hw : waits t with
  | none => exact ⟨t, .refl, fun m hm => by rw [hw] at hm; cases hm⟩
  | some l => exact hchain (top - rank l + 1) t l hw (by omega)

end Waiting

/-! ## Every step is one less -/

section Left

variable {P : Type} {R : P → Type}

/-- What is left of a program after an answer. -/
def Left (q p : Prog R ρ) : Prop := ∃ o k a, p = .call o k ∧ q = k a

theorem left_wf : WellFounded (Left : Prog R ρ → Prog R ρ → Prop) := by
  refine ⟨fun p => ?_⟩
  induction p with
  | done r =>
    refine ⟨_, fun q h => ?_⟩
    obtain ⟨o, k, a, hp, -⟩ := h
    cases hp
  | call o k ih =>
    refine ⟨_, fun q h => ?_⟩
    obtain ⟨o', k', a, hp, rfl⟩ := h
    cases hp
    exact ih a

/-- A program without its value. -/
def erased (p : Prog R ρ) : Prog R Unit := p.bind fun _ => .done ()

@[simp] theorem erased_call (o : P) (k : R o → Prog R ρ) : erased (.call o k) = .call o fun a => erased (k a) := rfl

theorem climbs_erased {p : Prog (Ans L A) ρ} (h : Climbs rank g p) : Climbs rank g (erased p) :=
  Discipline.follows_bind.mpr h

theorem advance_erased [DecidableEq L] [DecidableEq T] {exec : (o : Op) → σ → A o × σ} {t : T}
    {holder holder' : L → Option T} {x x' : σ} {p p' : Prog (Ans L A) ρ}
    (ha : advance exec t holder x p = some (p', holder', x')) :
    advance exec t holder x (erased p) = some (erased p', holder', x') := by
  cases p with
  | done r => cases ha
  | call o k =>
    cases o with
    | lock l =>
      simp only [erased_call, advance] at ha ⊢
      split at ha
      · rename_i hl
        cases ha
        rw [if_pos hl]
      · cases ha
    | unlock l =>
      cases ha
      rfl
    | op o =>
      cases ha
      rfl

/-- A thread that does not wait and has a step left can take it. -/
theorem advance_isSome [DecidableEq L] [DecidableEq T] (exec : (o : Op) → σ → A o × σ) (t : T)
    {holder : L → Option T} (x : σ) {o : Step L Op} (k : Ans L A o → Prog (Ans L A) ρ)
    (hfree : ∀ l, o = .lock l → holder l = none) :
    ∃ p' holder' x', advance exec t holder x (.call o k) = some (p', holder', x') := by
  cases o with
  | lock l => exact ⟨_, _, _, by simp only [advance, hfree l rfl, if_true]; rfl⟩
  | unlock l => exact ⟨_, _, _, rfl⟩
  | op o => exact ⟨_, _, _, rfl⟩

theorem advance_left [DecidableEq L] [DecidableEq T] {exec : (o : Op) → σ → A o × σ} {t : T}
    {holder holder' : L → Option T} {x x' : σ} {p p' : Prog (Ans L A) ρ}
    (ha : advance exec t holder x p = some (p', holder', x')) : Left p' p := by
  cases p with
  | done r => cases ha
  | call o k =>
    cases o with
    | lock l =>
      simp only [advance] at ha
      split at ha
      · cases ha
        exact ⟨_, k, (), rfl, rfl⟩
      · cases ha
    | unlock l =>
      cases ha
      exact ⟨_, k, (), rfl, rfl⟩
    | op o =>
      cases ha
      exact ⟨_, k, _, rfl, rfl⟩

end Left

end Grainlift.Lib.Mutex
