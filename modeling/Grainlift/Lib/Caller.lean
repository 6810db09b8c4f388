/-
  Grainlift.Lib.Caller — a sequential caller of a machine.

  The caller is a program: each of its operations is a call on the machine, and the next
  one is made when the last was answered. A `Desk` says which event makes a call, under
  which ticket, and when a ticket has its answer. Before a call, while it is served and
  after the last one the machine takes any events it likes, those of other callers among
  them. A call can be lost: it is never made, or made and not answered in time, and the
  caller goes on with what `lost` gives it.

  Proved: a caller's run is one of the machine (`Calls.path`), and a sequence of programs is
  one after the other (`Calls.of_bind`, `Calls.of_seq`, `Calls.of_recover`,
  `Calls.of_lift`).
-/

import Grainlift.Lib.Machine
import Grainlift.Lib.Program

namespace Grainlift.Lib

/-- How a machine takes and answers calls; `κ` is a call's ticket. -/
structure Desk (σ ε κ : Type) {Op : Type} (Ans : Op → Type) where
  begins : σ → (op : Op) → ε → κ → Prop
  answers : σ → κ → (op : Op) → Ans op → Prop
  lost : (op : Op) → Ans op → Prop

section

variable {σ ε κ Op : Type} {Ans : Op → Type} {ρ τ : Type}

/-- From `s` to `t` the caller `p` made its calls, with these tickets, and came to `r`. -/
inductive Calls (M : Machine σ ε) (D : Desk σ ε κ Ans) : σ → Prog Ans ρ → List (Option κ) → ρ → σ → Prop
  | done {s t : σ} {r : ρ} : M.Path (fun _ _ => True) s t → Calls M D s (.done r) [] r t
  | call {s t u w : σ} {op : Op} {f : Ans op → Prog Ans ρ} {e : ε} {k : κ} {a : Ans op} {ks : List (Option κ)} {r : ρ} :
      M.Path (fun _ _ => True) s t → D.begins t op e k → M.Path (fun _ _ => True) (M.step t e) u →
      D.answers u k op a ∨ D.lost op a → Calls M D u (f a) ks r w → Calls M D s (.call op f) (some k :: ks) r w
  | lost {s t w : σ} {op : Op} {f : Ans op → Prog Ans ρ} {a : Ans op} {ks : List (Option κ)} {r : ρ} :
      M.Path (fun _ _ => True) s t → D.lost op a → Calls M D t (f a) ks r w →
      Calls M D s (.call op f) (none :: ks) r w

variable {M : Machine σ ε} {D : Desk σ ε κ Ans} {s t w : σ} {ks : List (Option κ)} {r : ρ}

theorem Calls.path {p : Prog Ans ρ} (h : Calls M D s p ks r w) : M.Path (fun _ _ => True) s w := by
  induction h with
  | done hp => exact hp
  | call hp _ hq _ _ ih => exact ((hp.step _ trivial).trans hq).trans ih
  | lost hp _ _ ih => exact hp.trans ih

/-- What the machine does afterwards is part of the run. -/
theorem Calls.idle {p : Prog Ans ρ} (h : Calls M D s p ks r t) (hp : M.Path (fun _ _ => True) t w) :
    Calls M D s p ks r w := by
  induction h with
  | done hq => exact .done (hq.trans hp)
  | call hq hb hu ha _ ih => exact .call hq hb hu ha (ih hp)
  | lost hq ha _ ih => exact .lost hq ha (ih hp)

theorem Calls.of_bind {p : Prog Ans τ} {f : τ → Prog Ans ρ} (h : Calls M D s (p.bind f) ks r w) :
    ∃ x t ks₁ ks₂, ks = ks₁ ++ ks₂ ∧ Calls M D s p ks₁ x t ∧ Calls M D t (f x) ks₂ r w := by
  induction p generalizing s ks with
  | done x => exact ⟨x, s, [], ks, rfl, .done (.refl s), h⟩
  | call op k ih =>
    cases h with
    | call hp hb hq ha hc =>
      obtain ⟨x, t, ks₁, ks₂, rfl, h₁, h₂⟩ := ih _ hc
      exact ⟨x, t, _, ks₂, rfl, .call hp hb hq ha h₁, h₂⟩
    | lost hp ha hc =>
      obtain ⟨x, t, ks₁, ks₂, rfl, h₁, h₂⟩ := ih _ hc
      exact ⟨x, t, _, ks₂, rfl, .lost hp ha h₁, h₂⟩

section Act

variable {δ ε' α β : Type}

/-- A sequence stops at its first error. -/
theorem Calls.of_seq {x : Act Ans ε' α} {f : α → Act Ans ε' β} {r : Except ε' β}
    (h : Calls M D s (x >>= f : Act Ans ε' β) ks r w) :
    (∃ a t ks₁ ks₂, ks = ks₁ ++ ks₂ ∧ Calls M D s x ks₁ (.ok a) t ∧ Calls M D t (f a) ks₂ r w) ∨
    ∃ e, r = .error e ∧ Calls M D s x ks (.error e) w := by
  obtain ⟨a, t, ks₁, ks₂, rfl, h₁, h₂⟩ := Calls.of_bind h
  cases a with
  | ok a => exact .inl ⟨a, t, ks₁, ks₂, rfl, h₁, h₂⟩
  | error e =>
    cases h₂ with
    | done hp =>
      rw [List.append_nil]
      exact .inr ⟨e, rfl, h₁.idle hp⟩

theorem Calls.of_recover {x : Act Ans ε' α} {f : ε' → Act Ans δ α} {r : Except δ α}
    (h : Calls M D s (x.recover f) ks r w) :
    (∃ a, r = .ok a ∧ Calls M D s x ks (.ok a) w) ∨
    ∃ e t ks₁ ks₂, ks = ks₁ ++ ks₂ ∧ Calls M D s x ks₁ (.error e) t ∧ Calls M D t (f e) ks₂ r w := by
  obtain ⟨a, t, ks₁, ks₂, rfl, h₁, h₂⟩ := Calls.of_bind h
  cases a with
  | error e => exact .inr ⟨e, t, ks₁, ks₂, rfl, h₁, h₂⟩
  | ok a =>
    cases h₂ with
    | done hp =>
      rw [List.append_nil]
      exact .inl ⟨a, rfl, h₁.idle hp⟩

/-- A step that makes no call. -/
theorem Calls.of_lift {x : Except ε' α} {f : α → Act Ans ε' β} {r : Except ε' β}
    (h : Calls M D s (liftM x >>= f : Act Ans ε' β) ks r w) :
    (∃ a, x = .ok a ∧ Calls M D s (f a) ks r w) ∨
    ∃ e, x = .error e ∧ r = .error e ∧ ks = [] ∧ M.Path (fun _ _ => True) s w := by
  cases x with
  | ok a => exact .inl ⟨a, rfl, h⟩
  | error e =>
    cases h with
    | done hp => exact .inr ⟨e, rfl, rfl, rfl, hp⟩

end Act

end

end Grainlift.Lib
