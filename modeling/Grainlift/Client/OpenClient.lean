/-
  Grainlift.Client.OpenClient — the callers of the pool
  (`open_client`, `PooledClient`; adbc-driver-grainlift/src/iroh_pool.rs).

  A caller acquires the connection of its key and opens a stream on it. If the stream
  cannot be opened the connection may be dead: the caller invalidates its slot, lets it go,
  and tries once more. If that fails too, or an acquire does, it has failed. The lease is
  the slot, and is kept as long as the stream.

  They are the pool's only callers, so the drops and invalidations of a run are theirs; the
  steps of their acquires interleave in any order. A stream opens or not as the peer
  decides.

  Proved: the two attempts of a caller are on different slots (`retries_elsewhere`); a
  connection that somebody has, and that no caller gave up, is the one every acquire of its
  key finds (`connection_shared`); a lease keeps its connection (`lease_holds`); why a
  caller failed (`failed_why`); there are at most two acquires a caller (`acquires_le`); and
  so of every run (`callers_served`).
-/

import Grainlift.Client.Pool

namespace Grainlift.Client.OpenClient

open Grainlift.Lib

/-! ## Callers -/

inductive Stage (E : Type) where
  /-- In its acquire, or opening the stream; `first` is the acquire of the first attempt, if
      this is the second. -/
  | attempt (first : Option Nat)
  /-- The first stream could not be opened. -/
  | broken
  | evicted
  | dropped
  | leased (first : Option Nat)
  | closed (first : Option Nat)
  | failed (first : Option Nat) (error : E)

/-- `call` is its acquire, by number. -/
structure Caller (K E : Type) where
  key : K
  call : Nat
  stage : Stage E

structure St (K V E : Type) where
  pool : Pool.St K V E
  callers : List (Caller K E)

inductive Ev (K V E : Type) where
  | call (key : K)
  /-- A step of an acquire. -/
  | acquire (e : Pool.Ev K V E)
  /-- The stream of caller `i` was opened, or not. -/
  | opened (i : Nat) (result : Except E Unit)
  /-- The acquire of caller `i` returned an error. -/
  | refused (i : Nat)
  | invalidate (i : Nat)
  | drop (i : Nat)
  | retry (i : Nat)
  /-- The lease of caller `i` is dropped. -/
  | close (i : Nat)

section

variable {K V E : Type}

def Stage.first : Stage E → Option Nat
  | .attempt first | .leased first | .closed first | .failed first _ => first
  | .broken | .evicted | .dropped => none

/-- The acquire whose slot it has invalidated. -/
def Caller.gaveUp (c : Caller K E) : Option Nat :=
  match c.stage with
  | .evicted | .dropped => some c.call
  | _ => c.stage.first

def Caller.triedAgain (c : Caller K E) : Bool := c.stage.first.isSome

/-- Whether it has its slot, its acquire having returned. -/
def Stage.keeps : Stage E → Bool
  | .broken | .evicted | .leased _ => true
  | _ => false

/-- The steps of an acquire that has been called. -/
def inAcquire : Pool.Ev K V E → Bool
  | .lock _ | .check _ _ | .look _ | .begin _ | .finish _ _ | .take _ => true
  | .ask _ | .drop _ | .invalidate _ _ => false

variable [DecidableEq K]

/-- The pool, after what a caller's turn does to it. -/
def after (p : Pool.St K V E) : Option (Pool.Ev K V E) → Pool.St K V E
  | none => p
  | some e => Pool.step p e

def St.turns (s : St K V E) (i : Nat) (c : Caller K E) (e : Option (Pool.Ev K V E)) : St K V E :=
  ⟨after s.pool e, s.callers.set i c⟩

def next (s : St K V E) : Ev K V E → Option (St K V E)
  | .call key => some ⟨Pool.step s.pool (.ask key), s.callers ++ [⟨key, s.pool.calls.length, .attempt none⟩]⟩
  | .acquire e => if inAcquire e then some { s with pool := Pool.step s.pool e } else none
  | .opened i result => do
    let c ← s.callers[i]?
    let a ← s.pool.calls[c.call]?
    match c.stage, a.stage, result with
    | .attempt first, .returned _ _, .ok () => some (s.turns i { c with stage := .leased first } none)
    | .attempt none, .returned _ _, .error _ => some (s.turns i { c with stage := .broken } none)
    | .attempt (some call), .returned _ _, .error e =>
      some (s.turns i { c with stage := .failed (some call) e } (some (.drop c.call)))
    | _, _, _ => none
  | .refused i => do
    let c ← s.callers[i]?
    let a ← s.pool.calls[c.call]?
    match c.stage, a.stage with
    | .attempt first, .failed _ e => some (s.turns i { c with stage := .failed first e } none)
    | _, _ => none
  | .invalidate i => do
    let c ← s.callers[i]?
    match c.stage with
    | .broken =>
      if s.pool.free then some (s.turns i { c with stage := .evicted } (some (.invalidate c.key c.call))) else none
    | _ => none
  | .drop i => do
    let c ← s.callers[i]?
    match c.stage with
    | .evicted => some (s.turns i { c with stage := .dropped } (some (.drop c.call)))
    | _ => none
  | .retry i => do
    let c ← s.callers[i]?
    match c.stage with
    | .dropped =>
      some (s.turns i ⟨c.key, s.pool.calls.length, .attempt (some c.call)⟩ (some (.ask c.key)))
    | _ => none
  | .close i => do
    let c ← s.callers[i]?
    match c.stage with
    | .leased first => some (s.turns i { c with stage := .closed first } (some (.drop c.call)))
    | _ => none

def step (s : St K V E) (e : Ev K V E) : St K V E := (next s e).getD s

def machine (K V E : Type) [DecidableEq K] : Machine (St K V E) (Ev K V E) where
  init s := s = ⟨⟨∅, [], [], []⟩, []⟩
  step := step

end

/-! ## What a step can do -/

section

variable {K V E : Type} [DecidableEq K] {p : Pool.St K V E} {s t : St K V E} {c d : Caller K E}

/-- A caller's turn: what it is then, and what it does to the pool. -/
inductive Turn (p : Pool.St K V E) : Caller K E → Caller K E → Option (Pool.Ev K V E) → Prop
  | opened {k : K} {n σ : Nat} {v : V} {first : Option Nat} {a : Pool.Call K V E} : p.calls[n]? = some a →
      a.stage = .returned σ v → Turn p ⟨k, n, .attempt first⟩ ⟨k, n, .leased first⟩ none
  | broke {k : K} {n σ : Nat} {v : V} {a : Pool.Call K V E} : p.calls[n]? = some a →
      a.stage = .returned σ v → Turn p ⟨k, n, .attempt none⟩ ⟨k, n, .broken⟩ none
  | gaveUp {k : K} {n l σ : Nat} {v : V} {e : E} {a : Pool.Call K V E} : p.calls[n]? = some a →
      a.stage = .returned σ v → Turn p ⟨k, n, .attempt (some l)⟩ ⟨k, n, .failed (some l) e⟩ (some (.drop n))
  | refused {k : K} {n σ : Nat} {e : E} {first : Option Nat} {a : Pool.Call K V E} : p.calls[n]? = some a →
      a.stage = .failed σ e → Turn p ⟨k, n, .attempt first⟩ ⟨k, n, .failed first e⟩ none
  | invalidated {k : K} {n : Nat} : p.free = true →
      Turn p ⟨k, n, .broken⟩ ⟨k, n, .evicted⟩ (some (.invalidate k n))
  | dropped {k : K} {n : Nat} : Turn p ⟨k, n, .evicted⟩ ⟨k, n, .dropped⟩ (some (.drop n))
  | retried {k : K} {n : Nat} :
      Turn p ⟨k, n, .dropped⟩ ⟨k, p.calls.length, .attempt (some n)⟩ (some (.ask k))
  | closed {k : K} {n : Nat} {first : Option Nat} :
      Turn p ⟨k, n, .leased first⟩ ⟨k, n, .closed first⟩ (some (.drop n))

inductive Moved (s : St K V E) : St K V E → Prop
  | called (k : K) :
      Moved s ⟨Pool.step s.pool (.ask k), s.callers ++ [⟨k, s.pool.calls.length, .attempt none⟩]⟩
  | acquired {e : Pool.Ev K V E} : inAcquire e = true → Moved s { s with pool := Pool.step s.pool e }
  | turned {i : Nat} {c d : Caller K E} {e : Option (Pool.Ev K V E)} : s.callers[i]? = some c →
      Turn s.pool c d e → Moved s (s.turns i d e)

theorem step_moved (s : St K V E) (e : Ev K V E) : step s e = s ∨ Moved s (step s e) := by
  unfold step
  cases hn : next s e with
  | none => exact .inl rfl
  | some s' =>
    right
    show Moved s s'
    cases e with
    | call k =>
      cases hn
      exact .called k
    | acquire e =>
      simp only [next] at hn
      split at hn
      case isFalse => cases hn
      case isTrue he =>
        cases hn
        exact .acquired he
    | opened i r =>
      obtain ⟨⟨k, n, stage⟩, hc, hn⟩ := Option.bind_eq_some_iff.mp hn
      obtain ⟨a, ha, hn⟩ := Option.bind_eq_some_iff.mp hn
      split at hn
      case h_4 => cases hn
      case h_1 hstage hret _ _ =>
        cases hn
        cases hstage
        exact .turned hc (.opened ha hret)
      case h_2 hstage hret _ _ =>
        cases hn
        cases hstage
        exact .turned hc (.broke ha hret)
      case h_3 hstage hret _ _ =>
        cases hn
        cases hstage
        exact .turned hc (.gaveUp ha hret)
    | refused i =>
      obtain ⟨⟨k, n, stage⟩, hc, hn⟩ := Option.bind_eq_some_iff.mp hn
      obtain ⟨a, ha, hn⟩ := Option.bind_eq_some_iff.mp hn
      split at hn
      case h_2 => cases hn
      case h_1 hstage hfail =>
        cases hn
        cases hstage
        exact .turned hc (.refused ha hfail)
    | invalidate i =>
      obtain ⟨⟨k, n, stage⟩, hc, hn⟩ := Option.bind_eq_some_iff.mp hn
      split at hn
      case h_2 => cases hn
      case h_1 hstage =>
        split at hn
        case isFalse => cases hn
        case isTrue hfree =>
          cases hn
          cases hstage
          exact .turned hc (.invalidated hfree)
    | drop i =>
      obtain ⟨⟨k, n, stage⟩, hc, hn⟩ := Option.bind_eq_some_iff.mp hn
      split at hn
      case h_2 => cases hn
      case h_1 hstage =>
        cases hn
        cases hstage
        exact .turned hc .dropped
    | retry i =>
      obtain ⟨⟨k, n, stage⟩, hc, hn⟩ := Option.bind_eq_some_iff.mp hn
      split at hn
      case h_2 => cases hn
      case h_1 hstage =>
        cases hn
        cases hstage
        exact .turned hc .retried
    | close i =>
      obtain ⟨⟨k, n, stage⟩, hc, hn⟩ := Option.bind_eq_some_iff.mp hn
      split at hn
      case h_2 => cases hn
      case h_1 hstage =>
        cases hn
        cases hstage
        exact .turned hc .closed

end

/-! ## What the pool keeps -/

section

variable {K V E : Type} [DecidableEq K] {p : Pool.St K V E} {c : Caller K E} {i n σ : Nat} {k : K}

theorem after_path (p : Pool.St K V E) (e : Option (Pool.Ev K V E)) :
    (Pool.machine K V E).Path (fun _ _ => True) p (after p e) := by
  cases e with
  | none => exact .refl p
  | some e => exact (Machine.Path.refl p).step e trivial

/-- Who was given a slot has it until it drops it. -/
theorem step_returned {a : Pool.Call K V E} {v : V} (ha : p.calls[n]? = some a) (hs : a.stage = .returned σ v)
    {e : Pool.Ev K V E} (hne : e ≠ .drop n) : (Pool.step p e).calls[n]? = some a := by
  rcases Pool.step_moved p e with heq | h
  · rw [heq]
    exact ha
  · exact h.returned_kept ha hs hne

/-- The slot of acquire `n` is not the entry of the caller's key, and not the slot of its
    second attempt. -/
def Avoids (p : Pool.St K V E) (c : Caller K E) (n : Nat) : Prop :=
  ∃ a σ, p.calls[n]? = some a ∧ a.stage.slot = some σ ∧ p.entries.lookup c.key ≠ some σ ∧
    (c.stage.first = some n → ∃ b, p.calls[c.call]? = some b ∧ b.key = c.key ∧ b.stage.slot ≠ some σ)

theorem Avoids.step (hi : Pool.Inv p) (h : Avoids p c n) (e : Pool.Ev K V E) : Avoids (Pool.step p e) c n := by
  rcases Pool.step_moved p e with heq | hm
  · rw [heq]
    exact h
  obtain ⟨a, σ, ha, hσ, hne, hsecond⟩ := h
  obtain ⟨slot, hslot, -⟩ := hi.looked n a σ ha hσ
  obtain ⟨a', ha', -, hkept⟩ := hm.call_kept ha
  have hne' : (Pool.step p e).entries.lookup c.key ≠ some σ :=
    Pool.path_gone ((Machine.Path.refl p).step e trivial) hslot hne
  refine ⟨a', σ, ha', hkept σ hσ, hne', ?_⟩
  intro hf
  obtain ⟨b, hb, hk, hbσ⟩ := hsecond hf
  obtain ⟨b', hb', hk', -⟩ := hm.call_kept hb
  refine ⟨b', hb', hk'.trans hk, ?_⟩
  intro hbσ'
  rcases hm.lookup_back hb' hbσ' with ⟨b0, hb0, -, hσ0⟩ | hl
  · obtain rfl : b0 = b := Option.some.inj (hb0.symm.trans hb)
    exact hbσ hσ0
  · rw [hk', hk] at hl
    exact hne' hl

theorem Avoids.of_eq {d : Caller K E} (h : Avoids p c n) (hk : c.key = d.key) (hc : c.call = d.call)
    (hf : c.stage.first = d.stage.first) : Avoids p d n := by
  unfold Avoids at h ⊢
  rwa [← hk, ← hc, ← hf]

theorem Avoids.after (hi : Pool.Inv p) (h : Avoids p c n) (e : Option (Pool.Ev K V E)) : Avoids (after p e) c n := by
  cases e with
  | none => exact h
  | some e => exact h.step hi e

/-- The initializer of a slot of this key failed. -/
def Refused (p : Pool.St K V E) (k : K) (err : E) : Prop :=
  ∃ (σ : Nat) (slot : Pool.Slot K V E) (m : Nat), p.slots[σ]? = some slot ∧ slot.key = k ∧
    slot.cell = .ready m (.error err)

theorem Refused.after {err : E} (h : Refused p k err) (e : Option (Pool.Ev K V E)) : Refused (after p e) k err := by
  cases e with
  | none => exact h
  | some e =>
    rcases Pool.step_moved p e with heq | hm
    · show Refused (Pool.step p e) k err
      rwa [heq]
    · obtain ⟨σ, slot, m, hslot, hk, hcell⟩ := h
      obtain ⟨slot', hslot', hk', -, hready⟩ := hm.slot_kept hslot
      exact ⟨σ, slot', m, hslot', hk'.trans hk, hready m _ hcell⟩

/-- A slot that is held stays the entry of its key, unless its holder invalidates it. -/
theorem step_shared {slot : Pool.Slot K V E} {e : Pool.Ev K V E}
    (hs : (Pool.step p e).slots[σ]? = some slot) (hh : Pool.Held (Pool.step p e) σ)
    (hspare : Pool.Spares slot.key σ p e)
    (hold : ∀ slot0, p.slots[σ]? = some slot0 → Pool.Held p σ → p.entries.lookup slot0.key = some σ) :
    (Pool.step p e).entries.lookup slot.key = some σ := by
  rcases Pool.step_moved p e with heq | hm
  · rw [heq] at hs hh ⊢
    exact hold slot hs hh
  rcases hm.slot_back hs with ⟨slot0, hs0, hk, -⟩ | ⟨-, -, hl⟩
  · have hh0 : Pool.Held p σ := by
      rcases hm.held hh with hh | heq
      · exact hh
      · have hlt := (List.getElem?_eq_some_iff.mp hs0).1
        omega
    have hl := hold slot0 hs0 hh0
    rw [hk] at hl
    exact hm.entry_kept hl hh0 hspare
  · exact hl

end

/-! ## The invariant -/

section

variable {K V E : Type} [DecidableEq K] {s t : St K V E} {c d : Caller K E} {e : Option (Pool.Ev K V E)} {i n σ : Nat}

/-- Somebody gave the slot up. -/
def GivenUp (s : St K V E) (σ : Nat) : Prop :=
  ∃ (i : Nat) (c : Caller K E) (n : Nat) (a : Pool.Call K V E), s.callers[i]? = some c ∧ c.gaveUp = some n ∧
    s.pool.calls[n]? = some a ∧ a.stage.slot = some σ

structure Inv (s : St K V E) : Prop where
  pool : (Pool.machine K V E).Reach s.pool
  owned : ∀ (i : Nat) (c : Caller K E), s.callers[i]? = some c → ∃ a, s.pool.calls[c.call]? = some a ∧ a.key = c.key
  apart : ∀ (i j : Nat) (c d : Caller K E), s.callers[i]? = some c → s.callers[j]? = some d → c.call = d.call → i = j
  keeps : ∀ (i : Nat) (c : Caller K E), s.callers[i]? = some c → c.stage.keeps = true →
    ∃ a σ v, s.pool.calls[c.call]? = some a ∧ a.stage = .returned σ v
  avoids : ∀ (i : Nat) (c : Caller K E) n, s.callers[i]? = some c → c.gaveUp = some n → Avoids s.pool c n
  /-- A slot that is held and that nobody gave up is the entry of its key. -/
  shared : ∀ σ slot, s.pool.slots[σ]? = some slot → Pool.Held s.pool σ →
    s.pool.entries.lookup slot.key = some σ ∨ GivenUp s σ
  /-- Who failed at its first attempt has the error of its connection. -/
  why : ∀ (i : Nat) (c : Caller K E) (e : E), s.callers[i]? = some c → c.stage = .failed none e →
    Refused s.pool c.key e
  /-- One acquire a caller, and another one if it tried again. -/
  count : s.pool.calls.length = s.callers.length + s.callers.countP Caller.triedAgain

omit [DecidableEq K] in
theorem Turn.call {p : Pool.St K V E} (h : Turn p c d e) :
    d.key = c.key ∧ (d.call = c.call ∨ d.call = p.calls.length ∧ e = some (.ask c.key)) := by
  cases h with
  | retried => exact ⟨rfl, .inr ⟨rfl, rfl⟩⟩
  | opened | broke | gaveUp | refused | invalidated | dropped | closed => exact ⟨rfl, .inl rfl⟩

omit [DecidableEq K] in
/-- Who asks again had not asked again before; nobody else asks. -/
theorem Turn.first {p : Pool.St K V E} (h : Turn p c d e) :
    (d.stage.first = c.stage.first ∧ ∀ k, e ≠ some (.ask k)) ∨
      (c.stage.first = none ∧ d.stage.first = some c.call ∧ e = some (.ask c.key)) := by
  cases h with
  | retried => exact .inr ⟨rfl, rfl, rfl⟩
  | opened | broke | gaveUp | refused | invalidated | dropped | closed => exact .inl ⟨rfl, by simp⟩

theorem asked_call (p : Pool.St K V E) (k : K) :
    (Pool.step p (.ask k)).calls[p.calls.length]? = some ⟨k, .asked⟩ := List.getElem?_concat_length

theorem moved_owned (hi : Inv s) (h : Moved s t) (hd : t.callers[i]? = some d) :
    ∃ a, t.pool.calls[d.call]? = some a ∧ a.key = d.key := by
  have hkept : ∀ {p : Pool.St K V E} {c : Caller K E} {j : Nat},
      (Pool.machine K V E).Path (fun _ _ => True) s.pool p → s.callers[j]? = some c →
      ∃ a, p.calls[c.call]? = some a ∧ a.key = c.key := by
    intro p c j hp hc
    obtain ⟨a, ha, hk⟩ := hi.owned j c hc
    obtain ⟨a', ha', hk', -⟩ := Pool.path_call hp ha
    exact ⟨a', ha', hk'.trans hk⟩
  cases h with
  | called k =>
    rcases getElem?_snoc_cases hd with hd | ⟨-, rfl⟩
    · exact hkept (after_path s.pool (some (.ask k))) hd
    · exact ⟨_, asked_call s.pool k, rfl⟩
  | acquired => exact hkept (after_path s.pool (some _)) hd
  | turned hc hturn =>
    rcases getElem?_set_cases hd with ⟨rfl, rfl⟩ | ⟨-, hd⟩
    · obtain ⟨hk, hcall | ⟨hcall, rfl⟩⟩ := hturn.call
      · rw [hcall, hk]
        exact hkept (after_path s.pool _) hc
      · rw [hcall, hk]
        exact ⟨_, asked_call s.pool _, rfl⟩
    · exact hkept (after_path s.pool _) hd

/-- A caller was at its acquire before, or is the only one with a new one. -/
theorem Moved.caller_back (h : Moved s t) (hd : t.callers[i]? = some d) :
    (∃ c, s.callers[i]? = some c ∧ c.call = d.call) ∨
      d.call = s.pool.calls.length ∧ ∀ (j : Nat) (c : Caller K E), j ≠ i → t.callers[j]? = some c →
        s.callers[j]? = some c := by
  cases h with
  | called k =>
    rcases getElem?_snoc_cases hd with hd | ⟨rfl, rfl⟩
    · exact .inl ⟨d, hd, rfl⟩
    · refine .inr ⟨rfl, ?_⟩
      intro j c hj hc
      rcases getElem?_snoc_cases hc with hc | ⟨rfl, -⟩
      · exact hc
      · exact absurd rfl hj
  | acquired => exact .inl ⟨d, hd, rfl⟩
  | turned hc hturn =>
    rcases getElem?_set_cases hd with ⟨rfl, rfl⟩ | ⟨-, hd⟩
    · obtain ⟨-, hcall | ⟨hcall, -⟩⟩ := hturn.call
      · exact .inl ⟨_, hc, hcall.symm⟩
      · refine .inr ⟨hcall, ?_⟩
        intro j c hj hc'
        rcases getElem?_set_cases hc' with ⟨rfl, -⟩ | ⟨-, hc'⟩
        · exact absurd rfl hj
        · exact hc'
    · exact .inl ⟨d, hd, rfl⟩

theorem moved_apart (hi : Inv s) (h : Moved s t) {j : Nat} (hc : t.callers[i]? = some c) (hd : t.callers[j]? = some d)
    (heq : c.call = d.call) : i = j := by
  have hold : ∀ {j : Nat} {d : Caller K E}, s.callers[j]? = some d → d.call ≠ s.pool.calls.length := by
    intro j d hd
    obtain ⟨a, ha, -⟩ := hi.owned j d hd
    exact Nat.ne_of_lt (List.getElem?_eq_some_iff.mp ha).1
  by_contra hne
  rcases h.caller_back hc with ⟨c0, hc0, hcall⟩ | ⟨hnew, hothers⟩
  · rcases h.caller_back hd with ⟨d0, hd0, hcall'⟩ | ⟨hnew, -⟩
    · exact hne (hi.apart i j c0 d0 hc0 hd0 (hcall.trans (heq.trans hcall'.symm)))
    · exact hold hc0 (hcall.trans (heq.trans hnew))
  · exact hold (hothers j d (Ne.symm hne) hd) (heq.symm.trans hnew)

/-- A turn that drops a slot is of the caller who has it. -/
theorem moved_keeps (hi : Inv s) (h : Moved s t) (hd : t.callers[i]? = some d) (hk : d.stage.keeps = true) :
    ∃ a σ v, t.pool.calls[d.call]? = some a ∧ a.stage = .returned σ v := by
  have hkept : ∀ {c : Caller K E} {j : Nat} {e : Pool.Ev K V E}, s.callers[j]? = some c → c.stage.keeps = true →
      e ≠ .drop c.call → ∃ a σ v, (Pool.step s.pool e).calls[c.call]? = some a ∧ a.stage = .returned σ v := by
    intro c j e hc hkeeps hne
    obtain ⟨a, σ, v, ha, hs⟩ := hi.keeps j c hc hkeeps
    exact ⟨a, σ, v, step_returned ha hs hne, hs⟩
  cases h with
  | called k =>
    rcases getElem?_snoc_cases hd with hd | ⟨-, rfl⟩
    · exact hkept hd hk (by simp)
    · cases hk
  | acquired he =>
    refine hkept hd hk ?_
    intro heq
    rw [heq] at he
    cases he
  | turned hc hturn =>
    rename_i j c d' e
    rcases getElem?_set_cases hd with ⟨rfl, rfl⟩ | ⟨hne, hd0⟩
    · cases hturn with
      | opened ha hs => exact ⟨_, _, _, ha, hs⟩
      | broke ha hs => exact ⟨_, _, _, ha, hs⟩
      | @invalidated k m hf =>
        have hret := hkept (e := .invalidate k m) hc rfl (by simp)
        exact hret
      | gaveUp | refused | dropped | retried | closed => cases hk
    · have hcall : c.call ≠ d.call := by
        intro heq
        exact hne (hi.apart j i c d hc hd0 heq).symm
      cases hturn with
      | opened | broke | refused => exact hi.keeps i d hd0 hk
      | gaveUp | dropped | closed =>
        refine hkept hd0 hk ?_
        intro heq
        cases heq
        exact hcall rfl
      | invalidated | retried => exact hkept hd0 hk (by simp)

theorem turn_avoids (hi : Inv s) (hc : s.callers[i]? = some c) (h : Turn s.pool c d e) (hn : d.gaveUp = some n) :
    Avoids (after s.pool e) d n := by
  have hp := Pool.reach_inv hi.pool
  cases h with
  | broke => cases hn
  | opened | refused => exact (hi.avoids i _ n hc hn).of_eq rfl rfl rfl
  | gaveUp | dropped | closed => exact ((hi.avoids i _ n hc hn).step hp _).of_eq rfl rfl rfl
  | invalidated hf =>
    cases hn
    obtain ⟨a, σ, v, ha, hs⟩ := hi.keeps i _ hc rfl
    refine ⟨a, σ, step_returned ha hs (by simp), by rw [hs]; rfl, Pool.invalidate_gone ha hs hf, ?_⟩
    intro hf
    cases hf
  | retried =>
    cases hn
    obtain ⟨a, σ, ha, hσ, hne, -⟩ := (hi.avoids i _ _ hc rfl).step hp (.ask _)
    refine ⟨a, σ, ha, hσ, hne, ?_⟩
    intro _
    refine ⟨_, asked_call s.pool _, rfl, ?_⟩
    intro hσ
    cases hσ

theorem moved_avoids (hi : Inv s) (h : Moved s t) (hd : t.callers[i]? = some d) (hn : d.gaveUp = some n) :
    Avoids t.pool d n := by
  have hp := Pool.reach_inv hi.pool
  cases h with
  | called k =>
    rcases getElem?_snoc_cases hd with hd | ⟨-, rfl⟩
    · exact (hi.avoids i d n hd hn).step hp _
    · cases hn
  | acquired => exact (hi.avoids i d n hd hn).step hp _
  | turned hc hturn =>
    rcases getElem?_set_cases hd with ⟨rfl, rfl⟩ | ⟨-, hd⟩
    · exact turn_avoids hi hc hturn hn
    · exact (hi.avoids i d n hd hn).after hp _

omit [DecidableEq K] in
theorem Turn.gaveUp_kept {p : Pool.St K V E} (h : Turn p c d e) (hn : c.gaveUp = some n) : d.gaveUp = some n := by
  cases h with
  | opened | gaveUp | refused | dropped | retried | closed => exact hn
  | broke | invalidated => cases hn

theorem Moved.givenUp_kept (h : Moved s t) (hg : GivenUp s σ) : GivenUp t σ := by
  obtain ⟨i, c, n, a, hc, hn, ha, hσ⟩ := hg
  have hcall : ∀ {p : Pool.St K V E}, (Pool.machine K V E).Path (fun _ _ => True) s.pool p →
      ∃ b, p.calls[n]? = some b ∧ b.stage.slot = some σ := by
    intro p hp
    obtain ⟨b, hb, -, hkept⟩ := Pool.path_call hp ha
    exact ⟨b, hb, hkept σ hσ⟩
  cases h with
  | called k =>
    obtain ⟨b, hb, hbσ⟩ := hcall (after_path s.pool (some (.ask k)))
    exact ⟨i, c, n, b, getElem?_snoc_of_some hc, hn, hb, hbσ⟩
  | acquired =>
    obtain ⟨b, hb, hbσ⟩ := hcall (after_path s.pool (some _))
    exact ⟨i, c, n, b, hc, hn, hb, hbσ⟩
  | turned hc' hturn =>
    rename_i j c' d e
    obtain ⟨b, hb, hbσ⟩ := hcall (after_path s.pool e)
    by_cases hj : j = i
    · subst hj
      obtain rfl : c' = c := Option.some.inj (hc'.symm.trans hc)
      exact ⟨j, d, n, b, getElem?_set_of_some hc', hturn.gaveUp_kept hn, hb, hbσ⟩
    · exact ⟨i, c, n, b, (List.getElem?_set_ne hj).trans hc, hn, hb, hbσ⟩

theorem moved_shared (hi : Inv s) (h : Moved s t) {slot : Pool.Slot K V E} (hs : t.pool.slots[σ]? = some slot)
    (hh : Pool.Held t.pool σ) : t.pool.entries.lookup slot.key = some σ ∨ GivenUp t σ := by
  by_cases hg : GivenUp t σ
  · exact .inr hg
  left
  have hold : ∀ slot0, s.pool.slots[σ]? = some slot0 → Pool.Held s.pool σ →
      s.pool.entries.lookup slot0.key = some σ := by
    intro slot0 hs0 hh0
    rcases hi.shared σ slot0 hs0 hh0 with hl | hg0
    · exact hl
    · exact absurd (h.givenUp_kept hg0) hg
  have hspare : ∀ {p : Pool.St K V E} {e : Pool.Ev K V E}, (∀ k n, e ≠ .invalidate k n) →
      Pool.Spares slot.key σ p e := by
    intro p e he j a v heq
    exact absurd heq (he _ _)
  cases h with
  | called k => exact step_shared hs hh (hspare (by simp)) hold
  | acquired he =>
    refine step_shared hs hh (hspare ?_) hold
    intro k n heq
    rw [heq] at he
    cases he
  | turned hc hturn =>
    rename_i j c d e
    cases hturn with
    | opened | broke | refused => exact hold slot hs hh
    | gaveUp | dropped | retried | closed => exact step_shared hs hh (hspare (by simp)) hold
    | invalidated hf =>
      -- if it is the slot of the caller, the caller gave it up
      refine step_shared hs hh ?_ hold
      intro n' a v heq ha hret
      cases heq
      refine hg ⟨j, _, _, a, getElem?_set_of_some hc, rfl, ?_, by rw [hret]; rfl⟩
      exact step_returned ha hret (by simp)

theorem moved_why (hi : Inv s) (h : Moved s t) {err : E} (hd : t.callers[i]? = some d)
    (hs : d.stage = .failed none err) : Refused t.pool d.key err := by
  cases h with
  | called k =>
    rcases getElem?_snoc_cases hd with hd | ⟨-, rfl⟩
    · exact (hi.why i d err hd hs).after (some (.ask k))
    · cases hs
  | acquired => exact (hi.why i d err hd hs).after (some _)
  | turned hc hturn =>
    rcases getElem?_set_cases hd with ⟨rfl, rfl⟩ | ⟨-, hd0⟩
    · cases hturn with
      | refused ha hfail =>
        cases hs
        have hp := Pool.reach_inv hi.pool
        obtain ⟨slot, m, hslot, hcell⟩ := hp.outcome _ _ _ (.error err) ha (by rw [hfail]; rfl)
        obtain ⟨slot', hslot', hk⟩ := hp.looked _ _ _ ha (by rw [hfail]; rfl)
        obtain rfl : slot' = slot := Option.some.inj (hslot'.symm.trans hslot)
        obtain ⟨a, ha', hka⟩ := hi.owned i _ hc
        obtain rfl := Option.some.inj (ha'.symm.trans ha)
        exact ⟨_, slot', m, hslot', hk.trans hka, hcell⟩
      | gaveUp | opened | broke | invalidated | dropped | retried | closed => cases hs
    · exact (hi.why i d err hd0 hs).after _

theorem length_ask (p : Pool.St K V E) (k : K) : (Pool.step p (.ask k)).calls.length = p.calls.length + 1 :=
  List.length_append

theorem moved_count (hi : Inv s) (h : Moved s t) :
    t.pool.calls.length = t.callers.length + t.callers.countP Caller.triedAgain := by
  have hcount := hi.count
  cases h with
  | called k =>
    show (Pool.step s.pool (.ask k)).calls.length = _
    rw [length_ask, List.length_append, List.countP_append, List.countP_singleton]
    simp only [Caller.triedAgain, Stage.first, Option.isSome_none, List.length_singleton, Bool.false_eq_true, if_false]
    omega
  | acquired he =>
    show (Pool.step s.pool _).calls.length = _
    rw [Pool.length_calls]
    · exact hcount
    · intro k heq
      rw [heq] at he
      cases he
  | turned hc hturn =>
    rename_i i c d e
    have hset := countP_set_of_some Caller.triedAgain hc d
    show (after s.pool e).calls.length = (s.callers.set i d).length + (s.callers.set i d).countP Caller.triedAgain
    rw [List.length_set]
    rcases hturn.first with ⟨hfirst, hask⟩ | ⟨hnone, hsome, rfl⟩
    · have hlen : (after s.pool e).calls.length = s.pool.calls.length := by
        cases e with
        | none => rfl
        | some e => exact Pool.length_calls e fun k heq => hask k (congrArg some heq)
      have hsame : d.triedAgain = c.triedAgain := congrArg Option.isSome hfirst
      rw [hsame] at hset
      omega
    · have hbefore : c.triedAgain = false := congrArg Option.isSome hnone
      have hafter : d.triedAgain = true := congrArg Option.isSome hsome
      rw [hbefore, hafter] at hset
      show (Pool.step s.pool (.ask c.key)).calls.length = _
      rw [length_ask]
      simp only [Bool.toNat_false, Bool.toNat_true] at hset
      omega

theorem step_inv (hi : Inv s) (e : Ev K V E) : Inv (step s e) := by
  rcases step_moved s e with heq | h
  · rw [heq]
    exact hi
  · exact {
      pool := by
        generalize step s e = t at h
        cases h with
        | called | acquired => exact hi.pool.next _
        | turned => exact hi.pool.extend (after_path s.pool _)
      owned := fun i d hd => moved_owned hi h hd
      apart := fun i j c d hc hd heq => moved_apart hi h hc hd heq
      keeps := fun i d hd hk => moved_keeps hi h hd hk
      avoids := fun i d n hd hn => moved_avoids hi h hd hn
      shared := fun σ slot hs hh => moved_shared hi h hs hh
      why := fun i d err hd hs => moved_why hi h hd hs
      count := moved_count hi h }

theorem reach_inv (h : (machine K V E).Reach s) : Inv s := by
  refine h.invariant ?_ ?_
  · intro s0 h0
    rw [show s0 = ⟨⟨∅, [], [], []⟩, []⟩ from h0]
    exact {
      pool := .init rfl
      owned := fun i c hc => by simp at hc
      apart := fun i j c d hc => by simp at hc
      keeps := fun i c hc => by simp at hc
      avoids := fun i c n hc => by simp at hc
      shared := fun σ slot hs => by simp at hs
      why := fun i c e hc => by simp at hc
      count := rfl }
  · intro s e _ hi
    exact step_inv hi e

end

/-! ## Results -/

section

variable {K V E : Type} [DecidableEq K] {s : St K V E} {c : Caller K E} {i n σ : Nat}

omit [DecidableEq K] in
theorem gaveUp_of_first (h : c.stage.first = some n) : c.gaveUp = some n := by
  obtain ⟨k, call, stage⟩ := c
  cases stage with
  | attempt | leased | closed | failed => exact h
  | broken | evicted | dropped => cases h

/-- The second attempt does not get the slot of the first. -/
theorem retries_elsewhere (h : (machine K V E).Reach s) (hc : s.callers[i]? = some c)
    (hf : c.stage.first = some n) : ∃ a b σ, s.pool.calls[n]? = some a ∧ a.stage.slot = some σ ∧
      s.pool.calls[c.call]? = some b ∧ b.key = c.key ∧ b.stage.slot ≠ some σ := by
  obtain ⟨a, σ, ha, hσ, -, hsecond⟩ := (reach_inv h).avoids i c n hc (gaveUp_of_first hf)
  obtain ⟨b, hb, hk, hne⟩ := hsecond hf
  exact ⟨a, b, σ, ha, hσ, hb, hk, hne⟩

/-- Two callers find one connection dead. -/
def deadConnection : List (Ev Nat Nat String) :=
  [.call 7, .acquire (.lock 0), .acquire (.look 0), .acquire (.begin 0), .acquire (.finish 0 (.ok 42)),
    .acquire (.take 0), .call 7, .acquire (.lock 1), .acquire (.check 1 7), .acquire (.look 1), .acquire (.take 1),
    .opened 0 (.error "closed"), .opened 1 (.error "closed"),
    .invalidate 0, .drop 0, .retry 0, .acquire (.lock 2), .acquire (.look 2), .acquire (.begin 2),
    .acquire (.finish 2 (.ok 43)), .acquire (.take 2), .opened 0 (.ok ()),
    .invalidate 1, .drop 1, .retry 1, .acquire (.lock 3), .acquire (.check 3 7), .acquire (.look 3),
    .acquire (.take 3), .opened 1 (.ok ())]

/-- The second one's invalidation leaves the replacement that the first installed. -/
example :
    let t := (machine Nat Nat String).run ⟨⟨∅, [], [], []⟩, []⟩ deadConnection
    t.callers = [⟨7, 2, .leased (some 0)⟩, ⟨7, 3, .leased (some 1)⟩] ∧ t.pool.entries.lookup 7 = some 1 := ⟨rfl, rfl⟩

/-- Every acquire of its key finds the slot that somebody has and nobody gave up. -/
theorem connection_shared (h : (machine K V E).Reach s) {slot : Pool.Slot K V E} (hs : s.pool.slots[σ]? = some slot)
    (hh : Pool.Held s.pool σ) (hg : ¬ GivenUp s σ) {d : Pool.Call K V E} (hd : s.pool.calls[n]? = some d)
    (hready : d.stage = .sweeping []) (hk : d.key = slot.key) :
    Pool.step s.pool (.look n) = s.pool.goes n d (.found σ) := by
  apply Pool.look_some hd hready
  rw [Pool.upgrade_some, hk]
  rcases (reach_inv h).shared σ slot hs hh with hl | hgiven
  · exact ⟨hl, hh⟩
  · exact absurd hgiven hg

/-- As long as a stream is open its slot is held, and has the connection of its key. -/
theorem lease_holds (h : (machine K V E).Reach s) (hc : s.callers[i]? = some c) {first : Option Nat}
    (hl : c.stage = .leased first) : ∃ a σ v slot m, s.pool.calls[c.call]? = some a ∧ a.stage = .returned σ v ∧
      Pool.Held s.pool σ ∧ s.pool.slots[σ]? = some slot ∧ slot.key = c.key ∧ slot.cell = .ready m (.ok v) := by
  have hi := reach_inv h
  obtain ⟨a, σ, v, ha, hs⟩ := hi.keeps i c hc (by rw [hl]; rfl)
  obtain ⟨a', ha', hka⟩ := hi.owned i c hc
  obtain rfl := Option.some.inj (ha'.symm.trans ha)
  have hp := Pool.reach_inv hi.pool
  obtain ⟨slot, m, hslot, hcell⟩ := hp.outcome _ _ _ (.ok v) ha (by rw [hs]; rfl)
  obtain ⟨slot', hslot', hk⟩ := hp.looked _ _ _ ha (by rw [hs]; rfl)
  obtain rfl : slot' = slot := Option.some.inj (hslot'.symm.trans hslot)
  exact ⟨a', σ, v, slot', m, ha, hs, ⟨a', List.mem_of_getElem? ha, by rw [hs]; rfl⟩, hslot, hk.trans hka, hcell⟩

/-- Who failed without a second attempt has the error of the initializer of its key. -/
theorem failed_why (h : (machine K V E).Reach s) (hc : s.callers[i]? = some c) {e : E}
    (hf : c.stage = .failed none e) : Refused s.pool c.key e := (reach_inv h).why i c e hc hf

theorem acquires_le (h : (machine K V E).Reach s) : s.pool.calls.length ≤ 2 * s.callers.length := by
  have hcount := (reach_inv h).count
  have hle : s.callers.countP Caller.triedAgain ≤ s.callers.length := List.countP_le_length
  omega

/-- What a run of callers comes to. -/
structure Served (s : St K V E) : Prop where
  retries : ∀ (i : Nat) (c : Caller K E) (n : Nat), s.callers[i]? = some c → c.stage.first = some n → ∃ a b σ,
    s.pool.calls[n]? = some a ∧ a.stage.slot = some σ ∧ s.pool.calls[c.call]? = some b ∧ b.key = c.key ∧
      b.stage.slot ≠ some σ
  leases : ∀ (i : Nat) (c : Caller K E) (first : Option Nat), s.callers[i]? = some c → c.stage = .leased first →
    ∃ a σ v slot m, s.pool.calls[c.call]? = some a ∧ a.stage = .returned σ v ∧ Pool.Held s.pool σ ∧
      s.pool.slots[σ]? = some slot ∧ slot.key = c.key ∧ slot.cell = .ready m (.ok v)
  shared : ∀ (σ : Nat) (slot : Pool.Slot K V E) (n : Nat) (d : Pool.Call K V E), s.pool.slots[σ]? = some slot →
    Pool.Held s.pool σ → ¬ GivenUp s σ → s.pool.calls[n]? = some d → d.stage = .sweeping [] → d.key = slot.key →
      Pool.step s.pool (.look n) = s.pool.goes n d (.found σ)
  failures : ∀ (i : Nat) (c : Caller K E) (e : E), s.callers[i]? = some c → c.stage = .failed none e →
    Refused s.pool c.key e
  acquires : s.pool.calls.length ≤ 2 * s.callers.length

/-- Every caller of `open_client`, in every interleaving over the pool: what its connection is,
    why it acquired twice, and why it failed. -/
theorem callers_served (h : (machine K V E).Reach s) : Served s where
  retries _ _ _ hc hf := retries_elsewhere h hc hf
  leases _ _ _ hc hl := lease_holds h hc hl
  shared _ _ _ _ hs hh hg hd hready hk := connection_shared h hs hh hg hd hready hk
  failures _ _ _ hc hf := failed_why h hc hf
  acquires := acquires_le h

theorem callers_served_dead : Served ((machine Nat Nat String).run ⟨⟨∅, [], [], []⟩, []⟩ deadConnection) ∧
    ((machine Nat Nat String).run ⟨⟨∅, [], [], []⟩, []⟩ deadConnection).callers =
      [⟨7, 2, .leased (some 0)⟩, ⟨7, 3, .leased (some 1)⟩] :=
  ⟨callers_served (.run rfl _), rfl⟩

end

end Grainlift.Client.OpenClient
