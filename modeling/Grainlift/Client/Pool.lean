/-
  Grainlift.Client.Pool — the pool of connections that callers share
  (`WeakPool`, adbc-driver-grainlift/src/iroh_pool.rs).

  The map has a slot a key, and holds it weakly: a slot is there as long as somebody does
  (`strongCount`). An acquire takes the lock, sweeps the entries nobody holds, takes the
  slot of its key or makes one, and gives the lock back. Then it is at the slot's
  `OnceLock`: the first to come runs its initializer, the others wait and take the result.
  A failed acquire lets its slot go; a successful one gives it to its caller, who drops it
  some time, and who may have the entry removed before, if it is still the entry of that
  slot.

  All calls interleave. The sweep looks at one entry after the other, in any order, and
  slots may be let go in between: counts change outside the lock. An initializer ends at
  any time with any result; none panics.

  Proved (`weak_pool`): an initializer runs at most once a slot, and a resource is the work
  of a call with the same key; who looks a key up while its slot is held and not invalidated
  gets that slot, and its resource; an invalidation removes at most the slot of the one who
  invalidates, and that slot is never found again; a failure is seen by those who looked up
  its slot, and once they are gone the next acquire has a new slot, whose initializer
  has not run. Which call then runs it is open: another acquire that finds the new
  slot may be the first at it (`another_initializer_runs`).
-/

import Grainlift.Lib.Machine
import Grainlift.Lib.Table

namespace Grainlift.Client.Pool

open Grainlift.Lib

/-! ## Slots and calls -/

/-- A `OnceLock<InitResult>`, and which call's initializer ran. -/
inductive Cell (V E : Type) where
  | empty
  | running (call : Nat)
  | ready (call : Nat) (result : Except E V)

/-- A slot; `key` is the key it was made for, which the code does not keep. -/
structure Slot (K V E : Type) where
  key : K
  cell : Cell V E

inductive Stage (K V E : Type) where
  | asked
  /-- Has the lock; these entries are still to be swept. -/
  | sweeping (unchecked : List K)
  | found (slot : Nat)
  | returned (slot : Nat) (resource : V)
  | failed (slot : Nat) (error : E)
  /-- Returned, and the caller dropped the slot. -/
  | dropped (slot : Nat) (resource : V)

structure Call (K V E : Type) where
  key : K
  stage : Stage K V E

/-- The slots and calls by number; `begun` are the initializers that were started, by slot
    and call. -/
structure St (K V E : Type) where
  entries : Table K Nat
  slots : List (Slot K V E)
  calls : List (Call K V E)
  begun : List (Nat × Nat)

inductive Ev (K V E : Type) where
  | ask (key : K)
  | lock (i : Nat)
  /-- `retain` at one entry. -/
  | check (i : Nat) (key : K)
  | look (i : Nat)
  | begin (i : Nat)
  | finish (i : Nat) (result : Except E V)
  | take (i : Nat)
  | drop (i : Nat)
  /-- By the caller of `i`, of the slot it was given. -/
  | invalidate (key : K) (i : Nat)

section

variable {K V E : Type}

/-- The call whose initializer runs or ran. -/
def Cell.runner : Cell V E → Option Nat
  | .empty => none
  | .running j | .ready j _ => some j

namespace Stage

/-- The slot it has a strong reference to. -/
def holds : Stage K V E → Option Nat
  | .found σ | .returned σ _ => some σ
  | .asked | .sweeping _ | .failed _ _ | .dropped _ _ => none

/-- The slot it looked up. -/
def slot : Stage K V E → Option Nat
  | .found σ | .returned σ _ | .failed σ _ | .dropped σ _ => some σ
  | .asked | .sweeping _ => none

/-- What it took from its slot. -/
def result : Stage K V E → Option (Nat × Except E V)
  | .returned σ v | .dropped σ v => some (σ, .ok v)
  | .failed σ e => some (σ, .error e)
  | .asked | .sweeping _ | .found _ => none

def isSweeping : Stage K V E → Bool
  | .sweeping _ => true
  | _ => false

end Stage

namespace St

variable (s : St K V E)

def strongCount (σ : Nat) : Nat := s.calls.countP fun c => c.stage.holds = some σ

def free : Bool := s.calls.all fun c => !c.stage.isSweeping

def goes (i : Nat) (c : Call K V E) (stage : Stage K V E) : St K V E :=
  { s with calls := s.calls.set i { c with stage } }

def sets (σ : Nat) (slot : Slot K V E) : St K V E := { s with slots := s.slots.set σ slot }

end St

variable [DecidableEq K]

/-- `entries.get(key).and_then(Weak::upgrade)`. -/
def St.upgrade (s : St K V E) (key : K) : Option Nat := (s.entries.lookup key).filter fun σ => 0 < s.strongCount σ

def St.makes (s : St K V E) (i : Nat) (c : Call K V E) : St K V E :=
  { s.goes i c (.found s.slots.length) with
    entries := s.entries.insert c.key s.slots.length
    slots := s.slots ++ [⟨c.key, .empty⟩] }

/-- The entry goes if nobody holds its slot. -/
def St.sweep (s : St K V E) (key : K) : Table K Nat :=
  if (s.upgrade key).isSome then s.entries else s.entries.erase key

def next (s : St K V E) : Ev K V E → Option (St K V E)
  | .ask key => some { s with calls := s.calls ++ [⟨key, .asked⟩] }
  | .lock i => do
    let c ← s.calls[i]?
    match c.stage with
    | .asked => if s.free then some (s.goes i c (.sweeping s.entries.keys)) else none
    | _ => none
  | .check i key => do
    let c ← s.calls[i]?
    match c.stage with
    | .sweeping unchecked =>
      if key ∈ unchecked then
        some { s.goes i c (.sweeping (unchecked.filter fun k => k ≠ key)) with entries := s.sweep key }
      else none
    | _ => none
  | .look i => do
    let c ← s.calls[i]?
    match c.stage with
    | .sweeping [] =>
      match s.upgrade c.key with
      | some σ => some (s.goes i c (.found σ))
      | none => some (s.makes i c)
    | _ => none
  | .begin i => do
    let c ← s.calls[i]?
    match c.stage with
    | .found σ => do
      let slot ← s.slots[σ]?
      match slot.cell with
      | .empty => some { s.sets σ { slot with cell := .running i } with begun := s.begun ++ [(σ, i)] }
      | _ => none
    | _ => none
  | .finish i result => do
    let c ← s.calls[i]?
    match c.stage with
    | .found σ => do
      let slot ← s.slots[σ]?
      match slot.cell with
      | .running j => if j = i then some (s.sets σ { slot with cell := .ready i result }) else none
      | _ => none
    | _ => none
  | .take i => do
    let c ← s.calls[i]?
    match c.stage with
    | .found σ => do
      let slot ← s.slots[σ]?
      match slot.cell with
      | .ready _ (.ok v) => some (s.goes i c (.returned σ v))
      | .ready _ (.error e) => some (s.goes i c (.failed σ e))
      | _ => none
    | _ => none
  | .drop i => do
    let c ← s.calls[i]?
    match c.stage with
    | .returned σ v => some (s.goes i c (.dropped σ v))
    | _ => none
  | .invalidate key i => do
    let c ← s.calls[i]?
    match c.stage with
    | .returned σ _ =>
      if s.free then
        if s.upgrade key = some σ then some { s with entries := s.entries.erase key } else some s
      else none
    | _ => none

def step (s : St K V E) (e : Ev K V E) : St K V E := (next s e).getD s

def machine (K V E : Type) [DecidableEq K] : Machine (St K V E) (Ev K V E) where
  init s := s = ⟨∅, [], [], []⟩
  step := step

end

/-! ## What a step can do -/

section

variable {K V E : Type} [DecidableEq K] {s t : St K V E} {e : Ev K V E} {i σ : Nat} {c : Call K V E} {k : K}

inductive Moved (s : St K V E) : Ev K V E → St K V E → Prop
  | asked {k : K} : Moved s (.ask k) { s with calls := s.calls ++ [⟨k, .asked⟩] }
  | locked {i : Nat} {c : Call K V E} : s.calls[i]? = some c → c.stage = .asked →
      Moved s (.lock i) (s.goes i c (.sweeping s.entries.keys))
  | swept {i : Nat} {c : Call K V E} {u u' : List K} {k : K} : s.calls[i]? = some c → c.stage = .sweeping u →
      Moved s (.check i k) { s.goes i c (.sweeping u') with entries := s.sweep k }
  | found {i σ : Nat} {c : Call K V E} : s.calls[i]? = some c → c.stage = .sweeping [] → s.upgrade c.key = some σ →
      Moved s (.look i) (s.goes i c (.found σ))
  | made {i : Nat} {c : Call K V E} : s.calls[i]? = some c → c.stage = .sweeping [] → s.upgrade c.key = none →
      Moved s (.look i) (s.makes i c)
  | begun {i σ : Nat} {c : Call K V E} {slot : Slot K V E} : s.calls[i]? = some c → c.stage = .found σ →
      s.slots[σ]? = some slot → slot.cell = .empty →
      Moved s (.begin i) { s.sets σ { slot with cell := .running i } with begun := s.begun ++ [(σ, i)] }
  | finished {i σ : Nat} {c : Call K V E} {slot : Slot K V E} {r : Except E V} : s.calls[i]? = some c →
      c.stage = .found σ → s.slots[σ]? = some slot → slot.cell = .running i →
      Moved s (.finish i r) (s.sets σ { slot with cell := .ready i r })
  | took {i j σ : Nat} {c : Call K V E} {slot : Slot K V E} {v : V} : s.calls[i]? = some c → c.stage = .found σ →
      s.slots[σ]? = some slot → slot.cell = .ready j (.ok v) → Moved s (.take i) (s.goes i c (.returned σ v))
  | failed {i j σ : Nat} {c : Call K V E} {slot : Slot K V E} {e : E} : s.calls[i]? = some c → c.stage = .found σ →
      s.slots[σ]? = some slot → slot.cell = .ready j (.error e) → Moved s (.take i) (s.goes i c (.failed σ e))
  | dropped {i σ : Nat} {c : Call K V E} {v : V} : s.calls[i]? = some c → c.stage = .returned σ v →
      Moved s (.drop i) (s.goes i c (.dropped σ v))
  | invalidated {i σ : Nat} {c : Call K V E} {v : V} {k : K} : s.calls[i]? = some c → c.stage = .returned σ v →
      s.upgrade k = some σ → Moved s (.invalidate k i) { s with entries := s.entries.erase k }

theorem step_moved (s : St K V E) (e : Ev K V E) : step s e = s ∨ Moved s e (step s e) := by
  unfold step
  cases hn : next s e with
  | none => exact .inl rfl
  | some s' =>
    show s' = s ∨ Moved s e s'
    cases e with
    | ask k =>
      cases hn
      exact .inr .asked
    | lock i =>
      obtain ⟨c, hc, hn⟩ := Option.bind_eq_some_iff.mp hn
      split at hn
      case h_2 => cases hn
      split at hn
      case isFalse => cases hn
      cases hn
      exact .inr (.locked hc ‹_›)
    | check i k =>
      obtain ⟨c, hc, hn⟩ := Option.bind_eq_some_iff.mp hn
      split at hn
      case h_2 => cases hn
      split at hn
      case isFalse => cases hn
      cases hn
      exact .inr (.swept hc ‹_›)
    | look i =>
      obtain ⟨c, hc, hn⟩ := Option.bind_eq_some_iff.mp hn
      split at hn
      case h_2 => cases hn
      split at hn
      · cases hn
        exact .inr (.found hc ‹_› ‹_›)
      · cases hn
        exact .inr (.made hc ‹_› ‹_›)
    | begin i =>
      obtain ⟨c, hc, hn⟩ := Option.bind_eq_some_iff.mp hn
      split at hn
      case h_2 => cases hn
      obtain ⟨slot, hslot, hn⟩ := Option.bind_eq_some_iff.mp hn
      split at hn
      case h_2 => cases hn
      cases hn
      exact .inr (.begun hc ‹_› hslot ‹_›)
    | finish i r =>
      obtain ⟨c, hc, hn⟩ := Option.bind_eq_some_iff.mp hn
      split at hn
      case h_2 => cases hn
      obtain ⟨slot, hslot, hn⟩ := Option.bind_eq_some_iff.mp hn
      split at hn
      case h_2 => cases hn
      split at hn
      case isFalse => cases hn
      case isTrue hi =>
        cases hn
        subst hi
        exact .inr (.finished hc ‹_› hslot ‹_›)
    | take i =>
      obtain ⟨c, hc, hn⟩ := Option.bind_eq_some_iff.mp hn
      split at hn
      case h_2 => cases hn
      obtain ⟨slot, hslot, hn⟩ := Option.bind_eq_some_iff.mp hn
      split at hn
      · cases hn
        exact .inr (.took hc ‹_› hslot ‹_›)
      · cases hn
        exact .inr (.failed hc ‹_› hslot ‹_›)
      · cases hn
    | drop i =>
      obtain ⟨c, hc, hn⟩ := Option.bind_eq_some_iff.mp hn
      split at hn
      case h_2 => cases hn
      cases hn
      exact .inr (.dropped hc ‹_›)
    | invalidate k i =>
      obtain ⟨c, hc, hn⟩ := Option.bind_eq_some_iff.mp hn
      split at hn
      case h_2 => cases hn
      split at hn
      case isFalse => cases hn
      split at hn
      · cases hn
        exact .inr (.invalidated hc ‹_› ‹_›)
      · cases hn
        exact .inl rfl

/-! ## Who holds a slot -/

/-- Somebody has a strong reference. -/
def Held (s : St K V E) (σ : Nat) : Prop := ∃ c ∈ s.calls, c.stage.holds = some σ

omit [DecidableEq K] in
theorem strongCount_pos : 0 < s.strongCount σ ↔ Held s σ := by
  simp [St.strongCount, List.countP_pos_iff, Held]

theorem upgrade_some : s.upgrade k = some σ ↔ s.entries.lookup k = some σ ∧ Held s σ := by
  unfold St.upgrade
  rw [Option.filter_eq_some_iff, ← strongCount_pos]
  simp

theorem upgrade_none : s.upgrade k = none ↔ ∀ σ, s.entries.lookup k = some σ → ¬ Held s σ := by
  constructor
  · intro h σ hl hh
    rw [upgrade_some.mpr ⟨hl, hh⟩] at h
    cases h
  · intro h
    cases hu : s.upgrade k with
    | none => rfl
    | some σ =>
      obtain ⟨hl, hh⟩ := upgrade_some.mp hu
      exact absurd hh (h σ hl)

omit [DecidableEq K] in
theorem held_goes {stage : Stage K V E} (h : Held (s.goes i c stage) σ) : Held s σ ∨ stage.holds = some σ := by
  obtain ⟨d, hd, hh⟩ := h
  rcases List.mem_or_eq_of_mem_set hd with hd | rfl
  · exact .inl ⟨d, hd, hh⟩
  · exact .inr hh

omit [DecidableEq K] in
theorem goes_self {stage : Stage K V E} (hc : s.calls[i]? = some c) :
    (s.goes i c stage).calls[i]? = some { c with stage } := getElem?_set_of_some hc

/-- A slot that nobody holds is never held again, unless it is the next one to be made. -/
theorem Moved.held (h : Moved s e t) (hh : Held t σ) : Held s σ ∨ σ = s.slots.length := by
  cases h with
  | asked =>
    obtain ⟨d, hd, hholds⟩ := hh
    rcases List.mem_append.mp hd with hd | hd
    · exact .inl ⟨d, hd, hholds⟩
    · rw [List.mem_singleton.mp hd] at hholds
      cases hholds
  | locked hc hs | dropped hc hs | failed hc hs =>
    rcases held_goes hh with hh | hh
    · exact .inl hh
    · cases hh
  | swept hc hs =>
    obtain hh : Held (s.goes _ _ _) σ := hh
    rcases held_goes hh with hh | hh
    · exact .inl hh
    · cases hh
  | found hc hs hu =>
    rcases held_goes hh with hh | hh
    · exact .inl hh
    · cases hh
      exact .inl (upgrade_some.mp hu).2
  | made hc hs hu =>
    obtain hh : Held (s.goes _ _ _) σ := hh
    rcases held_goes hh with hh | hh
    · exact .inl hh
    · cases hh
      exact .inr rfl
  | took hc hs =>
    rcases held_goes hh with hh | hh
    · exact .inl hh
    · cases hh
      exact .inl ⟨_, List.mem_of_getElem? hc, by rw [hs]; rfl⟩
  | begun | finished | invalidated => exact .inl hh

end

/-! ## What a step keeps -/

section

variable {K V E : Type} [DecidableEq K] {s t : St K V E} {e : Ev K V E} {i j σ : Nat} {c d : Call K V E} {k : K}
  {slot : Slot K V E}

/-- A slot stays, with its key, its runner and its result. -/
theorem Moved.slot_kept (h : Moved s e t) (hs : s.slots[σ]? = some slot) : ∃ slot', t.slots[σ]? = some slot' ∧
    slot'.key = slot.key ∧ (∀ j, slot.cell.runner = some j → slot'.cell.runner = some j) ∧
    ∀ j r, slot.cell = .ready j r → slot'.cell = .ready j r := by
  cases h with
  | made =>
    refine ⟨slot, ?_, rfl, fun _ h => h, fun _ _ h => h⟩
    show (s.slots ++ _)[σ]? = some slot
    rw [List.getElem?_append_left (List.getElem?_eq_some_iff.mp hs).1]
    exact hs
  | begun hc hst hslot hcell =>
    rename_i τ c slot0
    by_cases hτ : τ = σ
    · subst hτ
      obtain rfl : slot0 = slot := Option.some.inj (hslot.symm.trans hs)
      refine ⟨_, getElem?_set_of_some hs, rfl, ?_, ?_⟩
      · intro j hj
        rw [hcell] at hj
        cases hj
      · intro j r hr
        rw [hcell] at hr
        cases hr
    · exact ⟨slot, (List.getElem?_set_ne hτ).trans hs, rfl, fun _ h => h, fun _ _ h => h⟩
  | finished hc hst hslot hcell =>
    rename_i τ c slot0 r
    by_cases hτ : τ = σ
    · subst hτ
      obtain rfl : slot0 = slot := Option.some.inj (hslot.symm.trans hs)
      refine ⟨_, getElem?_set_of_some hs, rfl, ?_, ?_⟩
      · intro j hj
        rw [hcell] at hj
        exact hj
      · intro j r hr
        rw [hcell] at hr
        cases hr
    · exact ⟨slot, (List.getElem?_set_ne hτ).trans hs, rfl, fun _ h => h, fun _ _ h => h⟩
  | asked | locked | swept | found | took | failed | dropped | invalidated =>
    exact ⟨slot, hs, rfl, fun _ h => h, fun _ _ h => h⟩

/-- A slot was there, with its key, or is new and the entry of its key. -/
theorem Moved.slot_back (h : Moved s e t) (hs : t.slots[σ]? = some slot) :
    (∃ slot0, s.slots[σ]? = some slot0 ∧ slot0.key = slot.key ∧
      (∀ j v, slot0.cell = .ready j (.ok v) → slot.cell = .ready j (.ok v))) ∨
    (σ = s.slots.length ∧ slot.cell = .empty ∧ t.entries.lookup slot.key = some σ) := by
  have hback : (∃ slot0, s.slots[σ]? = some slot0) ∨ s.slots[σ]? = none := by
    cases s.slots[σ]? with
    | none => exact .inr rfl
    | some slot0 => exact .inl ⟨slot0, rfl⟩
  rcases hback with ⟨slot0, hs0⟩ | hnone
  · obtain ⟨slot', hs', hkey, -, hready⟩ := h.slot_kept hs0
    obtain rfl : slot' = slot := Option.some.inj (hs'.symm.trans hs)
    exact .inl ⟨slot0, hs0, hkey.symm, fun j v => hready j (.ok v)⟩
  · right
    cases h with
    | made hc hst hu =>
      obtain hs : (s.slots ++ _)[σ]? = some slot := hs
      rcases getElem?_snoc_cases hs with hs | ⟨hlen, rfl⟩
      · rw [hnone] at hs
        cases hs
      · exact ⟨hlen, rfl, by rw [hlen]; exact AList.lookup_insert _⟩
    | begun hc hst hslot | finished hc hst hslot =>
      rcases getElem?_set_cases hs with ⟨rfl, -⟩ | ⟨-, hs⟩
      · rw [hnone] at hslot
        cases hslot
      · rw [hnone] at hs
        cases hs
    | asked | locked | swept | found | took | failed | dropped | invalidated =>
      obtain hs : s.slots[σ]? = some slot := hs
      rw [hnone] at hs
      cases hs

/-- A call keeps its key and the slot it looked up. -/
theorem Moved.call_kept (h : Moved s e t) (hc : s.calls[i]? = some c) : ∃ d, t.calls[i]? = some d ∧ d.key = c.key ∧
    ∀ σ, c.stage.slot = some σ → d.stage.slot = some σ := by
  have hmove : ∀ {i' : Nat} {c' : Call K V E} {stage : Stage K V E}, s.calls[i']? = some c' →
      (∀ σ, c'.stage.slot = some σ → stage.slot = some σ) →
      ∃ d, (s.goes i' c' stage).calls[i]? = some d ∧ d.key = c.key ∧
        ∀ σ, c.stage.slot = some σ → d.stage.slot = some σ := by
    intro i' c' stage hc' hslot
    by_cases hi : i' = i
    · subst hi
      obtain rfl : c' = c := Option.some.inj (hc'.symm.trans hc)
      exact ⟨_, goes_self hc, rfl, hslot⟩
    · exact ⟨c, (List.getElem?_set_ne hi).trans hc, rfl, fun _ h => h⟩
  cases h with
  | asked =>
    refine ⟨c, ?_, rfl, fun _ h => h⟩
    show (s.calls ++ _)[i]? = some c
    rw [List.getElem?_append_left (List.getElem?_eq_some_iff.mp hc).1]
    exact hc
  | begun | finished | invalidated => exact ⟨c, hc, rfl, fun _ h => h⟩
  | locked hc' hs | swept hc' hs | found hc' hs | made hc' hs =>
    apply hmove hc'
    intro σ hσ
    rw [hs] at hσ
    cases hσ
  | took hc' hs | failed hc' hs | dropped hc' hs =>
    apply hmove hc'
    intro σ hσ
    rw [hs] at hσ
    exact hσ

/-- Who was given a slot has it until it drops it. -/
theorem Moved.returned_kept (h : Moved s e t) (hc : s.calls[i]? = some c) {v : V} (hs : c.stage = .returned σ v)
    (hne : e ≠ .drop i) : t.calls[i]? = some c := by
  have hother : ∀ {i' : Nat} {c' : Call K V E} {stage : Stage K V E}, s.calls[i']? = some c' →
      c'.stage ≠ .returned σ v → (s.goes i' c' stage).calls[i]? = some c := by
    intro i' c' stage hc' hs'
    have hi : i' ≠ i := by
      intro heq
      subst heq
      obtain rfl : c' = c := Option.some.inj (hc'.symm.trans hc)
      exact hs' hs
    exact (List.getElem?_set_ne hi).trans hc
  cases h with
  | asked => exact getElem?_snoc_of_some hc
  | begun | finished | invalidated => exact hc
  | locked hc' hs' | swept hc' hs' | found hc' hs' | made hc' hs' | took hc' hs' | failed hc' hs' =>
    refine hother hc' ?_
    rw [hs']
    simp
  | dropped hc' hs' =>
    rename_i i' τ c' v'
    have hi : i' ≠ i := by
      intro heq
      subst heq
      exact hne rfl
    exact (List.getElem?_set_ne hi).trans hc

/-- A call had looked its slot up before, or found it in this step. -/
theorem Moved.lookup_back (h : Moved s e t) (hd : t.calls[i]? = some d) (hσ : d.stage.slot = some σ) :
    (∃ c, s.calls[i]? = some c ∧ c.key = d.key ∧ c.stage.slot = some σ) ∨ t.entries.lookup d.key = some σ := by
  cases h with
  | asked =>
    rcases getElem?_snoc_cases hd with hd | ⟨-, rfl⟩
    · exact .inl ⟨d, hd, rfl, hσ⟩
    · cases hσ
  | begun | finished | invalidated => exact .inl ⟨d, hd, rfl, hσ⟩
  | locked hc hs | swept hc hs =>
    rcases getElem?_set_cases hd with ⟨rfl, rfl⟩ | ⟨-, hd⟩
    · cases hσ
    · exact .inl ⟨d, hd, rfl, hσ⟩
  | found hc hs hu =>
    rcases getElem?_set_cases hd with ⟨rfl, rfl⟩ | ⟨-, hd⟩
    · cases hσ
      exact .inr (upgrade_some.mp hu).1
    · exact .inl ⟨d, hd, rfl, hσ⟩
  | made hc hs hu =>
    rcases getElem?_set_cases hd with ⟨rfl, rfl⟩ | ⟨-, hd⟩
    · cases hσ
      exact .inr (AList.lookup_insert _)
    · exact .inl ⟨d, hd, rfl, hσ⟩
  | took hc hs | failed hc hs | dropped hc hs =>
    rcases getElem?_set_cases hd with ⟨rfl, rfl⟩ | ⟨-, hd⟩
    · cases hσ
      exact .inl ⟨_, hc, rfl, by rw [hs]; rfl⟩
    · exact .inl ⟨d, hd, rfl, hσ⟩

/-- A call had its result before, or took it of its slot in this step. -/
theorem Moved.result_back (h : Moved s e t) (hd : t.calls[i]? = some d) {r : Except E V}
    (hr : d.stage.result = some (σ, r)) : (∃ c, s.calls[i]? = some c ∧ c.stage.result = some (σ, r)) ∨
      ∃ slot j, s.slots[σ]? = some slot ∧ slot.cell = .ready j r := by
  cases h with
  | asked =>
    rcases getElem?_snoc_cases hd with hd | ⟨-, rfl⟩
    · exact .inl ⟨d, hd, hr⟩
    · cases hr
  | begun | finished | invalidated => exact .inl ⟨d, hd, hr⟩
  | locked hc hs | swept hc hs | found hc hs | made hc hs =>
    rcases getElem?_set_cases hd with ⟨rfl, rfl⟩ | ⟨-, hd⟩
    · cases hr
    · exact .inl ⟨d, hd, hr⟩
  | took hc hs hslot hcell | failed hc hs hslot hcell =>
    rcases getElem?_set_cases hd with ⟨rfl, rfl⟩ | ⟨-, hd⟩
    · cases hr
      exact .inr ⟨_, _, hslot, hcell⟩
    · exact .inl ⟨d, hd, hr⟩
  | dropped hc hs =>
    rcases getElem?_set_cases hd with ⟨rfl, rfl⟩ | ⟨-, hd⟩
    · cases hr
      exact .inl ⟨_, hc, by rw [hs]; rfl⟩
    · exact .inl ⟨d, hd, hr⟩

/-- An entry was there, or is the new slot's. -/
theorem Moved.entry_back (h : Moved s e t) (hl : t.entries.lookup k = some σ) :
    s.entries.lookup k = some σ ∨ (σ = s.slots.length ∧ t.slots = s.slots ++ [⟨k, .empty⟩]) := by
  cases h with
  | made hc hs hu =>
    rename_i i c
    obtain hl : (s.entries.insert c.key s.slots.length).lookup k = some σ := hl
    by_cases hk : k = c.key
    · subst hk
      rw [AList.lookup_insert] at hl
      cases hl
      exact .inr ⟨rfl, rfl⟩
    · rw [AList.lookup_insert_ne hk] at hl
      exact .inl hl
  | swept hc hs =>
    rename_i i c u u' k'
    obtain hl : (s.sweep k').lookup k = some σ := hl
    unfold St.sweep at hl
    split at hl
    · exact .inl hl
    · exact .inl (Table.lookup_of_erase hl)
  | invalidated => exact .inl (Table.lookup_of_erase hl)
  | asked | locked | found | begun | finished | took | failed | dropped => exact .inl hl

/-- The event is no invalidation of the entry by a caller that was given the slot. -/
def Spares (k : K) (σ : Nat) (s : St K V E) (e : Ev K V E) : Prop :=
  ∀ (i : Nat) (c : Call K V E) (v : V), e = .invalidate k i → s.calls[i]? = some c → c.stage ≠ .returned σ v

/-- The event is no lookup of the key. -/
def Unlooked (k : K) (s : St K V E) (e : Ev K V E) : Prop :=
  ∀ (i : Nat) (c : Call K V E), e = .look i → s.calls[i]? = some c → c.stage = .sweeping [] → c.key ≠ k

/-- An entry stays as long as its slot is held, unless a holder of that slot invalidates it. -/
theorem Moved.entry_kept (h : Moved s e t) (hl : s.entries.lookup k = some σ) (hh : Held s σ)
    (hi : Spares k σ s e) : t.entries.lookup k = some σ := by
  have hu : s.upgrade k = some σ := upgrade_some.mpr ⟨hl, hh⟩
  cases h with
  | made hc hs hnone =>
    rename_i i c
    have hk : k ≠ c.key := by
      intro heq
      subst heq
      rw [hu] at hnone
      cases hnone
    show (s.entries.insert c.key s.slots.length).lookup k = some σ
    rw [AList.lookup_insert_ne hk]
    exact hl
  | swept hc hs =>
    rename_i i c u u' k'
    show (s.sweep k').lookup k = some σ
    unfold St.sweep
    split
    · exact hl
    · rename_i hdead
      have hk : k ≠ k' := by
        intro heq
        subst heq
        rw [hu] at hdead
        exact hdead rfl
      rw [AList.lookup_erase_ne hk]
      exact hl
  | invalidated hc hs hu' =>
    rename_i i τ c v k'
    have hk : k ≠ k' := by
      intro heq
      subst heq
      obtain rfl : τ = σ := Option.some.inj (hu'.symm.trans hu)
      exact hi i c v rfl hc hs
    show (s.entries.erase k').lookup k = some σ
    rw [AList.lookup_erase_ne hk]
    exact hl
  | asked | locked | found | begun | finished | took | failed | dropped => exact hl

/-- A key's entry is no other than before, until somebody looks the key up. -/
theorem Moved.entry_same (h : Moved s e t) (hk : Unlooked k s e) (hl : t.entries.lookup k = some σ) :
    s.entries.lookup k = some σ := by
  rcases h.entry_back hl with hs | ⟨rfl, hslots⟩
  · exact hs
  · cases h with
    | made hc hs hu =>
      rename_i i c
      obtain hl : (s.entries.insert c.key s.slots.length).lookup k = _ := hl
      rwa [AList.lookup_insert_ne (hk i c rfl hc hs).symm] at hl
    | asked | locked | swept | found | took | failed | dropped | invalidated =>
      have hlen := congrArg List.length hslots
      simp [St.goes] at hlen
    | begun | finished =>
      have hlen := congrArg List.length hslots
      simp [St.sets] at hlen

end

/-! ## The invariant -/

section

variable {K V E : Type} [DecidableEq K] {s t : St K V E} {e : Ev K V E} {i j σ : Nat} {c d : Call K V E} {k : K}

structure Inv (s : St K V E) : Prop where
  /-- An entry is of the newest slot of its key. -/
  entry : ∀ k σ, s.entries.lookup k = some σ → (∃ slot, s.slots[σ]? = some slot ∧ slot.key = k) ∧
    ∀ σ' slot', s.slots[σ']? = some slot' → slot'.key = k → σ' ≤ σ
  looked : ∀ (i : Nat) (c : Call K V E) σ, s.calls[i]? = some c → c.stage.slot = some σ →
    ∃ slot, s.slots[σ]? = some slot ∧ slot.key = c.key
  outcome : ∀ (i : Nat) (c : Call K V E) σ r, s.calls[i]? = some c → c.stage.result = some (σ, r) →
    ∃ slot j, s.slots[σ]? = some slot ∧ slot.cell = .ready j r
  ran : ∀ σ j, (σ, j) ∈ s.begun ↔ ∃ slot, s.slots[σ]? = some slot ∧ slot.cell.runner = some j
  once : (s.begun.map Prod.fst).Nodup
  runner : ∀ σ j, (σ, j) ∈ s.begun → ∃ c, s.calls[j]? = some c ∧ c.stage.slot = some σ
  /-- A slot that was given to nobody is not invalidated. -/
  installed : ∀ σ slot, s.slots[σ]? = some slot → (∀ j v, slot.cell ≠ .ready j (.ok v)) → Held s σ →
    s.entries.lookup slot.key = some σ

theorem step_entry (hi : Inv s) (h : Moved s e t) (hl : t.entries.lookup k = some σ) :
    (∃ slot, t.slots[σ]? = some slot ∧ slot.key = k) ∧
      ∀ σ' slot', t.slots[σ']? = some slot' → slot'.key = k → σ' ≤ σ := by
  rcases h.entry_back hl with hs | ⟨rfl, hslots⟩
  · obtain ⟨⟨slot, hslot, hkey⟩, hnewest⟩ := hi.entry k σ hs
    obtain ⟨slot', hslot', hkey', -⟩ := h.slot_kept hslot
    refine ⟨⟨slot', hslot', hkey'.trans hkey⟩, ?_⟩
    intro σ' slot'' hs' hk'
    rcases h.slot_back hs' with ⟨slot0, hs0, hkey0, -⟩ | ⟨-, -, hl'⟩
    · exact hnewest σ' slot0 hs0 (hkey0.trans hk')
    · rw [hk', hl] at hl'
      exact Nat.le_of_eq (Option.some.inj hl').symm
  · rw [hslots]
    refine ⟨⟨_, List.getElem?_concat_length, rfl⟩, ?_⟩
    intro σ' slot' hs' hk'
    have hlt := (List.getElem?_eq_some_iff.mp hs').1
    simp only [List.length_append, List.length_singleton] at hlt
    exact Nat.lt_succ_iff.mp hlt

theorem step_looked (hi : Inv s) (h : Moved s e t) (hd : t.calls[i]? = some d) (hσ : d.stage.slot = some σ) :
    ∃ slot, t.slots[σ]? = some slot ∧ slot.key = d.key := by
  rcases h.lookup_back hd hσ with ⟨c, hc, hkey, hslot⟩ | hl
  · obtain ⟨slot, hs, hk⟩ := hi.looked i c σ hc hslot
    obtain ⟨slot', hs', hk', -⟩ := h.slot_kept hs
    exact ⟨slot', hs', hk'.trans (hk.trans hkey)⟩
  · exact (step_entry hi h hl).1

theorem step_outcome (hi : Inv s) (h : Moved s e t) (hd : t.calls[i]? = some d) {r : Except E V}
    (hr : d.stage.result = some (σ, r)) : ∃ slot j, t.slots[σ]? = some slot ∧ slot.cell = .ready j r := by
  have hready : ∃ slot j, s.slots[σ]? = some slot ∧ slot.cell = .ready j r := by
    rcases h.result_back hd hr with ⟨c, hc, hres⟩ | hslot
    · exact hi.outcome i c σ r hc hres
    · exact hslot
  obtain ⟨slot, j, hs, hcell⟩ := hready
  obtain ⟨slot', hs', -, -, hkept⟩ := h.slot_kept hs
  exact ⟨slot', j, hs', hkept j r hcell⟩

/-- What was begun, and the one initializer this step begins, on a slot without one. -/
theorem Moved.begun_cases (h : Moved s e t) : t.begun = s.begun ∨
    ∃ σ i c slot, t.begun = s.begun ++ [(σ, i)] ∧ s.slots[σ]? = some slot ∧ slot.cell = .empty ∧
      t.slots[σ]? = some { slot with cell := .running i } ∧ t.calls[i]? = some c ∧ c.stage.slot = some σ := by
  cases h with
  | begun hc hs hslot hcell =>
    exact .inr ⟨_, _, _, _, rfl, hslot, hcell, getElem?_set_of_some hslot, hc, by rw [hs]; rfl⟩
  | asked | locked | swept | found | made | finished | took | failed | dropped | invalidated => exact .inl rfl

/-- No runner appears but by a begin. -/
theorem Moved.runner_back (h : Moved s e t) {slot : Slot K V E} (hs : t.slots[σ]? = some slot)
    (hr : slot.cell.runner = some j) :
    (∃ slot0, s.slots[σ]? = some slot0 ∧ slot0.cell.runner = some j) ∨ (σ, j) ∈ t.begun := by
  cases h with
  | made =>
    obtain hs : (s.slots ++ _)[σ]? = some slot := hs
    rcases getElem?_snoc_cases hs with hs | ⟨-, rfl⟩
    · exact .inl ⟨slot, hs, hr⟩
    · cases hr
  | begun hc hst hslot hcell =>
    rcases getElem?_set_cases hs with ⟨rfl, rfl⟩ | ⟨-, hs⟩
    · cases hr
      exact .inr (List.mem_append_right _ (List.mem_singleton.mpr rfl))
    · exact .inl ⟨slot, hs, hr⟩
  | finished hc hst hslot hcell =>
    rcases getElem?_set_cases hs with ⟨rfl, rfl⟩ | ⟨-, hs⟩
    · exact .inl ⟨_, hslot, by rw [hcell]; exact hr⟩
    · exact .inl ⟨slot, hs, hr⟩
  | asked | locked | swept | found | took | failed | dropped | invalidated => exact .inl ⟨slot, hs, hr⟩

theorem step_ran (hi : Inv s) (h : Moved s e t) :
    (σ, j) ∈ t.begun ↔ ∃ slot, t.slots[σ]? = some slot ∧ slot.cell.runner = some j := by
  have hkept : (σ, j) ∈ s.begun → ∃ slot, t.slots[σ]? = some slot ∧ slot.cell.runner = some j := by
    intro hm
    obtain ⟨slot, hs, hr⟩ := (hi.ran σ j).mp hm
    obtain ⟨slot', hs', -, hrunner, -⟩ := h.slot_kept hs
    exact ⟨slot', hs', hrunner j hr⟩
  constructor
  · intro hm
    rcases h.begun_cases with heq | ⟨σ', i, c, slot, heq, -, -, hslot, -⟩
    · exact hkept (by rwa [heq] at hm)
    · rw [heq] at hm
      rcases List.mem_append.mp hm with hm | hm
      · exact hkept hm
      · cases List.mem_singleton.mp hm
        exact ⟨_, hslot, rfl⟩
  · intro h'
    obtain ⟨slot, hs, hr⟩ := h'
    rcases h.runner_back hs hr with hs0 | hm
    · have hm := (hi.ran σ j).mpr hs0
      rcases h.begun_cases with heq | ⟨σ', i, c, slot, heq, -⟩
      · rwa [heq]
      · rw [heq]
        exact List.mem_append_left _ hm
    · exact hm

theorem step_once (hi : Inv s) (h : Moved s e t) : (t.begun.map Prod.fst).Nodup := by
  rcases h.begun_cases with heq | ⟨σ, i, c, slot, heq, hslot, hcell, -⟩
  · rw [heq]
    exact hi.once
  · rw [heq, List.map_append, List.nodup_append]
    refine ⟨hi.once, by simp, ?_⟩
    intro σ' hm σ'' hm' heq'
    subst heq'
    obtain rfl : σ' = σ := by simpa using hm'
    obtain ⟨⟨τ, j⟩, hbegun, rfl⟩ := List.mem_map.mp hm
    obtain ⟨slot', hs', hr⟩ := (hi.ran τ j).mp hbegun
    obtain rfl : slot' = slot := Option.some.inj (hs'.symm.trans hslot)
    rw [hcell] at hr
    cases hr

theorem step_runner (hi : Inv s) (h : Moved s e t) (hm : (σ, j) ∈ t.begun) :
    ∃ c, t.calls[j]? = some c ∧ c.stage.slot = some σ := by
  have hkept : (σ, j) ∈ s.begun → ∃ c, t.calls[j]? = some c ∧ c.stage.slot = some σ := by
    intro hm
    obtain ⟨c, hc, hslot⟩ := hi.runner σ j hm
    obtain ⟨d, hd, -, hkept⟩ := h.call_kept hc
    exact ⟨d, hd, hkept σ hslot⟩
  rcases h.begun_cases with heq | ⟨σ', i, c, slot, heq, -, -, -, hc, hst⟩
  · exact hkept (by rwa [heq] at hm)
  · rw [heq] at hm
    rcases List.mem_append.mp hm with hm | hm
    · exact hkept hm
    · cases List.mem_singleton.mp hm
      exact ⟨c, hc, hst⟩

theorem step_installed (hi : Inv s) (h : Moved s e t) {slot : Slot K V E} (hs : t.slots[σ]? = some slot)
    (hnot : ∀ j v, slot.cell ≠ .ready j (.ok v)) (hh : Held t σ) : t.entries.lookup slot.key = some σ := by
  rcases h.slot_back hs with ⟨slot0, hs0, hkey, hready⟩ | ⟨-, -, hl⟩
  · have hnot0 : ∀ j v, slot0.cell ≠ .ready j (.ok v) := by
      intro j v heq
      exact hnot j v (hready j v heq)
    have hh0 : Held s σ := by
      rcases h.held hh with hh | rfl
      · exact hh
      · rw [List.getElem?_eq_none (le_refl _)] at hs0
        cases hs0
    have hl := hi.installed σ slot0 hs0 hnot0 hh0
    rw [← hkey]
    apply h.entry_kept hl hh0
    -- only who was given the slot can invalidate it
    intro i c v he hc hst
    obtain ⟨slot', j, hs', hcell⟩ := hi.outcome i c σ (.ok v) hc (by rw [hst]; rfl)
    obtain rfl : slot' = slot0 := Option.some.inj (hs'.symm.trans hs0)
    exact hnot0 j v hcell
  · exact hl

theorem step_inv (hi : Inv s) (e : Ev K V E) : Inv (step s e) := by
  rcases step_moved s e with heq | h
  · rw [heq]
    exact hi
  · exact {
      entry := fun k σ hl => step_entry hi h hl
      looked := fun i c σ hc hσ => step_looked hi h hc hσ
      outcome := fun i c σ r hc hr => step_outcome hi h hc hr
      ran := fun σ j => step_ran hi h
      once := step_once hi h
      runner := fun σ j hm => step_runner hi h hm
      installed := fun σ slot hs hnot hh => step_installed hi h hs hnot hh }

theorem init_inv : Inv (⟨∅, [], [], []⟩ : St K V E) where
  entry k σ hl := by cases hl
  looked i c σ hc := by simp at hc
  outcome i c σ r hc := by simp at hc
  ran σ j := by simp
  once := List.nodup_nil
  runner σ j hm := by cases hm
  installed σ slot hs := by simp at hs

theorem reach_inv (h : (machine K V E).Reach s) : Inv s := by
  refine h.invariant ?_ ?_
  · intro s0 h0
    rw [show s0 = ⟨∅, [], [], []⟩ from h0]
    exact init_inv
  · intro s e _ hi
    exact step_inv hi e

end

/-! ## Lookups -/

section

variable {K V E : Type} [DecidableEq K] {s t u : St K V E} {e : Ev K V E} {i j σ τ : Nat} {c d : Call K V E} {k : K}

theorem look_some (hd : t.calls[j]? = some d) (hs : d.stage = .sweeping []) (hu : t.upgrade d.key = some σ) :
    step t (.look j) = t.goes j d (.found σ) := by
  simp only [step, next, hd, hs, hu, Option.bind_eq_bind, Option.bind_some, Option.getD_some]

theorem look_none (hd : t.calls[j]? = some d) (hs : d.stage = .sweeping []) (hu : t.upgrade d.key = none) :
    step t (.look j) = t.makes j d := by
  simp only [step, next, hd, hs, hu, Option.bind_eq_bind, Option.bind_some, Option.getD_some]

/-- Right after its lookup a call has the slot of its entry, and holds it. -/
theorem look_found (hd : s.calls[j]? = some d) (hs : d.stage = .sweeping [])
    (hc : (step s (.look j)).calls[j]? = some c) (hf : c.stage = .found σ) :
    (step s (.look j)).entries.lookup c.key = some σ ∧ c.key = d.key := by
  cases hu : s.upgrade d.key with
  | some τ =>
    rw [look_some hd hs hu] at hc ⊢
    rw [goes_self hd] at hc
    cases hc
    cases hf
    exact ⟨(upgrade_some.mp hu).1, rfl⟩
  | none =>
    rw [look_none hd hs hu] at hc ⊢
    have hcall : (s.makes j d).calls[j]? = some { d with stage := .found s.slots.length } := goes_self hd
    rw [hcall] at hc
    cases hc
    cases hf
    exact ⟨AList.lookup_insert _, rfl⟩

/-- While a slot is held and spared, whoever looks its key up gets it. -/
theorem path_entry (p : (machine K V E).Path (fun s e => Held s σ ∧ Spares k σ s e) s t)
    (hl : s.entries.lookup k = some σ) : t.entries.lookup k = some σ := by
  refine p.invariant (P := fun t => t.entries.lookup k = some σ) ?_ hl
  intro s e hg hl
  rcases step_moved s e with heq | h
  · show (step s e).entries.lookup k = some σ
    rwa [heq]
  · exact h.entry_kept hl hg.1 hg.2

/-- Until somebody looks the key up, its entry is the one there was, or gone. -/
theorem path_same (p : (machine K V E).Path (Unlooked k) s t) (hl : t.entries.lookup k = some σ) :
    s.entries.lookup k = some σ := by
  induction p with
  | refl => exact hl
  | step e p hg ih =>
    apply ih
    rcases step_moved _ e with heq | h
    · rwa [show (machine K V E).step _ e = _ from heq] at hl
    · exact h.entry_same hg hl

theorem path_slot (p : (machine K V E).Path (fun _ _ => True) s t) {slot : Slot K V E} (hs : s.slots[σ]? = some slot) :
    ∃ slot', t.slots[σ]? = some slot' ∧ slot'.key = slot.key := by
  refine p.invariant (P := fun t => ∃ slot', t.slots[σ]? = some slot' ∧ slot'.key = slot.key) ?_ ⟨slot, hs, rfl⟩
  intro t e _ h
  obtain ⟨slot', hs', hk⟩ := h
  rcases step_moved t e with heq | h
  · refine ⟨slot', ?_, hk⟩
    show (step t e).slots[σ]? = some slot'
    rwa [heq]
  · obtain ⟨slot'', hs'', hk', -⟩ := h.slot_kept hs'
    exact ⟨slot'', hs'', hk'.trans hk⟩

theorem path_call (p : (machine K V E).Path (fun _ _ => True) s t) (hc : s.calls[i]? = some c) :
    ∃ d, t.calls[i]? = some d ∧ d.key = c.key ∧ ∀ σ, c.stage.slot = some σ → d.stage.slot = some σ := by
  refine p.invariant (P := fun t => ∃ d, t.calls[i]? = some d ∧ d.key = c.key ∧
    ∀ σ, c.stage.slot = some σ → d.stage.slot = some σ) ?_ ⟨c, hc, rfl, fun _ h => h⟩
  intro t e _ hd
  obtain ⟨d, hd, hk, hslot⟩ := hd
  rcases step_moved t e with heq | h
  · refine ⟨d, ?_, hk, hslot⟩
    show (step t e).calls[i]? = some d
    rwa [heq]
  · obtain ⟨d', hd', hk', hslot'⟩ := h.call_kept hd
    exact ⟨d', hd', hk'.trans hk, fun σ hσ => hslot' σ (hslot σ hσ)⟩

/-- A slot that is no entry is none ever again. -/
theorem path_gone (p : (machine K V E).Path (fun _ _ => True) s t) {slot : Slot K V E} (hs : s.slots[σ]? = some slot)
    (hl : s.entries.lookup k ≠ some σ) : t.entries.lookup k ≠ some σ := by
  induction p with
  | refl => exact hl
  | step e p _ ih =>
    intro hl'
    rcases step_moved _ e with heq | h
    · rw [show (machine K V E).step _ e = _ from heq] at hl'
      exact ih hl'
    · rcases h.entry_back hl' with hl0 | ⟨rfl, -⟩
      · exact ih hl0
      · obtain ⟨slot', hs', -⟩ := path_slot p hs
        exact absurd (List.getElem?_eq_some_iff.mp hs').1 (lt_irrefl _)

/-- A slot that nobody holds is held by nobody ever again. -/
theorem path_unheld (p : (machine K V E).Path (fun _ _ => True) s t) {slot : Slot K V E} (hs : s.slots[σ]? = some slot)
    (hh : ¬ Held s σ) : ¬ Held t σ := by
  induction p with
  | refl => exact hh
  | step e p _ ih =>
    intro hh'
    rcases step_moved _ e with heq | h
    · rw [show (machine K V E).step _ e = _ from heq] at hh'
      exact ih hh'
    · rcases h.held hh' with hh0 | rfl
      · exact ih hh0
      · obtain ⟨slot', hs', -⟩ := path_slot p hs
        exact absurd (List.getElem?_eq_some_iff.mp hs').1 (lt_irrefl _)

/-- The entry is not the one of who invalidated it. -/
theorem invalidate_gone (hc : s.calls[i]? = some c) {v : V} (hs : c.stage = .returned σ v) (hf : s.free = true) :
    (step s (.invalidate k i)).entries.lookup k ≠ some σ := by
  have hnext : step s (.invalidate k i) = if s.upgrade k = some σ then { s with entries := s.entries.erase k } else s := by
    simp only [step, next, hc, hs, hf, Option.bind_eq_bind, Option.bind_some, if_true]
    split <;> rfl
  rw [hnext]
  split
  · intro hl
    rw [AList.lookup_erase] at hl
    cases hl
  · rename_i hu
    intro hl
    exact hu (upgrade_some.mpr ⟨hl, c, List.mem_of_getElem? hc, by rw [hs]; rfl⟩)

theorem length_calls (e : Ev K V E) (he : ∀ k, e ≠ .ask k) : (step s e).calls.length = s.calls.length := by
  rcases step_moved s e with heq | h
  · rw [heq]
  · generalize step s e = t at h
    cases h with
    | asked => exact absurd rfl (he _)
    | locked | swept | found | made | took | failed | dropped => exact List.length_set
    | begun | finished | invalidated => rfl

/-- What a call has of its slot is the work of a call with the same key. -/
theorem result_of_runner (hi : Inv s) (hc : s.calls[i]? = some c) {r : Except E V}
    (hr : c.stage.result = some (σ, r)) :
    ∃ slot j d, s.slots[σ]? = some slot ∧ slot.cell = .ready j r ∧ (σ, j) ∈ s.begun ∧ s.calls[j]? = some d ∧
      d.key = c.key ∧ d.stage.slot = some σ := by
  obtain ⟨slot, j, hs, hcell⟩ := hi.outcome i c σ r hc hr
  have hm := (hi.ran σ j).mpr ⟨slot, hs, by rw [hcell]; rfl⟩
  obtain ⟨d, hd, hslot⟩ := hi.runner σ j hm
  have hcs : c.stage.slot = some σ := by
    cases hstage : c.stage <;> rw [hstage] at hr <;> cases hr <;> rfl
  obtain ⟨slot1, hs1, hk1⟩ := hi.looked j d σ hd hslot
  obtain ⟨slot2, hs2, hk2⟩ := hi.looked i c σ hc hcs
  obtain rfl := Option.some.inj (hs1.symm.trans hs2)
  exact ⟨slot, j, d, hs, hcell, hm, hd, hk1.symm.trans hk2, hslot⟩

theorem result_unique (hi : Inv s) (hc : s.calls[i]? = some c) (hd : s.calls[j]? = some d) {r r' : Except E V}
    (hr : c.stage.result = some (σ, r)) (hr' : d.stage.result = some (σ, r')) : r = r' := by
  obtain ⟨slot, _, hs, hcell⟩ := hi.outcome i c σ r hc hr
  obtain ⟨slot', _, hs', hcell'⟩ := hi.outcome j d σ r' hd hr'
  obtain rfl := Option.some.inj (hs.symm.trans hs')
  rw [hcell] at hcell'
  cases hcell'
  rfl

/-- Who is the first to see a failure, or any other, leaves its slot as the entry. -/
theorem failing_entry (hi : Inv s) (hc : s.calls[i]? = some c) (hs : c.stage = .found σ)
    (hd : (step s (.take i)).calls[i]? = some d) {e : E} (hf : d.stage = .failed σ e) :
    ∃ slot, (step s (.take i)).slots[σ]? = some slot ∧ slot.key = c.key ∧
      (step s (.take i)).entries.lookup c.key = some σ := by
  have hh : Held s σ := ⟨c, List.mem_of_getElem? hc, by rw [hs]; rfl⟩
  obtain ⟨slot, hslot, hkey⟩ := hi.looked i c σ hc (by rw [hs]; rfl)
  rcases step_moved s (.take i) with heq | hm
  · rw [heq, hc] at hd
    cases hd
    rw [hs] at hf
    cases hf
  generalize step s (.take i) = s' at hm hd
  cases hm with
  | took hc' hs' hslot' hcell =>
    rw [goes_self hc'] at hd
    cases hd
    cases hf
  | failed hc' hs' hslot' hcell =>
    obtain rfl := Option.some.inj (hc'.symm.trans hc)
    rw [hs] at hs'
    cases hs'
    obtain rfl := Option.some.inj (hslot'.symm.trans hslot)
    refine ⟨_, hslot, hkey, ?_⟩
    rw [← hkey]
    refine hi.installed σ _ hslot ?_ hh
    intro j v hready
    rw [hcell] at hready
    cases hready

/-- A slot made in a lookup is new, and no initializer was begun on it. -/
theorem made_fresh (hi : Inv s) (i j : Nat) (c : Call K V E) : (s.slots.length, j) ∉ (s.makes i c).begun := by
  intro hm
  obtain ⟨slot, hs, -⟩ := (hi.ran s.slots.length j).mp hm
  exact absurd (List.getElem?_eq_some_iff.mp hs).1 (lt_irrefl _)

theorem begin_made (hd : s.calls[j]? = some d) :
    (step (s.makes j d) (.begin j)).begun = s.begun ++ [(s.slots.length, j)] := by
  have hcall : (s.makes j d).calls[j]? = some { d with stage := .found s.slots.length } := goes_self hd
  have hslot : (s.makes j d).slots[s.slots.length]? = some ⟨d.key, .empty⟩ := List.getElem?_concat_length
  simp only [step, next, hcall, hslot, Option.bind_eq_bind, Option.bind_some, Option.getD_some]
  rfl

end

/-- The pool of weak connections in every interleaving: a slot is initialized once, who gets a
    value gets its slot's, a live slot is shared, and an invalidation forgets its own slot and
    no other. -/
theorem weak_pool (K V E : Type) [DecidableEq K] (s : St K V E) (h : (machine K V E).Reach s) :
    -- who ran an initializer
    (s.begun.map Prod.fst).Nodup ∧
    (∀ σ j, (σ, j) ∈ s.begun → ∃ d, s.calls[j]? = some d ∧ d.stage.slot = some σ) ∧
    (∀ (i : Nat) (c : Call K V E) σ v, s.calls[i]? = some c → c.stage.result = some (σ, .ok v) →
      ∃ slot j d, s.slots[σ]? = some slot ∧ slot.cell = .ready j (.ok v) ∧ (σ, j) ∈ s.begun ∧
        s.calls[j]? = some d ∧ d.key = c.key) ∧
    -- two acquires of a key
    (∀ (i : Nat) (c c' : Call K V E) σ, s.calls[i]? = some c → c.stage = .sweeping [] →
      (step s (.look i)).calls[i]? = some c' → c'.stage = .found σ →
      ∀ t, (machine K V E).Path (fun t e => Held t σ ∧ Spares c.key σ t e) (step s (.look i)) t → Held t σ →
      ∀ (j : Nat) (d : Call K V E), t.calls[j]? = some d → d.stage = .sweeping [] → d.key = c.key →
        step t (.look j) = t.goes j d (.found σ)) ∧
    (∀ (i j : Nat) (c d : Call K V E) σ r r', s.calls[i]? = some c → s.calls[j]? = some d →
      c.stage.result = some (σ, r) → d.stage.result = some (σ, r') → r = r') ∧
    -- invalidations
    (∀ k (i : Nat), step s (.invalidate k i) = s ∨
      ∃ c σ v, s.calls[i]? = some c ∧ c.stage = .returned σ v ∧ s.entries.lookup k = some σ ∧
        step s (.invalidate k i) = { s with entries := s.entries.erase k } ∧
        -- the next acquire of the key
        (∀ t, (machine K V E).Path (Unlooked k) (step s (.invalidate k i)) t →
          ∀ (j : Nat) (d : Call K V E), t.calls[j]? = some d → d.stage = .sweeping [] → d.key = k →
            step t (.look j) = t.makes j d) ∧
        -- all later acquires
        ∀ t, (machine K V E).Path (fun _ _ => True) (step s (.invalidate k i)) t →
          ∀ (j : Nat) (d d' : Call K V E) τ, t.calls[j]? = some d → d.stage = .sweeping [] → d.key = k →
            (step t (.look j)).calls[j]? = some d' → d'.stage = .found τ → τ ≠ σ) ∧
    -- a failed initialization
    (∀ (i : Nat) (c : Call K V E) σ e, s.calls[i]? = some c → c.stage = .failed σ e →
      ∃ slot j, s.slots[σ]? = some slot ∧ slot.cell = .ready j (.error e) ∧ (σ, j) ∈ s.begun) ∧
    (∀ (i : Nat) (c c' : Call K V E) σ e, s.calls[i]? = some c → c.stage = .found σ →
      (step s (.take i)).calls[i]? = some c' → c'.stage = .failed σ e → ¬ Held (step s (.take i)) σ →
      ∀ t, (machine K V E).Path (Unlooked c.key) (step s (.take i)) t →
        ∀ (j : Nat) (d : Call K V E), t.calls[j]? = some d → d.stage = .sweeping [] → d.key = c.key →
          step t (.look j) = t.makes j d ∧ (∀ j', (t.slots.length, j') ∉ (t.makes j d).begun) ∧
          (step (t.makes j d) (.begin j)).begun = t.begun ++ [(t.slots.length, j)]) := by
  have hi := reach_inv h
  refine ⟨hi.once, hi.runner, ?_, ?_, ?_, ?_, ?_, ?_⟩
  · intro i c σ v hc hr
    obtain ⟨slot, j, d, hs, hcell, hm, hd, hk, -⟩ := result_of_runner hi hc hr
    exact ⟨slot, j, d, hs, hcell, hm, hd, hk⟩
  · intro i c c' σ hc hs hc' hf t p hh j d hd hds hk
    obtain ⟨hl, hkey⟩ := look_found hc hs hc' hf
    rw [hkey] at hl
    refine look_some hd hds (upgrade_some.mpr ⟨?_, hh⟩)
    rw [hk]
    exact path_entry p hl
  · intro i j c d σ r r' hc hd hr hr'
    exact result_unique hi hc hd hr hr'
  · intro k i
    rcases step_moved s (.invalidate k i) with heq | hm
    · exact .inl heq
    right
    have hi' := step_inv hi (.invalidate k i)
    generalize hst : step s (.invalidate k i) = s' at hm hi'
    cases hm with
    | invalidated hc hstage hu =>
      rename_i σ c v
      obtain ⟨hl, -⟩ := upgrade_some.mp hu
      have hgone : (s.entries.erase k).lookup k = none := AList.lookup_erase k s.entries
      refine ⟨c, σ, v, hc, hstage, hl, rfl, ?_, ?_⟩
      · intro t p j d hd hds hk
        apply look_none hd hds
        rw [hk, upgrade_none]
        intro τ hτ
        have hτ' := path_same p hτ
        rw [hgone] at hτ'
        cases hτ'
      · intro t p j d d' τ hd hds hk hd' hf heq
        subst heq
        obtain ⟨⟨slot, hslot, -⟩, -⟩ := hi.entry k τ hl
        obtain ⟨hlook, hkey⟩ := look_found hd hds hd' hf
        have hnot : (s.entries.erase k).lookup k ≠ some τ := by simp [hgone]
        refine path_gone (p.step (.look j) trivial) hslot hnot ?_
        rw [← hk, ← hkey]
        exact hlook
  · intro i c σ e hc hs
    obtain ⟨slot, j, -, hslot, hcell, hm, -⟩ := result_of_runner hi hc (by rw [hs]; rfl)
    exact ⟨slot, j, hslot, hcell, hm⟩
  · intro i c c' σ e hc hs hc' hf hh t p j d hd hds hk
    have p' : (machine K V E).Path (fun _ _ => True) (step s (.take i)) t := p.weaken fun _ _ _ => trivial
    have hit : Inv t := reach_inv ((h.next (.take i)).extend p')
    obtain ⟨slot, hslot, hkey, hl⟩ := failing_entry hi hc hs hc' hf
    have hnone : t.upgrade d.key = none := by
      rw [hk, upgrade_none]
      intro τ hτ
      obtain rfl : τ = σ := Option.some.inj ((path_same p hτ).symm.trans hl)
      exact path_unheld p' hslot hh
    exact ⟨look_none hd hds hnone, fun j' => made_fresh hit j j' d, begin_made hd⟩

/-! ## Runs -/

abbrev SmallEv := Ev Nat Nat String

/-- A call has looked up key 7 and not found it. -/
def looking : St Nat Nat String := (machine Nat Nat String).run ⟨∅, [], [], []⟩ [.ask 7, .lock 0]

/-- It connected; a second call of the key has swept. -/
def connected : List SmallEv := [.begin 0, .finish 0 (.ok 42), .take 0, .ask 7, .lock 1, .check 1 7]

/-- The second call gets the slot of the first. -/
theorem weak_pool_shared :
    let t := (machine Nat Nat String).run (step looking (.look 0)) connected
    step t (.look 1) = t.goes 1 ⟨7, .sweeping []⟩ (.found 0) := by
  intro t
  have hreach : (machine Nat Nat String).Reach looking := .run rfl _
  have hshared := (weak_pool Nat Nat String looking hreach).2.2.2.1
  have hspares : ∀ (s : St Nat Nat String) (e : SmallEv), e ∈ connected → Spares 7 0 s e := by
    intro s e he i c v heq
    subst heq
    simp [connected] at he
  have hpath : (machine Nat Nat String).Path (fun s e => Held s 0 ∧ Spares 7 0 s e) (step looking (.look 0)) t := by
    refine Machine.Admits.path ⟨⟨?_, ?_⟩, ⟨?_, ?_⟩, ⟨?_, ?_⟩, ⟨?_, ?_⟩, ⟨?_, ?_⟩, ⟨?_, ?_⟩, trivial⟩
    all_goals first
      | exact hspares _ _ (by simp [connected])
      | exact strongCount_pos.mp (by decide)
  exact hshared 0 _ _ 0 rfl rfl rfl rfl t hpath (strongCount_pos.mp (by decide)) 1 _ rfl rfl rfl

/-- A call could not connect and has returned. -/
def refused : St Nat Nat String := (machine Nat Nat String).run ⟨∅, [], [], []⟩
  [.ask 7, .lock 0, .look 0, .begin 0, .finish 0 (.error "refused"), .take 0]

/-- Call 1 looks the key up, then call 2, which is the first at the new slot. -/
def retried : List SmallEv :=
  [.ask 7, .lock 1, .check 1 7, .look 1, .ask 7, .lock 2, .check 2 7, .look 2, .begin 2, .finish 2 (.ok 42), .take 1]

/-- The next acquire after a failure gets what another one's initializer made. -/
theorem another_initializer_runs : (machine Nat Nat String).Reach refused ∧
    refused.calls = [⟨7, .failed 0 "refused"⟩] ∧ ¬ Held refused 0 ∧
    let t := (machine Nat Nat String).run refused retried
    (∃ c, t.calls[1]? = some c ∧ c.key = 7 ∧ c.stage = .returned 1 42) ∧ ∀ σ, (σ, 1) ∉ t.begun := by
  refine ⟨.run rfl _, rfl, ?_, ⟨_, rfl, rfl, rfl⟩, ?_⟩
  · rw [← strongCount_pos]
    decide
  · intro σ hm
    have hbegun : ((machine Nat Nat String).run refused retried).begun = [(0, 0), (1, 2)] := rfl
    rw [hbegun] at hm
    simp at hm

end Grainlift.Client.Pool
