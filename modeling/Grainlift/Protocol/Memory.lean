/-
  Grainlift.Protocol.Memory — what `batch_buffer_bytes` measures
  (grainlift-protocol/src/responses.rs).

  Decoded columns are trees of array data, and the buffers in them refer to allocations:
  one allocation may be behind many buffers, as slices or shared. The traversal keeps, in a
  table by the allocation's address, the largest extent it has met; the sum saturates.

  `Occurs` says that a buffer is somewhere in a tree. All that counts is which buffers do:
  their `references` are the set of an address and an extent that `Lib.Extents` measures.

  Proved (`decoded_memory`): the result is the sum over the allocations that occur of the
  largest extent that occurs, cut at `usize::MAX`; so it is the same for columns and
  children in any order (`Shuffled`), and with references that reach no further than what
  is there; it grows with what occurs, is no less than any one allocation, and it is what
  a decoded batch is refused by.
-/

import Grainlift.Lib.Extents
import Grainlift.Protocol.Ipc

namespace Grainlift.Protocol

open Grainlift.Lib Grainlift.Lib.Extents

/-! ## Buffers in trees -/

/-- The buffer is somewhere in the tree. -/
inductive Occurs (b : Buffer) : ArrayData → Prop
  | buffer {buffers : List Buffer} {nulls : Option Buffer} {children : List ArrayData} :
      b ∈ buffers → Occurs b (.mk buffers nulls children)
  | nulls {buffers : List Buffer} {children : List ArrayData} : Occurs b (.mk buffers (some b) children)
  | child {buffers : List Buffer} {nulls : Option Buffer} {children : List ArrayData} {data : ArrayData} :
      data ∈ children → Occurs b data → Occurs b (.mk buffers nulls children)

/-- The buffer is in one of the columns. -/
def OccursIn (b : Buffer) (columns : List ArrayData) : Prop := ∃ data ∈ columns, Occurs b data

mutual

/-- The buffers in the order they are visited. -/
def ArrayData.visited : ArrayData → List Buffer
  | .mk buffers nulls children => buffers ++ nulls.toList ++ visitedAll children

def visitedAll : List ArrayData → List Buffer
  | [] => []
  | data :: rest => data.visited ++ visitedAll rest

end

theorem occurs_mk {b : Buffer} {buffers : List Buffer} {nulls : Option Buffer} {children : List ArrayData} :
    Occurs b (.mk buffers nulls children) ↔ b ∈ buffers ∨ nulls = some b ∨ OccursIn b children := by
  constructor
  · intro h
    cases h with
    | buffer hb => exact .inl hb
    | nulls => exact .inr (.inl rfl)
    | child hd ho => exact .inr (.inr ⟨_, hd, ho⟩)
  · intro h
    rcases h with hb | rfl | ⟨data, hd, ho⟩
    · exact .buffer hb
    · exact .nulls
    · exact .child hd ho

theorem occursIn_cons {b : Buffer} {data : ArrayData} {rest : List ArrayData} :
    OccursIn b (data :: rest) ↔ Occurs b data ∨ OccursIn b rest := by
  simp [OccursIn]

mutual

theorem mem_visited {b : Buffer} : (data : ArrayData) → (b ∈ data.visited ↔ Occurs b data)
  | .mk buffers nulls children => by
    rw [occurs_mk, ← mem_visitedAll children]
    simp [ArrayData.visited]

theorem mem_visitedAll {b : Buffer} : (columns : List ArrayData) → (b ∈ visitedAll columns ↔ OccursIn b columns)
  | [] => by simp [visitedAll, OccursIn]
  | data :: rest => by
    rw [occursIn_cons, ← mem_visited data, ← mem_visitedAll rest]
    simp [visitedAll]

end

/-! ## The traversal -/

section

variable {p : Platform}

mutual

theorem visit_eq : (data : ArrayData) → (sizes : Table Nat Nat) →
    visit p data sizes = data.visited.foldl (countBuffer p) sizes
  | .mk buffers nulls children, sizes => by
    rw [visit, visitAll_eq children, ArrayData.visited]
    exact List.foldl_append.symm

theorem visitAll_eq : (columns : List ArrayData) → (sizes : Table Nat Nat) →
    visitAll p columns sizes = (visitedAll columns).foldl (countBuffer p) sizes
  | [], _ => rfl
  | data :: rest, sizes => by
    rw [visitAll, visit_eq data, visitAll_eq rest, visitedAll]
    exact List.foldl_append.symm

end

/-- The allocation and how far into it the buffer extends. -/
def Buffer.reference (p : Platform) (b : Buffer) : Nat × Nat := (b.dataPtr, b.size p)

/-- What the columns refer to. -/
def references (p : Platform) (columns : List ArrayData) : Finset (Nat × Nat) :=
  ((visitedAll columns).map (Buffer.reference p)).toFinset

theorem mem_references {columns : List ArrayData} {e : Nat × Nat} :
    e ∈ references p columns ↔ ∃ b, OccursIn b columns ∧ b.reference p = e := by
  simp [references, mem_visitedAll]

theorem foldl_countBuffer (buffers : List Buffer) (sizes : Table Nat Nat) :
    buffers.foldl (countBuffer p) sizes = (buffers.map (Buffer.reference p)).foldl tally sizes := by
  rw [List.foldl_map]
  rfl

/-- The result is the extent of what the columns refer to. -/
theorem batchBufferBytes_eq (columns : List ArrayData) :
    batchBufferBytes p columns = min (extent (references p columns)) p.usizeMax := by
  have htallied : Tallied (visitAll p columns ∅) (references p columns) := by
    rw [visitAll_eq, foldl_countBuffer]
    have h := tallied_foldl tallied_empty ((visitedAll columns).map (Buffer.reference p))
    rwa [Finset.empty_union] at h
  have hsum : ((visitAll p columns ∅).entries.map (·.2)).sum = extent (references p columns) := htallied.total
  unfold batchBufferBytes
  rw [show p.saturatingAdd = fun a b => min (a + b) p.usizeMax from rfl, foldl_saturating (Nat.zero_le _), hsum,
    Nat.zero_add]

/-- References that are covered make no more. -/
theorem batchBufferBytes_le {columns columns' : List ArrayData}
    (h : ∀ b, OccursIn b columns → ∃ b', OccursIn b' columns' ∧ b'.dataPtr = b.dataPtr ∧ b.size p ≤ b'.size p) :
    batchBufferBytes p columns ≤ batchBufferBytes p columns' := by
  have hcovers : Covers (references p columns') (references p columns) := by
    intro e he
    obtain ⟨b, hb, rfl⟩ := mem_references.mp he
    obtain ⟨b', hb', hptr, hle⟩ := h b hb
    exact ⟨b'.reference p, mem_references.mpr ⟨b', hb', rfl⟩, hptr, hle⟩
  rw [batchBufferBytes_eq, batchBufferBytes_eq]
  have hle := hcovers.extent_le
  omega

theorem batchBufferBytes_mono {columns columns' : List ArrayData} (h : ∀ b, OccursIn b columns → OccursIn b columns') :
    batchBufferBytes p columns ≤ batchBufferBytes p columns' :=
  batchBufferBytes_le fun b hb => ⟨b, h b hb, rfl, le_rfl⟩

theorem size_le_batchBufferBytes {columns : List ArrayData} {b : Buffer} (h : OccursIn b columns)
    (hc : b.capacity ≤ p.usizeMax) : b.size p ≤ batchBufferBytes p columns := by
  have hsize : b.size p ≤ p.usizeMax := max_le hc (Nat.min_le_right _ _)
  have hle : b.size p ≤ extent (references p columns) :=
    le_extent (e := b.reference p) (mem_references.mpr ⟨b, h, rfl⟩)
  rw [batchBufferBytes_eq]
  exact le_min hle hsize

end

/-! ## Columns and children in another order -/

/-- The same columns, and the same children of any array at any depth, in another order. -/
inductive Shuffled : List ArrayData → List ArrayData → Prop
  | perm {columns columns' : List ArrayData} : columns.Perm columns' → Shuffled columns columns'
  | inside {buffers : List Buffer} {nulls : Option Buffer} {children children' rest : List ArrayData} :
      Shuffled children children' → Shuffled (.mk buffers nulls children :: rest) (.mk buffers nulls children' :: rest)
  | trans {columns columns' columns'' : List ArrayData} : Shuffled columns columns' → Shuffled columns' columns'' →
      Shuffled columns columns''

theorem Shuffled.occursIn {columns columns' : List ArrayData} (h : Shuffled columns columns') (b : Buffer) :
    OccursIn b columns ↔ OccursIn b columns' := by
  induction h with
  | perm hp =>
    unfold OccursIn
    simp only [hp.mem_iff]
  | inside _ ih => rw [occursIn_cons, occursIn_cons, occurs_mk, occurs_mk, ih]
  | trans _ _ ih ih' => rw [ih, ih']

/-- The size of a batch counts every allocation once, at the largest extent any of its buffers
    has in it, and saturates; so neither order nor sharing changes it, and nothing that is
    added makes it smaller. -/
theorem decoded_memory (p : Platform) (columns : List ArrayData) :
    -- the sum
    (∃ (allocations : Finset Nat) (largest : Nat → Nat),
      (∀ ptr, ptr ∈ allocations ↔ ∃ b, OccursIn b columns ∧ b.dataPtr = ptr) ∧
      (∀ ptr ∈ allocations, IsGreatest
        {n | ∃ b, OccursIn b columns ∧ b.dataPtr = ptr ∧ n = max b.capacity (p.saturatingAdd b.ptrOffset b.len)}
        (largest ptr)) ∧
      batchBufferBytes p columns = min (∑ ptr ∈ allocations, largest ptr) p.usizeMax) ∧
    -- order
    (∀ columns', Shuffled columns columns' → batchBufferBytes p columns' = batchBufferBytes p columns) ∧
    -- what only reuses allocations
    (∀ columns', (∀ b, OccursIn b columns → OccursIn b columns') →
      (∀ b, OccursIn b columns' → ∃ b', OccursIn b' columns ∧ b'.dataPtr = b.dataPtr ∧ b.size p ≤ b'.size p) →
      batchBufferBytes p columns' = batchBufferBytes p columns) ∧
    -- what is added
    (∀ columns', (∀ b, OccursIn b columns → OccursIn b columns') →
      batchBufferBytes p columns ≤ batchBufferBytes p columns') ∧
    -- one allocation
    (∀ b, OccursIn b columns → b.capacity ≤ p.usizeMax → b.size p ≤ batchBufferBytes p columns) ∧
    -- what a batch is refused by
    (∀ (bodyLength : Bytes → Option Int64) (β : Type) (ipc : IpcStream β) (bytes : Bytes) (limit : Nat)
      (decoded : Decoded β), validateIpc p bodyLength bytes limit = .ok () → ipc.Holds bytes decoded →
      decoded.columns = columns →
      decodeBatchIpc p bodyLength ipc bytes limit =
        if limit < batchBufferBytes p columns then
          .error (.refused (invalid "decoded Arrow batch exceeds configured limit"))
        else .ok decoded.batch) := by
  refine ⟨⟨keys (references p columns), largest (references p columns), ?_, ?_, ?_⟩, ?_, ?_, ?_, ?_, ?_⟩
  · intro ptr
    rw [mem_keys]
    constructor
    · intro h
      obtain ⟨n, hn⟩ := h
      obtain ⟨b, hb, he⟩ := mem_references.mp hn
      exact ⟨b, hb, congrArg Prod.fst he⟩
    · intro h
      obtain ⟨b, hb, rfl⟩ := h
      exact ⟨b.size p, mem_references.mpr ⟨b, hb, rfl⟩⟩
  · intro ptr hptr
    refine ⟨?_, ?_⟩
    · obtain ⟨b, hb, he⟩ := mem_references.mp (largest_mem hptr)
      exact ⟨b, hb, congrArg Prod.fst he, (congrArg Prod.snd he).symm⟩
    · intro n h
      obtain ⟨b, hb, rfl, rfl⟩ := h
      exact le_largest (e := b.reference p) (mem_references.mpr ⟨b, hb, rfl⟩)
  · exact batchBufferBytes_eq columns
  · intro columns' h
    apply le_antisymm
    · exact batchBufferBytes_mono fun b => (h.occursIn b).mpr
    · exact batchBufferBytes_mono fun b => (h.occursIn b).mp
  · intro columns' h hreuse
    apply le_antisymm
    · exact batchBufferBytes_le hreuse
    · exact batchBufferBytes_mono h
  · intro columns' h
    exact batchBufferBytes_mono h
  · intro b hb hc
    exact size_le_batchBufferBytes hb hc
  · intro bodyLength β ipc bytes limit decoded hv hh hcolumns
    subst hcolumns
    exact decodeBatchIpc_holds hv hh

/-- Two columns and a slice of the first, in a child, on two allocations. -/
def sharing : List ArrayData :=
  [.mk [⟨4096, 64, 0, 64⟩] (some ⟨8192, 8, 0, 1⟩) [], .mk [] none [.mk [⟨4096, 64, 32, 32⟩] none []]]

theorem decoded_memory_sharing :
    batchBufferBytes ⟨64, by decide, .ascii⟩ sharing = 72 ∧
      batchBufferBytes ⟨64, by decide, .ascii⟩ sharing.reverse = 72 := by
  have h : batchBufferBytes ⟨64, by decide, .ascii⟩ sharing = 72 := by decide
  obtain ⟨-, horder, -⟩ := decoded_memory ⟨64, by decide, .ascii⟩ sharing
  exact ⟨h, (horder _ (.perm (List.reverse_perm _).symm)).trans h⟩

end Grainlift.Protocol
