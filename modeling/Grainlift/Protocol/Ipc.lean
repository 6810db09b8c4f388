/-
  Grainlift.Protocol.Ipc — one batch as one IPC stream: `encode_batch_ipc`,
  `decode_batch_ipc` and what they measure (grainlift-protocol/src/responses.rs).

  Arrow's `StreamWriter` and `StreamReader` are not part of the repository: at batches of a
  type `β` they are an `IpcStream β`, which may do anything. What the code relies on is
  `IpcStream.Lawful`: what is written has Arrow's framing and reads back as that one batch,
  and decoded arrays own no more memory than there were bytes.

  Around them is the repository's own: the sink that refuses to grow past its limit, the
  framing check, the demand for exactly one batch, and the count of the memory behind the
  decoded arrays, which visits every buffer and counts an allocation once.
-/

import Grainlift.Protocol.Framing

namespace Grainlift.Protocol

open Grainlift.Lib

/-! ## Memory behind arrays -/

/-- A buffer of an array: the allocation it is in, and where in it. -/
structure Buffer where
  dataPtr : Nat
  capacity : Nat
  ptrOffset : Nat
  len : Nat

/-- `arrow_data::ArrayData`, as far as it is memory. -/
inductive ArrayData where
  | mk (buffers : List Buffer) (nulls : Option Buffer) (childData : List ArrayData)

section Buffers

variable (p : Platform)

def Buffer.size (b : Buffer) : Nat := max b.capacity (p.saturatingAdd b.ptrOffset b.len)

/-- `sizes.entry(ptr).and_modify(max).or_insert(size)`. -/
def countBuffer (sizes : Table Nat Nat) (b : Buffer) : Table Nat Nat :=
  sizes.insert b.dataPtr (max ((sizes.lookup b.dataPtr).getD 0) (b.size p))

mutual

def visit : ArrayData → Table Nat Nat → Table Nat Nat
  | .mk buffers nulls childData, sizes => visitAll childData ((buffers ++ nulls.toList).foldl (countBuffer p) sizes)

def visitAll : List ArrayData → Table Nat Nat → Table Nat Nat
  | [], sizes => sizes
  | data :: rest, sizes => visitAll rest (visit data sizes)

end

def batchBufferBytes (columns : List ArrayData) : Nat :=
  ((visitAll p columns ∅).entries.map (·.2)).foldl p.saturatingAdd 0

end Buffers

/-! ## Streams -/

/-- A batch as it was read: its value, and the memory it is in. -/
structure Decoded (β : Type) where
  batch : β
  columns : List ArrayData

/-- `StreamWriter` and `StreamReader` at batches of type `β`. -/
structure IpcStream (β : Type) where
  /-- `get_array_memory_size`. -/
  memorySize : β → Nat
  /-- What writing the one batch, from `try_new` to `finish`, passes to the sink. -/
  writes : β → Except String (List Bytes)
  /-- `try_new`, and then the answer of each call of `next`. -/
  reads : Bytes → Except String (Nat → Option (Except String (Decoded β)))

structure BoundedBuffer where
  bytes : Bytes
  limit : Nat

/-- `?` on an `ArrowError`. -/
def orArrow {α : Type} (r : Except String α) : Except Fault α := r.mapError fun e => .refused (.arrow e)

section Codec

variable (p : Platform) (bodyLength : Bytes → Option Int64) {β : Type} (ipc : IpcStream β)

/-- `Write::write`. No `Vec` holds more than `isize::MAX` bytes. -/
def BoundedBuffer.write (sink : BoundedBuffer) (data : Bytes) : Except Fault BoundedBuffer :=
  if sink.limit - sink.bytes.length < data.length then
    .error (.refused (.arrow "Arrow IPC payload exceeds configured limit"))
  else if p.isizeMax < sink.bytes.length + data.length then .error .panic
  else .ok { sink with bytes := sink.bytes ++ data }

def encodeBatchIpc (batch : β) (limit : Nat) : Except Fault Bytes := do
  if limit < ipc.memorySize batch then .error (.refused (invalid "Arrow batch exceeds configured limit"))
  else
    let chunks ← orArrow (ipc.writes batch)
    let sink ← chunks.foldlM (BoundedBuffer.write p) ⟨[], limit⟩
    return sink.bytes

def decodeBatchIpc (bytes : Bytes) (limit : Nat) : Except Fault β := do
  validateIpc p bodyLength bytes limit
  let next ← orArrow (ipc.reads bytes)
  match next 0 with
  | none => .error (.refused (invalid "IPC stream must contain one batch"))
  | some first =>
    let decoded ← orArrow first
    match next 1 with
    | some (.error e) => .error (.refused (.arrow e))
    | some (.ok _) => .error (.refused (invalid "IPC stream contains multiple batches"))
    | none =>
      if limit < batchBufferBytes p decoded.columns then
        .error (.refused (invalid "decoded Arrow batch exceeds configured limit"))
      else .ok decoded.batch

/-- Reading the bytes yields this batch and then the end. -/
def IpcStream.Holds (bytes : Bytes) (decoded : Decoded β) : Prop :=
  ∃ next, ipc.reads bytes = .ok next ∧ next 0 = some (.ok decoded) ∧ next 1 = none

/-- What the code relies on of Arrow. -/
structure IpcStream.Lawful : Prop where
  framed : ∀ batch chunks, ipc.writes batch = .ok chunks → Framed bodyLength chunks.flatten
  inverse : ∀ batch chunks, ipc.writes batch = .ok chunks →
    ∃ decoded, ipc.Holds chunks.flatten decoded ∧ decoded.batch = batch
  memory : ∀ bytes decoded, ipc.Holds bytes decoded → batchBufferBytes p decoded.columns ≤ bytes.length

end Codec

/-! ## What the two functions do -/

section

variable {p : Platform} {bodyLength : Bytes → Option Int64} {β : Type} {ipc : IpcStream β} {batch : β}
  {bytes : Bytes} {limit : Nat}

@[simp] theorem orArrow_ok {α : Type} {r : Except String α} {a : α} : orArrow r = .ok a ↔ r = .ok a :=
  mapError_eq_ok

theorem write_ok {sink sink' : BoundedBuffer} {data : Bytes} (h : sink.write p data = .ok sink') :
    sink' = { sink with bytes := sink.bytes ++ data } ∧ data.length ≤ sink.limit - sink.bytes.length ∧
      sink.bytes.length + data.length ≤ p.isizeMax := by
  unfold BoundedBuffer.write at h
  by_cases hl : sink.limit - sink.bytes.length < data.length
  · rw [if_pos hl] at h
    cases h
  · rw [if_neg hl] at h
    by_cases hm : p.isizeMax < sink.bytes.length + data.length
    · rw [if_pos hm] at h
      cases h
    · rw [if_neg hm] at h
      cases h
      exact ⟨rfl, by omega, by omega⟩

/-- The sink holds all that was written, within its limit. -/
theorem writes_ok {chunks : List Bytes} {sink sink' : BoundedBuffer} (hs : sink.bytes.length ≤ sink.limit)
    (hm : sink.bytes.length ≤ p.isizeMax) (h : chunks.foldlM (BoundedBuffer.write p) sink = .ok sink') :
    sink'.bytes = sink.bytes ++ chunks.flatten ∧ sink'.bytes.length ≤ sink.limit ∧
      sink'.bytes.length ≤ p.isizeMax := by
  induction chunks generalizing sink with
  | nil =>
    cases h
    exact ⟨(List.append_nil _).symm, hs, hm⟩
  | cons data chunks ih =>
    rw [List.foldlM_cons] at h
    obtain ⟨sink1, h1, h⟩ := bind_eq_ok h
    obtain ⟨rfl, hd, hd'⟩ := write_ok h1
    have hlen : (sink.bytes ++ data).length = sink.bytes.length + data.length := List.length_append
    obtain ⟨hb, hl, hmax⟩ := ih (by simp only [hlen]; omega) (by simp only [hlen]; omega) h
    refine ⟨?_, hl, hmax⟩
    rw [hb, List.flatten_cons, List.append_assoc]

theorem encodeBatchIpc_ok (h : encodeBatchIpc p ipc batch limit = .ok bytes) :
    ∃ chunks, ipc.writes batch = .ok chunks ∧ bytes = chunks.flatten ∧ bytes.length ≤ limit ∧
      bytes.length ≤ p.isizeMax := by
  unfold encodeBatchIpc at h
  by_cases hm : limit < ipc.memorySize batch
  · rw [if_pos hm] at h
    cases h
  rw [if_neg hm] at h
  obtain ⟨chunks, hw, h⟩ := bind_eq_ok h
  obtain ⟨sink, hs, h⟩ := bind_eq_ok h
  cases h
  obtain ⟨hb, hl, hmax⟩ := writes_ok (Nat.zero_le _) (Nat.zero_le _) hs
  exact ⟨chunks, orArrow_ok.mp hw, hb, hl, hmax⟩

theorem decodeBatchIpc_ok (h : decodeBatchIpc p bodyLength ipc bytes limit = .ok batch) :
    validateIpc p bodyLength bytes limit = .ok () ∧ ∃ decoded, ipc.Holds bytes decoded ∧ decoded.batch = batch ∧
      batchBufferBytes p decoded.columns ≤ limit := by
  obtain ⟨_, hv, h⟩ := bind_eq_ok h
  obtain ⟨next, hr, h⟩ := bind_eq_ok h
  refine ⟨hv, ?_⟩
  cases h0 : next 0 with
  | none =>
    rw [h0] at h
    cases h
  | some first =>
    rw [h0] at h
    obtain ⟨decoded, hf, h⟩ := bind_eq_ok h
    cases h1 : next 1 with
    | some second =>
      rw [h1] at h
      cases second <;> cases h
    | none =>
      rw [h1] at h
      by_cases hb : limit < batchBufferBytes p decoded.columns
      · simp only [if_pos hb] at h
        cases h
      · simp only [if_neg hb] at h
        cases h
        exact ⟨decoded, ⟨next, orArrow_ok.mp hr, by rw [h0, orArrow_ok.mp hf], h1⟩, rfl, Nat.not_lt.mp hb⟩

/-- A batch that was read is refused by the memory it is in alone. -/
theorem decodeBatchIpc_holds {decoded : Decoded β} (hv : validateIpc p bodyLength bytes limit = .ok ())
    (hh : ipc.Holds bytes decoded) : decodeBatchIpc p bodyLength ipc bytes limit =
      if limit < batchBufferBytes p decoded.columns then
        .error (.refused (invalid "decoded Arrow batch exceeds configured limit"))
      else .ok decoded.batch := by
  obtain ⟨next, hr, h0, h1⟩ := hh
  unfold decodeBatchIpc
  rw [hv, hr]
  simp only [orArrow, mapError_of_ok, bind, Except.bind, h0, h1]

theorem decodeBatchIpc_of_holds {decoded : Decoded β} (hv : validateIpc p bodyLength bytes limit = .ok ())
    (hh : ipc.Holds bytes decoded) (hb : batchBufferBytes p decoded.columns ≤ limit) :
    decodeBatchIpc p bodyLength ipc bytes limit = .ok decoded.batch := by
  rw [decodeBatchIpc_holds hv hh, if_neg (Nat.not_lt.mpr hb)]

variable (hl : ipc.Lawful p bodyLength)
include hl

/-- What is accepted: a framed stream within the limit, of exactly one batch. -/
theorem decodeBatchIpc_ok_iff (hb : bytes.length ≤ p.isizeMax) :
    decodeBatchIpc p bodyLength ipc bytes limit = .ok batch ↔
      bytes.length ≤ limit ∧ Framed bodyLength bytes ∧ ∃ decoded, ipc.Holds bytes decoded ∧ decoded.batch = batch := by
  constructor
  · intro h
    obtain ⟨hv, decoded, hh, hbatch, -⟩ := decodeBatchIpc_ok h
    obtain ⟨hlen, hf⟩ := (validateIpc_ok_iff hb).mp hv
    exact ⟨hlen, hf, decoded, hh, hbatch⟩
  · intro h
    obtain ⟨hlen, hf, decoded, hh, rfl⟩ := h
    have hmem := hl.memory bytes decoded hh
    exact decodeBatchIpc_of_holds ((validateIpc_ok_iff hb).mpr ⟨hlen, hf⟩) hh (by omega)

/-- What was encoded decodes at every limit it fits in. -/
theorem decode_encodeBatchIpc {limit' : Nat} (h : encodeBatchIpc p ipc batch limit = .ok bytes)
    (hle : bytes.length ≤ limit') : decodeBatchIpc p bodyLength ipc bytes limit' = .ok batch := by
  obtain ⟨chunks, hw, rfl, -, hmax⟩ := encodeBatchIpc_ok h
  obtain ⟨decoded, hh, hbatch⟩ := hl.inverse batch chunks hw
  rw [decodeBatchIpc_ok_iff hl hmax]
  exact ⟨hle, hl.framed batch chunks hw, decoded, hh, hbatch⟩

end

/-! ## A stream of one batch

  Arrow as it is at one batch and the bytes of its stream. -/

def IpcStream.one {β : Type} [DecidableEq β] (batch : β) (chunks : List Bytes) : IpcStream β where
  memorySize _ := 64
  writes b := if b = batch then .ok chunks else .error "unsupported"
  reads bytes :=
    if bytes = chunks.flatten then .ok fun n => if n = 0 then some (.ok ⟨batch, []⟩) else none
    else .error "unsupported"

/-- It writes the one batch only. -/
theorem IpcStream.one_writes {β : Type} [DecidableEq β] {batch b : β} {chunks cs : List Bytes}
    (h : (IpcStream.one batch chunks).writes b = .ok cs) : b = batch ∧ cs = chunks := by
  by_cases hb : b = batch
  · simp only [IpcStream.one, if_pos hb] at h
    cases h
    exact ⟨hb, rfl⟩
  · simp only [IpcStream.one, if_neg hb] at h
    cases h

theorem IpcStream.one_lawful {β : Type} [DecidableEq β] {batch : β} {chunks : List Bytes} {p : Platform}
    {bodyLength : Bytes → Option Int64} (hf : Framed bodyLength chunks.flatten) :
    (IpcStream.one batch chunks).Lawful p bodyLength := by
  refine ⟨?_, ?_, ?_⟩
  · intro b cs h
    obtain ⟨-, rfl⟩ := one_writes h
    exact hf
  · intro b cs h
    obtain ⟨rfl, rfl⟩ := one_writes h
    refine ⟨⟨b, []⟩, ⟨fun n => if n = 0 then some (.ok ⟨b, []⟩) else none, ?_, rfl, rfl⟩, rfl⟩
    simp only [IpcStream.one, if_true]
  · intro bytes decoded h
    obtain ⟨next, hr, h0, -⟩ := h
    by_cases hb : bytes = chunks.flatten
    · simp only [IpcStream.one, if_pos hb] at hr
      cases hr
      simp only [if_true] at h0
      cases h0
      exact Nat.zero_le _
    · simp only [IpcStream.one, if_neg hb] at hr
      cases hr

end Grainlift.Protocol
