/-
  Grainlift.Protocol.Framing — `validate_ipc`, the check of an IPC stream's framing before
  Arrow reads it (grainlift-protocol/src/responses.rs).

  A stream is a run of frames and one terminator. A frame is a length, metadata of that
  length, and the body whose length the metadata holds; the length, and the terminator's
  zero, may follow a marker of four 0xFF bytes. The lengths are the peer's. What the
  metadata says comes from Arrow (`root_as_message`, then `bodyLength`): here any partial
  function `bodyLength`.

  The function works in `usize` of any width from 16 bits on (`Platform`) with the source's
  own additions, saturating, checked and plain; what would panic is `Fault.panic`. A slice
  is never longer than `isize::MAX`, and that is all it takes for none to panic.

  Proved (`validateIpc_exact`): the loop ends, without a panic, and accepts exactly the
  streams within the limit, each of which can be cut into frames in one way; no accepted
  stream begins another one.
-/

import Grainlift.Lib.Loop
import Grainlift.Protocol.Wire

namespace Grainlift.Protocol

open Grainlift.Lib Loop

/-! ## Machine words -/

structure Platform where
  bits : Nat
  wide : 16 ≤ bits
  unicode : Unicode

namespace Platform

variable (p : Platform)

def usizeMax : Nat := 2 ^ p.bits - 1

def isizeMax : Nat := 2 ^ (p.bits - 1) - 1

def saturatingAdd (a b : Nat) : Nat := min (a + b) p.usizeMax

def checkedAdd (a b : Nat) : Option Nat := if a + b ≤ p.usizeMax then some (a + b) else none

/-- `usize::try_from`. -/
def tryFrom (n : Int) : Option Nat := if 0 ≤ n ∧ n ≤ p.usizeMax then some n.toNat else none

theorem room : 2 * p.isizeMax + 1 = p.usizeMax ∧ 2 ^ 15 - 1 ≤ p.isizeMax := by
  obtain ⟨k, hk⟩ := Nat.exists_eq_add_of_le p.wide
  have hle : 2 ^ 15 ≤ 2 ^ (p.bits - 1) := Nat.pow_le_pow_right (by decide) (by omega)
  have hsucc : 2 ^ p.bits = 2 * 2 ^ (p.bits - 1) := by
    conv_lhs => rw [show p.bits = (p.bits - 1) + 1 by omega, Nat.pow_succ]
    omega
  unfold isizeMax usizeMax
  omega

end Platform

/-- A byte slice as the platform can hold it. -/
structure Slice (p : Platform) where
  bytes : Bytes
  bound : bytes.length ≤ p.isizeMax

/-- Why a function returned no value: it says so, or it panicked. -/
inductive Fault where
  | refused (e : ProtocolError)
  /-- An index out of bounds, an overflow, or an `unwrap` of nothing. -/
  | panic
  deriving DecidableEq

/-- `ok_or_else(|| invalid(message))`. -/
def orInvalid {α : Type} (message : String) : Option α → Except Fault α
  | some a => .ok a
  | none => .error (.refused (invalid message))

/-! ## `validate_ipc` -/

section Validate

variable (p : Platform) (bodyLength : Bytes → Option Int64) (bytes : Bytes)

/-- `bytes.get(start..stop)`. -/
def getRange (start stop : Nat) : Option Bytes :=
  if start ≤ stop ∧ stop ≤ bytes.length then some ((bytes.drop start).take (stop - start)) else none

/-- `i32::from_le_bytes` of what must be four bytes. -/
def i32FromLeBytes : Bytes → Except Fault Int
  | [a, b, c, d] =>
    let n := a.toNat + 256 * b.toNat + 65536 * c.toNat + 16777216 * d.toNat
    .ok (if n < 2147483648 then n else n - 4294967296)
  | _ => .error .panic

/-- `offset += 4`. -/
def advance (offset : Nat) : Except Fault Nat :=
  if offset + 4 ≤ p.usizeMax then .ok (offset + 4) else .error .panic

/-- The word at `offset`, and the offset past it. -/
def readWord (message : String) (offset : Nat) : Except Fault (Int × Nat) := do
  let word ← orInvalid message (getRange bytes offset (p.saturatingAdd offset 4))
  let length ← i32FromLeBytes word
  return (length, ← advance p offset)

/-- The length at `offset`, after a marker if there is one. -/
def readLength (offset : Nat) : Except Fault (Int × Nat) := do
  let (length, offset) ← readWord p bytes "truncated IPC prefix" offset
  if length = -1 then readWord p bytes "truncated IPC continuation" offset else return (length, offset)

/-- The offset past the message at `offset`, its metadata of that length. -/
def skipMessage (offset : Nat) (length : Int) : Except Fault Nat := do
  let length ← orInvalid "invalid IPC metadata length" (p.tryFrom length)
  let stop ← orInvalid "IPC length overflow" (p.checkedAdd offset length)
  let metadata ← orInvalid "truncated IPC metadata" (getRange bytes offset stop)
  let message ← orInvalid "invalid IPC metadata" (bodyLength metadata)
  let body ← orInvalid "invalid IPC body length" (p.tryFrom message.toInt)
  orInvalid "truncated IPC body" ((p.checkedAdd stop body).filter (· ≤ bytes.length))

/-- One round of the loop, with the offset it starts at. -/
def validateRound (offset : Nat) : Except Fault (Round Nat Unit) := do
  let (length, offset) ← readLength p bytes offset
  if length = 0 then
    if offset = bytes.length then return .leave ()
    else .error (.refused (invalid "trailing IPC bytes"))
  else return .again (← skipMessage p bodyLength bytes offset length)

/-- An error ends the loop. -/
def validateStep (offset : Nat) : Round Nat (Except Fault Unit) :=
  match validateRound p bodyLength bytes offset with
  | .ok (.again offset) => .again offset
  | .ok (.leave r) => .leave (.ok r)
  | .error e => .leave (.error e)

/-- At most `rounds` rounds of the loop; `none` when it has not ended by then. -/
def validateIpcWithin (limit rounds : Nat) : Option (Except Fault Unit) :=
  if limit < bytes.length then some (.error (.refused (invalid "Arrow IPC payload exceeds configured limit")))
  else Loop.run (validateStep p bodyLength bytes) rounds 0

/-- The loop for as many rounds as there are bytes, and one. -/
def validateIpc (limit : Nat) : Except Fault Unit :=
  (validateIpcWithin p bodyLength bytes limit (bytes.length + 1)).getD (.error .panic)

end Validate

/-! ## What a stream is -/

/-- Four bytes, little-endian. -/
def le32 (n : Nat) : Bytes :=
  [UInt8.ofNat n, UInt8.ofNat (n / 256), UInt8.ofNat (n / 65536), UInt8.ofNat (n / 16777216)]

def marker (marked : Bool) : Bytes := if marked then [255, 255, 255, 255] else []

/-- A message: metadata of a positive `i32` length, and the body it announces. -/
@[ext]
structure Frame (bodyLength : Bytes → Option Int64) where
  marked : Bool
  metadata : Bytes
  body : Bytes
  wf : (0 < metadata.length ∧ metadata.length < 2147483648) ∧
    ∃ n, bodyLength metadata = some n ∧ n.toInt = body.length

variable {bodyLength : Bytes → Option Int64}

namespace Frame

def bytes (f : Frame bodyLength) : Bytes := marker f.marked ++ (le32 f.metadata.length ++ (f.metadata ++ f.body))

end Frame

def terminator (marked : Bool) : Bytes := marker marked ++ le32 0

def stream (frames : List (Frame bodyLength)) (marked : Bool) : Bytes :=
  (frames.map Frame.bytes).flatten ++ terminator marked

@[simp] theorem stream_nil (marked : Bool) : stream ([] : List (Frame bodyLength)) marked = terminator marked := rfl

@[simp] theorem stream_cons (f : Frame bodyLength) (frames : List (Frame bodyLength)) (marked : Bool) :
    stream (f :: frames) marked = f.bytes ++ stream frames marked := by
  simp [stream]

/-- The bytes are a stream, and nothing else. -/
def Framed (bodyLength : Bytes → Option Int64) (bytes : Bytes) : Prop :=
  ∃ (frames : List (Frame bodyLength)) (marked : Bool), bytes = stream frames marked

/-- There is always the terminator. -/
theorem Framed.ne_nil {bytes : Bytes} (h : Framed bodyLength bytes) : bytes ≠ [] := by
  obtain ⟨frames, marked, rfl⟩ := h
  intro h
  have hlast := (List.append_eq_nil_iff.mp (List.append_eq_nil_iff.mp h).2).2
  exact List.cons_ne_nil _ _ hlast

/-! ### A stream is cut in one way

  The first word tells a marker, a zero and a metadata length apart; from there on every
  length is known before the bytes it counts. -/

theorem le32_length (n : Nat) : (le32 n).length = 4 := rfl

theorem le32_inj {m n : Nat} (hm : m < 4294967296) (hn : n < 4294967296) (h : le32 m = le32 n) : m = n := by
  simp only [le32, List.cons.injEq, and_true] at h
  obtain ⟨h0, h1, h2, h3⟩ := h
  have e0 := congrArg UInt8.toNat h0
  have e1 := congrArg UInt8.toNat h1
  have e2 := congrArg UInt8.toNat h2
  have e3 := congrArg UInt8.toNat h3
  simp only [UInt8.toNat_ofNat'] at e0 e1 e2 e3
  omega

/-- A metadata length is no marker: its last byte is below 0x80. -/
theorem le32_ne_marker {n : Nat} (hn : n < 2147483648) : le32 n ≠ [255, 255, 255, 255] := by
  intro h
  simp only [le32, List.cons.injEq, and_true] at h
  have e3 := congrArg UInt8.toNat h.2.2.2
  simp only [UInt8.toNat_ofNat'] at e3
  have : (255 : UInt8).toNat = 255 := rfl
  omega

/-- A word below 2^31 after a marker or none, whatever follows: both are read off. -/
theorem marked_word_inj {marked marked' : Bool} {m n : Nat} {x y : Bytes} (hm : m < 2147483648) (hn : n < 2147483648)
    (h : marker marked ++ (le32 m ++ x) = marker marked' ++ (le32 n ++ y)) : marked = marked' ∧ m = n ∧ x = y := by
  have hword : ∀ {m n : Nat} {x y : Bytes}, m < 2147483648 → n < 2147483648 → le32 m ++ x = le32 n ++ y →
      m = n ∧ x = y := by
    intro m n x y hm hn h
    obtain ⟨hw, hr⟩ := List.append_inj h rfl
    exact ⟨le32_inj (by omega) (by omega) hw, hr⟩
  have hmark : ∀ {n : Nat} {x y : Bytes}, n < 2147483648 → le32 n ++ x ≠ [255, 255, 255, 255] ++ y := by
    intro n x y hn h
    exact le32_ne_marker hn (List.append_inj h rfl).1
  cases marked with
  | false =>
    cases marked' with
    | false => exact ⟨rfl, hword hm hn h⟩
    | true => exact absurd h (hmark hm)
  | true =>
    cases marked' with
    | false => exact absurd h.symm (hmark hn)
    | true => exact ⟨rfl, hword hm hn (List.append_cancel_left h)⟩

namespace Frame

theorem bytes_pos (f : Frame bodyLength) : 0 < f.bytes.length := by
  simp only [bytes, List.length_append, le32_length]
  omega

/-- A frame says where it ends. -/
theorem bytes_append_inj {f g : Frame bodyLength} {x y : Bytes} (h : f.bytes ++ x = g.bytes ++ y) :
    f = g ∧ x = y := by
  obtain ⟨⟨-, hfl⟩, n, hn, hnb⟩ := f.wf
  obtain ⟨⟨-, hgl⟩, k, hk, hkb⟩ := g.wf
  simp only [bytes, List.append_assoc] at h
  obtain ⟨hmark, hlen, h⟩ := marked_word_inj hfl hgl h
  obtain ⟨hmeta, h⟩ := List.append_inj h hlen
  -- the same metadata announces the same body length
  have hbody : f.body.length = g.body.length := by
    rw [hmeta, hk] at hn
    cases hn
    exact Int.ofNat_inj.mp (hnb.symm.trans hkb)
  obtain ⟨hb, hx⟩ := List.append_inj h hbody
  exact ⟨Frame.ext hmark hmeta hb, hx⟩

/-- No frame begins like a terminator. -/
theorem bytes_ne_terminator {f : Frame bodyLength} {marked : Bool} {x y : Bytes} :
    f.bytes ++ x ≠ terminator marked ++ y := by
  intro h
  obtain ⟨⟨hpos, hfl⟩, -⟩ := f.wf
  simp only [bytes, terminator, List.append_assoc] at h
  obtain ⟨-, hlen, -⟩ := marked_word_inj hfl (by omega) h
  omega

end Frame

/-- Two streams that agree as far as both go are one. -/
theorem stream_append_inj {frames frames' : List (Frame bodyLength)} {marked marked' : Bool} {x y : Bytes}
    (h : stream frames marked ++ x = stream frames' marked' ++ y) : frames = frames' ∧ marked = marked' ∧ x = y := by
  induction frames generalizing frames' with
  | nil =>
    cases frames' with
    | nil =>
      simp only [stream_nil, terminator, List.append_assoc] at h
      obtain ⟨hm, -, hx⟩ := marked_word_inj (by omega) (by omega) h
      exact ⟨rfl, hm, hx⟩
    | cons g rest =>
      rw [stream_nil, stream_cons, List.append_assoc] at h
      exact absurd h.symm Frame.bytes_ne_terminator
  | cons f frames ih =>
    cases frames' with
    | nil =>
      rw [stream_nil, stream_cons, List.append_assoc] at h
      exact absurd h Frame.bytes_ne_terminator
    | cons g rest =>
      rw [stream_cons, stream_cons, List.append_assoc, List.append_assoc] at h
      obtain ⟨rfl, hrest⟩ := Frame.bytes_append_inj h
      obtain ⟨rfl, hm, hx⟩ := ih hrest
      exact ⟨rfl, hm, hx⟩

/-! ## Words -/

@[simp] theorem orInvalid_some {α : Type} (message : String) (a : α) : orInvalid message (some a) = .ok a := rfl

@[simp] theorem orInvalid_none {α : Type} (message : String) :
    orInvalid message (none : Option α) = .error (.refused (invalid message)) := rfl

/-- A step that refuses where there is nothing: otherwise its value is there to go on with. -/
theorem or_refused {α β : Type} {P : Prop} {message : String} {x : Option α} {f : α → Except Fault β}
    (h : ∀ a, x = some a → P ∨ ∃ e, f a = .error (.refused e)) :
    P ∨ ∃ e, (orInvalid message x >>= f) = .error (.refused e) := by
  cases x with
  | none => exact .inr ⟨_, rfl⟩
  | some a => exact h a rfl

theorem i32_le32 {n : Nat} (hn : n < 2147483648) : i32FromLeBytes (le32 n) = .ok (n : Int) := by
  simp only [le32, i32FromLeBytes, UInt8.toNat_ofNat']
  have hsum : n % 2 ^ 8 + 256 * (n / 256 % 2 ^ 8) + 65536 * (n / 65536 % 2 ^ 8) +
      16777216 * (n / 16777216 % 2 ^ 8) = n := by omega
  rw [hsum, if_pos hn]

/-- Four bytes are a marker, a word of a nonnegative number, or a negative one. -/
theorem word_cases (a b c d : UInt8) :
    [a, b, c, d] = marker true ∨ (∃ n, n < 2147483648 ∧ [a, b, c, d] = le32 n) ∨
    ∃ k, k < -1 ∧ i32FromLeBytes [a, b, c, d] = .ok k := by
  have ha := a.toNat_lt
  have hb := b.toNat_lt
  have hc := c.toNat_lt
  have hd := d.toNat_lt
  generalize hn : a.toNat + 256 * b.toNat + 65536 * c.toNat + 16777216 * d.toNat = n
  by_cases hlt : n < 2147483648
  · refine .inr (.inl ⟨n, hlt, ?_⟩)
    simp only [le32, List.cons.injEq, and_true]
    refine ⟨?_, ?_, ?_, ?_⟩ <;> apply UInt8.toNat_inj.mp <;> simp only [UInt8.toNat_ofNat'] <;> omega
  · by_cases hall : n = 4294967295
    · left
      simp only [marker, if_true, List.cons.injEq, and_true]
      have hff : (255 : UInt8).toNat = 255 := rfl
      refine ⟨?_, ?_, ?_, ?_⟩ <;> apply UInt8.toNat_inj.mp <;> omega
    · refine .inr (.inr ⟨(n : Int) - 4294967296, by omega, ?_⟩)
      simp only [i32FromLeBytes, hn, if_neg hlt]

theorem four_le {l : Bytes} (h : 4 ≤ l.length) : ∃ a b c d rest, l = [a, b, c, d] ++ rest := by
  obtain _ | ⟨a, _ | ⟨b, _ | ⟨c, _ | ⟨d, rest⟩⟩⟩⟩ := l
  case cons.cons.cons.cons => exact ⟨a, b, c, d, rest, rfl⟩
  all_goals simp at h

section Loop

variable {p : Platform} {bytes : Bytes} {offset : Nat}

theorem getRange_of_drop {x y : Bytes} (h : bytes.drop offset = x ++ y) (hx : x ≠ []) :
    getRange bytes offset (offset + x.length) = some x ∧ offset + x.length ≤ bytes.length := by
  have hlen := congrArg List.length h
  have hpos := List.length_pos_iff.mpr hx
  simp only [List.length_drop, List.length_append] at hlen
  refine ⟨?_, by omega⟩
  unfold getRange
  rw [if_pos ⟨by omega, by omega⟩, h, Nat.add_sub_cancel_left, List.take_left]

theorem drop_after {x y : Bytes} (h : bytes.drop offset = x ++ y) : bytes.drop (offset + x.length) = y := by
  rw [← List.drop_drop, h, List.drop_left]

variable (hb : bytes.length ≤ p.isizeMax)
include hb

theorem readWord_of_drop {message : String} {w rest : Bytes} {n : Int} (hw : w.length = 4)
    (hn : i32FromLeBytes w = .ok n) (h : bytes.drop offset = w ++ rest) :
    readWord p bytes message offset = .ok (n, offset + 4) := by
  obtain ⟨hr1, hr2⟩ := p.room
  obtain ⟨hget, hle⟩ := getRange_of_drop h (List.length_pos_iff.mp (by omega))
  rw [hw] at hget hle
  have hsat : p.saturatingAdd offset 4 = offset + 4 := Nat.min_eq_left (by omega)
  have hadv : advance p offset = .ok (offset + 4) := if_pos (by omega)
  unfold readWord
  rw [hsat, hget, hadv]
  simp only [orInvalid_some, hn, bind, Except.bind, pure, Except.pure]

theorem readWord_short {message : String} (ho : offset ≤ bytes.length) (h : bytes.length < offset + 4) :
    readWord p bytes message offset = .error (.refused (invalid message)) := by
  obtain ⟨hr1, hr2⟩ := p.room
  have hsat : p.saturatingAdd offset 4 = offset + 4 := Nat.min_eq_left (by omega)
  have hget : getRange bytes offset (offset + 4) = none := if_neg (by omega)
  unfold readWord
  rw [hsat, hget]
  rfl

/-- Four bytes are there, or the word is refused. -/
theorem readWord_cases {message : String} (ho : offset ≤ bytes.length) :
    (∃ a b c d rest, bytes.drop offset = [a, b, c, d] ++ rest) ∨
    readWord p bytes message offset = .error (.refused (invalid message)) := by
  by_cases h : bytes.length < offset + 4
  · exact .inr (readWord_short hb ho h)
  · left
    have hlen : 4 ≤ (bytes.drop offset).length := by
      rw [List.length_drop]
      omega
    obtain ⟨a, b, c, d, rest, h⟩ := four_le hlen
    exact ⟨a, b, c, d, rest, h⟩

theorem readLength_of_drop {marked : Bool} {n : Nat} {rest : Bytes} (hn : n < 2147483648)
    (h : bytes.drop offset = marker marked ++ (le32 n ++ rest)) :
    readLength p bytes offset = .ok ((n : Int), offset + (marker marked).length + 4) := by
  have hne : (n : Int) ≠ -1 := by omega
  unfold readLength
  cases marked with
  | false =>
    rw [readWord_of_drop hb rfl (i32_le32 hn) h]
    simp only [bind, Except.bind, if_neg hne, pure, Except.pure]
    rfl
  | true =>
    have hm : i32FromLeBytes (marker true) = .ok (-1) := rfl
    have h' : bytes.drop (offset + 4) = le32 n ++ rest := drop_after h
    rw [readWord_of_drop hb rfl hm h]
    simp only [bind, Except.bind, if_true]
    rw [readWord_of_drop hb rfl (i32_le32 hn) h']
    rfl

/-- A length that is read is the word there, after a marker or none, or negative. -/
theorem readLength_cases (ho : offset ≤ bytes.length) :
    (∃ marked n rest, n < 2147483648 ∧ bytes.drop offset = marker marked ++ (le32 n ++ rest)) ∨
    (∃ e, readLength p bytes offset = .error (.refused e)) ∨
    ∃ k offset', k < 0 ∧ readLength p bytes offset = .ok (k, offset') := by
  rcases readWord_cases hb ho with ⟨a, b, c, d, rest, h⟩ | h
  case inr =>
    refine .inr (.inl ⟨invalid "truncated IPC prefix", ?_⟩)
    unfold readLength
    rw [h]
    rfl
  rcases word_cases a b c d with hm | ⟨n, hn, hw⟩ | ⟨k, hk, hi⟩
  · -- a marker: the word after it
    rw [hm] at h
    have ho' : offset + 4 ≤ bytes.length := (getRange_of_drop h (List.cons_ne_nil _ _)).2
    have h' : bytes.drop (offset + 4) = rest := drop_after h
    have hunfold : readLength p bytes offset = readWord p bytes "truncated IPC continuation" (offset + 4) := by
      have hi : i32FromLeBytes (marker true) = .ok (-1) := rfl
      unfold readLength
      rw [readWord_of_drop hb rfl hi h]
      rfl
    rcases readWord_cases hb ho' with ⟨a', b', c', d', rest', h2⟩ | h2
    case inr => exact .inr (.inl ⟨_, hunfold.trans h2⟩)
    rcases word_cases a' b' c' d' with hm' | ⟨n, hn, hw⟩ | ⟨k, hk, hi⟩
    · rw [hm'] at h2
      have hi : i32FromLeBytes (marker true) = .ok (-1) := rfl
      exact .inr (.inr ⟨-1, _, by decide, hunfold.trans (readWord_of_drop hb rfl hi h2)⟩)
    · refine .inl ⟨true, n, rest', hn, ?_⟩
      rw [h, ← h', h2, hw]
    · exact .inr (.inr ⟨k, _, by omega, hunfold.trans (readWord_of_drop hb rfl hi h2)⟩)
  · exact .inl ⟨false, n, rest, hn, by rw [h, hw]; rfl⟩
  · refine .inr (.inr ⟨k, offset + 4, by omega, ?_⟩)
    unfold readLength
    rw [readWord_of_drop hb rfl hi h]
    simp only [bind, Except.bind, if_neg (show ¬ k = -1 by omega), pure, Except.pure]

/-! ## Rounds -/

theorem skipMessage_of_frame {f : Frame bodyLength} {rest : Bytes}
    (h : bytes.drop offset = f.metadata ++ (f.body ++ rest)) :
    skipMessage p bodyLength bytes offset f.metadata.length = .ok (offset + f.metadata.length + f.body.length) := by
  obtain ⟨⟨hpos, -⟩, n, hn, hnb⟩ := f.wf
  obtain ⟨hr1, hr2⟩ := p.room
  obtain ⟨hget, hstop⟩ := getRange_of_drop h (List.length_pos_iff.mp hpos)
  have hend : offset + f.metadata.length + f.body.length ≤ bytes.length := by
    have hl := congrArg List.length (drop_after h)
    simp only [List.length_drop, List.length_append] at hl
    omega
  have hlen : p.tryFrom (f.metadata.length : Int) = some f.metadata.length := by
    unfold Platform.tryFrom
    rw [if_pos ⟨by omega, by omega⟩, Int.toNat_natCast]
  have hbody : p.tryFrom n.toInt = some f.body.length := by
    unfold Platform.tryFrom
    rw [hnb, if_pos ⟨by omega, by omega⟩, Int.toNat_natCast]
  have hadd : p.checkedAdd offset f.metadata.length = some (offset + f.metadata.length) := if_pos (by omega)
  have hadd' : p.checkedAdd (offset + f.metadata.length) f.body.length =
      some (offset + f.metadata.length + f.body.length) := if_pos (by omega)
  have hfilter : (some (offset + f.metadata.length + f.body.length)).filter (· ≤ bytes.length) =
      some (offset + f.metadata.length + f.body.length) := by simp [hend]
  unfold skipMessage
  simp only [bind, Except.bind, hlen, orInvalid_some, hadd, hget, hn, hbody, hadd', hfilter]

omit hb in
/-- A message that is skipped is metadata of the length given and the body it announces. -/
theorem skipMessage_cases {n : Nat} (hn : 0 < n ∧ n < 2147483648) (ho : offset ≤ bytes.length) :
    (∃ (f : Frame bodyLength) (rest : Bytes), f.metadata.length = n ∧ f.marked = false ∧
      bytes.drop offset = f.metadata ++ (f.body ++ rest)) ∨
    ∃ e, skipMessage p bodyLength bytes offset n = .error (.refused e) := by
  unfold skipMessage
  apply or_refused
  intro length h1
  apply or_refused
  intro stop h2
  apply or_refused
  intro metadata h3
  apply or_refused
  intro message h4
  apply or_refused
  intro body h5
  cases h6 : (p.checkedAdd stop body).filter (· ≤ bytes.length) with
  | none => exact .inr ⟨_, rfl⟩
  | some offset' =>
  left
  obtain ⟨-, rfl⟩ : (0 ≤ (n : Int) ∧ (n : Int) ≤ p.usizeMax) ∧ n = length := by
    simpa [Platform.tryFrom] using h1
  obtain ⟨-, rfl⟩ : offset + n ≤ p.usizeMax ∧ offset + n = stop := by simpa [Platform.checkedAdd] using h2
  obtain ⟨hstop, rfl⟩ : offset + n ≤ bytes.length ∧ (bytes.drop offset).take n = metadata := by
    simpa [getRange] using h3
  obtain ⟨⟨hpos, -⟩, rfl⟩ : (0 ≤ message.toInt ∧ message.toInt ≤ p.usizeMax) ∧ message.toInt.toNat = body := by
    simpa [Platform.tryFrom] using h5
  obtain ⟨⟨-, rfl⟩, hend⟩ : (offset + n + message.toInt.toNat ≤ p.usizeMax ∧ offset + n + message.toInt.toNat = offset') ∧
      offset' ≤ bytes.length := by
    simpa [Platform.checkedAdd, Option.filter_eq_some_iff] using h6
  have hlen : ((bytes.drop offset).take n).length = n := by
    rw [List.length_take, List.length_drop]
    omega
  have hbody : (((bytes.drop offset).drop n).take message.toInt.toNat).length = message.toInt.toNat := by
    rw [List.length_take, List.length_drop, List.length_drop]
    omega
  refine ⟨⟨false, (bytes.drop offset).take n, ((bytes.drop offset).drop n).take message.toInt.toNat, ?_⟩,
    ((bytes.drop offset).drop n).drop message.toInt.toNat, hlen, rfl, ?_⟩
  · rw [hlen]
    refine ⟨hn, message, h4, ?_⟩
    rw [hbody]
    omega
  · rw [List.take_append_drop, List.take_append_drop]

theorem round_of_frame {f : Frame bodyLength} {rest : Bytes} (h : bytes.drop offset = f.bytes ++ rest) :
    validateRound p bodyLength bytes offset = .ok (.again (offset + f.bytes.length)) := by
  obtain ⟨⟨hpos, hlt⟩, -⟩ := f.wf
  simp only [Frame.bytes, List.append_assoc] at h
  have hmeta : bytes.drop (offset + (marker f.marked).length + 4) = f.metadata ++ (f.body ++ rest) :=
    drop_after (drop_after h)
  have hsum : offset + (marker f.marked).length + 4 + f.metadata.length + f.body.length = offset + f.bytes.length := by
    simp only [Frame.bytes, List.length_append, le32_length]
    omega
  unfold validateRound
  rw [readLength_of_drop hb hlt h]
  simp only [bind, Except.bind, if_neg (show ¬ (f.metadata.length : Int) = 0 by omega),
    skipMessage_of_frame hb hmeta, hsum, pure, Except.pure]

theorem round_of_terminator {marked : Bool} (h : bytes.drop offset = terminator marked) :
    validateRound p bodyLength bytes offset = .ok (.leave ()) := by
  have h' : bytes.drop offset = marker marked ++ (le32 0 ++ []) := by rw [h, terminator, List.append_nil]
  have hend : offset + (marker marked).length + 4 = bytes.length := by
    have hl := congrArg List.length h
    simp only [terminator, List.length_append, List.length_drop, le32_length] at hl
    omega
  unfold validateRound
  rw [readLength_of_drop hb (by omega) h']
  simp only [bind, Except.bind, Int.natCast_zero, if_true, hend, pure, Except.pure]

/-- A round that does not refuse is at a frame or at the terminator, and none panics. -/
theorem round_cases (ho : offset ≤ bytes.length) :
    (∃ (f : Frame bodyLength) (rest : Bytes), bytes.drop offset = f.bytes ++ rest) ∨
    (∃ marked, bytes.drop offset = terminator marked) ∨
    ∃ e, validateRound p bodyLength bytes offset = .error (.refused e) := by
  rcases readLength_cases hb ho with ⟨marked, n, rest, hn, h⟩ | ⟨e, h⟩ | ⟨k, offset', hk, h⟩
  · have hword := readLength_of_drop hb hn h
    have hrest : bytes.drop (offset + (marker marked).length + 4) = rest := drop_after (drop_after h)
    have hstart : offset + (marker marked).length + 4 ≤ bytes.length := by
      have hl := congrArg List.length h
      simp only [List.length_append, List.length_drop, le32_length] at hl
      omega
    generalize offset + (marker marked).length + 4 = start at hword hrest hstart
    by_cases hz : n = 0
    · by_cases hend : start = bytes.length
      · refine .inr (.inl ⟨marked, ?_⟩)
        have hnil : rest = [] := by rw [← hrest, hend, List.drop_length]
        rw [h, hz, hnil, terminator, List.append_nil]
      · refine .inr (.inr ⟨invalid "trailing IPC bytes", ?_⟩)
        unfold validateRound
        rw [hword]
        simp only [bind, Except.bind, hz, Int.natCast_zero, if_true, if_neg hend]
    · rcases @skipMessage_cases bodyLength p bytes start n ⟨Nat.pos_of_ne_zero hz, hn⟩ hstart with
        ⟨f, rest', hlen, -, hf⟩ | ⟨e, he⟩
      · refine .inl ⟨⟨marked, f.metadata, f.body, f.wf⟩, rest', ?_⟩
        rw [h, ← hrest, hf, ← hlen]
        simp only [Frame.bytes, List.append_assoc]
      · refine .inr (.inr ⟨e, ?_⟩)
        unfold validateRound
        rw [hword]
        simp only [bind, Except.bind, if_neg (show ¬ (n : Int) = 0 by omega), he]
  · refine .inr (.inr ⟨e, ?_⟩)
    unfold validateRound
    rw [h]
    rfl
  · refine .inr (.inr ⟨invalid "invalid IPC metadata length", ?_⟩)
    have hneg : p.tryFrom k = none := if_neg (by omega)
    unfold validateRound
    rw [h]
    simp only [bind, Except.bind, if_neg (show ¬ k = 0 by omega), skipMessage, hneg, orInvalid_none]

/-! ## The loop -/

theorem step_of_frame {f : Frame bodyLength} {rest : Bytes} (h : bytes.drop offset = f.bytes ++ rest) :
    validateStep p bodyLength bytes offset = .again (offset + f.bytes.length) := by
  unfold validateStep
  rw [round_of_frame hb h]

theorem step_of_terminator {marked : Bool} (h : bytes.drop offset = terminator marked) :
    validateStep p bodyLength bytes offset = .leave (.ok ()) := by
  unfold validateStep
  rw [round_of_terminator hb h]

/-- All that a round can do. -/
theorem step_cases (ho : offset ≤ bytes.length) :
    (∃ (f : Frame bodyLength) (rest : Bytes), bytes.drop offset = f.bytes ++ rest ∧
      validateStep p bodyLength bytes offset = .again (offset + f.bytes.length)) ∨
    (∃ marked, bytes.drop offset = terminator marked ∧ validateStep p bodyLength bytes offset = .leave (.ok ())) ∨
    ∃ e, validateStep p bodyLength bytes offset = .leave (.error (.refused e)) := by
  rcases @round_cases bodyLength p bytes offset hb ho with ⟨f, rest, h⟩ | ⟨marked, h⟩ | ⟨e, h⟩
  · exact .inl ⟨f, rest, h, step_of_frame hb h⟩
  · exact .inr (.inl ⟨marked, h, step_of_terminator hb h⟩)
  · refine .inr (.inr ⟨e, ?_⟩)
    unfold validateStep
    rw [h]

/-- A round that goes on has moved, within the bytes. -/
theorem step_again {next : Nat} (ho : offset ≤ bytes.length)
    (h : validateStep p bodyLength bytes offset = .again next) :
    next ≤ bytes.length ∧ bytes.length - next < bytes.length - offset := by
  rcases @step_cases bodyLength p bytes offset hb ho with ⟨f, rest, hf, hs⟩ | ⟨marked, -, hs⟩ | ⟨e, hs⟩
  · cases h.symm.trans hs
    have hpos := Frame.bytes_pos f
    have hl := congrArg List.length hf
    simp only [List.length_append, List.length_drop] at hl
    omega
  · cases h.symm.trans hs
  · cases h.symm.trans hs

theorem leaves_of_stream {frames : List (Frame bodyLength)} {marked : Bool}
    (h : bytes.drop offset = stream frames marked) : Leaves (validateStep p bodyLength bytes) offset (.ok ()) := by
  induction frames generalizing offset with
  | nil => exact .now (step_of_terminator hb h)
  | cons f frames ih =>
    rw [stream_cons] at h
    exact .later (step_of_frame hb h) (ih (drop_after h))

/-- A loop that ends saw a stream, or refuses. -/
theorem stream_of_leaves {r : Except Fault Unit} (ho : offset ≤ bytes.length)
    (h : Leaves (validateStep p bodyLength bytes) offset r) :
    (r = .ok () ∧ Framed bodyLength (bytes.drop offset)) ∨ ∃ e, r = .error (.refused e) := by
  induction h with
  | @now offset r hs =>
    rcases @step_cases bodyLength p bytes offset hb ho with ⟨f, rest, -, hs'⟩ | ⟨marked, ht, hs'⟩ | ⟨e, hs'⟩
    · cases hs.symm.trans hs'
    · cases hs.symm.trans hs'
      exact .inl ⟨rfl, [], marked, ht⟩
    · cases hs.symm.trans hs'
      exact .inr ⟨e, rfl⟩
  | @later offset next r hs _ ih =>
    rcases @step_cases bodyLength p bytes offset hb ho with ⟨f, rest, hf, hs'⟩ | ⟨marked, ht, hs'⟩ | ⟨e, hs'⟩
    · have hnext := (step_again hb ho hs).1
      cases hs.symm.trans hs'
      rcases ih hnext with ⟨hr, frames, marked, hrest⟩ | he
      · refine .inl ⟨hr, f :: frames, marked, ?_⟩
        rw [hf, stream_cons, ← hrest, drop_after hf]
      · exact .inr he
    · cases hs.symm.trans hs'
    · cases hs.symm.trans hs'

theorem validateIpcWithin_eq (bodyLength : Bytes → Option Int64) (limit : Nat) {rounds : Nat}
    (hr : bytes.length < rounds) :
    validateIpcWithin p bodyLength bytes limit rounds = some (validateIpc p bodyLength bytes limit) := by
  have hstep : ∀ s s', s ≤ bytes.length → validateStep p bodyLength bytes s = .again s' →
      s' ≤ bytes.length ∧ bytes.length - s' < bytes.length - s := fun s s' hs h => step_again hb hs h
  obtain ⟨r, hrun⟩ := run_of_measure hstep (Nat.zero_le _)
  unfold validateIpc validateIpcWithin
  by_cases hl : limit < bytes.length
  · rw [if_pos hl, if_pos hl]
    rfl
  · rw [if_neg hl, if_neg hl, hrun rounds (by omega), hrun (bytes.length + 1) (by omega)]
    rfl

theorem validateIpc_leaves (bodyLength : Bytes → Option Int64) {limit : Nat} (hl : bytes.length ≤ limit) :
    Leaves (validateStep p bodyLength bytes) 0 (validateIpc p bodyLength bytes limit) := by
  have h := validateIpcWithin_eq hb bodyLength limit (Nat.lt_succ_self _)
  unfold validateIpcWithin at h
  rw [if_neg (Nat.not_lt.mpr hl)] at h
  exact leaves_of_run h

theorem validateIpc_ok_iff {limit : Nat} :
    validateIpc p bodyLength bytes limit = .ok () ↔ bytes.length ≤ limit ∧ Framed bodyLength bytes := by
  by_cases hl : bytes.length ≤ limit
  · have hleaves := validateIpc_leaves hb bodyLength hl
    constructor
    · intro h
      rcases stream_of_leaves hb (Nat.zero_le _) hleaves with ⟨-, hf⟩ | ⟨e, he⟩
      · exact ⟨hl, hf⟩
      · rw [h] at he
        cases he
    · intro h
      obtain ⟨-, frames, marked, h⟩ := h
      exact hleaves.unique (leaves_of_stream hb h)
  · have hover : validateIpc p bodyLength bytes limit =
        .error (.refused (invalid "Arrow IPC payload exceeds configured limit")) := by
      unfold validateIpc validateIpcWithin
      rw [if_pos (Nat.lt_of_not_le hl)]
      rfl
    rw [hover]
    constructor
    · intro h
      cases h
    · intro h
      obtain ⟨h, -⟩ := h
      exact absurd h hl

theorem validateIpc_no_panic (limit : Nat) : validateIpc p bodyLength bytes limit ≠ .error .panic := by
  intro h
  by_cases hl : bytes.length ≤ limit
  · rcases stream_of_leaves hb (Nat.zero_le _) (validateIpc_leaves hb bodyLength hl) with ⟨he, -⟩ | ⟨e, he⟩ <;>
      cases h.symm.trans he
  · unfold validateIpc validateIpcWithin at h
    rw [if_pos (Nat.lt_of_not_le hl)] at h
    cases h

end Loop

/-- `validate_ipc` on every slice, at every limit, whatever Arrow's message parser says. -/
theorem validateIpc_exact (p : Platform) (bodyLength : Bytes → Option Int64) (s : Slice p) (limit : Nat) :
    (∀ rounds, s.bytes.length < rounds →
      validateIpcWithin p bodyLength s.bytes limit rounds = some (validateIpc p bodyLength s.bytes limit)) ∧
    validateIpc p bodyLength s.bytes limit ≠ .error .panic ∧
    (validateIpc p bodyLength s.bytes limit = .ok () ↔
      s.bytes.length ≤ limit ∧ ∃! cut : List (Frame bodyLength) × Bool, s.bytes = stream cut.1 cut.2) ∧
    (validateIpc p bodyLength s.bytes limit = .ok () → ∀ (t : Slice p) (more : Bytes) (limit' : Nat), more ≠ [] →
      (s.bytes = t.bytes ++ more ∨ t.bytes = s.bytes ++ more) → validateIpc p bodyLength t.bytes limit' ≠ .ok ()) := by
  refine ⟨fun rounds hr => validateIpcWithin_eq s.bound bodyLength limit hr, validateIpc_no_panic s.bound limit, ?_, ?_⟩
  · rw [validateIpc_ok_iff s.bound]
    apply and_congr_right
    intro _
    constructor
    · intro hyp
      obtain ⟨frames, marked, h⟩ := hyp
      refine ⟨(frames, marked), h, ?_⟩
      intro hyp h'
      obtain ⟨frames', marked'⟩ := hyp
      have heq : stream frames' marked' ++ [] = stream frames marked ++ [] := by rw [← h, ← h']
      obtain ⟨rfl, rfl, -⟩ := stream_append_inj heq
      rfl
    · intro hyp
      obtain ⟨⟨frames, marked⟩, h, -⟩ := hyp
      exact ⟨frames, marked, h⟩
  · intro hs t more limit' hmore hcut ht
    obtain ⟨-, frames, marked, h⟩ := (validateIpc_ok_iff s.bound).mp hs
    obtain ⟨-, frames', marked', h'⟩ := (validateIpc_ok_iff t.bound).mp ht
    rcases hcut with hcut | hcut
    · have heq : stream frames marked ++ [] = stream frames' marked' ++ more := by rw [← h, ← h', hcut, List.append_nil]
      exact hmore (stream_append_inj heq).2.2.symm
    · have heq : stream frames' marked' ++ [] = stream frames marked ++ more := by rw [← h, ← h', hcut, List.append_nil]
      exact hmore (stream_append_inj heq).2.2.symm

/-- One frame, its body as long as its first metadata byte says; cut short it is refused. -/
example : let bodyLength : Bytes → Option Int64 := fun metadata => metadata.head?.map fun b => Int64.ofNat b.toNat
    validateIpc ⟨64, by decide, .ascii⟩ bodyLength [255, 255, 255, 255, 1, 0, 0, 0, 2, 7, 7, 0, 0, 0, 0] 15 = .ok () ∧
    validateIpc ⟨64, by decide, .ascii⟩ bodyLength [255, 255, 255, 255, 1, 0, 0, 0, 2, 7, 7, 0, 0, 0] 15 =
      .error (.refused (invalid "truncated IPC prefix")) := by decide

end Grainlift.Protocol
