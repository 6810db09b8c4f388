/-
  Grainlift.Client.Reader — the client's result reader (`RemoteReader`, `ByteReader`,
  adbc-driver-grainlift/src/lib.rs).

  Over HTTP a reader asks for one batch at a time: `open` asks for the first and keeps it
  as pending, `next_remote` resumes with the continuation token of the reply before. Over a
  byte stream a worker thread ticks the producer. The transport is what it answers, in
  order: a batch with or without a token, flagged finished or not; the end; an error
  (building a client counts as one).

  `received` is what these answers hold: the batches in order, then the error if one came,
  then nothing. `visible` is what the application sees, `open`'s own error included.

  Proved (`reader_lossless_iff`): the two are the same, over either transport and over
  both for the same items, unless the first HTTP reply is a batch already flagged finished:
  `open` then builds a reader that is finished with its batch still pending, and
  `next_remote` looks at the flag first (`first_batch_lost`). `next_remote` itself returns
  the batch such a reply brings.
-/

import Grainlift.Server.Access

namespace Grainlift.Client.Reader

open Grainlift.Protocol Grainlift.Server

/-! ## Replies -/

/-- `next_with_token` and then `is_finished`. -/
inductive Reply where
  | batch (b : RecordBatch) (token : Option String) (finished : Bool)
  | ended
  | error (e : AdbcError)

/-- `tick`. -/
inductive Tick where
  | batch (b : RecordBatch)
  | ended
  | error (e : AdbcError)

/-- What the transport answers to one reader. -/
structure Remote where
  isHttp : Bool
  /-- Up to and with `open_producer`. -/
  opened : Except AdbcError Unit
  replies : Nat → Reply
  ticks : Nat → Tick

abbrev Item := Except AdbcError RecordBatch

/-! ## The reader -/

inductive Mode where
  | http (pending : List RecordBatch) (continuation : Option String)
  /-- The worker thread runs until it has answered an end or an error. -/
  | byte (running : Bool)

structure RemoteReader where
  resultId : String
  schema : Schema
  mode : Mode
  finished : Bool
  /-- How many replies were taken. -/
  asked : Nat

variable (remote : Remote)

def openReader (resultId : String) (schema : Schema) : Except AdbcError RemoteReader :=
  match remote.opened with
  | .error e => .error e
  | .ok () =>
    if remote.isHttp then
      match remote.replies 0 with
      | .error e => .error e
      | .batch b token finished => .ok ⟨resultId, schema, .http [b] token, finished, 1⟩
      | .ended => .ok ⟨resultId, schema, .http [] none, true, 1⟩
    else .ok ⟨resultId, schema, .byte true, false, 0⟩

/-- `ByteReader::next`: its answer, and whether the worker still runs. -/
def byteNext (running : Bool) (n : Nat) : Except AdbcError (Option RecordBatch) × Bool :=
  if running then
    match remote.ticks n with
    | .batch b => (.ok (some b), true)
    | .ended => (.ok none, false)
    | .error e => (.error e, false)
  else (.error (internal "result stream worker stopped"), false)

def nextRemote (r : RemoteReader) : Except AdbcError (Option RecordBatch) × RemoteReader :=
  if r.finished then (.ok none, r)
  else
    match r.mode with
    | .http (b :: pending) continuation => (.ok (some b), { r with mode := .http pending continuation })
    | .http [] none => (.ok none, { r with finished := true })
    | .http [] (some _) =>
      -- the token is taken before the request is made
      match remote.replies r.asked with
      | .error e => (.error e, { r with mode := .http [] none, asked := r.asked + 1 })
      | .batch b token finished =>
        (.ok (some b), { r with mode := .http [] token, finished := finished || token.isNone, asked := r.asked + 1 })
      | .ended => (.ok none, { r with mode := .http [] none, finished := true, asked := r.asked + 1 })
    | .byte running =>
      match byteNext remote running r.asked with
      | (.ok b, running) => (.ok b, { r with mode := .byte running, finished := b.isNone, asked := r.asked + 1 })
      | (.error e, running) => (.error e, { r with mode := .byte running, asked := r.asked + 1 })

/-- `Iterator::next`. -/
def next (r : RemoteReader) : Option Item × RemoteReader :=
  match nextRemote remote r with
  | (.ok (some b), r) => (some (.ok b), r)
  | (.ok none, r) => (none, r)
  | (.error e, r) => (some (.error e), { r with finished := true })

/-- What the `n`th `next` returns. -/
def nth (r : RemoteReader) : Nat → Option Item
  | 0 => (next remote r).1
  | n + 1 => nth (next remote r).2 n

/-- What the application sees: `open`'s error, or what the reader yields. -/
def visible (resultId : String) (schema : Schema) (n : Nat) : Option Item :=
  match openReader remote resultId schema with
  | .error e => if n = 0 then some (.error e) else none
  | .ok r => nth remote r n

/-! ## What the replies hold -/

def Reply.item : Reply → Option Item
  | .batch b _ _ => some (.ok b)
  | .ended => none
  | .error e => some (.error e)

/-- Another reply follows. -/
def Reply.more : Reply → Bool
  | .batch _ (some _) false => true
  | _ => false

def Tick.item : Tick → Option Item
  | .batch b => some (.ok b)
  | .ended => none
  | .error e => some (.error e)

def Tick.more : Tick → Bool
  | .batch _ => true
  | _ => false

def Remote.item (k : Nat) : Option Item := if remote.isHttp then (remote.replies k).item else (remote.ticks k).item

def Remote.more (k : Nat) : Bool := if remote.isHttp then (remote.replies k).more else (remote.ticks k).more

/-- The `n`th item from the `k`th reply on. -/
def itemsFrom (k : Nat) : Nat → Option Item
  | 0 => remote.item k
  | n + 1 => if remote.more k then itemsFrom (k + 1) n else none

def received (n : Nat) : Option Item :=
  match remote.opened with
  | .error e => if n = 0 then some (.error e) else none
  | .ok () => itemsFrom remote 0 n

/-! ## One `next` -/

variable {remote} {r : RemoteReader} {k : Nat}

/-- Nothing more will come. -/
def Over (r : RemoteReader) : Prop := r.finished = true ∨ r.mode = .http [] none

/-- The reader waits for the reply `k`. -/
structure Waits (remote : Remote) (r : RemoteReader) (k : Nat) : Prop where
  unfinished : r.finished = false
  asked : r.asked = k
  mode : (remote.isHttp = true ∧ ∃ token, r.mode = .http [] (some token)) ∨
    (remote.isHttp = false ∧ r.mode = .byte true)

theorem next_over (h : Over r) : (next remote r).1 = none ∧ Over (next remote r).2 := by
  unfold next nextRemote
  by_cases hf : r.finished = true
  · rw [if_pos hf]
    exact ⟨rfl, .inl hf⟩
  · rcases h with h | h
    · exact absurd h hf
    · rw [if_neg hf, h]
      exact ⟨rfl, .inl rfl⟩

/-- The next item is the reply's, and the reader waits for another one if there is one. -/
theorem next_waits (h : Waits remote r k) : (next remote r).1 = remote.item k ∧
    if remote.more k = true then Waits remote (next remote r).2 (k + 1) else Over (next remote r).2 := by
  obtain ⟨hf, rfl, hmode⟩ := h
  unfold next nextRemote Remote.item Remote.more
  rw [if_neg (by simp [hf])]
  rcases hmode with ⟨hh, token, hm⟩ | ⟨hh, hm⟩
  · rw [hm, hh]
    simp only [if_true]
    cases hr : remote.replies r.asked with
    | error e => exact ⟨rfl, .inl rfl⟩
    | ended => exact ⟨rfl, .inl rfl⟩
    | batch b token finished =>
      cases token with
      | none => exact ⟨rfl, .inl (by simp)⟩
      | some t =>
        cases finished with
        | true => exact ⟨rfl, .inl rfl⟩
        | false => exact ⟨rfl, rfl, rfl, .inl ⟨hh, t, rfl⟩⟩
  · rw [hm, hh]
    simp only [byteNext, if_true, Bool.false_eq_true, if_false]
    cases ht : remote.ticks r.asked with
    | error e => exact ⟨rfl, .inl rfl⟩
    | ended => exact ⟨rfl, .inl rfl⟩
    | batch b => exact ⟨rfl, rfl, rfl, .inr ⟨hh, rfl⟩⟩

/-! ## The whole sequence -/

theorem nth_over (h : Over r) (n : Nat) : nth remote r n = none := by
  induction n generalizing r with
  | zero => exact (next_over h).1
  | succ n ih => exact ih (next_over h).2

theorem nth_waits (h : Waits remote r k) (n : Nat) : nth remote r n = itemsFrom remote k n := by
  induction n generalizing r k with
  | zero => exact (next_waits h).1
  | succ n ih =>
    have hnext := (next_waits h).2
    unfold nth itemsFrom
    split at hnext
    · rename_i hm
      rw [if_pos hm, ih hnext]
    · rename_i hm
      rw [if_neg hm, nth_over hnext]

/-- The first reply is a batch already flagged finished. -/
def FinishedFirst (remote : Remote) : Prop :=
  remote.isHttp = true ∧ remote.opened = .ok () ∧ ∃ b token, remote.replies 0 = .batch b token true

theorem visible_byte (hh : remote.isHttp = false) (resultId : String) (schema : Schema) (n : Nat) :
    visible remote resultId schema n = received remote n := by
  unfold visible received openReader
  cases ho : remote.opened with
  | error e => rfl
  | ok u =>
    simp only [hh, Bool.false_eq_true, if_false]
    exact nth_waits ⟨rfl, rfl, .inr ⟨hh, rfl⟩⟩ n

theorem visible_http (hh : remote.isHttp = true) (hf : ¬ FinishedFirst remote) (resultId : String) (schema : Schema)
    (n : Nat) : visible remote resultId schema n = received remote n := by
  unfold visible received openReader
  cases ho : remote.opened with
  | error e => rfl
  | ok u =>
    simp only [hh, if_true]
    have hitem : remote.item 0 = (remote.replies 0).item := by simp [Remote.item, hh]
    have hmore : remote.more 0 = (remote.replies 0).more := by simp [Remote.more, hh]
    cases hr : remote.replies 0 with
    | error e =>
      cases n with
      | zero => simp [itemsFrom, hitem, hr, Reply.item]
      | succ n => simp [itemsFrom, hmore, hr, Reply.more]
    | ended =>
      show nth remote ⟨resultId, schema, .http [] none, true, 1⟩ n = itemsFrom remote 0 n
      rw [nth_over (.inl rfl)]
      cases n with
      | zero => simp [itemsFrom, hitem, hr, Reply.item]
      | succ n => simp [itemsFrom, hmore, hr, Reply.more]
    | batch b token finished =>
      cases finished with
      | true => exact absurd ⟨hh, ho, b, token, hr⟩ hf
      | false =>
        cases n with
        | zero => simp [itemsFrom, hitem, hr, Reply.item, nth, next, nextRemote]
        | succ n =>
          -- the pending batch is out; the token says whether another reply follows
          show nth remote (next remote ⟨resultId, schema, .http [b] token, false, 1⟩).2 n = itemsFrom remote 0 (n + 1)
          unfold itemsFrom
          rw [hmore, hr]
          cases token with
          | none => exact nth_over (.inr rfl) n
          | some t => exact nth_waits ⟨rfl, rfl, .inl ⟨hh, t, rfl⟩⟩ n

theorem visible_first_lost (hf : FinishedFirst remote) (resultId : String) (schema : Schema) :
    visible remote resultId schema 0 = none ∧ received remote 0 ≠ none := by
  obtain ⟨hh, ho, b, token, hr⟩ := hf
  unfold visible received openReader
  simp only [ho, hh, if_true, hr]
  refine ⟨nth_over (.inl rfl) 0, ?_⟩
  simp [itemsFrom, Remote.item, hh, hr, Reply.item]

/-- The reader loses and duplicates nothing, over HTTP, over a byte stream, and over both
    for the same items. -/
def Lossless (http byte : Remote) (resultId : String) (schema : Schema) : Prop :=
  (∀ n, visible http resultId schema n = received http n) ∧
  (∀ n, visible byte resultId schema n = received byte n) ∧
  ((∀ n, received http n = received byte n) → ∀ n, visible http resultId schema n = visible byte resultId schema n)

/-- The reader loses nothing and adds nothing, on either kind of transport, if and only if the
    first HTTP reply is not a batch already flagged finished. -/
theorem reader_lossless_iff (http byte : Remote) (hh : http.isHttp = true) (hb : byte.isHttp = false)
    (resultId : String) (schema : Schema) : Lossless http byte resultId schema ↔ ¬ FinishedFirst http := by
  constructor
  · intro h hf
    obtain ⟨hnone, hsome⟩ := visible_first_lost hf resultId schema
    rw [h.1 0] at hnone
    exact hsome hnone
  · intro hf
    refine ⟨visible_http hh hf resultId schema, visible_byte hb resultId schema, ?_⟩
    intro hsame n
    rw [visible_http hh hf resultId schema, visible_byte hb resultId schema, hsame]

def noColumns : Schema := ⟨[], []⟩

def rows (n : Nat) : RecordBatch := ⟨noColumns, [], n, ⟨rfl, by simp⟩⟩

/-- Two batches, the second one flagged finished. -/
def twoBatches : Remote where
  isHttp := true
  opened := .ok ()
  replies n := if n = 0 then .batch (rows 1) (some "t") false else .batch (rows 2) (some "t") true
  ticks _ := .ended

def twoTicks : Remote where
  isHttp := false
  opened := .ok ()
  replies _ := .ended
  ticks n := if n = 0 then .batch (rows 1) else if n = 1 then .batch (rows 2) else .ended

theorem reader_lossless_two : Lossless twoBatches twoTicks "r" noColumns ∧
    visible twoBatches "r" noColumns 1 = some (.ok (rows 2)) := by
  refine ⟨(reader_lossless_iff twoBatches twoTicks rfl rfl "r" noColumns).mpr ?_, rfl⟩
  intro h
  obtain ⟨-, -, b, token, h⟩ := h
  cases h

/-- A result of one batch, flagged finished with it. -/
def oneBatch : Remote where
  isHttp := true
  opened := .ok ()
  replies _ := .batch (rows 1) none true
  ticks _ := .ended

theorem first_batch_lost : visible oneBatch "r" noColumns 0 = none ∧ received oneBatch 0 = some (.ok (rows 1)) ∧
    ¬ Lossless oneBatch twoTicks "r" noColumns := by
  refine ⟨rfl, rfl, ?_⟩
  intro h
  apply absurd (h.1 0)
  simp [visible, openReader, oneBatch, nth, next, nextRemote, received, itemsFrom, Remote.item, Reply.item]

end Grainlift.Client.Reader
