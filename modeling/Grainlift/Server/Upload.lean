/-
  Grainlift.Server.Upload — the bind upload actor (`bind_upload.rs`).

  An upload stages record batches in a temporary file through Arrow's `StreamWriter`,
  opened with the declared schema, and hands them back at the end through a
  `StreamReader`. Every command is answered before the next one is sent, so the actor is
  its state: the file (what was staged and how many bytes that took) and the first error,
  which every later command gets. A file or a writer that could not be made is such an
  error from the start (`fail_all`).

  The writer and the reader are Arrow's (`Ipc`). `write` compares no schemas, so what
  comes back of a batch with another schema is whatever `reread` says; `Ipc.Lawful` is
  the round trip on batches of the declared schema, the only one the file promises.
  What the disk does to one command is in `Disk`.
-/

import Grainlift.Protocol.Wire
import Grainlift.Server.Access

namespace Grainlift.Server

open Grainlift.Protocol

/-- Arrow's stream writer and reader over a file, at a declared schema. -/
structure Ipc where
  /-- `StreamWriter::try_new`: bytes of the schema message, or why there is none. -/
  header : Schema → Except String Nat
  /-- `StreamWriter::write`: bytes of the batch after those staged, or why not. -/
  batch : Schema → List RecordBatch → RecordBatch → Except String Nat
  /-- The end marker `into_inner` writes. -/
  footer : Nat
  /-- What reading the finished file yields. -/
  reread : Schema → List RecordBatch → Nat → Option (Except AdbcError RecordBatch)

/-- Batches of the declared schema come back as they were written, and nothing else. -/
def Ipc.Lawful (ipc : Ipc) : Prop :=
  ∀ schema batches, (∀ b ∈ batches, b.schema = schema) → ∀ i, ipc.reread schema batches i = (batches[i]?).map .ok

/-- What the operating system does to one command: `none` where it goes well. -/
structure Disk where
  spawn : Option String
  tempfile : Option String
  write : Option String
  intoInner : Option String
  seek : Option String
  readerOpen : Option String

def Disk.fine : Disk := ⟨none, none, none, none, none, none⟩

def ioError (message : String) : AdbcError := .withMessageAndStatus message .io

def exceeds (maxBytes actual : Nat) : AdbcError :=
  invalidData ("bind stream exceeds the " ++ toString maxBytes ++ " byte limit (" ++ toString actual ++ " bytes)")

structure BindUpload where
  schema : Schema
  maxBytes : Nat
  staged : List RecordBatch
  written : Nat
  terminal : Option AdbcError

namespace BindUpload

/-- The actor once its thread runs: the file and the writer are made, or `fail_all`. -/
def start (ipc : Ipc) (disk : Disk) (schema : Schema) (maxBytes : Nat) : Except AdbcError BindUpload :=
  match disk.spawn with
  | some e => .error (ioError ("start bind upload worker: " ++ e))
  | none =>
    match disk.tempfile with
    | some e => .ok ⟨schema, maxBytes, [], 0, some (ioError ("create bind upload file: " ++ e))⟩
    | none =>
      match ipc.header schema with
      | .error e => .ok ⟨schema, maxBytes, [], 0, some (invalidData ("initialize bind upload: " ++ e))⟩
      | .ok n => .ok ⟨schema, maxBytes, [], n, none⟩

/-- `writer.write`. -/
def write (ipc : Ipc) (disk : Disk) (u : BindUpload) (b : RecordBatch) : Except String Nat :=
  match disk.write with
  | some e => .error e
  | none => ipc.batch u.schema u.staged b

def push (ipc : Ipc) (disk : Disk) (u : BindUpload) (b : RecordBatch) : Except AdbcError Unit × BindUpload :=
  match u.terminal with
  | some e => (.error e, u)
  | none =>
    match write ipc disk u b with
    | .error e =>
      let e := invalidData ("stage bind batch: " ++ e)
      (.error e, { u with terminal := some e })
    | .ok n =>
      let actual := u.written + n
      if u.maxBytes < actual then
        let e := exceeds u.maxBytes actual
        (.error e, { u with written := actual, terminal := some e })
      else (.ok (), { u with staged := u.staged ++ [b], written := actual })

def finishReader (ipc : Ipc) (disk : Disk) (u : BindUpload) : Except AdbcError Reader :=
  match disk.intoInner with
  | some e => .error (invalidData ("finish bind upload: " ++ e))
  | none =>
    if u.maxBytes < u.written + ipc.footer then .error (exceeds u.maxBytes (u.written + ipc.footer))
    else
      match disk.seek with
      | some e => .error (ioError ("rewind bind upload: " ++ e))
      | none =>
        match disk.readerOpen with
        | some e => .error (invalidData ("open staged bind stream: " ++ e))
        | none => .ok ⟨u.schema, ipc.reread u.schema u.staged, 0⟩

def finish (ipc : Ipc) (disk : Disk) (u : BindUpload) : Except AdbcError Reader :=
  match u.terminal with
  | some e => .error e
  | none => finishReader ipc disk u

/-! ## What a push and a finish do -/

variable {ipc : Ipc} {disk : Disk} {u : BindUpload} {b : RecordBatch}

theorem push_schema : (push ipc disk u b).2.schema = u.schema := by
  unfold push
  split
  · rfl
  split
  · rfl
  simp only
  split <;> rfl

/-- A push that succeeded staged its batch; one that failed staged nothing and is the
    terminal error from then on. -/
theorem push_cases :
    ((push ipc disk u b).1 = .ok () ∧ u.terminal = none ∧ (push ipc disk u b).2.terminal = none ∧
      (push ipc disk u b).2.staged = u.staged ++ [b]) ∨
    (∃ e, (push ipc disk u b).1 = .error e ∧ (push ipc disk u b).2.terminal = some e ∧
      (push ipc disk u b).2.staged = u.staged) := by
  unfold push
  split
  · rename_i e ht
    exact .inr ⟨e, rfl, ht, rfl⟩
  rename_i ht
  split
  · exact .inr ⟨_, rfl, rfl, rfl⟩
  simp only
  split
  · exact .inr ⟨_, rfl, rfl, rfl⟩
  · exact .inl ⟨rfl, ht, ht, rfl⟩

/-- A finished upload reads back what was staged, and only one without an error finishes. -/
theorem finish_ok {r : Reader} (h : finish ipc disk u = .ok r) :
    u.terminal = none ∧ r = ⟨u.schema, ipc.reread u.schema u.staged, 0⟩ := by
  unfold finish at h
  split at h
  · cases h
  rename_i ht
  unfold finishReader at h
  split at h
  · cases h
  split at h
  · cases h
  split at h
  · cases h
  split at h
  · cases h
  cases h
  exact ⟨ht, rfl⟩

end BindUpload

end Grainlift.Server
