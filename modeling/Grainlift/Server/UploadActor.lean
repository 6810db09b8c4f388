/-
  Grainlift.Server.UploadActor — the loop of a bind upload's thread over all the commands
  it is sent (`run`, `finish_reader`, `fail_all`; bind_upload.rs).

  `Grainlift.Server.Upload` takes one call at a time, as a session makes them. Here the
  actor is its receive loop, and the count of bytes is the saturating one of the machine.
  `run` ends with FINISH, with CANCEL, or when every sender is gone, which is the end of the
  list of commands. Each command comes with what the system does to it (`Io`).

  Proved (`upload_budget`), for every schema, limit and list of commands:
  (1) after a push that failed every answer is its error, and nothing more is written;
  (2) of what the writer was given, at most the last batch was not acknowledged, and where
      one was acknowledged the header and these batches keep to the limit;
  (3) FINISH returns a reader exactly if the file and its writer were made, every push
      succeeded, the whole stream keeps to the limit, and the file can be finished, rewound
      and opened again; it reads what was pushed;
  (4) at most one reader is made, and none by a run that CANCEL or the last sender ends.

  All of it by the counter. One that stands at `usize::MAX` goes no further, so as a limit
  that value is none, and (2) is about bytes for the limits below it; `budget_saturates` is
  a run beyond. `push_upload` and `finish_upload` connect to the calls of a session.
-/

import Grainlift.Protocol.Framing
import Grainlift.Server.Upload

namespace Grainlift.Server

open Grainlift.Protocol

/-! ## Bytes -/

/-- What a saturating counter shows for `n`. -/
def counted (p : Platform) (n : Nat) : Nat := min n p.usizeMax

theorem saturatingAdd_counted (p : Platform) (m n : Nat) : p.saturatingAdd (counted p m) n = counted p (m + n) := by
  unfold Platform.saturatingAdd counted
  omega

theorem counted_le {p : Platform} {n maxBytes : Nat} (hm : maxBytes < p.usizeMax) (h : counted p n ≤ maxBytes) :
    n ≤ maxBytes := by
  unfold counted at h
  omega

namespace Ipc

variable (ipc : Ipc) (schema : Schema)

def size (before : List RecordBatch) (b : RecordBatch) : Nat :=
  match ipc.batch schema before b with
  | .ok n => n
  | .error _ => 0

/-- The bytes of some batches, written after others. -/
def sizeAfter : (before batches : List RecordBatch) → Nat
  | _, [] => 0
  | before, b :: rest => ipc.size schema before b + sizeAfter (before ++ [b]) rest

/-- The header and the batches. -/
def bytes (header : Nat) (batches : List RecordBatch) : Nat := header + ipc.sizeAfter schema [] batches

/-- Reading a file of these batches yields them. -/
def Inverts (batches : List RecordBatch) : Prop := ∀ i, ipc.reread schema batches i = (batches[i]?).map .ok

variable {ipc schema}

theorem sizeAfter_snoc (before batches : List RecordBatch) (b : RecordBatch) :
    ipc.sizeAfter schema before (batches ++ [b]) =
      ipc.sizeAfter schema before batches + ipc.size schema (before ++ batches) b := by
  induction batches generalizing before with
  | nil => simp [sizeAfter]
  | cons c rest ih =>
    simp only [List.cons_append, sizeAfter, ih, List.append_assoc, List.nil_append]
    omega

@[simp] theorem bytes_nil (header : Nat) : ipc.bytes schema header [] = header := rfl

theorem bytes_snoc (header : Nat) (batches : List RecordBatch) (b : RecordBatch) :
    ipc.bytes schema header (batches ++ [b]) = ipc.bytes schema header batches + ipc.size schema batches b := by
  rw [bytes, sizeAfter_snoc, bytes, List.nil_append, Nat.add_assoc]

end Ipc

namespace UploadActor

/-! ## The actor -/

/-- What the system does to one command. A write that fails may have put some bytes into
    the file. -/
structure Io where
  disk : Disk
  partly : Nat

/-- `StreamWriter<CountingFile>`. -/
structure Writer where
  schema : Schema
  /-- The batches it was told to write. -/
  given : List RecordBatch
  written : Nat

structure Actor where
  writer : Writer
  maxBytes : Nat
  terminal : Option AdbcError

inductive Command where
  | push (batch : RecordBatch)
  | finish
  | cancel

/-- What was replied to a command; CANCEL has no reply. -/
inductive Answer where
  | pushed (r : Except AdbcError Unit)
  | finished (r : Except AdbcError Reader)
  | cancelled

section

variable (p : Platform) (ipc : Ipc)

def Writer.write (io : Io) (w : Writer) (b : RecordBatch) : Except String Unit × Writer :=
  let count (n : Nat) : Writer := { w with given := w.given ++ [b], written := p.saturatingAdd w.written n }
  match io.disk.write with
  | some e => (.error e, count io.partly)
  | none =>
    match ipc.batch w.schema w.given b with
    | .error e => (.error e, count io.partly)
    | .ok n => (.ok (), count n)

namespace Actor

def push (io : Io) (a : Actor) (b : RecordBatch) : Except AdbcError Unit × Actor :=
  match a.terminal with
  | some e => (.error e, a)
  | none =>
    match a.writer.write p ipc io b with
    | (.error e, writer) =>
      let e := invalidData ("stage bind batch: " ++ e)
      (.error e, { a with writer := writer, terminal := some e })
    | (.ok (), writer) =>
      if a.maxBytes < writer.written then
        let e := exceeds a.maxBytes writer.written
        (.error e, { a with writer := writer, terminal := some e })
      else (.ok (), { a with writer := writer })

def finishReader (io : Io) (w : Writer) (maxBytes : Nat) : Except AdbcError Reader :=
  match io.disk.intoInner with
  | some e => .error (invalidData ("finish bind upload: " ++ e))
  | none =>
    let written := p.saturatingAdd w.written ipc.footer
    if maxBytes < written then .error (exceeds maxBytes written)
    else
      match io.disk.seek with
      | some e => .error (ioError ("rewind bind upload: " ++ e))
      | none =>
        match io.disk.readerOpen with
        | some e => .error (invalidData ("open staged bind stream: " ++ e))
        | none => .ok ⟨w.schema, ipc.reread w.schema w.given, 0⟩

def finish (io : Io) (a : Actor) : Except AdbcError Reader :=
  match a.terminal with
  | some e => .error e
  | none => finishReader p ipc io a.writer a.maxBytes

/-- The loop, and the actor at its end. -/
def loop : Actor → List (Command × Io) → List Answer × Actor
  | a, [] => ([], a)
  | a, (.push b, io) :: rest =>
    let pushed := a.push p ipc io b
    let after := loop pushed.2 rest
    (.pushed pushed.1 :: after.1, after.2)
  | a, (.finish, io) :: _ => ([.finished (a.finish p ipc io)], a)
  | a, (.cancel, _) :: _ => ([.cancelled], a)

end Actor

def failAll (e : AdbcError) : List (Command × Io) → List Answer
  | [] => []
  | (.push _, _) :: rest => .pushed (.error e) :: failAll e rest
  | (.finish, _) :: _ => [.finished (.error e)]
  | (.cancel, _) :: _ => [.cancelled]

/-- The answers of a run, and its actor if it got one. -/
def run (disk : Disk) (schema : Schema) (maxBytes : Nat) (commands : List (Command × Io)) :
    List Answer × Option Actor :=
  match disk.tempfile with
  | some e => (failAll (ioError ("create bind upload file: " ++ e)) commands, none)
  | none =>
    match ipc.header schema with
    | .error e => (failAll (invalidData ("initialize bind upload: " ++ e)) commands, none)
    | .ok n =>
      let r := Actor.loop p ipc ⟨⟨schema, [], p.saturatingAdd 0 n⟩, maxBytes, none⟩ commands
      (r.1, some r.2)

end

/-! ## What a run did -/

/-- The batches whose push succeeded. -/
def acknowledged : List (Command × Io) → List Answer → List RecordBatch
  | (.push b, _) :: commands, .pushed (.ok ()) :: answers => b :: acknowledged commands answers
  | _ :: commands, _ :: answers => acknowledged commands answers
  | _, _ => []

/-- The batches that reached the writer. -/
def given (r : List Answer × Option Actor) : List RecordBatch := (r.2.map fun a => a.writer.given).getD []

def Answer.reader : Answer → Option Reader
  | .finished (.ok r) => some r
  | _ => none

def readers (answers : List Answer) : List Reader := answers.filterMap Answer.reader

/-- The answer, if it is one to a push or a finish, is that error. -/
def Answer.Fails (e : AdbcError) : Answer → Prop
  | .pushed r => r = .error e
  | .finished r => r = .error e
  | .cancelled => True

def pushes (l : List (RecordBatch × Io)) : List (Command × Io) := l.map fun x => (.push x.1, x.2)

variable {p : Platform} {ipc : Ipc} {io : Io} {a : Actor} {b : RecordBatch}

namespace Actor

/-! ### One push -/

/-- The count that matters, and the latch. -/
theorem push_cases :
    (∃ e, a.terminal = some e ∧ a.push p ipc io b = (.error e, a)) ∨
    (a.terminal = none ∧ ∃ e written, a.push p ipc io b =
      (.error e, ⟨⟨a.writer.schema, a.writer.given ++ [b], written⟩, a.maxBytes, some e⟩)) ∨
    (a.terminal = none ∧ ∃ n, ipc.batch a.writer.schema a.writer.given b = .ok n ∧
      p.saturatingAdd a.writer.written n ≤ a.maxBytes ∧
      a.push p ipc io b =
        (.ok (), ⟨⟨a.writer.schema, a.writer.given ++ [b], p.saturatingAdd a.writer.written n⟩, a.maxBytes, none⟩)) := by
  unfold push
  cases ht : a.terminal with
  | some e => exact .inl ⟨e, rfl, rfl⟩
  | none =>
    right
    unfold Writer.write
    cases hw : io.disk.write with
    | some e => exact .inl ⟨rfl, _, _, rfl⟩
    | none =>
      cases hb : ipc.batch a.writer.schema a.writer.given b with
      | error e => exact .inl ⟨rfl, _, _, rfl⟩
      | ok n =>
        by_cases hlt : a.maxBytes < p.saturatingAdd a.writer.written n
        · simp only [hlt, if_true]
          exact .inl ⟨trivial, _, _, rfl⟩
        · simp only [hlt, if_false]
          exact .inr ⟨trivial, n, rfl, Nat.le_of_not_lt hlt, rfl⟩

/-- A latched actor changes no more, and has one answer. -/
theorem loop_latched {e : AdbcError} (h : a.terminal = some e) (commands : List (Command × Io)) :
    (a.loop p ipc commands).2 = a ∧ ∀ answer ∈ (a.loop p ipc commands).1, answer.Fails e := by
  induction commands with
  | nil => exact ⟨rfl, by simp [loop]⟩
  | cons command rest ih =>
    obtain ⟨command, io⟩ := command
    cases command with
    | push b =>
      have hpush : a.push p ipc io b = (.error e, a) := by simp only [push, h]
      simp only [loop, hpush, List.mem_cons, forall_eq_or_imp]
      exact ⟨ih.1, rfl, ih.2⟩
    | finish =>
      have hfinish : a.finish p ipc io = .error e := by simp only [finish, h]
      simp only [loop, hfinish, List.mem_singleton, forall_eq]
      exact ⟨trivial, rfl⟩
    | cancel =>
      simp only [loop, List.mem_singleton, forall_eq]
      exact ⟨trivial, trivial⟩

theorem push_error {e : AdbcError} (h : (a.push p ipc io b).1 = .error e) : (a.push p ipc io b).2.terminal = some e := by
  obtain ⟨e', ht, heq⟩ | ⟨-, e', _, heq⟩ | ⟨-, _, -, -, heq⟩ := @push_cases p ipc io a b
  · rw [heq] at h ⊢
    cases h
    exact ht
  · rw [heq] at h ⊢
    cases h
    rfl
  · rw [heq] at h
    cases h

/-- (1) for the loop. -/
theorem loop_fails {e : AdbcError} {before after : List Answer} {commands : List (Command × Io)}
    (h : (a.loop p ipc commands).1 = before ++ .pushed (.error e) :: after) : ∀ answer ∈ after, answer.Fails e := by
  induction commands generalizing a before with
  | nil => simp [loop] at h
  | cons command rest ih =>
    obtain ⟨command, io⟩ := command
    cases command with
    | push b =>
      simp only [loop] at h
      cases before with
      | nil =>
        rw [List.nil_append, List.cons.injEq, Answer.pushed.injEq] at h
        rw [← h.2]
        exact (loop_latched (push_error h.1) rest).2
      | cons x before =>
        rw [List.cons_append, List.cons.injEq] at h
        exact ih h.2
    | finish | cancel =>
      simp only [loop] at h
      cases before <;> simp at h

theorem loop_stays {e : AdbcError} {commands : List (Command × Io)}
    (h : .pushed (.error e) ∈ (a.loop p ipc commands).1) (more : List (Command × Io)) :
    (a.loop p ipc (commands ++ more)).2 = (a.loop p ipc commands).2 := by
  induction commands generalizing a with
  | nil => simp [loop] at h
  | cons command rest ih =>
    obtain ⟨command, io⟩ := command
    cases command with
    | push b =>
      simp only [loop, List.mem_cons] at h
      simp only [List.cons_append, loop]
      rcases h with h | h
      · have ht := push_error (Answer.pushed.inj h).symm
        rw [(loop_latched ht _).1, (loop_latched ht _).1]
      · exact ih h
    | finish => rfl
    | cancel => rfl

/-! ### The budget -/

/-- What the acknowledged batches have to do with the actor's state. -/
structure Sound (p : Platform) (ipc : Ipc) (schema : Schema) (header maxBytes : Nat) (a : Actor)
    (acked : List RecordBatch) : Prop where
  opened : a.writer.schema = schema
  limit : a.maxBytes = maxBytes
  budget : acked ≠ [] → counted p (ipc.bytes schema header acked) ≤ maxBytes
  clean : a.terminal = none → a.writer.given = acked ∧ a.writer.written = counted p (ipc.bytes schema header acked)
  latched : ∀ e, a.terminal = some e → ∃ b, a.writer.given = acked ++ [b]

variable {schema : Schema} {header maxBytes : Nat} {acked : List RecordBatch}

theorem opened_sound :
    Sound p ipc schema header maxBytes ⟨⟨schema, [], p.saturatingAdd 0 header⟩, maxBytes, none⟩ [] where
  opened := rfl
  limit := rfl
  budget h := absurd rfl h
  clean _ := ⟨rfl, by simp [Platform.saturatingAdd, counted]⟩
  latched _ h := by cases h

theorem push_sound (h : Sound p ipc schema header maxBytes a acked) :
    ((a.push p ipc io b).1 = .ok () ∧ Sound p ipc schema header maxBytes (a.push p ipc io b).2 (acked ++ [b])) ∨
    ((∃ e, (a.push p ipc io b).1 = .error e) ∧ Sound p ipc schema header maxBytes (a.push p ipc io b).2 acked) := by
  obtain ⟨e, ht, heq⟩ | ⟨ht, e, written, heq⟩ | ⟨ht, n, hn, hle, heq⟩ := @push_cases p ipc io a b
  · rw [heq]
    exact .inr ⟨⟨e, rfl⟩, h⟩
  · rw [heq]
    refine .inr ⟨⟨e, rfl⟩, h.opened, h.limit, h.budget, (by intro h'; cases h'), ?_⟩
    intro _ _
    exact ⟨b, by rw [(h.clean ht).1]⟩
  · obtain ⟨hgiven, hwritten⟩ := h.clean ht
    have hsize : ipc.size schema acked b = n := by
      rw [h.opened, hgiven] at hn
      simp only [Ipc.size, hn]
    have hcount : p.saturatingAdd a.writer.written n = counted p (ipc.bytes schema header (acked ++ [b])) := by
      rw [hwritten, saturatingAdd_counted, Ipc.bytes_snoc, hsize]
    rw [heq]
    refine .inl ⟨rfl, h.opened, h.limit, ?_, ?_, (by intro _ h'; cases h')⟩
    · intro _
      rw [← hcount, ← h.limit]
      exact hle
    · intro _
      exact ⟨by rw [hgiven], hcount⟩

theorem loop_sound (h : Sound p ipc schema header maxBytes a acked) (commands : List (Command × Io)) :
    Sound p ipc schema header maxBytes (a.loop p ipc commands).2
      (acked ++ acknowledged commands (a.loop p ipc commands).1) := by
  induction commands generalizing a acked with
  | nil => simpa [loop, acknowledged] using h
  | cons command rest ih =>
    obtain ⟨command, io⟩ := command
    cases command with
    | push b =>
      rcases @push_sound p ipc io _ b _ _ _ _ h with ⟨hok, hs⟩ | ⟨⟨e, he⟩, hs⟩
      · simp only [loop, hok, acknowledged]
        rw [List.append_cons]
        exact ih hs
      · simp only [loop, he, acknowledged]
        exact ih hs
    | finish | cancel => simpa [loop, acknowledged] using h

/-! ### The end of the run -/

theorem loop_pushes_length (l : List (RecordBatch × Io)) (a : Actor) : (a.loop p ipc (pushes l)).1.length = l.length := by
  induction l generalizing a with
  | nil => rfl
  | cons x l ih => exact congrArg Nat.succ (ih _)

/-- Pushes alone do not end the loop. -/
theorem loop_pushes_append (l : List (RecordBatch × Io)) (a : Actor) (rest : List (Command × Io)) :
    a.loop p ipc (pushes l ++ rest) =
      ((a.loop p ipc (pushes l)).1 ++ ((a.loop p ipc (pushes l)).2.loop p ipc rest).1,
        ((a.loop p ipc (pushes l)).2.loop p ipc rest).2) := by
  induction l generalizing a with
  | nil => rfl
  | cons x l ih =>
    have hcons : pushes (x :: l) = (.push x.1, x.2) :: pushes l := rfl
    simp only [hcons, List.cons_append, loop, ih]

theorem readers_pushes (l : List (RecordBatch × Io)) (a : Actor) : readers (a.loop p ipc (pushes l)).1 = [] := by
  induction l generalizing a with
  | nil => rfl
  | cons x l ih => exact ih _

/-- An actor that took only pushes has no error exactly if all of them succeeded, and then
    each of them is acknowledged. -/
theorem loop_pushes_clean (l : List (RecordBatch × Io)) (a : Actor) (ha : a.terminal = none) :
    ((a.loop p ipc (pushes l)).2.terminal = none ↔ ∀ answer ∈ (a.loop p ipc (pushes l)).1, answer = .pushed (.ok ())) ∧
    ((a.loop p ipc (pushes l)).2.terminal = none →
      acknowledged (pushes l) (a.loop p ipc (pushes l)).1 = l.map Prod.fst) := by
  induction l generalizing a with
  | nil => simp [pushes, loop, ha, acknowledged]
  | cons x l ih =>
    have hcons : pushes (x :: l) = (.push x.1, x.2) :: pushes l := rfl
    simp only [hcons, loop, List.mem_cons, forall_eq_or_imp]
    cases hr : (a.push p ipc x.2 x.1).1 with
    | error e =>
      obtain ⟨hstays, -⟩ := @loop_latched p ipc _ _ (push_error hr) (pushes l)
      rw [hstays, push_error hr]
      simp
    | ok u =>
      have ht : (a.push p ipc x.2 x.1).2.terminal = none := by
        obtain ⟨e, -, heq⟩ | ⟨-, e, _, heq⟩ | ⟨-, _, -, -, heq⟩ := @push_cases p ipc x.2 a x.1
        · rw [heq] at hr
          cases hr
        · rw [heq] at hr
          cases hr
        · rw [heq]
      obtain ⟨hiff, hacked⟩ := ih _ ht
      refine ⟨by simp [hiff], ?_⟩
      intro h
      simp only [acknowledged, List.map_cons, hacked h]

end Actor

/-- A run takes pushes, and is then ended by a FINISH, a CANCEL or the last sender. -/
theorem commands_cases (commands : List (Command × Io)) :
    ∃ l, commands = pushes l ∨ (∃ io rest, commands = pushes l ++ (.finish, io) :: rest) ∨
      ∃ io rest, commands = pushes l ++ (.cancel, io) :: rest := by
  induction commands with
  | nil => exact ⟨[], .inl rfl⟩
  | cons command rest ih =>
    obtain ⟨command, io⟩ := command
    cases command with
    | push b =>
      obtain ⟨l, rfl | ⟨io', rest', rfl⟩ | ⟨io', rest', rfl⟩⟩ := ih
      · exact ⟨(b, io) :: l, .inl rfl⟩
      · exact ⟨(b, io) :: l, .inr (.inl ⟨io', rest', rfl⟩)⟩
      · exact ⟨(b, io) :: l, .inr (.inr ⟨io', rest', rfl⟩)⟩
    | finish => exact ⟨[], .inr (.inl ⟨io, rest, rfl⟩)⟩
    | cancel => exact ⟨[], .inr (.inr ⟨io, rest, rfl⟩)⟩

/-! ## The run -/

/-- All that FINISH needs after the pushes `l`, if these succeeded. -/
structure Complete (p : Platform) (ipc : Ipc) (disk : Disk) (schema : Schema) (maxBytes : Nat)
    (l : List (RecordBatch × Io)) (io : Io) : Prop where
  tempfile : disk.tempfile = none
  fits : ∃ header, ipc.header schema = .ok header ∧
    counted p (ipc.bytes schema header (l.map Prod.fst) + ipc.footer) ≤ maxBytes
  intoInner : io.disk.intoInner = none
  seek : io.disk.seek = none
  readerOpen : io.disk.readerOpen = none

/-- A run of the actor, over the commands it was sent. -/
structure Budgeted (p : Platform) (ipc : Ipc) (disk : Disk) (schema : Schema) (maxBytes : Nat)
    (commands : List (Command × Io)) (r : List Answer × Option Actor) : Prop where
  latched : ∀ before e after, r.1 = before ++ .pushed (.error e) :: after → ∀ answer ∈ after, answer.Fails e
  unwritten : ∀ e, .pushed (.error e) ∈ r.1 → ∀ more, given (run p ipc disk schema maxBytes (commands ++ more)) = given r
  rejected : ∃ rejected, given r = acknowledged commands r.1 ++ rejected ∧ rejected.length ≤ 1
  budget : acknowledged commands r.1 ≠ [] → ∃ header, ipc.header schema = .ok header ∧
    counted p (ipc.bytes schema header (acknowledged commands r.1)) ≤ maxBytes ∧
    (maxBytes < p.usizeMax → ipc.bytes schema header (acknowledged commands r.1) ≤ maxBytes)
  finished : ∀ reader, .finished (.ok reader) ∈ r.1 ↔ ∃ l io rest, commands = pushes l ++ (.finish, io) :: rest ∧
    (∀ answer ∈ r.1.take l.length, answer = .pushed (.ok ())) ∧ Complete p ipc disk schema maxBytes l io ∧
    reader = ⟨schema, ipc.reread schema (l.map Prod.fst), 0⟩
  inOrder : ∀ reader, .finished (.ok reader) ∈ r.1 → ipc.Inverts schema (acknowledged commands r.1) →
    ∀ i, reader.items i = ((acknowledged commands r.1)[i]?).map .ok
  one : (readers r.1).length ≤ 1
  cancelled : ∀ l io rest, commands = pushes l ++ (.cancel, io) :: rest → readers r.1 = []
  dropped : ∀ l, commands = pushes l → readers r.1 = []

theorem mem_readers {answers : List Answer} {reader : Reader} :
    reader ∈ readers answers ↔ .finished (.ok reader) ∈ answers := by
  unfold readers
  rw [List.mem_filterMap]
  constructor
  · intro h
    obtain ⟨answer, hm, ha⟩ := h
    cases answer with
    | finished r =>
      cases r with
      | ok r =>
        cases ha
        exact hm
      | error e => cases ha
    | pushed r => cases ha
    | cancelled => cases ha
  · intro h
    exact ⟨_, h, rfl⟩

section Failing

variable (e : AdbcError) (commands : List (Command × Io))

theorem failAll_fails : ∀ answer ∈ failAll e commands, answer.Fails e := by
  induction commands with
  | nil => simp [failAll]
  | cons command rest ih =>
    obtain ⟨command, io⟩ := command
    cases command with
    | push b => simpa [failAll, Answer.Fails] using ih
    | finish | cancel => simp [failAll, Answer.Fails]

theorem failAll_acknowledged : acknowledged commands (failAll e commands) = [] := by
  induction commands with
  | nil => rfl
  | cons command rest ih =>
    obtain ⟨command, io⟩ := command
    cases command with
    | push b => exact ih
    | finish | cancel => simp [failAll, acknowledged]

theorem failAll_readers : readers (failAll e commands) = [] := by
  apply List.eq_nil_iff_forall_not_mem.mpr
  intro reader hm
  cases failAll_fails e commands _ (mem_readers.mp hm)

/-- Without a file there is nothing but the error. -/
theorem failAll_budgeted {p : Platform} {ipc : Ipc} {disk : Disk} {schema : Schema} {maxBytes : Nat}
    (hmade : ¬ (disk.tempfile = none ∧ ∃ header, ipc.header schema = .ok header))
    (hrun : ∀ commands, run p ipc disk schema maxBytes commands = (failAll e commands, none)) :
    Budgeted p ipc disk schema maxBytes commands (failAll e commands, none) where
  latched before e' after h answer hanswer := by
    have hall := failAll_fails e commands
    rw [show failAll e commands = _ from h] at hall
    have he : Answer.Fails e (.pushed (.error e')) := hall _ (by simp)
    cases he
    exact hall answer (by simp [hanswer])
  unwritten _ _ more := by
    rw [hrun]
    rfl
  rejected := ⟨[], by rw [failAll_acknowledged]; rfl, Nat.zero_le _⟩
  budget h := absurd (failAll_acknowledged e commands) h
  finished reader := by
    constructor
    · intro h
      cases failAll_fails e commands _ h
    · intro h'
      obtain ⟨l, io, rest, -, -, hc, -⟩ := h'
      obtain ⟨header, hh, -⟩ := hc.fits
      exact absurd ⟨hc.tempfile, header, hh⟩ hmade
  inOrder reader h := by cases failAll_fails e commands _ h
  one := by rw [failAll_readers]; exact Nat.zero_le _
  cancelled _ _ _ _ := failAll_readers e commands
  dropped _ _ := failAll_readers e commands

end Failing

namespace Actor

variable {schema : Schema} {header maxBytes : Nat} {acked : List RecordBatch}

theorem finish_ok_iff (h : Sound p ipc schema header maxBytes a acked) {reader : Reader} :
    a.finish p ipc io = .ok reader ↔ a.terminal = none ∧
      counted p (ipc.bytes schema header acked + ipc.footer) ≤ maxBytes ∧ io.disk.intoInner = none ∧
      io.disk.seek = none ∧ io.disk.readerOpen = none ∧ reader = ⟨schema, ipc.reread schema acked, 0⟩ := by
  unfold finish
  cases ht : a.terminal with
  | some e => simp
  | none =>
    obtain ⟨hgiven, hwritten⟩ := h.clean ht
    simp only [finishReader, h.opened, h.limit, hgiven, hwritten, saturatingAdd_counted]
    cases hi : io.disk.intoInner with
    | some e => simp
    | none =>
      by_cases hlt : maxBytes < counted p (ipc.bytes schema header acked + ipc.footer)
      · simp [hlt, Nat.not_le.mpr hlt]
      · cases hs : io.disk.seek with
        | some e => simp [hlt]
        | none =>
          cases ho : io.disk.readerOpen with
          | some e => simp [hlt]
          | none => simp [hlt, Nat.le_of_not_lt hlt, eq_comm]

theorem readers_append (answers answers' : List Answer) :
    readers (answers ++ answers') = readers answers ++ readers answers' := List.filterMap_append

theorem loop_pushes_take (l : List (RecordBatch × Io)) (a : Actor) (rest : List (Command × Io)) :
    (a.loop p ipc (pushes l ++ rest)).1.take l.length = (a.loop p ipc (pushes l)).1 := by
  rw [loop_pushes_append, List.take_left' (loop_pushes_length l a)]

/-- Nothing is acknowledged by the command that ends a run. -/
theorem acknowledged_ended {command : Command × Io} (hc : ∀ b, command.1 ≠ .push b) (l : List (RecordBatch × Io))
    (rest : List (Command × Io)) {answers : List Answer} (hl : answers.length = l.length) (answer : Answer) :
    acknowledged (pushes l ++ command :: rest) (answers ++ [answer]) = acknowledged (pushes l) answers := by
  induction l generalizing answers with
  | nil =>
    obtain rfl := List.length_eq_zero_iff.mp hl
    obtain ⟨command, io⟩ := command
    cases command with
    | push b => exact absurd rfl (hc b)
    | finish | cancel => cases rest <;> simp [pushes, acknowledged]
  | cons x l ih =>
    cases answers with
    | nil => simp at hl
    | cons y answers =>
      have htail := @ih answers (by simpa using hl)
      have hcons : pushes (x :: l) = (.push x.1, x.2) :: pushes l := rfl
      rw [hcons, List.cons_append, List.cons_append]
      cases y with
      | pushed r =>
        cases r with
        | ok u => simp only [acknowledged, htail]
        | error e => simp only [acknowledged, htail]
      | finished r => simp only [acknowledged, htail]
      | cancelled => simp only [acknowledged, htail]

/-- A run that made a reader took pushes, which all succeeded, and then a FINISH that could
    be done. -/
theorem loop_reader {disk : Disk} (htemp : disk.tempfile = none) (hheader : ipc.header schema = .ok header)
    (h : Sound p ipc schema header maxBytes a []) (ht : a.terminal = none) (commands : List (Command × Io))
    (reader : Reader) :
    .finished (.ok reader) ∈ (a.loop p ipc commands).1 ↔ ∃ l io rest, commands = pushes l ++ (.finish, io) :: rest ∧
      (∀ answer ∈ (a.loop p ipc commands).1.take l.length, answer = .pushed (.ok ())) ∧
      Complete p ipc disk schema maxBytes l io ∧ reader = ⟨schema, ipc.reread schema (l.map Prod.fst), 0⟩ := by
  constructor
  · intro hm
    obtain ⟨l, rfl | ⟨io, rest, rfl⟩ | ⟨io, rest, rfl⟩⟩ := commands_cases commands
    · have hr := mem_readers.mpr hm
      rw [readers_pushes] at hr
      cases hr
    · have hr := mem_readers.mpr hm
      rw [loop_pushes_append, readers_append, readers_pushes, List.nil_append, mem_readers] at hr
      simp only [loop, List.mem_singleton, Answer.finished.injEq] at hr
      obtain ⟨hterm, hfits, hinto, hseek, hopen, rfl⟩ := (finish_ok_iff (loop_sound h (pushes l))).mp hr.symm
      obtain ⟨hok, hacked⟩ := @loop_pushes_clean p ipc l a ht
      rw [List.nil_append, hacked hterm] at hfits ⊢
      refine ⟨l, io, rest, rfl, ?_, ⟨htemp, ⟨header, hheader, hfits⟩, hinto, hseek, hopen⟩, rfl⟩
      rw [loop_pushes_take]
      exact hok.mp hterm
    · have hr := mem_readers.mpr hm
      rw [loop_pushes_append, readers_append, readers_pushes] at hr
      cases hr
  · intro h'
    obtain ⟨l, io, rest, rfl, hall, hc, rfl⟩ := h'
    obtain ⟨hok, hacked⟩ := @loop_pushes_clean p ipc l a ht
    rw [loop_pushes_take] at hall
    have hterm := hok.mpr hall
    have hsound := loop_sound h (pushes l)
    rw [List.nil_append, hacked hterm] at hsound
    obtain ⟨header', hheader', hfits⟩ := hc.fits
    obtain rfl : header = header' := Except.ok.inj (hheader.symm.trans hheader')
    have hfinish := (@finish_ok_iff p ipc io _ _ _ _ _ hsound _).mpr
      ⟨hterm, hfits, hc.intoInner, hc.seek, hc.readerOpen, rfl⟩
    rw [loop_pushes_append]
    simp [loop, hfinish]

/-- The run of an actor that has its file. -/
theorem loop_budgeted {disk : Disk} (htemp : disk.tempfile = none) (hheader : ipc.header schema = .ok header)
    (h : Sound p ipc schema header maxBytes a []) (ht : a.terminal = none)
    (hrun : ∀ commands, run p ipc disk schema maxBytes commands =
      ((a.loop p ipc commands).1, some (a.loop p ipc commands).2)) (commands : List (Command × Io)) :
    Budgeted p ipc disk schema maxBytes commands ((a.loop p ipc commands).1, some (a.loop p ipc commands).2) := by
  have hsound : Sound p ipc schema header maxBytes (a.loop p ipc commands).2
      (acknowledged commands (a.loop p ipc commands).1) := loop_sound h commands
  have hended : ∀ l io rest, commands = pushes l ++ (.cancel, io) :: rest → readers (a.loop p ipc commands).1 = [] := by
    intro l io rest heq'
    subst heq'
    rw [loop_pushes_append, readers_append, readers_pushes]
    rfl
  have hdropped : ∀ l, commands = pushes l → readers (a.loop p ipc commands).1 = [] := by
    intro l heq'
    subst heq'
    exact readers_pushes l a
  exact {
    latched := fun before e after heq => loop_fails heq
    unwritten := by
      intro e hm more
      rw [hrun, given, given]
      simp only [loop_stays hm]
    rejected := by
      show ∃ rejected, (a.loop p ipc commands).2.writer.given = _ ++ rejected ∧ _
      cases hterm : (a.loop p ipc commands).2.terminal with
      | none => exact ⟨[], by rw [(hsound.clean hterm).1, List.append_nil], Nat.zero_le _⟩
      | some e =>
        obtain ⟨b, hb⟩ := hsound.latched e hterm
        exact ⟨[b], hb, Nat.le_refl _⟩
    budget := fun hne => ⟨header, hheader, hsound.budget hne, fun hm => counted_le hm (hsound.budget hne)⟩
    finished := loop_reader htemp hheader h ht commands
    inOrder := by
      intro reader hm
      obtain ⟨l, io, rest, rfl, hall, -, rfl⟩ := (loop_reader htemp hheader h ht commands reader).mp hm
      rw [loop_pushes_take] at hall
      obtain ⟨hok, hacked⟩ := @loop_pushes_clean p ipc l a ht
      have heq : acknowledged (pushes l ++ (.finish, io) :: rest) (a.loop p ipc (pushes l ++ (.finish, io) :: rest)).1 =
          l.map Prod.fst := by
        rw [loop_pushes_append, ← hacked (hok.mpr hall)]
        exact acknowledged_ended (by intro b hb; cases hb) l rest (loop_pushes_length l a) _
      rw [heq]
      exact id
    one := by
      obtain ⟨l, hl | ⟨io, rest, rfl⟩ | ⟨io, rest, hl⟩⟩ := commands_cases commands
      · rw [hdropped l hl]
        exact Nat.zero_le _
      · rw [loop_pushes_append, readers_append, readers_pushes]
        exact List.length_filterMap_le _ _
      · rw [hended l io rest hl]
        exact Nat.zero_le _
    cancelled := hended
    dropped := hdropped }

end Actor

/-- The actor on any commands it is sent: the first failure is every later answer, what was
    acknowledged is within the budget, and the one reader, if any, is of exactly what was
    pushed. -/
theorem upload_budget (p : Platform) (ipc : Ipc) (disk : Disk) (schema : Schema) (maxBytes : Nat)
    (commands : List (Command × Io)) :
    Budgeted p ipc disk schema maxBytes commands (run p ipc disk schema maxBytes commands) := by
  cases ht : disk.tempfile with
  | some e =>
    have hrun : ∀ commands, run p ipc disk schema maxBytes commands =
        (failAll (ioError ("create bind upload file: " ++ e)) commands, none) := by
      intro commands
      simp only [run, ht]
    rw [hrun]
    refine failAll_budgeted _ commands ?_ hrun
    intro h
    obtain ⟨h, -⟩ := h
    rw [ht] at h
    cases h
  | none =>
    cases hh : ipc.header schema with
    | error e =>
      have hrun : ∀ commands, run p ipc disk schema maxBytes commands =
          (failAll (invalidData ("initialize bind upload: " ++ e)) commands, none) := by
        intro commands
        simp only [run, ht, hh]
      rw [hrun]
      refine failAll_budgeted _ commands ?_ hrun
      intro h
      obtain ⟨-, header, h⟩ := h
      rw [hh] at h
      cases h
    | ok header =>
      have hrun : ∀ commands, run p ipc disk schema maxBytes commands =
          ((Actor.loop p ipc ⟨⟨schema, [], p.saturatingAdd 0 header⟩, maxBytes, none⟩ commands).1,
            some (Actor.loop p ipc ⟨⟨schema, [], p.saturatingAdd 0 header⟩, maxBytes, none⟩ commands).2) := by
        intro commands
        simp only [run, ht, hh]
      rw [hrun]
      exact Actor.loop_budgeted ht hh Actor.opened_sound rfl hrun commands

/-! ## One call at a time -/

/-- The actor as a session's calls see it. -/
structure Stands (a : Actor) (u : BindUpload) : Prop where
  schema : u.schema = a.writer.schema
  limit : u.maxBytes = a.maxBytes
  terminal : u.terminal = a.terminal
  clean : a.terminal = none → u.staged = a.writer.given ∧ u.written = a.writer.written

theorem saturatingAdd_room {p : Platform} {m n : Nat} (h : m + n ≤ p.usizeMax) : p.saturatingAdd m n = m + n :=
  Nat.min_eq_left h

/-- While the counter has room, both answer a push alike. -/
theorem push_upload {u : BindUpload} (h : Stands a u)
    (hroom : ∀ n, ipc.batch a.writer.schema a.writer.given b = .ok n → a.writer.written + n ≤ p.usizeMax) :
    (a.push p ipc io b).1 = (u.push ipc io.disk b).1 ∧ Stands (a.push p ipc io b).2 (u.push ipc io.disk b).2 := by
  unfold Actor.push BindUpload.push
  rw [h.terminal]
  cases ht : a.terminal with
  | some e => exact ⟨rfl, h.schema, h.limit, h.terminal, h.clean⟩
  | none =>
    obtain ⟨hstaged, hwritten⟩ := h.clean ht
    unfold Writer.write BindUpload.write
    rw [h.schema, hstaged, hwritten, h.limit]
    cases hw : io.disk.write with
    | some e => exact ⟨rfl, rfl, rfl, rfl, (by intro h; cases h)⟩
    | none =>
      cases hb : ipc.batch a.writer.schema a.writer.given b with
      | error e => exact ⟨rfl, rfl, rfl, rfl, (by intro h; cases h)⟩
      | ok n =>
        simp only [saturatingAdd_room (hroom n hb)]
        by_cases hlt : a.maxBytes < a.writer.written + n
        · simp only [if_pos hlt]
          exact ⟨trivial, rfl, rfl, rfl, (by intro h; cases h)⟩
        · simp only [if_neg hlt]
          exact ⟨trivial, rfl, rfl, rfl, fun _ => ⟨rfl, rfl⟩⟩

theorem finish_upload {u : BindUpload} (h : Stands a u) (hroom : a.writer.written + ipc.footer ≤ p.usizeMax) :
    a.finish p ipc io = u.finish ipc io.disk := by
  unfold Actor.finish BindUpload.finish
  rw [h.terminal]
  cases ht : a.terminal with
  | some e => rfl
  | none =>
    obtain ⟨hstaged, hwritten⟩ := h.clean ht
    unfold Actor.finishReader
    rw [saturatingAdd_room hroom, ← hstaged, ← hwritten, ← h.schema, ← h.limit]
    rfl

/-! On 32 bits the largest limit is the largest count: five batches of 10^9 bytes. -/

def wordMachine : Platform := ⟨32, by decide, .ascii⟩

/-- A writer of 100 bytes for the header, 10^9 for a batch and 8 for the end. -/
def gigaIpc : Ipc := ⟨fun _ => .ok 100, fun _ _ _ => .ok 1000000000, 8, fun _ batches i => (batches[i]?).map .ok⟩

def oneNull : RecordBatch := ⟨⟨[⟨"x", .int64, true, []⟩], []⟩, [.int64 [none]], 1, by decide⟩

def pushFive : List (Command × Io) := pushes (List.replicate 5 (oneNull, ⟨Disk.fine, 0⟩))

/-- A file that cannot be rewound. -/
def unseekable : Disk := { Disk.fine with seek := some "Invalid argument" }

/-- More is acknowledged than the limit; and a FINISH fails though every push succeeded and
    all of it keeps to the limit. -/
theorem budget_saturates :
    (run wordMachine gigaIpc Disk.fine oneNull.schema wordMachine.usizeMax pushFive).1 =
      List.replicate 5 (.pushed (.ok ())) ∧
    wordMachine.usizeMax < gigaIpc.bytes oneNull.schema 100 (List.replicate 5 oneNull) ∧
    (run wordMachine gigaIpc Disk.fine oneNull.schema 2000000000
        [(.push oneNull, ⟨Disk.fine, 0⟩), (.finish, ⟨unseekable, 0⟩)]).1 =
      [.pushed (.ok ()), .finished (.error (ioError "rewind bind upload: Invalid argument"))] ∧
    gigaIpc.bytes oneNull.schema 100 [oneNull] + gigaIpc.footer ≤ 2000000000 :=
  ⟨rfl, by decide, rfl, by decide⟩

end UploadActor

end Grainlift.Server
