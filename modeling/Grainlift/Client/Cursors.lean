/-
  Grainlift.Client.Cursors — who closes the server's result (`reader_from_response`, the
  seven calls that return a reader, `Drop for RemoteReader`; adbc-driver-grainlift/src/lib.rs).

  A reply that decodes names a result the server keeps for this client. Nothing but the
  `Drop` of a `RemoteReader` sends CLOSE_RESULT, so it is sent from the moment that reader
  exists. Between the decoded reply and the reader stand the schema of the reply and
  `RemoteReader::open`: a failure of either returns the error with no reader built and
  nothing sent. What `get_info` does after it has its reader is inside that reader's scope.

  `closed` is the list of results CLOSE_RESULT was sent for during the call.

  Proved (`cursor_released_iff`): for each of the seven calls, the application gets a reader
  whose drop closes the result, or CLOSE_RESULT was sent before the error, exactly when the
  schema decodes and the result stream opens, its first HTTP reply included.
-/

import Grainlift.Client.Reader

namespace Grainlift.Client.Cursors

open Grainlift.Protocol Grainlift.Server Grainlift.Client.Reader

structure ExecuteResponse where
  resultId : String
  schemaIpc : Bytes

/-- What one call meets. -/
structure Exchange where
  /-- The request could be built. -/
  request : Except AdbcError Unit
  reply : Except AdbcError RecordBatch
  decodeResponse : RecordBatch → Except AdbcError ExecuteResponse
  /-- `protocol::decode_schema`; its error by its text. -/
  decodeSchema : Bytes → Except String Schema
  remote : Remote
  /-- `grainlift_info_batch`. -/
  infoBatch : Schema → Except AdbcError (Option RecordBatch)

/-- What the application is handed. -/
inductive AppReader where
  | remote (r : RemoteReader)
  /-- `GrainliftInfoReader`. -/
  | info (batch : Option RecordBatch) (downstream : RemoteReader)

def AppReader.downstream : AppReader → RemoteReader
  | .remote r => r
  | .info _ r => r

/-- The results a drop of the reader sends CLOSE_RESULT for. -/
def dropped (r : RemoteReader) : List String := [r.resultId]

/-! ## The calls -/

section

variable (x : Exchange)

def readerFromResponse (response : RecordBatch) : Except AdbcError RemoteReader × List String :=
  match x.decodeResponse response with
  | .error e => (.error e, [])
  | .ok response =>
    match x.decodeSchema response.schemaIpc with
    | .error e => (.error (internal e), [])
    | .ok schema => (openReader x.remote response.resultId schema, [])

/-- The request, the call, the reader: `connection_stream_call`, `session_stream_call` and
    the bodies of `execute` and `read_partition` differ in the request only. -/
def streamCall : Except AdbcError RemoteReader × List String :=
  match x.request with
  | .error e => (.error e, [])
  | .ok () =>
    match x.reply with
    | .error e => (.error e, [])
    | .ok response => readerFromResponse x response

def toApp (r : Except AdbcError RemoteReader × List String) : Except AdbcError AppReader × List String :=
  (r.1.map .remote, r.2)

def execute : Except AdbcError AppReader × List String := toApp (streamCall x)

def getObjects : Except AdbcError AppReader × List String := toApp (streamCall x)

def getTableTypes : Except AdbcError AppReader × List String := toApp (streamCall x)

def getStatisticNames : Except AdbcError AppReader × List String := toApp (streamCall x)

def getStatistics : Except AdbcError AppReader × List String := toApp (streamCall x)

def readPartition : Except AdbcError AppReader × List String := toApp (streamCall x)

/-- A failure to build the driver's own batch drops the reader it already has. -/
def getInfo : Except AdbcError AppReader × List String :=
  match streamCall x with
  | (.error e, closed) => (.error e, closed)
  | (.ok downstream, closed) =>
    match x.infoBatch downstream.schema with
    | .error e => (.error e, closed ++ dropped downstream)
    | .ok batch => (.ok (.info batch downstream), closed)

end

inductive ResultCall where
  | execute
  | getInfo
  | getObjects
  | getTableTypes
  | getStatisticNames
  | getStatistics
  | readPartition
  deriving DecidableEq

def ResultCall.run (x : Exchange) : ResultCall → Except AdbcError AppReader × List String
  | .execute => Cursors.execute x
  | .getInfo => Cursors.getInfo x
  | .getObjects => Cursors.getObjects x
  | .getTableTypes => Cursors.getTableTypes x
  | .getStatisticNames => Cursors.getStatisticNames x
  | .getStatistics => Cursors.getStatistics x
  | .readPartition => Cursors.readPartition x

/-! ## A reader keeps its result -/

/-- The reader after `n` calls of `next`. -/
def afterReads (remote : Remote) (r : RemoteReader) : Nat → RemoteReader
  | 0 => r
  | n + 1 => afterReads remote (next remote r).2 n

theorem next_resultId (remote : Remote) (r : RemoteReader) : (next remote r).2.resultId = r.resultId := by
  have hremote : (nextRemote remote r).2.resultId = r.resultId := by
    unfold nextRemote
    split
    · rfl
    split
    · rfl
    · rfl
    · split <;> rfl
    · split <;> rfl
  unfold next
  split
  all_goals
    rename_i h
    rw [h] at hremote
    exact hremote

theorem afterReads_resultId (remote : Remote) (r : RemoteReader) (n : Nat) :
    (afterReads remote r n).resultId = r.resultId := by
  induction n generalizing r with
  | zero => rfl
  | succ n ih =>
    show (afterReads remote (next remote r).2 n).resultId = r.resultId
    rw [ih, next_resultId]

theorem openReader_resultId {remote : Remote} {resultId : String} {schema : Schema} {r : RemoteReader}
    (h : openReader remote resultId schema = .ok r) : r.resultId = resultId := by
  unfold openReader at h
  split at h
  · cases h
  split at h
  · split at h
    · cases h
    · cases h
      rfl
    · cases h
      rfl
  · cases h
    rfl

/-! ## Released -/

/-- The result stream opens: over HTTP the first reply is not an error. -/
def Opens (remote : Remote) : Prop :=
  remote.opened = .ok () ∧ (remote.isHttp = true → ∀ e, remote.replies 0 ≠ .error e)

theorem openReader_ok_iff (remote : Remote) (resultId : String) (schema : Schema) :
    (∃ r, openReader remote resultId schema = .ok r) ↔ Opens remote := by
  unfold openReader Opens
  cases ho : remote.opened with
  | error e => simp
  | ok u =>
    cases hh : remote.isHttp with
    | false => simp
    | true => cases hr : remote.replies 0 <;> simp

/-- The application gets a reader whose drop, after any number of reads, sends CLOSE_RESULT
    for the result, or CLOSE_RESULT was sent before the error was returned. -/
def Released (x : Exchange) (resultId : String) : Except AdbcError AppReader × List String → Prop
  | (.ok reader, _) => ∀ n, resultId ∈ dropped (afterReads x.remote reader.downstream n)
  | (.error _, closed) => resultId ∈ closed

variable {x : Exchange} {response : RecordBatch} {r : ExecuteResponse}

theorem streamCall_ok (hq : x.request = .ok ()) (hr : x.reply = .ok response) (hd : x.decodeResponse response = .ok r)
    {schema : Schema} (hs : x.decodeSchema r.schemaIpc = .ok schema) :
    streamCall x = (openReader x.remote r.resultId schema, []) := by
  simp only [streamCall, readerFromResponse, hq, hr, hd, hs]

theorem streamCall_error (hq : x.request = .ok ()) (hr : x.reply = .ok response)
    (hd : x.decodeResponse response = .ok r)
    (h : ¬ ((∃ schema, x.decodeSchema r.schemaIpc = .ok schema) ∧ Opens x.remote)) :
    ∃ e, streamCall x = (.error e, []) := by
  cases hs : x.decodeSchema r.schemaIpc with
  | error e => exact ⟨internal e, by simp only [streamCall, readerFromResponse, hq, hr, hd, hs]⟩
  | ok schema =>
    rw [streamCall_ok hq hr hd hs]
    cases ho : openReader x.remote r.resultId schema with
    | error e => exact ⟨e, rfl⟩
    | ok reader => exact absurd ⟨⟨schema, hs⟩, (openReader_ok_iff _ _ _).mp ⟨reader, ho⟩⟩ h

theorem dropped_later {reader : RemoteReader} (h : reader.resultId = r.resultId) (n : Nat) :
    r.resultId ∈ dropped (afterReads x.remote reader n) := by
  unfold dropped
  rw [afterReads_resultId, h]
  exact List.mem_cons_self

theorem toApp_released {result : Except AdbcError RemoteReader × List String} {reader : RemoteReader}
    (h : result = (.ok reader, [])) (hid : reader.resultId = r.resultId) : Released x r.resultId (toApp result) := by
  subst h
  exact dropped_later hid

theorem getInfo_released {reader : RemoteReader} (h : streamCall x = (.ok reader, []))
    (hid : reader.resultId = r.resultId) :
    Released x r.resultId (getInfo x) := by
  unfold getInfo
  rw [h]
  simp only
  split
  · show r.resultId ∈ [] ++ dropped reader
    simp [dropped, hid]
  · exact dropped_later hid

/-- A result the server made is released for every method that returns a reader if and only if
    its schema decodes and its stream opens: before that, nobody closes it. -/
theorem cursor_released_iff (call : ResultCall) (x : Exchange) (response : RecordBatch) (r : ExecuteResponse)
    (hq : x.request = .ok ()) (hr : x.reply = .ok response) (hd : x.decodeResponse response = .ok r) :
    Released x r.resultId (call.run x) ↔ (∃ schema, x.decodeSchema r.schemaIpc = .ok schema) ∧ Opens x.remote := by
  constructor
  · intro h
    by_contra hn
    obtain ⟨e, he⟩ := streamCall_error hq hr hd hn
    have hleak : call.run x = (.error e, []) := by
      cases call with
      | getInfo => simp only [ResultCall.run, getInfo, he]
      | execute => simp [ResultCall.run, execute, toApp, he, Except.map]
      | getObjects => simp [ResultCall.run, getObjects, toApp, he, Except.map]
      | getTableTypes => simp [ResultCall.run, getTableTypes, toApp, he, Except.map]
      | getStatisticNames => simp [ResultCall.run, getStatisticNames, toApp, he, Except.map]
      | getStatistics => simp [ResultCall.run, getStatistics, toApp, he, Except.map]
      | readPartition => simp [ResultCall.run, readPartition, toApp, he, Except.map]
    rw [hleak] at h
    cases h
  · intro h
    obtain ⟨⟨schema, hs⟩, ho⟩ := h
    obtain ⟨reader, hopen⟩ := (openReader_ok_iff x.remote r.resultId schema).mpr ho
    have hid := openReader_resultId hopen
    have hcall : streamCall x = (.ok reader, []) := by rw [streamCall_ok hq hr hd hs, hopen]
    cases call with
    | getInfo => exact getInfo_released hcall hid
    | execute => exact toApp_released hcall hid
    | getObjects => exact toApp_released hcall hid
    | getTableTypes => exact toApp_released hcall hid
    | getStatisticNames => exact toApp_released hcall hid
    | getStatistics => exact toApp_released hcall hid
    | readPartition => exact toApp_released hcall hid

/-- The server answered a call with the result "r1". -/
def answered (remote : Remote) : Exchange where
  request := .ok ()
  reply := .ok (rows 1)
  decodeResponse _ := .ok ⟨"r1", []⟩
  decodeSchema _ := .ok noColumns
  remote := remote
  infoBatch _ := .error (internal "no info_name column")

/-- GetInfo fails to build its own batch, and has closed the result. -/
theorem cursor_released_get_info : (ResultCall.getInfo.run (answered twoBatches)).2 = ["r1"] ∧
    Released (answered twoBatches) "r1" (ResultCall.getInfo.run (answered twoBatches)) := by
  refine ⟨rfl, (cursor_released_iff .getInfo (answered twoBatches) (rows 1) ⟨"r1", []⟩ rfl rfl rfl).mpr ?_⟩
  refine ⟨⟨noColumns, rfl⟩, rfl, ?_⟩
  intro _ e h
  cases h

/-- The first READ_RESULT turn fails. -/
def unread : Remote where
  isHttp := true
  opened := .ok ()
  replies _ := .error (timeout "request timed out")
  ticks _ := .ended

/-- EXECUTE was answered, its result stream did not open, and the result is left behind. -/
theorem cursor_leaked : ResultCall.execute.run (answered unread) = (.error (timeout "request timed out"), []) ∧
    ¬ Released (answered unread) "r1" (ResultCall.execute.run (answered unread)) := by
  refine ⟨rfl, ?_⟩
  intro h
  cases h

end Grainlift.Client.Cursors
