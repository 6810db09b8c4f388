/-
  Grainlift.Client.Bind — the loop that sends a bind stream (`GrainliftStatement::bind` and
  `bind_stream`, `RemoteConnection::bind_batches`, `validate_bind_ack`;
  adbc-driver-grainlift/src/lib.rs).

  The client opens an exchange with the declared schema, sends a turn for each batch and
  waits for its acknowledgement, and ends with a turn that says so. Two counts are kept on
  the way, of the batches' memory and of their encoded bytes, each against the connection's
  limit. Whatever fails once the exchange is open cancels it.

  Both transports run the same loop; what differs is who carries the turns.

  Proved: a turn's batch is read by the server as it was written (`decoded_data`).
-/

import Grainlift.Client.Options
import Grainlift.Protocol.BindFrames
import Grainlift.Protocol.FlatRequests

namespace Grainlift.Client.Bind

open Grainlift.Lib Grainlift.Protocol Grainlift.Server

/-! ## Calls on an exchange -/

/-- What the client does with the transport's exchange stream; the cursor is its state. -/
inductive StreamCall where
  | openExchange (method : Method) (init : RecordBatch)
  | exchange (cursor : BindCursor) (turn : RecordBatch)
  | cancel (cursor : BindCursor)

@[reducible] def StreamAns : StreamCall → Type
  | .openExchange _ _ => Except AdbcError BindCursor
  | .exchange _ _ => Except AdbcError (Option RecordBatch)
  | .cancel _ => Unit

abbrev Streaming (α : Type) := Act StreamAns AdbcError α

def openExchange (method : Method) (init : RecordBatch) : Streaming BindCursor := .call (.openExchange method init) .done

def streamExchange (cursor : BindCursor) (turn : RecordBatch) : Streaming (Option RecordBatch) :=
  .call (.exchange cursor turn) .done

/-- `let _ = stream.cancel();` -/
def streamCancel (cursor : BindCursor) : Streaming Unit := .call (.cancel cursor) fun _ => .done (.ok ())

/-! ## Acknowledgements -/

/-- The fields of `empty_response_schema`. -/
def emptyResponseFields : List Field := [⟨"ok", .boolean, false, []⟩]

def notTrue : AdbcError := internal "bind acknowledgement must be true"

def validateBindAck (batch : RecordBatch) : Except AdbcError Unit :=
  if batch.schema.fields ≠ emptyResponseFields ∨ batch.numRows ≠ 1 then
    .error (internal "invalid bind acknowledgement schema or row count")
  else
    match batch.columns.head? with
    | some (.boolean rows) => if rows.head? = some (some true) then .ok () else .error notTrue
    | _ => .error (internal "invalid bind acknowledgement type")

/-- A turn, and its acknowledgement. -/
def exchange (cursor : BindCursor) (turn : RecordBatch) : Streaming Unit := do
  match ← streamExchange cursor turn with
  | some ack => liftM (validateBindAck ack)
  | none => .fail (internal "bind exchange ended before acknowledgement")

/-! ## The loop -/

section Send

variable (arrow : Arrow) (derived : Derived) (maxBindBytes : Nat)

/-- `.map_err(|error| invalid(error.to_string()))` -/
def orInvalid (unicode : Unicode) {α : Type} (r : Except ProtocolError α) : Except AdbcError α :=
  r.mapError fun e => Options.invalid (Backend.errorText unicode e)

def turnLimit : Nat := min maxBindBytes maxControlBytes

/-- A count and what is added to it, if that stays a `usize` within the limit. -/
def counted (count more : Nat) (tooMany : Nat → AdbcError) : Except AdbcError Nat :=
  match arrow.platform.checkedAdd count more with
  | none => .error (Options.invalid "bind stream size overflow")
  | some count => if maxBindBytes < count then .error (tooMany count) else .ok count

def overLogical (count : Nat) : AdbcError :=
  Options.invalid ("bind stream exceeds the " ++ toString maxBindBytes ++ " byte limit (at least " ++ toString count ++
    " bytes)")

def overEncoded (_ : Nat) : AdbcError := Options.invalid "serialized bind stream exceeds configured byte limit"

variable (cursor : BindCursor)

/-- What is left of the caller's iterator, and the two counts. An item that is an error is
    what `?` makes of it. -/
def send : List (Except AdbcError RecordBatch) → (logicalBytes encodedBytes : Nat) → Streaming Unit
  | [], _, _ => do
    let finish ← orInvalid arrow.platform.unicode (encodeBindTurn arrow derived none (turnLimit maxBindBytes))
    exchange cursor finish
  | item :: batches, logicalBytes, encodedBytes => do
    let batch ← item
    let logicalBytes ← counted arrow maxBindBytes logicalBytes (arrow.batches.memorySize batch) (overLogical maxBindBytes)
    let turn ← orInvalid arrow.platform.unicode (encodeBindTurn arrow derived (some batch) (turnLimit maxBindBytes))
    let payload ← orInvalid arrow.platform.unicode (binaryValue turn "batch_ipc")
    let encodedBytes ← counted arrow maxBindBytes encodedBytes payload.length overEncoded
    exchange cursor turn
    send batches logicalBytes encodedBytes

/-- `RemoteConnection::bind_batches`. -/
def bindBatches (sessionId : String) (method : Method) (statementId : String) (schema : Schema)
    (batches : List (Except AdbcError RecordBatch)) : Streaming Unit := do
  let schemaIpc ← orInvalid arrow.platform.unicode (arrow.encodeSchema schema)
  let cursor ← openExchange method (bindInitRequest sessionId statementId schemaIpc)
  (send arrow derived maxBindBytes cursor batches 0 0).recover fun e => do
    streamCancel cursor
    .fail e

/-- `GrainliftStatement::bind`. -/
def bind (sessionId statementId : String) (batch : RecordBatch) : Streaming Unit :=
  bindBatches arrow derived maxBindBytes sessionId .bind statementId batch.schema [.ok batch]

/-- `GrainliftStatement::bind_stream`, for a reader that ends. -/
def bindStream (sessionId statementId : String) (schema : Schema) (reader : List (Except AdbcError RecordBatch)) :
    Streaming Unit :=
  bindBatches arrow derived maxBindBytes sessionId .bindStream statementId schema reader

end Send

/-! ## The turns as the server reads them -/

section Read

variable {arrow : Arrow} {derived : Derived} {turn batch : RecordBatch} {limit limit' : Nat} {x : Option RecordBatch}

/-- The last turn. -/
theorem decoded_data (ha : arrow.Lawful) (h : encodeBindTurn arrow derived (some batch) limit = .ok turn)
    (hx : (arrow.codec derived).decodeBindTurn turn limit' = .ok x) : x = some batch := by
  obtain ⟨payload, hp, h⟩ := bind_eq_ok h
  cases h
  obtain ⟨chunks, hw, rfl, -, -⟩ := encodeBatchIpc_ok (mapError_eq_ok.mp hp)
  obtain ⟨written, ⟨next, hr, h0, -⟩, hbatch⟩ := ha.batches.inverse batch chunks hw
  rw [Option.isNone_some, decodeBindTurn_bindTurn, decodeParts] at hx
  cases hd : decodeBatchIpc arrow.platform arrow.bodyLength arrow.batches chunks.flatten limit' with
  | error e =>
    rw [hd] at hx
    cases hx
  | ok b =>
    rw [hd] at hx
    cases hx
    obtain ⟨-, decoded, ⟨next', hr', h0', -⟩, rfl, -⟩ := decodeBatchIpc_ok hd
    cases hr.symm.trans hr'
    cases h0.symm.trans h0'
    rw [hbatch]

end Read

end Grainlift.Client.Bind
