/-
  Grainlift.Protocol.Wire — requests, responses and bind turns as the server reads and
  writes them (grainlift-protocol: requests.rs, responses.rs, lib.rs).

  A request is a batch with metadata. Flat methods read named columns of its one row;
  typed methods read one record out of a binary column. Arrow's IPC reader and writer and
  the derived record codec are not part of the repository: they are a `Codec`, whose
  functions may answer anything; what surrounds them here is the repository's own.
-/

import Grainlift.Lib.Table
import Grainlift.Protocol.Values
import Mathlib.Algebra.Order.Ring.Int
import Mathlib.Data.Finset.Basic

namespace Grainlift.Protocol

open Grainlift.Lib

def maxControlBytes : Nat := 256 * 1024 * 1024

def maxBindStreamBytes : Nat := 64 * 1024 * 1024

/-! ## Columns of a one-row batch -/

def requireOneRow (b : RecordBatch) : Except ProtocolError Unit :=
  if b.numRows ≠ 1 then .error (.rowCount b.numRows) else .ok ()

/-- `string_value`, `int64_value` and `binary_value`: they differ in the array they
    downcast to and in its name. -/
def columnValue {α : Type} (expected : String) (downcast : Column → Option (List (Option α))) (b : RecordBatch)
    (name : String) : Except ProtocolError α := do
  requireOneRow b
  match b.columnByName name with
  | none => .error (.missingColumn name)
  | some column =>
    match downcast column with
    | none => .error (.wrongType name expected)
    | some rows =>
      match rows.head? with
      | some (some v) => .ok v
      | _ => .error (.null name)

def stringValue : RecordBatch → String → Except ProtocolError String :=
  columnValue "utf8" fun | .utf8 rows => some rows | _ => none

def int64Value : RecordBatch → String → Except ProtocolError Int64 :=
  columnValue "int64" fun | .int64 rows => some rows | _ => none

def binaryValue : RecordBatch → String → Except ProtocolError Bytes :=
  columnValue "binary" fun | .binary rows => some rows | _ => none

def invalid (message : String) : ProtocolError := .invalidWire message

def validateText (value : String) : Except ProtocolError Unit :=
  if value.toList.contains '\x00' then .error (invalid "text must not contain NUL") else .ok ()

def validateHandle (value : String) : Except ProtocolError Unit := do
  validateText value
  if value = "" then .error (invalid "handle or option key must not be empty") else .ok ()

/-! ## Option values on the wire -/

structure WireOptionValue where
  kind : String
  stringValue : Option String
  bytesValue : Option Bytes
  intValue : Option Int64
  doubleValue : Option UInt64
  deriving DecidableEq

namespace WireOptionValue

def ofAdbc : OptionValue → WireOptionValue
  | .string v => ⟨"string", some v, none, none, none⟩
  | .bytes v => ⟨"bytes", none, some v, none, none⟩
  | .int v => ⟨"int", none, none, some v, none⟩
  | .double v => ⟨"double", none, none, none, some v⟩

def mismatch : ProtocolError := invalid "option kind and populated value fields do not match"

def validate (w : WireOptionValue) : Except ProtocolError Unit :=
  let populated := [w.stringValue.isSome, w.bytesValue.isSome, w.intValue.isSome, w.doubleValue.isSome]
  let correct :=
    if w.kind = "string" then w.stringValue.isSome
    else if w.kind = "bytes" then w.bytesValue.isSome
    else if w.kind = "int" then w.intValue.isSome
    else if w.kind = "double" then w.doubleValue.isSome
    else false
  if correct && populated.count true == 1 then .ok () else .error mismatch

def intoAdbc (w : WireOptionValue) : Except ProtocolError OptionValue :=
  match w.kind, w.stringValue, w.bytesValue, w.intValue, w.doubleValue with
  | "string", some v, none, none, none => .ok (.string v)
  | "bytes", none, some v, none, none => .ok (.bytes v)
  | "int", none, none, some v, none => .ok (.int v)
  | "double", none, none, none, some v => .ok (.double v)
  | _, _, _, _, _ => .error mismatch

end WireOptionValue

structure NamedOption where
  key : String
  value : WireOptionValue
  deriving DecidableEq

/-- The loop of `validate_options`, with the keys seen so far. -/
def validateOptionsFrom (keys : List String) : List NamedOption → Except ProtocolError Unit
  | [] => .ok ()
  | option :: rest => do
    validateHandle option.key
    if option.key ∈ keys then .error (invalid "duplicate initial option key")
    else
      option.value.validate
      validateOptionsFrom (option.key :: keys) rest

def validateOptions (options : List NamedOption) : Except ProtocolError Unit := validateOptionsFrom [] options

def namedOptionsIntoAdbc (options : List NamedOption) : Except ProtocolError (List (String × OptionValue)) := do
  validateOptions options
  options.mapM fun option => do return (option.key, ← option.value.intoAdbc)

/-! ## Typed requests -/

structure OpenConnectionRequest where
  target : String
  databaseOptions : List NamedOption
  connectionOptions : List NamedOption

structure SetConnectionOptionRequest where
  sessionId : String
  key : String
  value : WireOptionValue

structure SetStatementOptionRequest where
  sessionId : String
  statementId : String
  key : String
  value : WireOptionValue

structure GetInfoRequest where
  sessionId : String
  codes : Option (List Int64)

structure GetObjectsRequest where
  sessionId : String
  depth : Int64
  catalog : Option String
  dbSchema : Option String
  tableName : Option String
  tableTypes : Option (List String)
  columnName : Option String

structure GetTableSchemaRequest where
  sessionId : String
  catalog : Option String
  dbSchema : Option String
  tableName : String

structure GetStatisticsRequest where
  sessionId : String
  catalog : Option String
  dbSchema : Option String
  tableName : Option String
  approximate : Bool

/-- The typed records a request can carry. -/
inductive RequestKind where
  | openConnection
  | setConnectionOption
  | setStatementOption
  | getInfo
  | getObjects
  | getTableSchema
  | getStatistics

def RequestKind.Record : RequestKind → Type
  | .openConnection => OpenConnectionRequest
  | .setConnectionOption => SetConnectionOptionRequest
  | .setStatementOption => SetStatementOptionRequest
  | .getInfo => GetInfoRequest
  | .getObjects => GetObjectsRequest
  | .getTableSchema => GetTableSchemaRequest
  | .getStatistics => GetStatisticsRequest

/-- `filters`: every value that is there is text. -/
def filters (values : List (Option String)) : Except ProtocolError Unit :=
  (values.filterMap fun v => v).forM validateText

def RequestKind.validate : (t : RequestKind) → t.Record → Except ProtocolError Unit
  | .openConnection, (r : OpenConnectionRequest) => do
    validateHandle r.target
    validateOptions r.databaseOptions
    validateOptions r.connectionOptions
  | .setConnectionOption, (r : SetConnectionOptionRequest) => do
    validateHandle r.sessionId
    validateHandle r.key
    r.value.validate
  | .setStatementOption, (r : SetStatementOptionRequest) => do
    validateHandle r.sessionId
    validateHandle r.statementId
    validateHandle r.key
    r.value.validate
  | .getInfo, (r : GetInfoRequest) => do
    validateHandle r.sessionId
    if (r.codes.getD []).any fun code => code.toInt < 0 || 2 ^ 32 ≤ code.toInt then
      .error (invalid "info codes must fit uint32")
    else .ok ()
  | .getObjects, (r : GetObjectsRequest) => do
    validateHandle r.sessionId
    filters [r.catalog, r.dbSchema, r.tableName, r.columnName]
    (r.tableTypes.getD []).forM validateText
    if r.depth.toInt < 0 || 3 < r.depth.toInt then .error (invalid "object depth must be one of 0, 1, 2, 3")
      else .ok ()
  | .getTableSchema, (r : GetTableSchemaRequest) => do
    validateHandle r.sessionId
    filters [r.catalog, r.dbSchema, some r.tableName]
  | .getStatistics, (r : GetStatisticsRequest) => do
    validateHandle r.sessionId
    filters [r.catalog, r.dbSchema, r.tableName]

/-! ## Responses -/

inductive Response where
  | ok (ok : Bool)
  | session (sessionId : String)
  | statement (sessionId statementId : String)
  | execute (resultId : String) (rowsAffected : Option Int64) (schemaIpc : Bytes)
  | schema (schemaIpc : Bytes)
  | update (rowsAffected : Option Int64)
  | partitions (rowsAffected : Int64) (schemaIpc : Bytes) (partitions : List Bytes)
  | value (value : WireOptionValue)

def validateRows (rows : Option Int64) : Except ProtocolError Unit :=
  match rows with
  | some n => if n.toInt < -1 then .error (invalid "affected row count must be -1, null, or nonnegative") else .ok ()
  | none => .ok ()

def Response.validate : Response → Except ProtocolError Unit
  | .execute _ rows _ => validateRows rows
  | .update rows => validateRows rows
  | .partitions rows _ _ => validateRows (some rows)
  | .value v => v.validate
  | .ok _ | .session _ | .statement _ _ | .schema _ => .ok ()

/-! ## What Arrow and the record codec do -/

/-- `adbc_core`'s object depths, by number. -/
abbrev ObjectDepth := Int

structure Codec where
  /-- `decode_batch_ipc`: exactly one batch in a complete stream within the limit. -/
  decodeBatchIpc : Bytes → Nat → Except ProtocolError RecordBatch
  encodeBatchIpc : RecordBatch → Nat → Except ProtocolError Bytes
  decodeSchema : Bytes → Except ProtocolError Schema
  encodeSchema : Schema → Except ProtocolError Bytes
  /-- `decode_record_ipc`, at each request record. -/
  decodeRecordIpc : (t : RequestKind) → Bytes → Nat → Except ProtocolError t.Record
  /-- `encode_record` of a response record under the field `result`. -/
  encodeRecord : Response → Nat → Except ProtocolError RecordBatch
  objectDepth : Int → Except AdbcError ObjectDepth

def envelopeFields (name : String) : List Field := [⟨name, .binary, false, []⟩]

def bindTurnFields : List Field := [⟨"batch_ipc", .binary, false, []⟩, ⟨"finish", .boolean, false, []⟩]

/-- The columns of a turn are those of its schema. -/
theorem bindTurn_wf (payload : Bytes) (finish : Bool) :
    [Column.binary [some payload], .boolean [some finish]].map Column.dataType = bindTurnFields.map Field.dataType ∧
    ∀ c ∈ [Column.binary [some payload], .boolean [some finish]], c.length = 1 := by
  simp [bindTurnFields, Column.dataType, Column.length]

namespace Codec

variable (c : Codec)

def decodeRequest (t : RequestKind) (outer : RecordBatch) (limit : Nat) : Except ProtocolError t.Record := do
  if outer.schema.fields ≠ envelopeFields "request" then .error (invalid "unexpected typed envelope schema")
  else
    let value ← c.decodeRecordIpc t (← binaryValue outer "request") limit
    t.validate value
    return value

def encodeResponse (value : Response) (limit : Nat) : Except ProtocolError RecordBatch := do
  value.validate
  c.encodeRecord value limit

/-- One turn of a bind exchange: a batch, or `none` for finish. -/
def decodeBindTurn (turn : RecordBatch) (limit : Nat) : Except ProtocolError (Option RecordBatch) := do
  requireOneRow turn
  if turn.schema.fields ≠ bindTurnFields then .error (invalid "unexpected bind turn schema")
  else
    let payload ← binaryValue turn "batch_ipc"
    match (turn.columns[1]? : Option Column) with
    | some (.boolean rows) =>
      match rows.head? with
      | some (some true) =>
        if payload = [] then .ok none else .error (invalid "bind finish payload must be empty")
      | some (some false) => some <$> c.decodeBatchIpc payload limit
      | _ => .error (invalid "null bind finish field")
    | _ => .error (invalid "invalid bind finish field")

end Codec

/-! ## Requests -/

structure Request where
  metadata : Table String String
  batch : RecordBatch

/-- An explicit `0.4.x`, x one or more ASCII digits. -/
def validateProtocolVersion (request : Request) : Except RpcError Unit :=
  let compatible :=
    match request.metadata.lookup "vgi_rpc.protocol_version" with
    | some version =>
      match version.toList with
      | '0' :: '.' :: '4' :: '.' :: patch => !patch.isEmpty && patch.all fun ch => '0' ≤ ch && ch ≤ '9'
      | _ => false
    | none => false
  if compatible then .ok () else .error (.version "Grainlift requires an explicit 0.4.x protocol version")

end Grainlift.Protocol
