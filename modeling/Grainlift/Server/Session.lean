/-
  Grainlift.Server.Session — what a session holds and every operation on it
  (`SessionResources`, `Session`, session.rs; the driver traits of backend.rs).

  A session's work is of two kinds. A `Job` is the closure a handler sends to the
  session's worker: it runs there with the registries and the driver to itself. A `Hold`
  is what a handler does on its own thread under one lock, or with what it owns: the
  statement check and the registry moves of bind uploads, a turn's push (made with the
  upload registry locked until the actor answered), an upload's finish, and the two
  cancellations, which go around the worker on purpose.

  `perform` is what one of them does to the session and answers, given what the world
  answers at that moment: the driver, the disk and the next UUID. Each backend call is
  entered in `calls` with its answer.

  `Session`'s methods are programs over these operations, in the source's words.
-/

import Grainlift.Lib.Program
import Grainlift.Server.Cursor
import Grainlift.Server.Registry
import Grainlift.Server.Upload
import Mathlib.Data.Finset.Card

namespace Grainlift.Server

open Grainlift.Lib Grainlift.Protocol

/-! ## The driver -/

structure PartitionedResult where
  partitions : List Bytes
  schema : Schema
  rowsAffected : Int64

inductive ConnectionOp where
  | setOption (key : String) (value : OptionValue)
  | getOption (key valueType : String)
  | getInfo (codes : Option (Finset UInt32))
  | getObjects (depth : ObjectDepth) (catalog dbSchema tableName : Option String) (tableType : Option (List String))
      (columnName : Option String)
  | getTableSchema (catalog dbSchema : Option String) (tableName : String)
  | getTableTypes
  | getStatisticNames
  | getStatistics (catalog dbSchema tableName : Option String) (approximate : Bool)
  | commit
  | rollback
  | readPartition (partition : Bytes)

inductive StatementOp where
  | setOption (key : String) (value : OptionValue)
  | getOption (key valueType : String)
  | bind (batch : RecordBatch)
  | bindStream (reader : Reader)
  | setSqlQuery (query : String)
  | setSubstraitPlan (plan : Bytes)
  | prepare
  | execute
  | executeUpdate
  | executeSchema
  | executePartitions
  | getParameterSchema

@[reducible] def ConnectionOp.Ret : ConnectionOp → Type
  | .setOption _ _ | .commit | .rollback => Unit
  | .getOption _ _ => OptionValue
  | .getTableSchema _ _ _ => Schema
  | .getInfo _ | .getObjects _ _ _ _ _ _ | .getTableTypes | .getStatisticNames | .getStatistics _ _ _ _ |
    .readPartition _ => Reader

@[reducible] def StatementOp.Ret : StatementOp → Type
  | .setOption _ _ | .bind _ | .bindStream _ | .setSqlQuery _ | .setSubstraitPlan _ | .prepare => Unit
  | .getOption _ _ => OptionValue
  | .execute => Reader
  | .executeUpdate => Option Int64
  | .executeSchema | .getParameterSchema => Schema
  | .executePartitions => PartitionedResult

/-- The driver's answers at one moment, by what a call returns. -/
structure Driver where
  unit : Except AdbcError Unit
  reader : Except AdbcError Reader
  rows : Except AdbcError (Option Int64)
  schema : Except AdbcError Schema
  partitions : Except AdbcError PartitionedResult
  optionString : Except AdbcError String
  optionBytes : Except AdbcError Bytes
  optionInt : Except AdbcError Int64
  optionDouble : Except AdbcError UInt64

def valueTypes : List String := ["string", "bytes", "int", "double"]

/-- The closure of the two get-option handlers. -/
def Driver.option (d : Driver) (valueType : String) : Except AdbcError OptionValue :=
  if valueType = "string" then d.optionString.map .string
  else if valueType = "bytes" then d.optionBytes.map .bytes
  else if valueType = "int" then d.optionInt.map .int
  else if valueType = "double" then d.optionDouble.map .double
  else .error (.withMessageAndStatus "unknown option value type" .invalidArguments)

def ConnectionOp.answer (d : Driver) : (op : ConnectionOp) → Except AdbcError op.Ret
  | .setOption _ _ | .commit | .rollback => d.unit
  | .getOption _ valueType => d.option valueType
  | .getTableSchema _ _ _ => d.schema
  | .getInfo _ | .getObjects _ _ _ _ _ _ | .getTableTypes | .getStatisticNames | .getStatistics _ _ _ _ |
    .readPartition _ => d.reader

def StatementOp.answer (d : Driver) : (op : StatementOp) → Except AdbcError op.Ret
  | .setOption _ _ | .bind _ | .bindStream _ | .setSqlQuery _ | .setSubstraitPlan _ | .prepare => d.unit
  | .getOption _ valueType => d.option valueType
  | .execute => d.reader
  | .executeUpdate => d.rows
  | .executeSchema | .getParameterSchema => d.schema
  | .executePartitions => d.partitions

/-- An option of no known type is refused before the driver is asked. -/
def ConnectionOp.reaches : ConnectionOp → Bool
  | .getOption _ valueType => valueTypes.contains valueType
  | _ => true

def StatementOp.reaches : StatementOp → Bool
  | .getOption _ valueType => valueTypes.contains valueType
  | _ => true

inductive BackendCall where
  | connection (op : ConnectionOp) (answer : Except AdbcError op.Ret)
  | newStatement (answer : Except AdbcError Unit)
  | statement (id : String) (op : StatementOp) (answer : Except AdbcError op.Ret)
  /-- `next` of the reader of a result. -/
  | pull (result : String)
  | cancelConnection
  | cancelStatement (id : String)

/-! ## The session -/

inductive BindMode where
  | batch
  | stream
  deriving DecidableEq, Repr

structure BindUploadEntry where
  statementId : String
  mode : BindMode
  upload : BindUpload

/-- A session less its owner, target and lease. A registered statement is its id: the
    driver's statement behind it is only reached by calls. -/
structure Inner where
  connectionOptionPolicy : ClientOptionPolicy
  statements : Finset String
  results : Table String ResultEntry
  bindUploads : Table String BindUploadEntry
  calls : List BackendCall

def Inner.opened (policy : ClientOptionPolicy) : Inner := ⟨policy, ∅, ∅, ∅, []⟩

def Inner.called (s : Inner) (c : BackendCall) : Inner := { s with calls := s.calls ++ [c] }

/-! ## Operations -/

inductive Job where
  | connection (op : ConnectionOp)
  | newStatement
  | statement (id : String) (op : StatementOp)
  | removeStatement (id : String)
  | invalidate (statementId : String)
  | insertResult (ownerStatementId : Option String) (reader : Reader)
  | resultSchema (id : String)
  | nextResult (id : String) (sequence : Int64)
  | closeResult (id : String)

@[reducible] def Job.Ret : Job → Type
  | .connection op => op.Ret
  | .newStatement => String
  | .statement _ op => op.Ret
  | .removeStatement _ | .invalidate _ | .closeResult _ => Unit
  | .insertResult _ _ => String × Schema
  | .resultSchema _ => Schema
  | .nextResult _ _ => Option RecordBatch

inductive Hold where
  | checkStatement (id : String)
  | startUpload (schema : Schema) (maxBytes : Nat)
  | insertUpload (entry : BindUploadEntry)
  | pushUpload (id : String) (batch : RecordBatch)
  | takeUpload (id : String)
  | takeUploadsOf (statementId : String)
  | finishUpload (upload : BindUpload)
  | cancelConnection
  | cancelStatement (id : String)

@[reducible] def Hold.Ret : Hold → Type
  | .checkStatement _ | .pushUpload _ _ | .takeUploadsOf _ | .cancelConnection | .cancelStatement _ => Unit
  | .startUpload _ _ => BindUpload
  | .insertUpload _ => String
  | .takeUpload _ => BindUploadEntry
  | .finishUpload _ => Reader

inductive Op where
  | job (j : Job)
  | hold (h : Hold)

@[reducible] def Op.Ret : Op → Type
  | .job j => j.Ret
  | .hold h => h.Ret

@[reducible] def Ans (op : Op) : Type := Except AdbcError op.Ret

/-- What the world answers to one operation. -/
structure World where
  driver : Driver
  disk : Disk
  fresh : String

section Perform

variable (limits : SessionLimits) (ipc : Ipc) (w : World)

/-- `new_statement`'s job: the quota first, then the driver. -/
def newStatementJob (s : Inner) : Except AdbcError String × Inner :=
  if limits.maxStatementsPerSession ≤ s.statements.card then (.error (quota "statement"), s)
  else
    let s := s.called (.newStatement w.driver.unit)
    match w.driver.unit with
    | .error e => (.error e, s)
    | .ok () => (.ok w.fresh, { s with statements := insert w.fresh s.statements })

def insertResultJob (owner : Option String) (reader : Reader) (s : Inner) :
    Except AdbcError (String × Schema) × Inner :=
  if limits.maxResultsPerSession ≤ s.results.size then (.error (quota "result"), s)
  else (.ok (w.fresh, reader.schema), { s with results := s.results.insert w.fresh (.fresh owner reader) })

/-- What `invalidate_statement_results` keeps. -/
def notOwnedBy (statementId : String) (_ : String) (e : ResultEntry) : Bool := e.ownerStatementId ≠ some statementId

def nextResultJob (id : String) (sequence : Int64) (s : Inner) : Except AdbcError (Option RecordBatch) × Inner :=
  match s.results.lookup id with
  | none => (.error (notFound "result"), s)
  | some entry =>
    let (r, entry') := entry.next sequence
    let s' := { s with results := s.results.insert id entry' }
    (r, if entry'.reader.polled = entry.reader.polled then s' else s'.called (.pull id))

def Job.perform : (j : Job) → Inner → Except AdbcError j.Ret × Inner
  | .connection op, s =>
    let r := op.answer w.driver
    (r, if op.reaches then s.called (.connection op r) else s)
  | .newStatement, s => newStatementJob limits w s
  | .statement id op, s =>
    if id ∈ s.statements then
      let r := op.answer w.driver
      (r, if op.reaches then s.called (.statement id op r) else s)
    else (.error (notFound "statement"), s)
  | .removeStatement id, s =>
    if id ∈ s.statements then (.ok (), { s with statements := s.statements.erase id })
    else (.error (notFound "statement"), s)
  | .invalidate statementId, s => (.ok (), { s with results := s.results.retain (notOwnedBy statementId) })
  | .insertResult owner reader, s => insertResultJob limits w owner reader s
  | .resultSchema id, s =>
    match s.results.lookup id with
    | none => (.error (notFound "result"), s)
    | some entry => (.ok entry.schema, s)
  | .nextResult id sequence, s => nextResultJob id sequence s
  | .closeResult id, s =>
    match s.results.lookup id with
    | none => (.error (notFound "result"), s)
    | some _ => (.ok (), { s with results := s.results.erase id })

def ofStatement (statementId : String) (_ : String) (e : BindUploadEntry) : Bool := e.statementId = statementId

def pushUploadHold (id : String) (batch : RecordBatch) (s : Inner) : Except AdbcError Unit × Inner :=
  match s.bindUploads.lookup id with
  | none => (.error (notFound "bind upload"), s)
  | some entry =>
    let (r, upload) := entry.upload.push ipc w.disk batch
    (r, { s with bindUploads := s.bindUploads.insert id { entry with upload := upload } })

/-- A cancelled upload has already left the registry: its actor stops and its file goes. -/
def Hold.perform : (h : Hold) → Inner → Except AdbcError h.Ret × Inner
  | .checkStatement id, s => (if id ∈ s.statements then .ok () else .error (notFound "statement"), s)
  | .startUpload schema maxBytes, s => (BindUpload.start ipc w.disk schema maxBytes, s)
  | .insertUpload entry, s => (.ok w.fresh, { s with bindUploads := s.bindUploads.insert w.fresh entry })
  | .pushUpload id batch, s => pushUploadHold ipc w id batch s
  | .takeUpload id, s =>
    match s.bindUploads.lookup id with
    | none => (.error (notFound "bind upload"), s)
    | some entry => (.ok entry, { s with bindUploads := s.bindUploads.erase id })
  | .takeUploadsOf statementId, s =>
    (.ok (), { s with bindUploads := s.bindUploads.retain fun id e => !ofStatement statementId id e })
  | .finishUpload upload, s => (upload.finish ipc w.disk, s)
  | .cancelConnection, s => (w.driver.unit, s.called .cancelConnection)
  | .cancelStatement id, s =>
    if id ∈ s.statements then (w.driver.unit, s.called (.cancelStatement id))
    else (.error (notFound "statement"), s)

def Op.perform : (op : Op) → Inner → Ans op × Inner
  | .job j, s => j.perform limits w s
  | .hold h, s => h.perform ipc w s

end Perform

/-! ## The methods of `Session` -/

abbrev Do (ε α : Type) := Act Ans ε α

def call (j : Job) : Do AdbcError j.Ret := Prog.ask (Op.job j)

def hold (h : Hold) : Do AdbcError h.Ret := Prog.ask (Op.hold h)

def withConnection (op : ConnectionOp) : Do AdbcError op.Ret := call (.connection op)

def withStatement (id : String) (op : StatementOp) : Do AdbcError op.Ret := call (.statement id op)

/-- How `Debug` prints a character of a string. -/
def debugChar (unicode : Unicode) (c : Char) : String :=
  if c = '\t' then "\\t"
  else if c = '\r' then "\\r"
  else if c = '\n' then "\\n"
  else if c = '\x00' then "\\0"
  else if c = '\\' then "\\\\"
  else if c = '"' then "\\\""
  else if c.toNat < 32 ∨ c.toNat = 127 ∨ 127 < c.toNat ∧ (unicode.isGraphemeExtended c ∨ ¬ unicode.isPrintable c) then
    "\\u\x7b" ++ String.ofList (Nat.toDigits 16 c.toNat) ++ "\x7d"
  else c.toString

def debugString (unicode : Unicode) (s : String) : String :=
  "\"" ++ String.join (s.toList.map (debugChar unicode)) ++ "\""

def setConnectionOption (unicode : Unicode) (policy : ClientOptionPolicy) (key : String) (value : OptionValue) :
    Do AdbcError Unit :=
  if policy.permits key then withConnection (.setOption key value)
  else
    let reason := if policy.isProtected key then "is controlled by the proxy server"
      else "is not allowed by the target policy"
    .fail (.withMessageAndStatus ("client connection option " ++ debugString unicode key ++ " " ++ reason)
      .invalidArguments)

def cancelConnection : Do AdbcError Unit := hold .cancelConnection

def commit : Do AdbcError Unit := withConnection .commit

def rollback : Do AdbcError Unit := withConnection .rollback

def newStatement : Do AdbcError String := call .newStatement

def cancelStatement (id : String) : Do AdbcError Unit := hold (.cancelStatement id)

def invalidateStatementResults (statementId : String) : Do AdbcError Unit := call (.invalidate statementId)

def closeStatement (id : String) : Do AdbcError Unit := do
  call (.removeStatement id)
  invalidateStatementResults id
  hold (.takeUploadsOf id)

def startBindUpload (statementId : String) (mode : BindMode) (schema : Schema) (maxBytes : Nat) :
    Do AdbcError String := do
  hold (.checkStatement statementId)
  let upload ← hold (.startUpload schema maxBytes)
  hold (.insertUpload ⟨statementId, mode, upload⟩)

def pushBindUpload (id : String) (batch : RecordBatch) : Do AdbcError Unit := hold (.pushUpload id batch)

def oneBatch : AdbcError := invalidData "bind requires exactly one record batch"

/-- The one batch of the staged stream. -/
def exactlyOne (reader : Reader) : Except AdbcError RecordBatch :=
  match reader.next with
  | (none, _) => .error oneBatch
  | (some (.error e), _) => .error e
  | (some (.ok batch), reader) =>
    match reader.next with
    | (some _, _) => .error oneBatch
    | (none, _) => .ok batch

def finishBindUpload (id : String) : Do AdbcError Unit := do
  let entry ← hold (.takeUpload id)
  let reader ← hold (.finishUpload entry.upload)
  match entry.mode with
  | .batch =>
    let batch ← exactlyOne reader
    withStatement entry.statementId (.bind batch)
  | .stream => withStatement entry.statementId (.bindStream reader)

def cancelBindUpload {ε : Type} (id : String) : Do ε Unit := (hold (.takeUpload id)).ignore

def insertOwnedResult (owner : Option String) (reader : Reader) : Do AdbcError (String × Schema) :=
  call (.insertResult owner reader)

def insertResult (reader : Reader) : Do AdbcError (String × Schema) := insertOwnedResult none reader

def insertStatementResult (statementId : String) (reader : Reader) : Do AdbcError (String × Schema) := do
  invalidateStatementResults statementId
  insertOwnedResult (some statementId) reader

def resultSchema (id : String) : Do AdbcError Schema := call (.resultSchema id)

def nextResult (id : String) (sequence : Int64) : Do AdbcError (Option RecordBatch) := call (.nextResult id sequence)

def closeResult (id : String) : Do AdbcError Unit := call (.closeResult id)

end Grainlift.Server
