/-
  Grainlift.Client.Calls — the unary calls of the driver, and what they come to on the
  session (`GrainliftConnection`, `GrainliftStatement`, `RemoteConnection::call`;
  adbc-driver-grainlift/src/lib.rs, against service.rs).

  A client method is a program over `RemoteTransport::call`. `serve` is the server at the
  other end of one such call, on the caller's own session: a program over the session's
  operations. Putting `serve` in the place of each call (`interp`) makes of a client method
  a program on the session.

  `ApiCall.session` says what each method is for: the operation of the session it stands
  for, in the session's words, with nothing of requests, records or responses in it.

  Proved (`call_transparent`): a method whose arguments can be sent is the session's
  operation, its value and its errors brought to the caller; one whose arguments cannot is
  refused with nothing done on the session. The equality is of programs, so it holds
  however the session's operations are interleaved with those of others.
-/

import Grainlift.Client.Options
import Grainlift.Client.RemoteErrors
import Grainlift.Protocol.FlatRequests
import Grainlift.Server.Handlers

namespace Grainlift.Client.Calls

open Grainlift.Lib Grainlift.Protocol Grainlift.Server
open Grainlift.Client.Options (typedRequest namedOption)

/-! ## The transport -/

/-- One `RemoteTransport::call`. -/
structure Sent where
  method : Method
  request : RecordBatch

abbrev Answer (_ : Sent) : Type := Except AdbcError RecordBatch

abbrev Remotely (α : Type) := Act Answer AdbcError α

def transportCall (method : Method) (request : RecordBatch) : Remotely RecordBatch :=
  .call (⟨method, request⟩ : Sent) .done

/-! ## Responses -/

def okOf : ResponseKind.ok.Record → Bool
  | ⟨.ok ok, _⟩ => ok

def statementIdOf : ResponseKind.statement.Record → String
  | ⟨.statement _ statementId, _⟩ => statementId

/-- The fields that `reader_from_response` reads. -/
def executeOf : ResponseKind.execute.Record → String × Bytes
  | ⟨.execute resultId _ schemaIpc, _⟩ => (resultId, schemaIpc)

def schemaIpcOf : ResponseKind.schema.Record → Bytes
  | ⟨.schema schemaIpc, _⟩ => schemaIpc

def rowsAffectedOf : ResponseKind.update.Record → Option Int64
  | ⟨.update rowsAffected, _⟩ => rowsAffected

def partitionsOf : ResponseKind.partitions.Record → Int64 × Bytes × List Bytes
  | ⟨.partitions rowsAffected schemaIpc partitions, _⟩ => (rowsAffected, schemaIpc, partitions)

def valueOf : ResponseKind.value.Record → WireOptionValue
  | ⟨.value value, _⟩ => value

/-- `.map_err(|error| internal(error.to_string()))` -/
def orInternal (unicode : Unicode) {α : Type} (r : Except ProtocolError α) : Except AdbcError α :=
  r.mapError fun e => internal (Backend.errorText unicode e)

section Client

variable (arrow : Arrow) (derived : Derived)

def decodeResponse (k : ResponseKind) (batch : RecordBatch) : Except AdbcError k.Record :=
  orInternal arrow.platform.unicode (Protocol.decodeResponse arrow derived k batch maxControlBytes)

def decodeSchemaResponse (batch : RecordBatch) : Except AdbcError Schema := do
  let response ← decodeResponse arrow derived .schema batch
  orInternal arrow.platform.unicode (arrow.decodeSchema (schemaIpcOf response))

def decodeOptionResponse (batch : RecordBatch) : Except AdbcError OptionValue := do
  let response ← decodeResponse arrow derived .value batch
  orInternal arrow.platform.unicode (valueOf response).intoAdbc

/-- The methods whose reply must say `ok`. -/
def acknowledged : List Method :=
  [.closeConnection, .commit, .rollback, .cancelConnection, .setConnectionOption, .closeStatement, .setStatementOption,
    .prepare, .setSqlQuery, .setSubstraitPlan, .cancelStatement, .closeResult]

def notAcknowledged : AdbcError := internal "unary acknowledgement must be true"

/-- `RemoteConnection::call`. -/
def call (method : Method) (request : RecordBatch) : Remotely RecordBatch := do
  let response ← transportCall method request
  if acknowledged.contains method then do
    let acknowledgement ← decodeResponse arrow derived .ok response
    if okOf acknowledgement then pure response else .fail notAcknowledged
  else pure response

def callOk (method : Method) (request : RecordBatch) : Remotely Unit := do
  let _ ← call arrow derived method request
  pure ()

/-! ## `RemoteConnection` -/

variable (sessionId : String)

def sessionCall (method : Method) : Remotely Unit := callOk arrow derived method (sessionRequest sessionId)

def connectionOptionOf (key valueType : String) : Remotely OptionValue := do
  let response ← call arrow derived .getConnectionOption (connectionOptionKeyRequest sessionId key valueType)
  decodeOptionResponse arrow derived response

/-- `reader_from_response`, up to the reader: the result and its schema. -/
def resultFromResponse (response : RecordBatch) : Except AdbcError (String × Schema) := do
  let response ← decodeResponse arrow derived .execute response
  let schema ← orInternal arrow.platform.unicode (arrow.decodeSchema (executeOf response).2)
  return ((executeOf response).1, schema)

def connectionStreamCall (t : RequestKind) (args : t.Record) (method : Method) : Remotely (String × Schema) := do
  let request ← typedRequest arrow derived t args
  let response ← call arrow derived method request
  resultFromResponse arrow derived response

def sessionStreamCall (method : Method) : Remotely (String × Schema) := do
  let response ← call arrow derived method (sessionRequest sessionId)
  resultFromResponse arrow derived response

def connectionSchemaCall (t : RequestKind) (args : t.Record) (method : Method) : Remotely Schema := do
  let request ← typedRequest arrow derived t args
  let response ← call arrow derived method request
  decodeSchemaResponse arrow derived response

/-! ## `GrainliftConnection` -/

/-- The types `get_option_string`, `_bytes`, `_int` and `_double` ask for. -/
inductive OptionType where
  | string
  | bytes
  | int
  | double
  deriving DecidableEq

@[reducible] def OptionType.Value : OptionType → Type
  | .string => String
  | .bytes => Bytes
  | .int => Int64
  | .double => UInt64

def OptionType.name : OptionType → String
  | .string => "string"
  | .bytes => "bytes"
  | .int => "int"
  | .double => "double"

def wrongType : AdbcError := internal "Grainlift returned the wrong option value type"

def OptionType.read : (t : OptionType) → OptionValue → Except AdbcError t.Value
  | .string, .string value => .ok value
  | .bytes, .bytes value => .ok value
  | .int, .int value => .ok value
  | .double, .double value => .ok value
  | _, _ => .error wrongType

def setConnectionOption (key : String) (value : OptionValue) : Remotely Unit := do
  let args : SetConnectionOptionRequest := ⟨sessionId, key, .ofAdbc value⟩
  let request ← typedRequest arrow derived .setConnectionOption args
  callOk arrow derived .setConnectionOption request

def getConnectionOption (t : OptionType) (key : String) : Remotely t.Value := do
  let value ← connectionOptionOf arrow derived sessionId key t.name
  t.read value

def newStatement : Remotely String := do
  let response ← call arrow derived .newStatement (sessionRequest sessionId)
  let statement ← decodeResponse arrow derived .statement response
  return statementIdOf statement

/-- The codes in the order the set gives them out. -/
def getInfo (codes : Option (List UInt32)) : Remotely (String × Schema) :=
  let args : GetInfoRequest := ⟨sessionId, codes.map fun codes => codes.map fun c => Int64.ofNat c.toNat⟩
  connectionStreamCall arrow derived .getInfo args .getInfo

/-- The depths by their numbers. -/
def getObjects (depth : Fin 4) (catalog dbSchema tableName : Option String) (tableType : Option (List String))
    (columnName : Option String) : Remotely (String × Schema) :=
  let args : GetObjectsRequest :=
    ⟨sessionId, Int64.ofNat depth.val, catalog, dbSchema, tableName, tableType, columnName⟩
  connectionStreamCall arrow derived .getObjects args .getObjects

def getTableSchema (catalog dbSchema : Option String) (tableName : String) : Remotely Schema :=
  let args : GetTableSchemaRequest := ⟨sessionId, catalog, dbSchema, tableName⟩
  connectionSchemaCall arrow derived .getTableSchema args .getTableSchema

def getTableTypes : Remotely (String × Schema) := sessionStreamCall arrow derived sessionId .getTableTypes

def getStatisticNames : Remotely (String × Schema) := sessionStreamCall arrow derived sessionId .getStatisticNames

def getStatistics (catalog dbSchema tableName : Option String) (approximate : Bool) : Remotely (String × Schema) :=
  let args : GetStatisticsRequest := ⟨sessionId, catalog, dbSchema, tableName, approximate⟩
  connectionStreamCall arrow derived .getStatistics args .getStatistics

def commit : Remotely Unit := sessionCall arrow derived sessionId .commit

def rollback : Remotely Unit := sessionCall arrow derived sessionId .rollback

def readPartition (partition : Bytes) : Remotely (String × Schema) := do
  let response ← call arrow derived .readPartition (connectionBinaryRequest sessionId partition)
  resultFromResponse arrow derived response

/-- `try_cancel` of a connection's handle while the connection lives. -/
def cancelConnection : Remotely Unit := sessionCall arrow derived sessionId .cancelConnection

/-! ## `GrainliftStatement` -/

variable (statementId : String)

def setStatementOption (key : String) (value : OptionValue) : Remotely Unit := do
  let args : SetStatementOptionRequest := ⟨sessionId, statementId, key, .ofAdbc value⟩
  let request ← typedRequest arrow derived .setStatementOption args
  callOk arrow derived .setStatementOption request

def getStatementOption (t : OptionType) (key : String) : Remotely t.Value := do
  let response ← call arrow derived .getStatementOption (statementOptionKeyRequest sessionId statementId key t.name)
  let value ← decodeOptionResponse arrow derived response
  t.read value

def execute : Remotely (String × Schema) := do
  let response ← call arrow derived .execute (statementRequest sessionId statementId)
  resultFromResponse arrow derived response

def executeUpdate : Remotely (Option Int64) := do
  let response ← call arrow derived .executeUpdate (statementRequest sessionId statementId)
  let update ← decodeResponse arrow derived .update response
  return rowsAffectedOf update

def executeSchema : Remotely Schema := do
  let response ← call arrow derived .executeSchema (statementRequest sessionId statementId)
  decodeSchemaResponse arrow derived response

def executePartitions : Remotely PartitionedResult := do
  let response ← call arrow derived .executePartitions (statementRequest sessionId statementId)
  let response ← decodeResponse arrow derived .partitions response
  let schema ← orInternal arrow.platform.unicode (arrow.decodeSchema (partitionsOf response).2.1)
  return ⟨(partitionsOf response).2.2, schema, (partitionsOf response).1⟩

def getParameterSchema : Remotely Schema := do
  let response ← call arrow derived .getParameterSchema (statementRequest sessionId statementId)
  decodeSchemaResponse arrow derived response

def prepare : Remotely Unit := callOk arrow derived .prepare (statementRequest sessionId statementId)

def setSqlQuery (query : String) : Remotely Unit :=
  callOk arrow derived .setSqlQuery (setSqlRequest sessionId statementId query)

def setSubstraitPlan (plan : Bytes) : Remotely Unit :=
  callOk arrow derived .setSubstraitPlan (statementBinaryRequest sessionId statementId plan)

/-- `try_cancel` of a statement's handle while the connection lives. -/
def cancelStatement : Remotely Unit := callOk arrow derived .cancelStatement (statementRequest sessionId statementId)

/-- `Drop for GrainliftStatement`, whose answer nobody sees. -/
def closeStatement : Remotely Unit := callOk arrow derived .closeStatement (statementRequest sessionId statementId)

/-- `Drop for RemoteReader`, likewise. -/
def closeResult (resultId : String) : Remotely Unit :=
  callOk arrow derived .closeResult (resultRequest sessionId resultId)

end Client

/-! ## The server at the other end -/

/-- How replies travel. -/
structure Wire where
  base64 : Base64
  json : Json
  display : RemoteRpcError → String
  /-- The errors of handlers that are no `AdbcError`, as the server sends them. -/
  other : RpcError → RemoteRpcError
  /-- What `call_unary` makes of the reply of a stream method. -/
  stream : Reply → AdbcError

def Wire.sent (wire : Wire) : RpcError → RemoteRpcError
  | .adbc e => adbcRpcError wire.base64 wire.json e
  | e => wire.other e

def Wire.failed (wire : Wire) (e : RpcError) : AdbcError := rpcError wire.base64 wire.json wire.display (wire.sent e)

def Wire.received (wire : Wire) : Except RpcError Reply → Except AdbcError RecordBatch
  | .ok (.unary batch) => .ok batch
  | .ok reply => .error (wire.stream reply)
  | .error e => .error (wire.failed e)

/-- A request of this client, with the version its calls carry. -/
def versioned (batch : RecordBatch) : Request := ⟨AList.insert "vgi_rpc.protocol_version" "0.4.0" ∅, batch⟩

section Serve

variable (srv : Service) (ctx : CallContext) (v : SessionView) (wire : Wire)

/-- What the server answers where a request does not come to the caller's session `v`. -/
def refused (sent : Sent) : Except RpcError Reply :=
  match routeRequest srv ctx (versioned sent.request) sent.method with
  | .fail e => .error e
  | _ => .error (.adbc (notFound "session"))

/-- One unary call on the caller's own session. -/
def serve (sent : Sent) : Prog Ans (Except AdbcError RecordBatch) :=
  match programOn srv v ctx (.request sent.method (versioned sent.request)) with
  | some program => program.bind fun reply => .done (wire.received reply)
  | none => .done (wire.received (refused srv ctx sent))

end Serve

/-- A program of the session with its value, or its error, brought to the caller: the
    value goes, as it may go out, in a reply, and what was done is undone if the reply
    cannot be sent. -/
def delivered {α β : Type} (wire : Wire) (x : Do AdbcError α) (outgoing : α → Except RpcError α)
    (reply : α → Except ProtocolError RecordBatch) (undo : α → Do RpcError Unit) (value : α → Except AdbcError β) :
    Prog Ans (Except AdbcError β) :=
  x.bind fun
    | .error e => .done (.error (wire.failed (.adbc e)))
    | .ok a =>
      match outgoing a with
      | .error e => .done (.error (wire.failed e))
      | .ok a =>
        match reply a with
        | .ok _ => .done (value a)
        | .error e => (undo a).bind fun _ => .done (.error (wire.failed (.protocol e)))

/-! ## What the methods are for -/

inductive ApiCall where
  | setConnectionOption (key : String) (value : OptionValue)
  | getConnectionOption (t : OptionType) (key : String)
  | newStatement
  | getInfo (codes : Option (List UInt32))
  | getObjects (depth : Fin 4) (catalog dbSchema tableName : Option String) (tableType : Option (List String))
      (columnName : Option String)
  | getTableSchema (catalog dbSchema : Option String) (tableName : String)
  | getTableTypes
  | getStatisticNames
  | getStatistics (catalog dbSchema tableName : Option String) (approximate : Bool)
  | commit
  | rollback
  | readPartition (partition : Bytes)
  | cancelConnection
  | setStatementOption (statementId key : String) (value : OptionValue)
  | getStatementOption (statementId : String) (t : OptionType) (key : String)
  | execute (statementId : String)
  | executeUpdate (statementId : String)
  | executeSchema (statementId : String)
  | executePartitions (statementId : String)
  | getParameterSchema (statementId : String)
  | prepare (statementId : String)
  | setSqlQuery (statementId query : String)
  | setSubstraitPlan (statementId : String) (plan : Bytes)
  | cancelStatement (statementId : String)
  | closeStatement (statementId : String)
  | closeResult (resultId : String)

namespace ApiCall

/-- What the caller is given. -/
@[reducible] def Ret : ApiCall → Type
  | .getConnectionOption t _ | .getStatementOption _ t _ => t.Value
  | .newStatement => String
  | .getInfo _ | .getObjects _ _ _ _ _ _ | .getTableTypes | .getStatisticNames | .getStatistics _ _ _ _ |
    .readPartition _ | .execute _ => String × Schema
  | .getTableSchema _ _ _ | .executeSchema _ | .getParameterSchema _ => Schema
  | .executeUpdate _ => Option Int64
  | .executePartitions _ => PartitionedResult
  | .setConnectionOption _ _ | .commit | .rollback | .cancelConnection | .setStatementOption _ _ _ | .prepare _ |
    .setSqlQuery _ _ | .setSubstraitPlan _ _ | .cancelStatement _ | .closeStatement _ | .closeResult _ => Unit

/-- What the session's operation gives. -/
@[reducible] def Done : ApiCall → Type
  | .getConnectionOption _ _ | .getStatementOption _ _ _ => OptionValue
  | c => c.Ret

/-- The driver's method. -/
def client (arrow : Arrow) (derived : Derived) (sessionId : String) : (c : ApiCall) → Remotely c.Ret
  | .setConnectionOption key value => Calls.setConnectionOption arrow derived sessionId key value
  | .getConnectionOption t key => Calls.getConnectionOption arrow derived sessionId t key
  | .newStatement => Calls.newStatement arrow derived sessionId
  | .getInfo codes => Calls.getInfo arrow derived sessionId codes
  | .getObjects depth catalog dbSchema tableName tableType columnName =>
    Calls.getObjects arrow derived sessionId depth catalog dbSchema tableName tableType columnName
  | .getTableSchema catalog dbSchema tableName =>
    Calls.getTableSchema arrow derived sessionId catalog dbSchema tableName
  | .getTableTypes => Calls.getTableTypes arrow derived sessionId
  | .getStatisticNames => Calls.getStatisticNames arrow derived sessionId
  | .getStatistics catalog dbSchema tableName approximate =>
    Calls.getStatistics arrow derived sessionId catalog dbSchema tableName approximate
  | .commit => Calls.commit arrow derived sessionId
  | .rollback => Calls.rollback arrow derived sessionId
  | .readPartition partition => Calls.readPartition arrow derived sessionId partition
  | .cancelConnection => Calls.cancelConnection arrow derived sessionId
  | .setStatementOption id key value => Calls.setStatementOption arrow derived sessionId id key value
  | .getStatementOption id t key => Calls.getStatementOption arrow derived sessionId id t key
  | .execute id => Calls.execute arrow derived sessionId id
  | .executeUpdate id => Calls.executeUpdate arrow derived sessionId id
  | .executeSchema id => Calls.executeSchema arrow derived sessionId id
  | .executePartitions id => Calls.executePartitions arrow derived sessionId id
  | .getParameterSchema id => Calls.getParameterSchema arrow derived sessionId id
  | .prepare id => Calls.prepare arrow derived sessionId id
  | .setSqlQuery id query => Calls.setSqlQuery arrow derived sessionId id query
  | .setSubstraitPlan id plan => Calls.setSubstraitPlan arrow derived sessionId id plan
  | .cancelStatement id => Calls.cancelStatement arrow derived sessionId id
  | .closeStatement id => Calls.closeStatement arrow derived sessionId id
  | .closeResult id => Calls.closeResult arrow derived sessionId id

/-- A reader of the connection, kept as a result. -/
def kept (x : Do AdbcError Reader) : Do AdbcError (String × Schema) := x >>= insertResult

/-- The session's operation, on the session `v`. -/
def session (unicode : Unicode) (ctx : CallContext) (v : SessionView) : (c : ApiCall) → Do AdbcError c.Done
  | .setConnectionOption key value => Server.setConnectionOption unicode v.connectionOptionPolicy key value
  | .getConnectionOption t key => withConnection (.getOption key t.name)
  | .newStatement => Server.newStatement
  | .getInfo codes => kept (withConnection (.getInfo (codes.map List.toFinset)))
  | .getObjects depth catalog dbSchema tableName tableType columnName =>
    kept (withConnection (.getObjects (depth.val : Int) catalog dbSchema tableName tableType columnName))
  | .getTableSchema catalog dbSchema tableName => withConnection (.getTableSchema catalog dbSchema tableName)
  | .getTableTypes => kept (withConnection .getTableTypes)
  | .getStatisticNames => kept (withConnection .getStatisticNames)
  | .getStatistics catalog dbSchema tableName approximate =>
    kept (withConnection (.getStatistics catalog dbSchema tableName approximate))
  | .commit => Server.commit
  | .rollback => Server.rollback
  | .readPartition partition => do
    let descriptor ← ctx.signer.openToken v.target v.principal partition maxControlBytes
    kept (withConnection (.readPartition descriptor))
  | .cancelConnection => Server.cancelConnection
  | .setStatementOption id key value => withStatement id (.setOption key value)
  | .getStatementOption id t key => withStatement id (.getOption key t.name)
  | .execute id => do
    invalidateStatementResults id
    let reader ← withStatement id .execute
    insertStatementResult id reader
  | .executeUpdate id => do
    invalidateStatementResults id
    withStatement id .executeUpdate
  | .executeSchema id => do
    invalidateStatementResults id
    withStatement id .executeSchema
  | .executePartitions id => do
    invalidateStatementResults id
    withStatement id .executePartitions
  | .getParameterSchema id => withStatement id .getParameterSchema
  | .prepare id => withStatement id .prepare
  | .setSqlQuery id query => withStatement id (.setSqlQuery query)
  | .setSubstraitPlan id plan => withStatement id (.setSubstraitPlan plan)
  | .cancelStatement id => Server.cancelStatement id
  | .closeStatement id => Server.closeStatement id
  | .closeResult id => Server.closeResult id

/-! What stands between the session and the caller: arguments that cannot be sent, and
    responses that cannot. -/

def IsText (value : String) : Prop := '\x00' ∉ value.toList

def IsHandle (value : String) : Prop := value ≠ "" ∧ IsText value

/-- The record can be built: its fields are in order and it fits. -/
def Builds (arrow : Arrow) (derived : Derived) (t : RequestKind) (args : t.Record) : Prop :=
  ∃ batch, encodeRequest arrow derived t args maxControlBytes = .ok batch

/-- The arguments can be sent. -/
def Accepted (arrow : Arrow) (derived : Derived) (sessionId : String) : ApiCall → Prop
  | .setConnectionOption key value =>
    Builds arrow derived .setConnectionOption (⟨sessionId, key, .ofAdbc value⟩ : SetConnectionOptionRequest)
  | .getConnectionOption _ key => IsHandle key
  | .getInfo codes =>
    Builds arrow derived .getInfo
      (⟨sessionId, codes.map fun codes => codes.map fun c => Int64.ofNat c.toNat⟩ : GetInfoRequest)
  | .getObjects depth catalog dbSchema tableName tableType columnName =>
    Builds arrow derived .getObjects
      (⟨sessionId, Int64.ofNat depth.val, catalog, dbSchema, tableName, tableType, columnName⟩ : GetObjectsRequest)
  | .getTableSchema catalog dbSchema tableName =>
    Builds arrow derived .getTableSchema (⟨sessionId, catalog, dbSchema, tableName⟩ : GetTableSchemaRequest)
  | .getStatistics catalog dbSchema tableName approximate =>
    Builds arrow derived .getStatistics
      (⟨sessionId, catalog, dbSchema, tableName, approximate⟩ : GetStatisticsRequest)
  | .setStatementOption id key value =>
    Builds arrow derived .setStatementOption (⟨sessionId, id, key, .ofAdbc value⟩ : SetStatementOptionRequest)
  | .getStatementOption id _ key => IsHandle id ∧ IsHandle key
  | .setSqlQuery id query => IsHandle id ∧ IsText query
  | .execute id | .executeUpdate id | .executeSchema id | .executePartitions id | .getParameterSchema id | .prepare id |
    .setSubstraitPlan id _ | .cancelStatement id | .closeStatement id | .closeResult id => IsHandle id
  | .newStatement | .getTableTypes | .getStatisticNames | .commit | .rollback | .readPartition _ | .cancelConnection =>
    True

section Reply

variable (srv : Service) (ctx : CallContext) (v : SessionView)

def schemaReply (schema : Schema) : Except ProtocolError RecordBatch := do
  srv.codec.encodeResponse (.schema (← srv.codec.encodeSchema schema)) maxControlBytes

def resultReply (result : String × Schema) : Except ProtocolError RecordBatch := do
  boundedResponse srv (.execute result.1 none (← srv.codec.encodeSchema result.2)) (responseLimit ctx)

/-- The driver's result with its descriptors sealed, in what the schema leaves of the limit. -/
def sealedResult (result : PartitionedResult) : Except RpcError PartitionedResult := do
  let schema ← orProtocol (srv.codec.encodeSchema result.schema)
  if responseLimit ctx < schema.length then .error partitionsExceed
  else
    let tokens ← sealPartitions ctx v result.partitions (responseLimit ctx - schema.length)
    return { result with partitions := tokens }

def partitionsReply (result : PartitionedResult) : Except ProtocolError RecordBatch := do
  let schema ← srv.codec.encodeSchema result.schema
  boundedResponse srv (.partitions result.rowsAffected schema result.partitions) (responseLimit ctx)

/-- The operation's value as it may go out: a partition's descriptor stays with the server. -/
def outgoing : (c : ApiCall) → c.Done → Except RpcError c.Done
  | .executePartitions _, result => sealedResult srv ctx v result
  | _, x => .ok x

/-- The response that carries the operation's value, if it can be sent. -/
def reply : (c : ApiCall) → c.Done → Except ProtocolError RecordBatch
  | .getConnectionOption _ _, value | .getStatementOption _ _ _, value =>
    srv.codec.encodeResponse (.value (.ofAdbc value)) maxControlBytes
  | .newStatement, id => boundedResponse srv (.statement v.sessionId id) (responseLimit ctx)
  | .getInfo _, result | .getObjects _ _ _ _ _ _, result | .getTableTypes, result | .getStatisticNames, result |
    .getStatistics _ _ _ _, result | .readPartition _, result | .execute _, result => resultReply srv ctx result
  | .getTableSchema _ _ _, schema | .executeSchema _, schema | .getParameterSchema _, schema => schemaReply srv schema
  | .executePartitions _, result => partitionsReply srv ctx result
  | .executeUpdate _, rows => srv.codec.encodeResponse (.update rows) maxControlBytes
  | .setConnectionOption _ _, _ | .commit, _ | .rollback, _ | .cancelConnection, _ | .setStatementOption _ _ _, _ |
    .prepare _, _ | .setSqlQuery _ _, _ | .setSubstraitPlan _ _, _ | .cancelStatement _, _ | .closeStatement _, _ |
    .closeResult _, _ => srv.codec.encodeResponse (.ok true) maxControlBytes

/-- What is taken back when it cannot. -/
def undo : (c : ApiCall) → c.Done → Do RpcError Unit
  | .newStatement, id => (Server.closeStatement id).ignore
  | .getInfo _, result | .getObjects _ _ _ _ _ _, result | .getTableTypes, result | .getStatisticNames, result |
    .getStatistics _ _ _ _, result | .readPartition _, result | .execute _, result =>
    (Server.closeResult result.1).ignore
  | _, _ => pure ()

end Reply

/-- What the caller makes of the operation's value. -/
def value : (c : ApiCall) → c.Done → Except AdbcError c.Ret
  | .getConnectionOption t _, value | .getStatementOption _ t _, value => t.read value
  | .newStatement, x | .getInfo _, x | .getObjects _ _ _ _ _ _, x | .getTableTypes, x | .getStatisticNames, x |
    .getStatistics _ _ _ _, x | .readPartition _, x | .execute _, x | .getTableSchema _ _ _, x | .executeSchema _, x |
    .executePartitions _, x | .getParameterSchema _, x | .executeUpdate _, x | .setConnectionOption _ _, x |
    .commit, x | .rollback, x | .cancelConnection, x | .setStatementOption _ _ _, x | .prepare _, x |
    .setSqlQuery _ _, x | .setSubstraitPlan _ _, x | .cancelStatement _, x | .closeStatement _, x | .closeResult _, x => .ok x

/-- What a call comes to on the session `v`. -/
def onSession (srv : Service) (ctx : CallContext) (v : SessionView) (wire : Wire) (c : ApiCall) :
    Prog Ans (Except AdbcError c.Ret) :=
  delivered wire (c.session srv.unicode ctx v) (c.outgoing srv ctx v) (c.reply srv ctx v) c.undo c.value

end ApiCall

/-! ## One call through the wire -/

section Call

variable {arrow : Arrow} {derived : Derived} {srv : Service} {ctx : CallContext} {v : SessionView} {wire : Wire}
  {method : Method} {batch : RecordBatch} {α β : Type}

/-- What `call` makes of a reply. -/
def checked (arrow : Arrow) (derived : Derived) (method : Method) (response : RecordBatch) :
    Except AdbcError RecordBatch :=
  if acknowledged.contains method then do
    let acknowledgement ← decodeResponse arrow derived .ok response
    if okOf acknowledgement then pure response else .error notAcknowledged
  else .ok response

/-- A method's call, its reply decoded. -/
theorem call_eq {f : RecordBatch → Remotely α} {d : RecordBatch → Except AdbcError α}
    (hf : ∀ response, f response = liftM (d response)) :
    (call arrow derived method batch >>= f : Remotely α) =
      .call (⟨method, batch⟩ : Sent) fun r => .done (r >>= checked arrow derived method >>= d) := by
  refine congrArg (Prog.call (⟨method, batch⟩ : Sent)) (funext fun r => ?_)
  cases r with
  | error e => rfl
  | ok response =>
    show ((if acknowledged.contains method then (do
        let acknowledgement ← decodeResponse arrow derived .ok response
        if okOf acknowledgement then pure response else .fail notAcknowledged)
      else pure response) >>= f : Remotely α) = .done (checked arrow derived method response >>= d)
    unfold checked
    split
    · cases decodeResponse arrow derived .ok response with
      | error e => rfl
      | ok acknowledgement =>
        show ((if okOf acknowledgement then pure response else .fail notAcknowledged) >>= f : Remotely α) =
          .done ((if okOf acknowledgement then pure response else .error notAcknowledged) >>= d)
        split
        · exact hf response
        · rfl
    · exact hf response

theorem interp_call {f : RecordBatch → Remotely α} {d : RecordBatch → Except AdbcError α}
    (hf : ∀ response, f response = liftM (d response)) :
    Prog.interp (serve srv ctx v wire) (call arrow derived method batch >>= f : Remotely α) =
      (serve srv ctx v wire ⟨method, batch⟩).bind fun r => .done (r >>= checked arrow derived method >>= d) := by
  rw [call_eq hf]
  rfl

theorem serve_onSession {body : SessionView → Do RpcError Reply}
    (h : routeRequest srv ctx (versioned batch) method = .onSession v.principal v.sessionId body) :
    serve srv ctx v wire ⟨method, batch⟩ = (body v).bind fun reply => .done (wire.received reply) := by
  have hon : programOn srv v ctx (.request method (versioned batch)) = some (body v) := by
    simp [programOn, route, h]
  simp only [serve, hon]

/-- A handler that sends what it got of the session, or takes it back. -/
def respond (outgoing : α → Except RpcError α) (reply : α → Except ProtocolError RecordBatch)
    (undo : α → Do RpcError Unit) (x : α) : Do RpcError Reply :=
  match outgoing x with
  | .error e => .fail e
  | .ok x =>
    match reply x with
    | .ok batch => pure (.unary batch)
    | .error e => do
      undo x
      .fail (.protocol e)

/-- Taking back cannot fail. -/
def Settles (undo : Do RpcError Unit) : Prop :=
  ∀ g : Do RpcError Reply, (undo >>= fun _ => g : Do RpcError Reply) = Prog.bind undo fun _ => g

theorem settles_pure : Settles (pure ()) := fun _ => rfl

theorem settles_ignore (x : Do AdbcError β) : Settles x.ignore := fun g =>
  (Prog.bind_assoc x _ _).trans (Prog.bind_assoc x (fun _ => .done (Except.ok ())) fun _ => g).symm

theorem transparent {body : SessionView → Do RpcError Reply} {x : Do AdbcError α} {outgoing : α → Except RpcError α}
    {reply : α → Except ProtocolError RecordBatch} {undo : α → Do RpcError Unit} {value : α → Except AdbcError β}
    {f : RecordBatch → Remotely β} {d : RecordBatch → Except AdbcError β}
    (hf : ∀ response, f response = liftM (d response))
    (hroute : routeRequest srv ctx (versioned batch) method = .onSession v.principal v.sessionId body)
    (hbody : body v = x.mapErr .adbc >>= respond outgoing reply undo) (hundo : ∀ a, Settles (undo a))
    (hdecode : ∀ a response, reply a = .ok response → (checked arrow derived method response >>= d) = value a) :
    Prog.interp (serve srv ctx v wire) (call arrow derived method batch >>= f : Remotely β) =
      delivered wire x outgoing reply undo value := by
  rw [interp_call hf, serve_onSession hroute, hbody]
  refine (Prog.bind_assoc _ _ _).trans ((Prog.bind_assoc _ _ _).trans ((Prog.bind_assoc x _ _).trans ?_))
  refine congrArg (Prog.bind x) (funext fun r => ?_)
  cases r with
  | error e => rfl
  | ok a =>
    show ((respond outgoing reply undo a).bind fun reply =>
      (Prog.done (wire.received reply >>= checked arrow derived method >>= d) : Prog Ans (Except AdbcError β))) = _
    unfold respond
    simp only
    cases outgoing a with
    | error e => rfl
    | ok a =>
      simp only
      cases hr : reply a with
      | ok response =>
        show Prog.done (checked arrow derived method response >>= d) = _
        rw [hdecode a response hr]
      | error e =>
        exact (congrArg (fun p : Prog Ans (Except RpcError Reply) => p.bind _) (hundo a _)).trans
          (Prog.bind_assoc _ _ _)

end Call

/-! ## Arguments -/

section Arguments

variable {srv : Service} {ctx : CallContext} {v : SessionView} {cells : List (String × Cell)} {name value : String}

theorem validateHandle_iff : validateHandle value = .ok () ↔ ApiCall.IsHandle value := Options.validateHandle_ok_iff

theorem validateText_iff : validateText value = .ok () ↔ ApiCall.IsText value := by
  unfold validateText ApiCall.IsText
  by_cases h : '\x00' ∈ value.toList
  · simp [h]
  · simp [h]

/-- An argument read with its check. -/
theorem string_oneRow (h : argument cells name = some (.text value)) : string (versioned (oneRow cells)) name =
    (orProtocol (if ["session_id", "statement_id", "result_id", "key"].contains name then validateHandle value
      else validateText value)).map fun _ => value := by
  have hread : stringValue (versioned (oneRow cells)).batch name = .ok value := stringValue_oneRow h
  unfold string
  rw [hread]
  simp only [orProtocol, mapError_of_ok, bind, Except.bind]
  split
  · cases validateHandle value <;> rfl
  · cases validateText value <;> rfl

/-- A handle or key is read, if it is one. -/
theorem string_handle (h : argument cells name = some (.text value))
    (hn : ["session_id", "statement_id", "result_id", "key"].contains name = true) :
    (ApiCall.IsHandle value → string (versioned (oneRow cells)) name = .ok value) ∧
    (¬ ApiCall.IsHandle value → ∃ e, string (versioned (oneRow cells)) name = .error e) := by
  rw [string_oneRow h, if_pos hn, ← validateHandle_iff]
  cases hv : validateHandle value with
  | ok u => exact ⟨fun _ => rfl, fun hnot => absurd rfl hnot⟩
  | error e =>
    refine ⟨?_, fun _ => ⟨_, rfl⟩⟩
    intro hok
    cases hok

theorem string_text (h : argument cells name = some (.text value))
    (hn : ["session_id", "statement_id", "result_id", "key"].contains name = false) :
    (ApiCall.IsText value → string (versioned (oneRow cells)) name = .ok value) ∧
    (¬ ApiCall.IsText value → ∃ e, string (versioned (oneRow cells)) name = .error e) := by
  rw [string_oneRow h, hn, if_neg Bool.false_ne_true, ← validateText_iff]
  cases hv : validateText value with
  | ok u => exact ⟨fun _ => rfl, fun hnot => absurd rfl hnot⟩
  | error e =>
    refine ⟨?_, fun _ => ⟨_, rfl⟩⟩
    intro hok
    cases hok

theorem getSession_versioned (hp : principal srv ctx = .ok v.principal) (hv : ApiCall.IsHandle v.sessionId)
    (h : argument cells "session_id" = some (.text v.sessionId)) (body : SessionView → Do RpcError Reply) :
    getSession srv ctx (versioned (oneRow cells)) body = .onSession v.principal v.sessionId body := by
  have hversion : validateProtocolVersion (versioned (oneRow cells)) = .ok () := rfl
  unfold getSession
  rw [hversion, hp, (string_handle h rfl).1 hv]
  rfl

end Arguments

/-! ## Responses read back -/

/-- What the two ends have in common: Arrow and the derived records, and ADBC's numbers of
    the object depths. -/
structure Shared (arrow : Arrow) (derived : Derived) (srv : Service) : Prop where
  lawful : arrow.Lawful
  derives : derived.Lawful
  codec : srv.codec = arrow.codec derived
  schemas : ∀ schema bytes, arrow.encodeSchema schema = .ok bytes → arrow.decodeSchema bytes = .ok schema
  depths : ∀ depth : Fin 4, arrow.objectDepth depth.val = .ok (depth.val : Int)

section Decode

variable {arrow : Arrow} {derived : Derived} {srv : Service} {ctx : CallContext} {v : SessionView} {method : Method}
  {response : RecordBatch} {limit : Nat}

theorem decode_reply (hw : Shared arrow derived srv)
    (hle : limit ≤ maxControlBytes) {value : Response} (h : srv.codec.encodeResponse value limit = .ok response) :
    decodeResponse arrow derived value.kind response = .ok ⟨value, rfl⟩ := by
  rw [hw.codec] at h
  unfold decodeResponse
  rw [decode_encodeResponse hw.lawful hw.derives hle h]
  rfl

theorem boundedResponse_encodes {value : Response} (h : boundedResponse srv value limit = .ok response) :
    srv.codec.encodeResponse value limit = .ok response := by
  obtain ⟨batch, hb, h⟩ := bind_eq_ok h
  obtain ⟨_, -, h⟩ := bind_eq_ok h
  cases h
  exact hb

theorem responseLimit_le (ctx : CallContext) : responseLimit ctx ≤ maxControlBytes := Nat.min_le_right _ _

theorem checked_ok (hw : Shared arrow derived srv)
    (h : srv.codec.encodeResponse (.ok true) maxControlBytes = .ok response) :
    checked arrow derived method response = .ok response := by
  have hdecode := decode_reply hw (Nat.le_refl _) h
  unfold checked
  split
  · rw [show decodeResponse arrow derived .ok response = .ok ⟨.ok true, rfl⟩ from hdecode]
    rfl
  · rfl

theorem checked_plain (h : acknowledged.contains method = false) :
    checked arrow derived method response = .ok response := by
  unfold checked
  rw [h, if_neg Bool.false_ne_true]

theorem schemaReply_decodes (hw : Shared arrow derived srv)
    {schema : Schema} (h : ApiCall.schemaReply srv schema = .ok response) :
    decodeSchemaResponse arrow derived response = .ok schema := by
  obtain ⟨bytes, hb, h⟩ := bind_eq_ok h
  have hdecode := decode_reply hw (Nat.le_refl _) h
  rw [hw.codec] at hb
  unfold decodeSchemaResponse
  rw [show decodeResponse arrow derived .schema response = .ok ⟨.schema bytes, rfl⟩ from hdecode]
  show orInternal arrow.platform.unicode (arrow.decodeSchema bytes) = _
  rw [hw.schemas schema bytes hb]
  rfl

theorem resultReply_decodes (hw : Shared arrow derived srv)
    {result : String × Schema} (h : ApiCall.resultReply srv ctx result = .ok response) :
    resultFromResponse arrow derived response = .ok result := by
  obtain ⟨bytes, hb, h⟩ := bind_eq_ok h
  have hdecode := decode_reply hw (responseLimit_le ctx) (boundedResponse_encodes h)
  rw [hw.codec] at hb
  unfold resultFromResponse
  rw [show decodeResponse arrow derived .execute response = .ok ⟨.execute result.1 none bytes, rfl⟩ from hdecode]
  show (orInternal arrow.platform.unicode (arrow.decodeSchema bytes) >>= fun schema => return (result.1, schema)) = _
  rw [hw.schemas result.2 bytes hb]
  rfl

/-- `execute_partitions` on its response. -/
def partsOf (arrow : Arrow) (derived : Derived) (response : RecordBatch) : Except AdbcError PartitionedResult := do
  let response ← decodeResponse arrow derived .partitions response
  let schema ← orInternal arrow.platform.unicode (arrow.decodeSchema (partitionsOf response).2.1)
  return ⟨(partitionsOf response).2.2, schema, (partitionsOf response).1⟩

theorem partsOf_lift (response : RecordBatch) :
    (do let response ← decodeResponse arrow derived .partitions response
        let schema ← orInternal arrow.platform.unicode (arrow.decodeSchema (partitionsOf response).2.1)
        return ⟨(partitionsOf response).2.2, schema, (partitionsOf response).1⟩ : Remotely PartitionedResult) =
      liftM (partsOf arrow derived response) := by
  refine Eq.trans ?_ (Act.lift_seq (decodeResponse arrow derived .partitions response) _)
  refine congrArg (liftM (decodeResponse arrow derived .partitions response) >>= ·) (funext fun response => ?_)
  exact Act.lift_seq (orInternal arrow.platform.unicode (arrow.decodeSchema (partitionsOf response).2.1)) fun schema =>
    .ok (⟨(partitionsOf response).2.2, schema, (partitionsOf response).1⟩ : PartitionedResult)

theorem partitionsReply_decodes (hw : Shared arrow derived srv) {result : PartitionedResult}
    (h : ApiCall.partitionsReply srv ctx result = .ok response) : partsOf arrow derived response = .ok result := by
  obtain ⟨bytes, hb, h⟩ := bind_eq_ok h
  have hdecode := decode_reply hw (responseLimit_le ctx) (boundedResponse_encodes h)
  rw [hw.codec] at hb
  unfold partsOf
  rw [show decodeResponse arrow derived .partitions response =
    .ok ⟨.partitions result.rowsAffected bytes result.partitions, rfl⟩ from hdecode]
  show (orInternal arrow.platform.unicode (arrow.decodeSchema bytes) >>= fun schema =>
    .ok (⟨result.partitions, schema, result.rowsAffected⟩ : PartitionedResult)) = _
  rw [hw.schemas result.schema bytes hb]
  rfl

theorem optionReply_decodes (hw : Shared arrow derived srv)
    {value : OptionValue} (h : srv.codec.encodeResponse (.value (.ofAdbc value)) maxControlBytes = .ok response) :
    decodeOptionResponse arrow derived response = .ok value := by
  have hdecode := decode_reply hw (Nat.le_refl _) h
  unfold decodeOptionResponse
  rw [show decodeResponse arrow derived .value response = .ok ⟨.value (.ofAdbc value), rfl⟩ from hdecode]
  show orInternal arrow.platform.unicode (WireOptionValue.ofAdbc value).intoAdbc = _
  rw [Options.intoAdbc_ofAdbc]
  rfl

end Decode

/-! ## Handlers -/

section Handlers

variable {srv : Service} {ctx : CallContext} {v : SessionView}

theorem thenOk_respond (x : Do AdbcError Unit) : thenOk srv x = x.mapErr .adbc >>=
    respond .ok (fun _ => srv.codec.encodeResponse (.ok true) maxControlBytes) fun _ => pure () := by
  refine congrArg (x.mapErr RpcError.adbc >>= · : _ → Do RpcError Reply) (funext fun _ => ?_)
  unfold respond okBatch typedResponse
  cases srv.codec.encodeResponse (.ok true) maxControlBytes <;> rfl

/-- A handler that answers with a typed response. -/
theorem typed_respond {α : Type} (x : Do AdbcError α) (f : α → Except RpcError Reply)
    (reply : α → Except ProtocolError RecordBatch) (h : ∀ a, f a = (orProtocol (reply a)).map .unary) :
    (x.mapErr .adbc >>= fun a => liftM (f a) : Do RpcError Reply) =
      x.mapErr .adbc >>= respond .ok reply fun _ => pure () := by
  refine congrArg (x.mapErr RpcError.adbc >>= · : _ → Do RpcError Reply) (funext fun a => ?_)
  rw [h a]
  unfold respond
  simp only
  cases reply a <;> rfl

theorem schemaResponse_eq (schema : Schema) :
    schemaResponse srv schema = (orProtocol (ApiCall.schemaReply srv schema)).map .unary := by
  unfold schemaResponse ApiCall.schemaReply typedResponse
  cases srv.codec.encodeSchema schema <;> rfl

theorem valueResponse_eq (value : OptionValue) : valueResponse srv value =
    (orProtocol (srv.codec.encodeResponse (.value (.ofAdbc value)) maxControlBytes)).map .unary := by
  unfold valueResponse typedResponse
  simp only [Options.intoAdbc_ofAdbc]
  rfl

theorem partitionsResponse_eq (result : PartitionedResult) :
    partitionsResponse srv ctx v result = ApiCall.sealedResult srv ctx v result >>= fun result =>
      (orProtocol (ApiCall.partitionsReply srv ctx result)).map .unary := by
  unfold partitionsResponse ApiCall.sealedResult ApiCall.partitionsReply
  cases hs : srv.codec.encodeSchema result.schema with
  | error e => rfl
  | ok schema =>
    by_cases hlt : responseLimit ctx < schema.length
    · simp [orProtocol, bind, Except.bind, hlt]
    · simp only [orProtocol, mapError_of_ok, bind, Except.bind, hlt, if_false]
      cases sealPartitions ctx v result.partitions (responseLimit ctx - schema.length) with
      | error e => rfl
      | ok tokens =>
        simp only [pure, Except.pure, hs]

theorem executePartitions_respond (x : Do AdbcError PartitionedResult) :
    (x.mapErr .adbc >>= fun result => liftM (partitionsResponse srv ctx v result) : Do RpcError Reply) =
      x.mapErr .adbc >>= respond (ApiCall.sealedResult srv ctx v) (ApiCall.partitionsReply srv ctx) fun _ => pure () := by
  refine congrArg (x.mapErr RpcError.adbc >>= · : _ → Do RpcError Reply) (funext fun result => ?_)
  rw [partitionsResponse_eq]
  unfold respond
  cases ApiCall.sealedResult srv ctx v result with
  | error e => rfl
  | ok sent =>
    simp only [bind, Except.bind]
    cases ApiCall.partitionsReply srv ctx sent <;> rfl

theorem thenInsert_respond (x : Do AdbcError Reader) : thenInsert srv ctx x = (ApiCall.kept x).mapErr .adbc >>=
    respond .ok (ApiCall.resultReply srv ctx) fun result => (Server.closeResult result.1).ignore := by
  unfold ApiCall.kept
  rw [Act.mapErr_seq, Act.seq_assoc]
  rfl

end Handlers

/-! ## Every method -/

section Transparent

variable {arrow : Arrow} {derived : Derived} {srv : Service} {ctx : CallContext} {v : SessionView} {wire : Wire}
  {method : Method} {batch : RecordBatch} {body : SessionView → Do RpcError Reply}

theorem ack_transparent (hw : Shared arrow derived srv) {x : Do AdbcError Unit}
    (hroute : routeRequest srv ctx (versioned batch) method = .onSession v.principal v.sessionId body)
    (hbody : body v = thenOk srv x) :
    Prog.interp (serve srv ctx v wire) (callOk arrow derived method batch) =
      delivered wire x .ok (fun _ => srv.codec.encodeResponse (.ok true) maxControlBytes) (fun _ => pure ()) .ok := by
  refine transparent (d := fun _ => .ok ()) (fun _ => rfl) hroute (hbody.trans (thenOk_respond x))
    (fun _ => settles_pure) ?_
  intro a response h
  rw [checked_ok hw h]
  rfl

theorem result_transparent (hw : Shared arrow derived srv)
    {x : Do AdbcError (String × Schema)}
    (hroute : routeRequest srv ctx (versioned batch) method = .onSession v.principal v.sessionId body)
    (hm : acknowledged.contains method = false)
    (hbody : body v = x.mapErr .adbc >>=
      respond .ok (ApiCall.resultReply srv ctx) fun result => (Server.closeResult result.1).ignore) :
    Prog.interp (serve srv ctx v wire)
        (call arrow derived method batch >>= fun response => liftM (resultFromResponse arrow derived response) :
          Remotely (String × Schema)) =
      delivered wire x .ok (ApiCall.resultReply srv ctx) (fun result => (Server.closeResult result.1).ignore) .ok := by
  refine transparent (fun _ => rfl) hroute hbody (fun _ => settles_ignore _) ?_
  intro a response h
  rw [checked_plain hm]
  exact resultReply_decodes hw h

theorem schema_transparent (hw : Shared arrow derived srv)
    {x : Do AdbcError Schema}
    (hroute : routeRequest srv ctx (versioned batch) method = .onSession v.principal v.sessionId body)
    (hm : acknowledged.contains method = false)
    (hbody : body v = (x.mapErr .adbc >>= fun schema => liftM (schemaResponse srv schema) : Do RpcError Reply)) :
    Prog.interp (serve srv ctx v wire)
        (call arrow derived method batch >>= fun response => liftM (decodeSchemaResponse arrow derived response) :
          Remotely Schema) =
      delivered wire x .ok (ApiCall.schemaReply srv) (fun _ => pure ()) .ok := by
  refine transparent (fun _ => rfl) hroute (hbody.trans (typed_respond x _ _ schemaResponse_eq))
    (fun _ => settles_pure) ?_
  intro a response h
  rw [checked_plain hm]
  exact schemaReply_decodes hw h

/-- A method that asks for an option's value, and reads it as its type. -/
theorem option_transparent (hw : Shared arrow derived srv)
    {β : Type} {x : Do AdbcError OptionValue} (read : OptionValue → Except AdbcError β)
    (hroute : routeRequest srv ctx (versioned batch) method = .onSession v.principal v.sessionId body)
    (hm : acknowledged.contains method = false)
    (hbody : body v = (x.mapErr .adbc >>= fun value => liftM (valueResponse srv value) : Do RpcError Reply))
    {f : RecordBatch → Remotely β}
    (hf : ∀ response, f response = liftM (decodeOptionResponse arrow derived response >>= read)) :
    Prog.interp (serve srv ctx v wire) (call arrow derived method batch >>= f : Remotely β) =
      delivered wire x .ok (fun value => srv.codec.encodeResponse (.value (.ofAdbc value)) maxControlBytes)
        (fun _ => pure ()) read := by
  refine transparent hf hroute (hbody.trans (typed_respond x _ _ valueResponse_eq)) (fun _ => settles_pure) ?_
  intro a response h
  rw [checked_plain hm]
  show (decodeOptionResponse arrow derived response >>= read) = read a
  rw [optionReply_decodes hw h]
  rfl

section Typed

variable {t : RequestKind} {args : t.Record}

/-- A typed request that is built is read as it was written. -/
theorem typed_sent (hw : Shared arrow derived srv) (h : ApiCall.Builds arrow derived t args) :
    ∃ batch, Options.typedRequest arrow derived t args = .ok batch ∧
      Server.typedRequest srv t (versioned batch) = .ok args := by
  obtain ⟨batch, hb⟩ := h
  have hversion : validateProtocolVersion (versioned batch) = .ok () := rfl
  refine ⟨batch, by rw [Options.typedRequest, hb]; rfl, ?_⟩
  unfold Server.typedRequest
  rw [hversion, hw.codec]
  show orProtocol ((arrow.codec derived).decodeRequest t batch maxControlBytes) = _
  rw [decode_encodeRequest hw.lawful hw.derives (Nat.le_refl _) hb]
  rfl

theorem typed_refused (h : ¬ ApiCall.Builds arrow derived t args) :
    ∃ e, Options.typedRequest arrow derived t args = .error e := by
  unfold Options.typedRequest
  cases hb : encodeRequest arrow derived t args maxControlBytes with
  | error e => exact ⟨_, rfl⟩
  | ok batch => exact absurd ⟨batch, hb⟩ h

theorem sessionById_ok (hp : principal srv ctx = .ok v.principal) (body : SessionView → Do RpcError Reply) :
    sessionById srv ctx v.sessionId body = .ok (.onSession v.principal v.sessionId body) := by
  unfold sessionById
  rw [hp]
  rfl

theorem typed_route (hp : principal srv ctx = .ok v.principal)
    (hread : Server.typedRequest srv t (versioned batch) = .ok args) {id : t.Record → String}
    (hid : id args = v.sessionId) (f : t.Record → SessionView → Do RpcError Reply) :
    Plan.ofExcept (Server.typedRequest srv t (versioned batch) >>= fun args =>
      sessionById srv ctx (id args) (f args)) = .onSession v.principal v.sessionId (f args) := by
  rw [hread]
  show Plan.ofExcept (sessionById srv ctx (id args) (f args)) = _
  rw [hid, sessionById_ok hp]
  rfl

end Typed

/-- The caller's session id is a handle, and the server knows the caller. -/
structure Mine (srv : Service) (ctx : CallContext) (v : SessionView) : Prop where
  caller : principal srv ctx = .ok v.principal
  handle : ApiCall.IsHandle v.sessionId

theorem depth_sent (depth : Fin 4) : (Int64.ofNat depth.val).toInt32.toInt = (depth.val : Int) := by
  revert depth
  decide

/-- The codes survive their way through `Int64`. -/
theorem infoCodes_sent (codes : Option (List UInt32)) :
    ((codes.map fun codes => codes.map fun c => Int64.ofNat c.toNat).map fun codes =>
      (codes.map fun c => c.toUInt64.toUInt32).toFinset) = codes.map List.toFinset := by
  cases codes with
  | none => rfl
  | some codes => simp [Function.comp_def]

theorem isText_name (t : OptionType) : ApiCall.IsText t.name := by
  unfold ApiCall.IsText
  cases t <;> decide

theorem statementId_read {sessionId id : String} (h : ApiCall.IsHandle id) :
    string (versioned (statementRequest sessionId id)) "statement_id" = .ok id := (string_handle rfl rfl).1 h

/-- The end of an option's getter. -/
theorem option_read (t : OptionType) (response : RecordBatch) :
    (do let value ← decodeOptionResponse arrow derived response
        t.read value : Remotely t.Value) = liftM (decodeOptionResponse arrow derived response >>= t.read) :=
  Act.lift_seq _ _

/-- A call whose arguments can be sent. -/
theorem accepted_transparent (hw : Shared arrow derived srv) (hm : Mine srv ctx v) (c : ApiCall)
    (h : c.Accepted arrow derived v.sessionId) :
    Prog.interp (serve srv ctx v wire) (c.client arrow derived v.sessionId) = c.onSession srv ctx v wire := by
  have hflat : ∀ (cells : List (String × Cell)) (body : SessionView → Do RpcError Reply),
      argument cells "session_id" = some (.text v.sessionId) →
      getSession srv ctx (versioned (oneRow cells)) body = .onSession v.principal v.sessionId body :=
    fun _ body hsid => getSession_versioned hm.caller hm.handle hsid body
  cases c with
  | setConnectionOption key value =>
    obtain ⟨batch, hb, hread⟩ := typed_sent hw h
    show Prog.interp _ (liftM (Options.typedRequest arrow derived .setConnectionOption _) >>=
      callOk arrow derived .setConnectionOption : Remotely Unit) = _
    rw [hb]
    refine ack_transparent hw (typed_route hm.caller hread rfl _) ?_
    show (liftM (orProtocol (WireOptionValue.ofAdbc value).intoAdbc) >>= _ : Do RpcError Reply) = _
    rw [Options.intoAdbc_ofAdbc]
    rfl
  | getConnectionOption t key =>
    have hroute : routeRequest srv ctx (versioned (connectionOptionKeyRequest v.sessionId key t.name))
        .getConnectionOption = .onSession v.principal v.sessionId _ := hflat _ _ rfl
    have hbody : getConnectionOptionHandler srv (versioned (connectionOptionKeyRequest v.sessionId key t.name)) =
        (withConnection (.getOption key t.name)).mapErr .adbc >>= fun value => liftM (valueResponse srv value) := by
      unfold getConnectionOptionHandler connectionOptionKeyRequest
      rw [(string_handle rfl rfl).1 h, (string_text rfl rfl).1 (isText_name t)]
      rfl
    show Prog.interp _ ((call arrow derived .getConnectionOption _ >>= fun response =>
      liftM (decodeOptionResponse arrow derived response)) >>= fun value => liftM (t.read value) :
        Remotely t.Value) = _
    rw [Act.seq_assoc]
    exact option_transparent hw t.read hroute rfl hbody (option_read t)
  | newStatement =>
    show Prog.interp _ (call arrow derived .newStatement _ >>= _ : Remotely String) = _
    refine transparent (fun _ => Act.lift_seq _ _) (hflat _ _ rfl) rfl (fun _ => settles_ignore _) ?_
    intro id response hr
    rw [checked_plain rfl]
    show (decodeResponse arrow derived .statement response >>= fun statement => pure (statementIdOf statement)) = _
    rw [show decodeResponse arrow derived .statement response = .ok ⟨.statement v.sessionId id, rfl⟩ from
      decode_reply hw (responseLimit_le ctx) (boundedResponse_encodes hr)]
    rfl
  | getInfo codes =>
    obtain ⟨batch, hb, hread⟩ := typed_sent hw h
    show Prog.interp _ (liftM (Options.typedRequest arrow derived .getInfo _) >>= _ : Remotely (String × Schema)) = _
    rw [hb]
    refine result_transparent hw (typed_route hm.caller hread rfl _) rfl ?_
    show thenInsert srv ctx (withConnection (.getInfo (((codes.map fun codes => codes.map fun c =>
      Int64.ofNat c.toNat)).map fun codes => (codes.map fun c => c.toUInt64.toUInt32).toFinset))) = _
    rw [infoCodes_sent]
    exact thenInsert_respond _
  | getObjects depth catalog dbSchema tableName tableType columnName =>
    obtain ⟨batch, hb, hread⟩ := typed_sent hw h
    show Prog.interp _ (liftM (Options.typedRequest arrow derived .getObjects _) >>= _ :
      Remotely (String × Schema)) = _
    rw [hb]
    refine result_transparent hw (typed_route hm.caller hread rfl _) rfl ?_
    show (liftM (orAdbc (srv.codec.objectDepth (Int64.ofNat depth.val).toInt32.toInt)) >>= _ :
      Do RpcError Reply) = _
    rw [depth_sent, hw.codec, show (arrow.codec derived).objectDepth (depth.val : Int) = _ from hw.depths depth]
    exact thenInsert_respond _
  | getTableSchema catalog dbSchema tableName =>
    obtain ⟨batch, hb, hread⟩ := typed_sent hw h
    show Prog.interp _ (liftM (Options.typedRequest arrow derived .getTableSchema _) >>= _ : Remotely Schema) = _
    rw [hb]
    exact schema_transparent hw (typed_route hm.caller hread rfl _) rfl rfl
  | getTableTypes => exact result_transparent hw (hflat _ _ rfl) rfl (thenInsert_respond _)
  | getStatisticNames => exact result_transparent hw (hflat _ _ rfl) rfl (thenInsert_respond _)
  | getStatistics catalog dbSchema tableName approximate =>
    obtain ⟨batch, hb, hread⟩ := typed_sent hw h
    show Prog.interp _ (liftM (Options.typedRequest arrow derived .getStatistics _) >>= _ :
      Remotely (String × Schema)) = _
    rw [hb]
    exact result_transparent hw (typed_route hm.caller hread rfl _) rfl (thenInsert_respond _)
  | commit => exact ack_transparent hw (hflat _ _ rfl) rfl
  | rollback => exact ack_transparent hw (hflat _ _ rfl) rfl
  | readPartition partition =>
    refine result_transparent hw (hflat _ _ rfl) rfl ?_
    have hread : binary (versioned (connectionBinaryRequest v.sessionId partition)) "payload" = .ok partition :=
      congrArg orProtocol (binaryValue_oneRow rfl)
    unfold readPartitionHandler
    rw [hread]
    show (liftM (orAdbc (ctx.signer.openToken v.target v.principal partition maxControlBytes)) >>= fun descriptor =>
      thenInsert srv ctx (withConnection (.readPartition descriptor)) : Do RpcError Reply) =
        ((liftM (ctx.signer.openToken v.target v.principal partition maxControlBytes) >>= fun descriptor =>
          ApiCall.kept (withConnection (.readPartition descriptor)) : Do AdbcError (String × Schema)).mapErr .adbc >>=
            respond .ok (ApiCall.resultReply srv ctx) fun result => (Server.closeResult result.1).ignore)
    cases ctx.signer.openToken v.target v.principal partition maxControlBytes with
    | error e => rfl
    | ok descriptor => exact thenInsert_respond _
  | cancelConnection => exact ack_transparent hw (hflat _ _ rfl) rfl
  | setStatementOption id key value => 
    obtain ⟨batch, hb, hread⟩ := typed_sent hw h
    show Prog.interp _ (liftM (Options.typedRequest arrow derived .setStatementOption _) >>=
      callOk arrow derived .setStatementOption : Remotely Unit) = _
    rw [hb]
    refine ack_transparent hw (typed_route hm.caller hread rfl _) ?_
    show (liftM (orProtocol (WireOptionValue.ofAdbc value).intoAdbc) >>= _ : Do RpcError Reply) = _
    rw [Options.intoAdbc_ofAdbc]
    rfl
  | getStatementOption id t key =>
    have hroute : routeRequest srv ctx (versioned (statementOptionKeyRequest v.sessionId id key t.name))
        .getStatementOption = .onSession v.principal v.sessionId _ := hflat _ _ rfl
    have hbody : getStatementOptionHandler srv (versioned (statementOptionKeyRequest v.sessionId id key t.name)) =
        (withStatement id (.getOption key t.name)).mapErr .adbc >>= fun value => liftM (valueResponse srv value) := by
      unfold getStatementOptionHandler statementOptionKeyRequest
      rw [(string_handle rfl rfl).1 h.1, (string_handle rfl rfl).1 h.2, (string_text rfl rfl).1 (isText_name t)]
      rfl
    exact option_transparent hw t.read hroute rfl hbody (option_read t)
  | execute id =>
    refine result_transparent hw (hflat _ _ rfl) rfl ?_
    unfold executeHandler
    rw [statementId_read h]
    simp only [ApiCall.session, Act.mapErr_seq, Act.seq_assoc]
    rfl
  | executeUpdate id =>
    have hbody : executeUpdateHandler srv (versioned (statementRequest v.sessionId id)) =
        ((invalidateStatementResults id >>= fun _ => withStatement id .executeUpdate).mapErr .adbc >>= fun rows =>
          liftM (typedResponse srv (.update rows)) : Do RpcError Reply) := by
      unfold executeUpdateHandler
      rw [statementId_read h]
      simp only [Act.mapErr_seq, Act.seq_assoc]
      rfl
    refine transparent (d := fun response => decodeResponse arrow derived .update response >>= fun update =>
      pure (rowsAffectedOf update)) (fun _ => Act.lift_seq _ _) (hflat _ _ rfl)
      (hbody.trans (typed_respond _ _ _ fun _ => rfl)) (fun _ => settles_pure) ?_
    intro rows response hr
    rw [checked_plain rfl]
    show (decodeResponse arrow derived .update response >>= fun update => pure (rowsAffectedOf update)) = _
    rw [show decodeResponse arrow derived .update response = .ok ⟨.update rows, rfl⟩ from
      decode_reply hw (Nat.le_refl _) hr]
    rfl
  | executeSchema id =>
    refine schema_transparent hw (hflat _ _ rfl) rfl ?_
    show executeSchemaHandler srv (versioned (statementRequest v.sessionId id)) = _
    unfold executeSchemaHandler
    rw [statementId_read h]
    simp only [ApiCall.session, Act.mapErr_seq, Act.seq_assoc]
    rfl
  | executePartitions id =>
    have hbody : executePartitionsHandler srv ctx (versioned (statementRequest v.sessionId id)) v =
        ((invalidateStatementResults id >>= fun _ => withStatement id .executePartitions).mapErr .adbc >>= fun result =>
          liftM (partitionsResponse srv ctx v result) : Do RpcError Reply) := by
      unfold executePartitionsHandler
      rw [statementId_read h]
      simp only [Act.mapErr_seq, Act.seq_assoc]
      rfl
    refine transparent partsOf_lift (hflat _ _ rfl) (hbody.trans (executePartitions_respond _)) (fun _ => settles_pure) ?_
    intro result response hr
    rw [checked_plain rfl]
    exact partitionsReply_decodes hw hr
  | getParameterSchema id =>
    refine schema_transparent hw (hflat _ _ rfl) rfl ?_
    show getParameterSchemaHandler srv (versioned (statementRequest v.sessionId id)) = _
    unfold getParameterSchemaHandler
    rw [statementId_read h]
    rfl
  | prepare id =>
    refine ack_transparent hw (hflat _ _ rfl) ?_
    unfold prepareHandler
    rw [statementId_read h]
    rfl
  | setSqlQuery id query =>
    refine ack_transparent hw (hflat _ _ rfl) ?_
    unfold setSqlQueryHandler setSqlRequest
    rw [(string_handle rfl rfl).1 h.1, (string_text rfl rfl).1 h.2]
    rfl
  | setSubstraitPlan id plan =>
    have hread : binary (versioned (statementBinaryRequest v.sessionId id plan)) "payload" = .ok plan :=
      congrArg orProtocol (binaryValue_oneRow rfl)
    refine ack_transparent hw (hflat _ _ rfl) ?_
    unfold setSubstraitPlanHandler
    rw [hread]
    unfold statementBinaryRequest
    rw [(string_handle rfl rfl).1 h]
    rfl
  | cancelStatement id =>
    refine ack_transparent hw (hflat _ _ rfl) ?_
    unfold cancelStatementHandler
    rw [statementId_read h]
    rfl
  | closeStatement id =>
    refine ack_transparent hw (hflat _ _ rfl) ?_
    unfold closeStatementHandler
    rw [statementId_read h]
    rfl
  | closeResult id =>
    refine ack_transparent hw (hflat _ _ rfl) ?_
    unfold closeResultHandler resultRequest
    rw [(string_handle rfl rfl).1 h]
    rfl

/-- A call whose handler stops at its arguments. -/
theorem interp_stopped {e : RpcError} {α : Type} {f : RecordBatch → Remotely α}
    (hroute : routeRequest srv ctx (versioned batch) method = .onSession v.principal v.sessionId body)
    (hbody : body v = .fail e) :
    Prog.interp (serve srv ctx v wire) (call arrow derived method batch >>= f : Remotely α) =
      .done (.error (wire.failed e)) := by
  have hserve : serve srv ctx v wire ⟨method, batch⟩ = .done (.error (wire.failed e)) := by
    rw [serve_onSession hroute, hbody]
    rfl
  show (serve srv ctx v wire ⟨method, batch⟩).bind _ = _
  rw [hserve]
  rfl

/-- A handle that is none is refused where the handler reads it. -/
theorem stopped_handle {cells : List (String × Cell)} {name value : String} {α : Type} {g : RecordBatch → Remotely α}
    (hname : argument cells name = some (.text value))
    (hn : ["session_id", "statement_id", "result_id", "key"].contains name = true) (h : ¬ ApiCall.IsHandle value)
    {f : String → Do RpcError Reply}
    (hroute : routeRequest srv ctx (versioned (oneRow cells)) method = .onSession v.principal v.sessionId body)
    (hbody : body v = (liftM (string (versioned (oneRow cells)) name) >>= f : Do RpcError Reply)) :
    ∃ e, Prog.interp (serve srv ctx v wire) (call arrow derived method (oneRow cells) >>= g : Remotely α) =
      .done (.error e) := by
  obtain ⟨e, he⟩ := (string_handle hname hn).2 h
  refine ⟨_, interp_stopped (e := e) hroute ?_⟩
  rw [hbody, he]
  rfl

/-- A typed call whose record cannot be built is not made. -/
theorem unbuilt {t : RequestKind} {args : t.Record} {α : Type} {g : RecordBatch → Remotely α}
    (h : ¬ ApiCall.Builds arrow derived t args) :
    ∃ e, Prog.interp (serve srv ctx v wire) (liftM (Options.typedRequest arrow derived t args) >>= g : Remotely α) =
      .done (.error e) := by
  obtain ⟨e, he⟩ := typed_refused h
  refine ⟨e, ?_⟩
  rw [he]
  rfl

theorem refused_call (hm : Mine srv ctx v) (c : ApiCall) (h : ¬ c.Accepted arrow derived v.sessionId) :
    ∃ e, Prog.interp (serve srv ctx v wire) (c.client arrow derived v.sessionId) = .done (.error e) := by
  have hflat : ∀ (cells : List (String × Cell)) (body : SessionView → Do RpcError Reply),
      argument cells "session_id" = some (.text v.sessionId) →
      getSession srv ctx (versioned (oneRow cells)) body = .onSession v.principal v.sessionId body :=
    fun _ body hsid => getSession_versioned hm.caller hm.handle hsid body
  cases c with
  | setConnectionOption key value => exact unbuilt h
  | getInfo codes => exact unbuilt h
  | getObjects depth catalog dbSchema tableName tableType columnName => exact unbuilt h
  | getTableSchema catalog dbSchema tableName => exact unbuilt h
  | getStatistics catalog dbSchema tableName approximate => exact unbuilt h
  | setStatementOption id key value => exact unbuilt h
  | newStatement | getTableTypes | getStatisticNames | commit | rollback | readPartition _ | cancelConnection =>
    exact absurd trivial h
  | getConnectionOption t key =>
    show ∃ e, Prog.interp _ ((call arrow derived .getConnectionOption _ >>= fun response =>
      liftM (decodeOptionResponse arrow derived response)) >>= fun value => liftM (t.read value) :
        Remotely t.Value) = _
    rw [Act.seq_assoc]
    exact stopped_handle rfl rfl h (hflat _ _ rfl) rfl
  | getStatementOption id t key =>
    by_cases hid : ApiCall.IsHandle id
    · obtain ⟨e, he⟩ : ∃ e,
          string (versioned (statementOptionKeyRequest v.sessionId id key t.name)) "key" = .error e :=
        (string_handle rfl rfl).2 fun hkey => h ⟨hid, hkey⟩
      refine ⟨_, interp_stopped (e := e) (hflat _ _ rfl) ?_⟩
      show getStatementOptionHandler srv (versioned (statementOptionKeyRequest v.sessionId id key t.name)) = _
      unfold getStatementOptionHandler
      rw [he]
      unfold statementOptionKeyRequest
      rw [(string_handle rfl rfl).1 hid]
      rfl
    · exact stopped_handle rfl rfl hid (hflat _ _ rfl) rfl
  | setSqlQuery id query =>
    by_cases hid : ApiCall.IsHandle id
    · obtain ⟨e, he⟩ : ∃ e, string (versioned (setSqlRequest v.sessionId id query)) "sql" = .error e :=
        (string_text rfl rfl).2 fun hsql => h ⟨hid, hsql⟩
      refine ⟨_, interp_stopped (e := e) (hflat _ _ rfl) ?_⟩
      show setSqlQueryHandler srv (versioned (setSqlRequest v.sessionId id query)) = _
      unfold setSqlQueryHandler
      rw [he]
      unfold setSqlRequest
      rw [(string_handle rfl rfl).1 hid]
      rfl
    · exact stopped_handle rfl rfl hid (hflat _ _ rfl) rfl
  | execute id => exact stopped_handle rfl rfl h (hflat _ _ rfl) rfl
  | executeUpdate id => exact stopped_handle rfl rfl h (hflat _ _ rfl) rfl
  | executeSchema id => exact stopped_handle rfl rfl h (hflat _ _ rfl) rfl
  | executePartitions id => exact stopped_handle rfl rfl h (hflat _ _ rfl) rfl
  | getParameterSchema id => exact stopped_handle rfl rfl h (hflat _ _ rfl) rfl
  | prepare id => exact stopped_handle rfl rfl h (hflat _ _ rfl) rfl
  | setSubstraitPlan id plan => exact stopped_handle rfl rfl h (hflat _ _ rfl) rfl
  | cancelStatement id => exact stopped_handle rfl rfl h (hflat _ _ rfl) rfl
  | closeStatement id => exact stopped_handle rfl rfl h (hflat _ _ rfl) rfl
  | closeResult id => exact stopped_handle rfl rfl h (hflat _ _ rfl) rfl

end Transparent

/-- An error of the driver comes through as it was raised. -/
theorem failed_adbc {wire : Wire} (hl : wire.base64.Lawful) {e : AdbcError} (he : e.WellTyped)
    (hb : ∀ b ∈ e.sqlstate, b.toNat < 128) (hj : wire.json.Faithful (.ofAdbc wire.base64 e)) :
    wire.failed (.adbc e) = { e with details := e.details.filter fun l => !l.isEmpty } := by
  obtain ⟨text, ht, hr, hh⟩ := hj.written
  have hsent : rpcError wire.base64 wire.json wire.display
      { adbcRpcError wire.base64 wire.json e with message := "" ++ (adbcRpcError wire.base64 wire.json e).message } =
        (WireAdbcError.ofAdbc wire.base64 e).intoAdbc wire.base64 := rpcError_sent (.inl rfl) ht hr hh
  rw [String.empty_append] at hsent
  unfold Wire.failed Wire.sent
  exact hsent.trans (WireAdbcError.intoAdbc_ofAdbc hl he hb)

/-- Every unary method is the session's operation it stands for, through the server's handler
    and both codecs; arguments that cannot be sent do nothing on the session; and an error of
    the driver with an ASCII SQLSTATE is the caller's. -/
theorem call_transparent (arrow : Arrow) (derived : Derived) (srv : Service) (hw : Shared arrow derived srv)
    (ctx : CallContext) (v : SessionView) (hm : Mine srv ctx v) (wire : Wire) (c : ApiCall) :
    (c.Accepted arrow derived v.sessionId →
      Prog.interp (serve srv ctx v wire) (c.client arrow derived v.sessionId) = c.onSession srv ctx v wire) ∧
    (¬ c.Accepted arrow derived v.sessionId →
      ∃ e, Prog.interp (serve srv ctx v wire) (c.client arrow derived v.sessionId) = .done (.error e)) ∧
    ∀ e : AdbcError, wire.base64.Lawful → e.WellTyped → (∀ b ∈ e.sqlstate, b.toNat < 128) →
      wire.json.Faithful (.ofAdbc wire.base64 e) →
      wire.failed (.adbc e) = { e with details := e.details.filter fun l => !l.isEmpty } := by
  exact ⟨accepted_transparent hw hm c, refused_call hm c, fun _ hl he hb hj => failed_adbc hl he hb hj⟩

/-! A COMMIT, on an Arrow that knows the record of `ok`. -/

def okVgi : VgiArrow ResponseKind.ok.Record where
  arrowDataType := .struct (.cons "ok" false [] .boolean .nil)
  buildSingleton r := .ok (.struct [true] (.cons "ok" false [] (.boolean [some (okOf r)]) .nil))
  read a _ :=
    match a with
    | .struct _ (.cons _ _ _ (.boolean [some ok]) .nil) => .ok ⟨.ok ok, rfl⟩
    | _ => .error "unsupported"

theorem okVgi_lawful : okVgi.Lawful := by
  refine ⟨?_, ?_⟩
  · intro r a h
    cases h
    exact ⟨rfl, rfl⟩
  · intro r' a h
    obtain ⟨r, hr⟩ := r'
    cases r with
    | ok ok =>
      cases h
      rfl
    | session | statement | execute | schema | update | partitions | value => cases hr

def okDerived : Derived where
  request _ := .none
  response
    | .ok => okVgi
    | .session | .statement | .execute | .schema | .update | .partitions | .value => .none

def okFrame : Frame lastByte := Options.bodyFrame [1, 0, 0, 0, 0, 0, 0, 0] rfl

def okArrow : Arrow where
  platform := tableArrow.platform
  bodyLength := lastByte
  batches := .one bindAck [schemaFrame.bytes, terminator true]
  records := .one ⟨1, .cons "ok" false [] (.boolean [some true]) .nil⟩ [schemaFrame.bytes, okFrame.bytes, terminator true]
  decodeSchema _ := .error .invalidSchemaMessage
  encodeSchema _ := .error .invalidSchemaMessage
  objectDepth n := .ok n

def okService : Service := { smallService with codec := okArrow.codec okDerived }

def committer : SessionView := ⟨"c", "\x00anonymous", "main", .new false [] []⟩

/-- A wire whose JSON knows one record. -/
def okWire : Wire where
  base64 := .standard
  json := oneJson okRecord okText
  display := (·.message)
  other _ := ⟨"RpcError", "refused", none⟩
  stream _ := internal "unexpected stream"

theorem okArrow_shared : Shared okArrow okDerived okService := by
  refine ⟨⟨IpcStream.one_lawful ⟨[schemaFrame], true, rfl⟩,
    IpcStream.one_lawful ⟨[schemaFrame, okFrame], true, rfl⟩⟩, ⟨fun _ => VgiArrow.none_lawful, ?_⟩, rfl, ?_, fun _ => rfl⟩
  · intro k
    cases k with
    | ok => exact okVgi_lawful
    | session | statement | execute | schema | update | partitions | value => exact VgiArrow.none_lawful
  · intro schema bytes h
    cases h

theorem committer_mine : Mine okService anonymous committer := ⟨rfl, by decide, by unfold ApiCall.IsText; decide⟩

theorem call_transparent_commit :
    Prog.interp (serve okService anonymous committer okWire) (commit okArrow okDerived "c") =
      Prog.bind Server.commit fun r => .done (r.mapError fun e => okWire.failed (.adbc e)) := by
  have hreply : okService.codec.encodeResponse (.ok true) maxControlBytes =
      .ok (envelope "result" (stream [schemaFrame, okFrame] true)) := by decide
  refine ((call_transparent okArrow okDerived okService okArrow_shared anonymous committer committer_mine okWire
    .commit).1 trivial).trans ?_
  refine congrArg (Prog.bind Server.commit) (funext fun r => ?_)
  cases r with
  | error e => rfl
  | ok u =>
    unfold ApiCall.reply
    simp only [hreply]
    rfl

end Grainlift.Client.Calls
