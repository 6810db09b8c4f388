/-
  Grainlift.Server.Service — the handlers `build_server` registers and the turns of the
  two streams (service.rs).

  What the client sends is an `Invocation`: one of the methods with its request, or a turn
  of a bind exchange or a result stream, which carries the cursor the client was given and
  may have changed. `route` is the part of a handler before it has its session: the
  protocol version, the arguments it reads first, the principal, and the session id. What
  follows is a `Plan`: open a session, close one, or take the caller's session with
  `SessionManager::get` and run a program on it. Arguments a handler reads only after it
  has its session are read in that program.
-/

import Grainlift.Server.Session

namespace Grainlift.Server

open Grainlift.Lib Grainlift.Protocol

/-- `PartitionSigner` as it answers during one call: both methods read the clock. -/
structure PartitionSigner where
  sealToken : (target principal : String) → (descriptor : Bytes) → (limit : Nat) → Except AdbcError Bytes
  openToken : (target principal : String) → (token : Bytes) → (limit : Nat) → Except AdbcError Bytes

structure CallContext where
  auth : AuthContext
  responseLimitBytes : Option Nat
  signer : PartitionSigner
  /-- `OutputCollector::emit`, of the transport. -/
  emit : RecordBatch → Except RpcError Unit

/-- What the handlers are built with. -/
structure Service where
  codec : Codec
  config : Config
  maxBindBytes : Nat
  unicode : Unicode

structure BindCursor where
  sessionId : String
  uploadId : String
  maxBytes : Nat
  deriving DecidableEq

structure ResultCursor where
  sessionId : String
  resultId : String
  sequence : Int64
  deriving DecidableEq

inductive Reply where
  | unary (batch : RecordBatch)
  | exchange (cursor : BindCursor)
  | producer (schema : Schema) (cursor : ResultCursor)
  /-- A bind turn was acknowledged; `finished` ends the exchange. -/
  | acknowledged (finished : Bool)
  | produced (batch : RecordBatch) (cursor : ResultCursor)
  | drained
  | cancelled

/-- What a handler knows of the session it runs on. -/
structure SessionView where
  sessionId : String
  principal : String
  target : String
  connectionOptionPolicy : ClientOptionPolicy

/-! ## Arguments and responses -/

/-- `.map_err(protocol_rpc_error)` -/
def orProtocol {α : Type} (r : Except ProtocolError α) : Except RpcError α := r.mapError .protocol

/-- `.map_err(adbc_rpc_error)` -/
def orAdbc {α : Type} (r : Except AdbcError α) : Except RpcError α := r.mapError .adbc

def string (request : Request) (name : String) : Except RpcError String := do
  let value ← orProtocol (stringValue request.batch name)
  if ["session_id", "statement_id", "result_id", "key"].contains name then
    orProtocol (validateHandle value)
  else orProtocol (validateText value)
  return value

def binary (request : Request) (name : String) : Except RpcError Bytes :=
  orProtocol (binaryValue request.batch name)

def responseLimit (ctx : CallContext) : Nat := min (ctx.responseLimitBytes.getD maxControlBytes) maxControlBytes

section Handlers

variable (srv : Service) (ctx : CallContext)

def boundedResponse (value : Response) (limit : Nat) : Except ProtocolError RecordBatch := do
  let response ← srv.codec.encodeResponse value limit
  let _ ← srv.codec.encodeBatchIpc response limit
  return response

def typedResponse (value : Response) : Except RpcError Reply :=
  (orProtocol (srv.codec.encodeResponse value maxControlBytes)).map .unary

def okBatch : Except RpcError Reply := typedResponse srv (.ok true)

def schemaResponse (schema : Schema) : Except RpcError Reply := do
  let bytes ← orProtocol (srv.codec.encodeSchema schema)
  typedResponse srv (.schema bytes)

def valueResponse (value : OptionValue) : Except RpcError Reply := do
  let wire := WireOptionValue.ofAdbc value
  let _ ← orProtocol wire.intoAdbc
  typedResponse srv (.value wire)

/-- A response that must fit; when it does not, what the call made is cleaned up. -/
def handleResponse (value : Response) (limit : Nat) (cleanup : Do RpcError Unit) : Do RpcError Reply :=
  match boundedResponse srv value limit with
  | .ok batch => pure (.unary batch)
  | .error e => do
    cleanup
    .fail (.protocol e)

def resultResponse (resultId : String) (schema : Schema) (limit : Nat) : Do RpcError Reply :=
  match (do boundedResponse srv (.execute resultId none (← srv.codec.encodeSchema schema)) limit) with
  | .ok batch => pure (.unary batch)
  | .error e => do
    (closeResult resultId).ignore
    .fail (.protocol e)

def insertReaderResponse (reader : Reader) : Do RpcError Reply := do
  let inserted ← (insertResult reader).mapErr .adbc
  resultResponse srv inserted.1 inserted.2 (responseLimit ctx)

/-- `bind_ack`: one row, true. -/
def bindAck : RecordBatch := ⟨⟨[⟨"ok", .boolean, false, []⟩], []⟩, [.boolean [some true]], 1, by decide⟩

/-! ## Handlers of the connection -/

def newStatementHandler (v : SessionView) : Do RpcError Reply := do
  let statementId ← newStatement.mapErr .adbc
  handleResponse srv (.statement v.sessionId statementId) (responseLimit ctx) (closeStatement statementId).ignore

/-- COMMIT, ROLLBACK, CANCEL_CONNECTION, PREPARE and the others that answer only `ok`. -/
def thenOk (x : Do AdbcError Unit) : Do RpcError Reply := do
  x.mapErr .adbc
  okBatch srv

def setConnectionOptionHandler (args : SetConnectionOptionRequest) (v : SessionView) : Do RpcError Reply := do
  let value ← orProtocol args.value.intoAdbc
  thenOk srv (setConnectionOption srv.unicode v.connectionOptionPolicy args.key value)

def getConnectionOptionHandler (request : Request) : Do RpcError Reply := do
  let key ← string request "key"
  let valueType ← string request "value_type"
  let value ← (withConnection (.getOption key valueType)).mapErr .adbc
  valueResponse srv value

/-- The metadata methods: a reader from the connection becomes a result of its own. -/
def thenInsert (x : Do AdbcError Reader) : Do RpcError Reply := do
  let reader ← x.mapErr .adbc
  insertReaderResponse srv ctx reader

def getInfoHandler (args : GetInfoRequest) : Do RpcError Reply :=
  thenInsert srv ctx (withConnection (.getInfo (args.codes.map fun codes => (codes.map fun c => c.toUInt64.toUInt32).toFinset)))

def getObjectsHandler (args : GetObjectsRequest) : Do RpcError Reply := do
  let depth ← orAdbc (srv.codec.objectDepth args.depth.toInt32.toInt)
  thenInsert srv ctx
    (withConnection (.getObjects depth args.catalog args.dbSchema args.tableName args.tableTypes args.columnName))

def getTableSchemaHandler (args : GetTableSchemaRequest) : Do RpcError Reply := do
  let schema ← (withConnection (.getTableSchema args.catalog args.dbSchema args.tableName)).mapErr .adbc
  schemaResponse srv schema

def getStatisticsHandler (args : GetStatisticsRequest) : Do RpcError Reply :=
  thenInsert srv ctx (withConnection (.getStatistics args.catalog args.dbSchema args.tableName args.approximate))

def readPartitionHandler (request : Request) (v : SessionView) : Do RpcError Reply := do
  let token ← binary request "payload"
  let partition ← orAdbc (ctx.signer.openToken v.target v.principal token maxControlBytes)
  thenInsert srv ctx (withConnection (.readPartition partition))

/-! ## Handlers of a statement -/

def setStatementOptionHandler (args : SetStatementOptionRequest) : Do RpcError Reply := do
  let value ← orProtocol args.value.intoAdbc
  thenOk srv (withStatement args.statementId (.setOption args.key value))

def getStatementOptionHandler (request : Request) : Do RpcError Reply := do
  let statementId ← string request "statement_id"
  let key ← string request "key"
  let valueType ← string request "value_type"
  let value ← (withStatement statementId (.getOption key valueType)).mapErr .adbc
  valueResponse srv value

def setSqlQueryHandler (request : Request) : Do RpcError Reply := do
  let statementId ← string request "statement_id"
  let sql ← string request "sql"
  thenOk srv (withStatement statementId (.setSqlQuery sql))

def setSubstraitPlanHandler (request : Request) : Do RpcError Reply := do
  let statementId ← string request "statement_id"
  let plan ← binary request "payload"
  thenOk srv (withStatement statementId (.setSubstraitPlan plan))

def prepareHandler (request : Request) : Do RpcError Reply := do
  let statementId ← string request "statement_id"
  thenOk srv (withStatement statementId .prepare)

def cancelStatementHandler (request : Request) : Do RpcError Reply := do
  let statementId ← string request "statement_id"
  thenOk srv (cancelStatement statementId)

def executeHandler (request : Request) : Do RpcError Reply := do
  let statementId ← string request "statement_id"
  (invalidateStatementResults statementId).mapErr .adbc
  let reader ← (withStatement statementId .execute).mapErr .adbc
  let inserted ← (insertStatementResult statementId reader).mapErr .adbc
  resultResponse srv inserted.1 inserted.2 (responseLimit ctx)

def executeUpdateHandler (request : Request) : Do RpcError Reply := do
  let statementId ← string request "statement_id"
  (invalidateStatementResults statementId).mapErr .adbc
  let affected ← (withStatement statementId .executeUpdate).mapErr .adbc
  typedResponse srv (.update affected)

def executeSchemaHandler (request : Request) : Do RpcError Reply := do
  let statementId ← string request "statement_id"
  (invalidateStatementResults statementId).mapErr .adbc
  let schema ← (withStatement statementId .executeSchema).mapErr .adbc
  schemaResponse srv schema

def getParameterSchemaHandler (request : Request) : Do RpcError Reply := do
  let statementId ← string request "statement_id"
  let schema ← (withStatement statementId .getParameterSchema).mapErr .adbc
  schemaResponse srv schema

def partitionsExceed : RpcError := .value "partition response exceeds limit"

/-- `std::mem::size_of::<protocol::Bytes>()`. -/
def sizeOfBytes : Nat := 24

/-- The loop that seals the descriptors, with the bytes still free in the response. -/
def sealPartitions (v : SessionView) : List Bytes → Nat → Except RpcError (List Bytes)
  | [], _ => .ok []
  | descriptor :: rest, remaining => do
    let token ← orAdbc (ctx.signer.sealToken v.target v.principal descriptor remaining)
    if remaining < token.length + sizeOfBytes then .error partitionsExceed
    else
      let tokens ← sealPartitions v rest (remaining - (token.length + sizeOfBytes))
      return token :: tokens

def partitionsResponse (v : SessionView) (result : PartitionedResult) : Except RpcError Reply := do
  let schema ← orProtocol (srv.codec.encodeSchema result.schema)
  let limit := responseLimit ctx
  if limit < schema.length then .error partitionsExceed
  else
    let partitions ← sealPartitions ctx v result.partitions (limit - schema.length)
    (orProtocol (boundedResponse srv (.partitions result.rowsAffected schema partitions) limit)).map .unary

def executePartitionsHandler (request : Request) (v : SessionView) : Do RpcError Reply := do
  let statementId ← string request "statement_id"
  (invalidateStatementResults statementId).mapErr .adbc
  let result ← (withStatement statementId .executePartitions).mapErr .adbc
  partitionsResponse srv ctx v result

def closeStatementHandler (request : Request) : Do RpcError Reply := do
  let statementId ← string request "statement_id"
  thenOk srv (closeStatement statementId)

def closeResultHandler (request : Request) : Do RpcError Reply := do
  let resultId ← string request "result_id"
  thenOk srv (closeResult resultId)

/-! ## Streams -/

def readResultHandler (request : Request) (v : SessionView) : Do RpcError Reply := do
  let resultId ← string request "result_id"
  let sequence ← orProtocol (int64Value request.batch "sequence")
  let schema ← (resultSchema resultId).mapErr .adbc
  return .producer schema ⟨v.sessionId, resultId, sequence⟩

def bindHandler (mode : BindMode) (request : Request) (v : SessionView) : Do RpcError Reply := do
  let statementId ← string request "statement_id"
  let schema ← orProtocol (srv.codec.decodeSchema (← binary request "schema_ipc"))
  let uploadId ← (startBindUpload statementId mode schema srv.maxBindBytes).mapErr .adbc
  return .exchange ⟨v.sessionId, uploadId, srv.maxBindBytes⟩

def acknowledge (finished : Bool) : Do RpcError Reply := do
  ctx.emit bindAck
  return .acknowledged finished

/-- `BindExchange::exchange` once it has its session. -/
def exchangeTurn (cursor : BindCursor) (input : RecordBatch) : Do RpcError Reply :=
  match srv.codec.decodeBindTurn input (min cursor.maxBytes maxControlBytes) with
  | .error e => do
    cancelBindUpload cursor.uploadId
    .fail (.protocol e)
  | .ok (some batch) => do
    (pushBindUpload cursor.uploadId batch).recover fun e => do
      cancelBindUpload cursor.uploadId
      .fail (.adbc e)
    acknowledge ctx false
  | .ok none => do
    (finishBindUpload cursor.uploadId).mapErr .adbc
    acknowledge ctx true

def exchangeCancelTurn (cursor : BindCursor) : Do RpcError Reply := do
  cancelBindUpload cursor.uploadId
  return .cancelled

/-- `ResultProducer::produce` once it has its session. -/
def produceTurn (cursor : ResultCursor) : Do RpcError Reply := do
  match ← (nextResult cursor.resultId cursor.sequence).mapErr .adbc with
  | some batch =>
    ctx.emit batch
    return .produced batch { cursor with sequence := cursor.sequence + 1 }
  | none => return .drained

def produceCancelTurn (cursor : ResultCursor) : Do RpcError Reply := do
  (closeResult cursor.resultId).ignore
  return .cancelled

/-! ## Routing -/

inductive Method where
  | openConnection | closeConnection | commit | rollback | cancelConnection | newStatement
  | setConnectionOption | getConnectionOption | getInfo | getObjects | getTableSchema | getTableTypes
  | getStatisticNames | getStatistics | readPartition
  | setStatementOption | getStatementOption | setSqlQuery | setSubstraitPlan | prepare | cancelStatement
  | execute | executeUpdate | executeSchema | getParameterSchema | executePartitions | closeStatement
  | closeResult | bind | bindStream | readResult
  deriving DecidableEq, Repr

/-- What reaches the server: a method, or a turn of a stream with the cursor it carries. -/
inductive Invocation where
  | request (method : Method) (request : Request)
  | exchange (cursor : BindCursor) (input : RecordBatch)
  | exchangeCancel (cursor : BindCursor)
  | produce (cursor : ResultCursor)
  | produceCancel (cursor : ResultCursor)

inductive Plan where
  | fail (e : RpcError)
  | openSession (principal target : String) (databaseOptions connectionOptions : List (String × OptionValue))
  | closeSession (principal sessionId : String)
  | onSession (principal sessionId : String) (body : SessionView → Do RpcError Reply)
  /-- `on_cancel` without a session to cancel on. -/
  | nothing

def principal : Except RpcError String := principalKey srv.config.requireAuthentication ctx.auth

/-- A plan whose first steps may fail. -/
def Plan.ofExcept (r : Except RpcError Plan) : Plan :=
  match r with
  | .ok plan => plan
  | .error e => .fail e

def getSession (request : Request) (body : SessionView → Do RpcError Reply) : Plan := .ofExcept do
  validateProtocolVersion request
  let principal ← principal srv ctx
  let sessionId ← string request "session_id"
  return .onSession principal sessionId body

def typedRequest (t : RequestKind) (request : Request) : Except RpcError t.Record := do
  validateProtocolVersion request
  orProtocol (srv.codec.decodeRequest t request.batch maxControlBytes)

def sessionById (sessionId : String) (body : SessionView → Do RpcError Reply) : Except RpcError Plan := do
  let principal ← principal srv ctx
  return .onSession principal sessionId body

def routeRequest (request : Request) : Method → Plan
  | .openConnection => .ofExcept do
    let args : OpenConnectionRequest ← typedRequest srv .openConnection request
    let principal ← principal srv ctx
    let databaseOptions ← orProtocol (namedOptionsIntoAdbc args.databaseOptions)
    let connectionOptions ← orProtocol (namedOptionsIntoAdbc args.connectionOptions)
    return .openSession principal args.target databaseOptions connectionOptions
  | .closeConnection => .ofExcept do
    validateProtocolVersion request
    let principal ← principal srv ctx
    return .closeSession principal (← string request "session_id")
  | .commit => getSession srv ctx request fun _ => thenOk srv commit
  | .rollback => getSession srv ctx request fun _ => thenOk srv rollback
  | .cancelConnection => getSession srv ctx request fun _ => thenOk srv cancelConnection
  | .newStatement => getSession srv ctx request (newStatementHandler srv ctx)
  | .setConnectionOption => .ofExcept do
    let args : SetConnectionOptionRequest ← typedRequest srv .setConnectionOption request
    sessionById srv ctx args.sessionId (setConnectionOptionHandler srv args)
  | .getConnectionOption => getSession srv ctx request fun _ => getConnectionOptionHandler srv request
  | .getInfo => .ofExcept do
    let args : GetInfoRequest ← typedRequest srv .getInfo request
    sessionById srv ctx args.sessionId fun _ => getInfoHandler srv ctx args
  | .getObjects => .ofExcept do
    let args : GetObjectsRequest ← typedRequest srv .getObjects request
    sessionById srv ctx args.sessionId fun _ => getObjectsHandler srv ctx args
  | .getTableSchema => .ofExcept do
    let args : GetTableSchemaRequest ← typedRequest srv .getTableSchema request
    sessionById srv ctx args.sessionId fun _ => getTableSchemaHandler srv args
  | .getTableTypes => getSession srv ctx request fun _ => thenInsert srv ctx (withConnection .getTableTypes)
  | .getStatisticNames => getSession srv ctx request fun _ => thenInsert srv ctx (withConnection .getStatisticNames)
  | .getStatistics => .ofExcept do
    let args : GetStatisticsRequest ← typedRequest srv .getStatistics request
    sessionById srv ctx args.sessionId fun _ => getStatisticsHandler srv ctx args
  | .readPartition => getSession srv ctx request (readPartitionHandler srv ctx request)
  | .setStatementOption => .ofExcept do
    let args : SetStatementOptionRequest ← typedRequest srv .setStatementOption request
    sessionById srv ctx args.sessionId fun _ => setStatementOptionHandler srv args
  | .getStatementOption => getSession srv ctx request fun _ => getStatementOptionHandler srv request
  | .setSqlQuery => getSession srv ctx request fun _ => setSqlQueryHandler srv request
  | .setSubstraitPlan => getSession srv ctx request fun _ => setSubstraitPlanHandler srv request
  | .prepare => getSession srv ctx request fun _ => prepareHandler srv request
  | .cancelStatement => getSession srv ctx request fun _ => cancelStatementHandler srv request
  | .execute => getSession srv ctx request fun _ => executeHandler srv ctx request
  | .executeUpdate => getSession srv ctx request fun _ => executeUpdateHandler srv request
  | .executeSchema => getSession srv ctx request fun _ => executeSchemaHandler srv request
  | .getParameterSchema => getSession srv ctx request fun _ => getParameterSchemaHandler srv request
  | .executePartitions => getSession srv ctx request (executePartitionsHandler srv ctx request)
  | .closeStatement => getSession srv ctx request fun _ => closeStatementHandler srv request
  | .closeResult => getSession srv ctx request fun _ => closeResultHandler srv request
  | .bind => getSession srv ctx request (bindHandler srv .batch request)
  | .bindStream => getSession srv ctx request (bindHandler srv .stream request)
  | .readResult => getSession srv ctx request (readResultHandler request)

def route : Invocation → Plan
  | .request method request => routeRequest srv ctx request method
  | .exchange cursor input =>
    .ofExcept (sessionById srv ctx cursor.sessionId fun _ => exchangeTurn srv ctx cursor input)
  | .produce cursor => .ofExcept (sessionById srv ctx cursor.sessionId fun _ => produceTurn ctx cursor)
  | .exchangeCancel cursor =>
    match principal srv ctx with
    | .ok p => .onSession p cursor.sessionId fun _ => exchangeCancelTurn cursor
    | .error _ => .nothing
  | .produceCancel cursor =>
    match principal srv ctx with
    | .ok p => .onSession p cursor.sessionId fun _ => produceCancelTurn cursor
    | .error _ => .nothing

/-! ## What a plan on a session says -/

variable {srv ctx} {request : Request} {p sessionId : String} {body : SessionView → Do RpcError Reply}

theorem ofExcept_onSession {r : Except RpcError Plan} (h : Plan.ofExcept r = .onSession p sessionId body) :
    r = .ok (.onSession p sessionId body) := by
  cases r with
  | error e => cases h
  | ok plan => exact congrArg Except.ok h

theorem getSession_onSession {f : SessionView → Do RpcError Reply}
    (h : getSession srv ctx request f = .onSession p sessionId body) : principal srv ctx = .ok p ∧ body = f := by
  obtain ⟨_, -, h⟩ := bind_eq_ok (ofExcept_onSession h)
  obtain ⟨p', hp, h⟩ := bind_eq_ok h
  obtain ⟨id', -, h⟩ := bind_eq_ok h
  cases h
  exact ⟨hp, rfl⟩

theorem sessionById_onSession {id : String} {f : SessionView → Do RpcError Reply}
    (h : sessionById srv ctx id f = .ok (.onSession p sessionId body)) :
    principal srv ctx = .ok p ∧ id = sessionId ∧ body = f := by
  obtain ⟨p', hp, h⟩ := bind_eq_ok h
  cases h
  exact ⟨hp, rfl, rfl⟩

/-- A typed method on a session: its record was read, and names the session. -/
theorem typed_onSession {t : RequestKind} {id : t.Record → String} {f : t.Record → SessionView → Do RpcError Reply}
    (h : Plan.ofExcept (typedRequest srv t request >>= fun args => sessionById srv ctx (id args) (f args)) =
      .onSession p sessionId body) :
    ∃ args, typedRequest srv t request = .ok args ∧ principal srv ctx = .ok p ∧ body = f args := by
  obtain ⟨args, ha, h⟩ := bind_eq_ok (ofExcept_onSession h)
  obtain ⟨hp, -, hb⟩ := sessionById_onSession h
  exact ⟨args, ha, hp, hb⟩

end Handlers

/-! ## A small service

  One that encodes every response, knows no typed request and no batch, and lets anyone
  in: what the concrete runs of the later modules are made with. -/

def smallCodec : Codec where
  decodeBatchIpc _ _ := .error (invalid "no batch")
  encodeBatchIpc _ _ := .ok []
  decodeSchema _ := .ok ⟨[], []⟩
  encodeSchema _ := .ok []
  decodeRecordIpc _ _ _ := .error (invalid "no record")
  encodeRecord _ _ := .ok bindAck
  objectDepth n := .ok n

def smallService : Service where
  codec := smallCodec
  config :=
    { targets := AList.insert "main" ⟨"driver", none, [], [], false, false, [], []⟩ ∅
      ttl := 10
      requireAuthentication := false
      limits := ⟨2, 2, 1, 1⟩
      authorizer := .new ∅
      operationTimeout := "300s" }
  unicode := .ascii
  maxBindBytes := maxBindStreamBytes

def anonymous : CallContext where
  auth := ⟨false, "", ""⟩
  responseLimitBytes := none
  signer := ⟨fun _ _ d _ => .ok d, fun _ _ t _ => .ok t⟩
  emit _ := .ok ()

/-- A flat request: its text columns, in one row. -/
def flatRequest (columns : List (String × String)) : Request where
  metadata := AList.insert "vgi_rpc.protocol_version" "0.4.0" ∅
  batch :=
    { schema := ⟨columns.map fun c => ⟨c.1, .utf8, false, []⟩, []⟩
      columns := columns.map fun c => .utf8 [some c.2]
      numRows := 1
      wf := by
        refine ⟨by simp [Column.dataType, Function.comp_def], ?_⟩
        intro c hc
        obtain ⟨_, -, rfl⟩ := List.mem_map.mp hc
        rfl }

def emptyReader : Reader := ⟨⟨[], []⟩, fun _ => none, 0⟩

/-- A driver that succeeds. -/
def willing : Driver := ⟨.ok (), .ok emptyReader, .ok none, .ok ⟨[], []⟩, .ok ⟨[], ⟨[], []⟩, 0⟩, .ok "", .ok [],
    .ok 0, .ok 0⟩

end Grainlift.Server
