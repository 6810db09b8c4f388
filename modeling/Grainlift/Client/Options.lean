/-
  Grainlift.Client.Options — what of a client's options reaches the server
  (`GrainliftDatabase`, `RemoteConnection::open`; adbc-driver-grainlift/src/lib.rs).

  A database's options are a map; those of the twelve keys of the driver's own are for the
  driver, all others are for the downstream database, and `uri` is the one or the other by
  whether `grainlift.uri` is set. A connection's options are a list and all for downstream.
  Connecting and calling are a `Remote`, which may answer anything; what a call sends is in
  the trace of calls.

  On the wire a value is a record of a kind and four fields (`WireOptionValue`), checked by
  the sender and by the receiver; reading it is a check of its own (`intoAdbc`).

  Proved (`option_forwarding`): the two checks agree, and the value read is the one that was
  written; the server makes of the request that was sent an open with exactly the options
  that are for downstream; and options with a bad key are not sent, nor opened with if
  another client sends them.
-/

import Grainlift.Protocol.Records
import Grainlift.Server.Backend
import Grainlift.Server.Validation

namespace Grainlift.Client.Options

open Grainlift.Lib Grainlift.Protocol Grainlift.Server

/-! ## The options of a database -/

def optionGrainliftUri : String := "grainlift.uri"
def optionTarget : String := "grainlift.target"
def optionBearerToken : String := "grainlift.auth.bearer_token"
def optionRequestTimeoutMs : String := "grainlift.request_timeout_ms"
def optionMaxResponseBytes : String := "grainlift.max_response_bytes"
def optionMaxBindBytes : String := "grainlift.max_bind_bytes"
def optionTlsCa : String := "grainlift.tls.ca"
def optionTlsCert : String := "grainlift.tls.cert"
def optionTlsKey : String := "grainlift.tls.key"
def optionTlsServerName : String := "grainlift.tls.server_name"
def optionIrohSecretKey : String := "grainlift.iroh.secret_key"
def optionIrohDirectAddress : String := "grainlift.iroh.direct_address"

/-- `OptionDatabase::Uri`. -/
def uri : String := "uri"

def defaultRequestTimeoutMs : Int64 := 30000
def defaultMaxResponseBytes : Int64 := 256 * 1024 * 1024
def defaultMaxBindBytes : Int64 := 64 * 1024 * 1024

def maxConfigurableBindBytes (p : Platform) : Nat :=
  if 64 ≤ p.bits then Int64.maxValue.toInt.toNat else p.usizeMax

def driverOptions : List String :=
  [optionGrainliftUri, optionTarget, optionBearerToken, optionRequestTimeoutMs, optionMaxResponseBytes,
    optionMaxBindBytes, optionTlsCa, optionTlsCert, optionTlsKey, optionTlsServerName, optionIrohSecretKey,
    optionIrohDirectAddress]

def isGrainliftDatabaseOption (key : String) : Bool := driverOptions.contains key

def invalid (message : String) : AdbcError := .withMessageAndStatus message .invalidArguments

structure GrainliftDatabase where
  options : Table String OptionValue

namespace GrainliftDatabase

variable (db : GrainliftDatabase)

def stringOption (unicode : Unicode) (key : String) : Except AdbcError String :=
  match db.options.lookup key with
  | some (.string value) => .ok value
  | some _ => .error (invalid ("option " ++ debugString unicode key ++ " must be a string"))
  | none => .error (invalid ("required option " ++ debugString unicode key ++ " is missing"))

/-- `string_option_any`, of `grainlift.uri` and `uri`. -/
def endpoint (unicode : Unicode) : Except AdbcError String :=
  if (db.options.lookup optionGrainliftUri).isSome then db.stringOption unicode optionGrainliftUri
  else if (db.options.lookup uri).isSome then db.stringOption unicode uri
  else .error (invalid ("required option " ++ debugString unicode optionGrainliftUri ++ " is missing"))

def validate (unicode : Unicode) : Except AdbcError Unit := do
  let _ ← db.endpoint unicode
  let _ ← db.stringOption unicode optionTarget
  return ()

def optionalString (unicode : Unicode) (key : String) : Except AdbcError (Option String) :=
  match db.options.lookup key with
  | some (.string value) => .ok (some value)
  | some _ => .error (invalid ("option " ++ debugString unicode key ++ " must be a string"))
  | none => .ok none

def positiveIntOption (p : Platform) (key : String) (default : Int64) : Except AdbcError Nat := do
  let value ← match db.options.lookup key with
    | none => .ok default
    | some (.int value) => .ok value
    | some _ => .error (invalid ("option " ++ debugString p.unicode key ++ " must be an integer"))
  match (p.tryFrom value.toInt).filter (0 < ·) with
  | none => .error (invalid ("option " ++ debugString p.unicode key ++ " must be positive"))
  | some value =>
    if key = optionMaxResponseBytes ∧ value < 65536 then
      .error (invalid ("option " ++ debugString p.unicode key ++ " must be at least 65536"))
    else if key = optionMaxBindBytes ∧ maxConfigurableBindBytes p < value then
      .error (invalid ("option " ++ debugString p.unicode key ++ " must not exceed " ++
        toString (maxConfigurableBindBytes p)))
    else .ok value

/-- The filter of `remote_options`: without `grainlift.uri`, `uri` is the service's own. -/
def forwards (key : String) : Bool :=
  !isGrainliftDatabaseOption key && !((db.options.lookup optionGrainliftUri).isNone && key == uri)

end GrainliftDatabase

def namedOption (e : String × OptionValue) : NamedOption := ⟨e.1, .ofAdbc e.2⟩

def GrainliftDatabase.remoteOptions (hashing : Backend.Hashing) (db : GrainliftDatabase) : List NamedOption :=
  ((hashing.order db.options).filter fun e => db.forwards e.1).map namedOption

/-! ## Opening a connection -/

structure TransportOptions where
  tlsCa : Option String
  tlsCert : Option String
  tlsKey : Option String
  tlsServerName : Option String
  irohSecretKey : Option String
  irohDirectAddress : Option String

structure RemoteConnectionOptions where
  endpoint : String
  bearerToken : Option String
  target : String
  databaseOptions : List NamedOption
  connectionOptions : List NamedOption
  requestTimeoutMs : Nat
  maxResponseBytes : Nat
  maxBindBytes : Nat
  transportOptions : TransportOptions

inductive RemoteCall where
  | connect (endpoint : String) (bearerToken : Option String) (requestTimeoutMs maxResponseBytes : Nat)
      (options : TransportOptions)
  | call (method : Method) (request : RecordBatch)

/-- `RemoteTransport`, by what it answers. -/
structure Remote where
  connect : String → Option String → Nat → Nat → TransportOptions → Except AdbcError Unit
  call : Method → RecordBatch → Except AdbcError RecordBatch

structure RemoteConnection where
  sessionId : String
  maxBindBytes : Nat
  deriving DecidableEq

def sessionIdOf (r : ResponseKind.session.Record) : String :=
  match r with
  | ⟨.session sessionId, _⟩ => sessionId

section

variable (arrow : Arrow) (derived : Derived) (hashing : Backend.Hashing) (remote : Remote)

def typedRequest (t : RequestKind) (value : t.Record) : Except AdbcError RecordBatch :=
  (encodeRequest arrow derived t value maxControlBytes).mapError fun e =>
    invalid (Backend.errorText arrow.platform.unicode e)

/-- `decode_response::<SessionResponse>`. -/
def decodeSession (response : RecordBatch) : Except AdbcError String :=
  ((decodeResponse arrow derived .session response maxControlBytes).map sessionIdOf).mapError fun e =>
    internal (Backend.errorText arrow.platform.unicode e)

/-- `RemoteConnection::open`: its answer, and the calls it made. -/
def openRemote (options : RemoteConnectionOptions) : Except AdbcError RemoteConnection × List RemoteCall :=
  let connect := RemoteCall.connect options.endpoint options.bearerToken options.requestTimeoutMs
    options.maxResponseBytes options.transportOptions
  match remote.connect options.endpoint options.bearerToken options.requestTimeoutMs options.maxResponseBytes
    options.transportOptions with
  | .error e => (.error e, [connect])
  | .ok () =>
    match typedRequest arrow derived .openConnection
      ⟨options.target, options.databaseOptions, options.connectionOptions⟩ with
    | .error e => (.error e, [connect])
    | .ok request =>
      let sent := [connect, .call .openConnection request]
      match remote.call .openConnection request with
      | .error e => (.error e, sent)
      | .ok response =>
        match decodeSession arrow derived response with
        | .error e => (.error e, sent)
        | .ok sessionId => (.ok ⟨sessionId, options.maxBindBytes⟩, sent)

/-- What `new_connection_with_opts` gives `RemoteConnection::open`. -/
def remoteConnectionOptions (db : GrainliftDatabase) (opts : List (String × OptionValue)) :
    Except AdbcError RemoteConnectionOptions := do
  db.validate arrow.platform.unicode
  return {
    endpoint := ← db.endpoint arrow.platform.unicode
    target := ← db.stringOption arrow.platform.unicode optionTarget
    bearerToken := ← db.optionalString arrow.platform.unicode optionBearerToken
    requestTimeoutMs := ← db.positiveIntOption arrow.platform optionRequestTimeoutMs defaultRequestTimeoutMs
    maxResponseBytes := ← db.positiveIntOption arrow.platform optionMaxResponseBytes defaultMaxResponseBytes
    maxBindBytes := ← db.positiveIntOption arrow.platform optionMaxBindBytes defaultMaxBindBytes
    transportOptions := {
      tlsCa := ← db.optionalString arrow.platform.unicode optionTlsCa
      tlsCert := ← db.optionalString arrow.platform.unicode optionTlsCert
      tlsKey := ← db.optionalString arrow.platform.unicode optionTlsKey
      tlsServerName := ← db.optionalString arrow.platform.unicode optionTlsServerName
      irohSecretKey := ← db.optionalString arrow.platform.unicode optionIrohSecretKey
      irohDirectAddress := ← db.optionalString arrow.platform.unicode optionIrohDirectAddress }
    databaseOptions := db.remoteOptions hashing
    connectionOptions := opts.map namedOption }

/-- `new_connection_with_opts`: its answer, and the calls it made. -/
def newConnectionWithOpts (db : GrainliftDatabase) (opts : List (String × OptionValue)) :
    Except AdbcError RemoteConnection × List RemoteCall :=
  match remoteConnectionOptions arrow hashing db opts with
  | .error e => (.error e, [])
  | .ok options => openRemote arrow derived remote options

end

/-! ## Values on the wire -/

section Values

variable {w : WireOptionValue} {v : OptionValue}

@[simp] theorem intoAdbc_ofAdbc (v : OptionValue) : (WireOptionValue.ofAdbc v).intoAdbc = .ok v := by
  cases v <;> rfl

theorem intoAdbc_ok_iff : w.intoAdbc = .ok v ↔ w = .ofAdbc v := by
  constructor
  · intro h
    unfold WireOptionValue.intoAdbc at h
    split at h
    case h_5 => cases h
    all_goals
      cases h
      obtain ⟨kind, s, b, i, d⟩ := w
      simp only at *
      subst_vars
      rfl
  · intro heq
    subst heq
    exact intoAdbc_ofAdbc v

theorem validate_ofAdbc (v : OptionValue) : (WireOptionValue.ofAdbc v).validate = .ok () := by
  cases v <;> rfl

/-- The populated field is the one of the kind, and no other is. -/
theorem validate_ok_iff : w.validate = .ok () ↔ ∃ v, w = .ofAdbc v := by
  constructor
  · intro h
    obtain ⟨kind, s, b, i, d⟩ := w
    simp only [WireOptionValue.validate] at h
    split_ifs at h with hs hone hb hone hi hone hd hone hone
    · obtain ⟨hsome, hcount⟩ := Bool.and_eq_true_iff.mp hone
      obtain ⟨v, rfl⟩ := Option.isSome_iff_exists.mp hsome
      refine ⟨.string v, ?_⟩
      cases b <;> cases i <;> cases d <;> simp [hs, WireOptionValue.ofAdbc] at hcount ⊢
    · obtain ⟨hsome, hcount⟩ := Bool.and_eq_true_iff.mp hone
      obtain ⟨v, rfl⟩ := Option.isSome_iff_exists.mp hsome
      refine ⟨.bytes v, ?_⟩
      cases s <;> cases i <;> cases d <;> simp [hb, WireOptionValue.ofAdbc] at hcount ⊢
    · obtain ⟨hsome, hcount⟩ := Bool.and_eq_true_iff.mp hone
      obtain ⟨v, rfl⟩ := Option.isSome_iff_exists.mp hsome
      refine ⟨.int v, ?_⟩
      cases s <;> cases b <;> cases d <;> simp [hi, WireOptionValue.ofAdbc] at hcount ⊢
    · obtain ⟨hsome, hcount⟩ := Bool.and_eq_true_iff.mp hone
      obtain ⟨v, rfl⟩ := Option.isSome_iff_exists.mp hsome
      refine ⟨.double v, ?_⟩
      cases s <;> cases b <;> cases i <;> simp [hd, WireOptionValue.ofAdbc] at hcount ⊢
    · simp at hone
  · intro h
    obtain ⟨v, rfl⟩ := h
    exact validate_ofAdbc v

end Values

/-! ## Named options -/

/-- What the keys of a list of options must be. -/
structure KeysOk (keys : List String) : Prop where
  handles : ∀ key ∈ keys, key ≠ "" ∧ '\x00' ∉ key.toList
  once : keys.Nodup

theorem validateHandle_ok_iff {value : String} :
    validateHandle value = .ok () ↔ value ≠ "" ∧ '\x00' ∉ value.toList := by
  constructor
  · intro h
    exact (validateHandle_ok h).symm
  · intro h
    obtain ⟨hne, hnul⟩ := h
    have ht : validateText value = .ok () := by
      unfold validateText
      rw [if_neg (by simpa using hnul)]
    unfold validateHandle
    rw [ht]
    exact if_neg hne

theorem validateOptionsFrom_ok_iff {seen : List String} {options : List NamedOption} :
    validateOptionsFrom seen options = .ok () ↔
      KeysOk (options.map (·.key)) ∧ (∀ o ∈ options, o.key ∉ seen) ∧ ∀ o ∈ options, o.value.validate = .ok () := by
  induction options generalizing seen with
  | nil =>
    refine ⟨?_, fun _ => rfl⟩
    intro _
    exact ⟨⟨by simp, List.nodup_nil⟩, by simp, by simp⟩
  | cons o rest ih =>
    constructor
    · intro h
      obtain ⟨_, hkey, h⟩ := bind_eq_ok h
      split at h
      · cases h
      rename_i hseen
      obtain ⟨_, hvalue, h⟩ := bind_eq_ok h
      obtain ⟨hkeys, hnew, hvalues⟩ := ih.mp h
      refine ⟨⟨?_, ?_⟩, ?_, ?_⟩
      · simpa using ⟨validateHandle_ok_iff.mp hkey, fun o ho => hkeys.handles _ (List.mem_map_of_mem ho)⟩
      · rw [List.map_cons, List.nodup_cons]
        refine ⟨?_, hkeys.once⟩
        intro hm
        obtain ⟨o', ho', heq⟩ := List.mem_map.mp hm
        exact hnew o' ho' (by rw [heq]; exact List.mem_cons_self)
      · intro o' ho'
        rcases List.mem_cons.mp ho' with rfl | ho'
        · exact hseen
        · intro hm
          exact hnew o' ho' (List.mem_cons_of_mem _ hm)
      · intro o' ho'
        rcases List.mem_cons.mp ho' with rfl | ho'
        · exact hvalue
        · exact hvalues o' ho'
    · intro h
      obtain ⟨hkeys, hnew, hvalues⟩ := h
      have hkey := validateHandle_ok_iff.mpr (hkeys.handles o.key List.mem_cons_self)
      have honce := List.nodup_cons.mp hkeys.once
      unfold validateOptionsFrom
      rw [hkey]
      show (if o.key ∈ seen then _ else _) = _
      rw [if_neg (hnew o List.mem_cons_self), hvalues o List.mem_cons_self]
      refine ih.mpr ⟨⟨?_, honce.2⟩, ?_, ?_⟩
      · intro key hk
        exact hkeys.handles key (List.mem_cons_of_mem _ hk)
      · intro o' ho' hm
        rcases List.mem_cons.mp hm with heq | hm
        · exact honce.1 (List.mem_map.mpr ⟨o', ho', heq⟩)
        · exact hnew o' (List.mem_cons_of_mem _ ho') hm
      · intro o' ho'
        exact hvalues o' (List.mem_cons_of_mem _ ho')

theorem validateOptions_ok_iff {options : List NamedOption} :
    validateOptions options = .ok () ↔
      KeysOk (options.map (·.key)) ∧ ∀ o ∈ options, o.value.validate = .ok () := by
  unfold validateOptions
  rw [validateOptionsFrom_ok_iff]
  simp

@[simp] theorem map_namedOption_key (l : List (String × OptionValue)) :
    (l.map namedOption).map (·.key) = l.map Prod.fst := by
  simp [namedOption, Function.comp_def]

/-- What is converted on one side and back on the other is the same list. -/
theorem namedOptionsIntoAdbc_namedOption {l : List (String × OptionValue)}
    (h : validateOptions (l.map namedOption) = .ok ()) : namedOptionsIntoAdbc (l.map namedOption) = .ok l := by
  have hmap : ∀ l : List (String × OptionValue),
      (l.map namedOption).mapM (fun o => do return (o.key, ← o.value.intoAdbc)) =
        (.ok l : Except ProtocolError _) := by
    intro l
    induction l with
    | nil => rfl
    | cons e rest ih =>
      rw [List.map_cons, List.mapM_cons, ih]
      simp [namedOption, bind, Except.bind, pure, Except.pure]
  unfold namedOptionsIntoAdbc
  rw [h]
  exact hmap l

theorem namedOptionsIntoAdbc_keysOk {options : List NamedOption} {l : List (String × OptionValue)}
    (h : namedOptionsIntoAdbc options = .ok l) : KeysOk (l.map Prod.fst) := by
  obtain ⟨_, hv, h⟩ := bind_eq_ok h
  rw [Backend.mapM_keys h]
  exact (validateOptions_ok_iff.mp hv).1

/-! ## What is forwarded -/

/-- The options for the downstream database, in some order. -/
structure GrainliftDatabase.Forwarded (db : GrainliftDatabase) (database : List (String × OptionValue)) : Prop where
  once : (database.map Prod.fst).Nodup
  exactly : ∀ key value, (key, value) ∈ database ↔ db.options.lookup key = some value ∧ key ∉ driverOptions ∧
    (key = uri → (db.options.lookup optionGrainliftUri).isSome)

/-- The key of the endpoint. -/
def GrainliftDatabase.endpointKey (db : GrainliftDatabase) : String :=
  if (db.options.lookup optionGrainliftUri).isSome then optionGrainliftUri else uri

section Client

variable {arrow : Arrow} {derived : Derived} {hashing : Backend.Hashing} {remote : Remote} {db : GrainliftDatabase}
  {opts database : List (String × OptionValue)} {method : Method} {request : RecordBatch}

/-- The endpoint is the value of its key. -/
theorem endpoint_ok {unicode : Unicode} {value : String} (h : db.endpoint unicode = .ok value) :
    db.stringOption unicode db.endpointKey = .ok value := by
  unfold GrainliftDatabase.endpoint at h
  unfold GrainliftDatabase.endpointKey
  split at h
  · rename_i hset
    rw [if_pos hset]
    exact h
  · rename_i hset
    rw [if_neg hset]
    split at h
    · exact h
    · cases h

theorem forwards_iff {key : String} : db.forwards key = true ↔
    key ∉ driverOptions ∧ (key = uri → (db.options.lookup optionGrainliftUri).isSome) := by
  unfold GrainliftDatabase.forwards isGrainliftDatabaseOption
  cases db.options.lookup optionGrainliftUri <;> simp

/-- The entries of the map that pass the filter. -/
def GrainliftDatabase.forwarded (hashing : Backend.Hashing) (db : GrainliftDatabase) : List (String × OptionValue) :=
  (hashing.order db.options).filter fun e => db.forwards e.1

theorem remoteOptions_eq (hashing : Backend.Hashing) (db : GrainliftDatabase) :
    db.remoteOptions hashing = (db.forwarded hashing).map namedOption := rfl

theorem forwarded_ok (hashing : Backend.Hashing) (db : GrainliftDatabase) : db.Forwarded (db.forwarded hashing) := by
  have hperm := hashing.perm db.options
  refine ⟨?_, ?_⟩
  · have hkeys : ((hashing.order db.options).map Prod.fst).Nodup := by
      rw [(hperm.map Prod.fst).nodup_iff, List.map_map]
      exact db.options.nodupKeys
    exact (List.filter_sublist.map Prod.fst).nodup hkeys
  · intro key value
    have hmem : (key, value) ∈ hashing.order db.options ↔ db.options.lookup key = some value := by
      rw [hperm.mem_iff, ← Table.mem_entries]
      simp
    unfold GrainliftDatabase.forwarded
    rw [List.mem_filter, hmem, forwards_iff]

/-- Neither the endpoint nor the bearer token is. -/
theorem Forwarded.noCredential (h : db.Forwarded database) {e : String × OptionValue} (he : e ∈ database) :
    e.1 ≠ db.endpointKey ∧ e.1 ≠ optionBearerToken := by
  obtain ⟨-, hdriver, huri⟩ := (h.exactly e.1 e.2).mp he
  refine ⟨?_, ?_⟩
  · intro heq
    unfold GrainliftDatabase.endpointKey at heq
    split at heq
    · rw [heq] at hdriver
      exact hdriver (by decide)
    · rename_i hset
      exact hset (huri heq)
  · intro heq
    rw [heq] at hdriver
    exact hdriver (by decide)

theorem remoteConnectionOptions_ok {options : RemoteConnectionOptions}
    (h : remoteConnectionOptions arrow hashing db opts = .ok options) :
    db.stringOption arrow.platform.unicode optionTarget = .ok options.target ∧
      options.databaseOptions = db.remoteOptions hashing ∧ options.connectionOptions = opts.map namedOption := by
  obtain ⟨_, -, h⟩ := bind_eq_ok h
  obtain ⟨_, -, h⟩ := bind_eq_ok h
  obtain ⟨target, ht, h⟩ := bind_eq_ok h
  obtain ⟨_, -, h⟩ := bind_eq_ok h
  obtain ⟨_, -, h⟩ := bind_eq_ok h
  obtain ⟨_, -, h⟩ := bind_eq_ok h
  obtain ⟨_, -, h⟩ := bind_eq_ok h
  obtain ⟨_, -, h⟩ := bind_eq_ok h
  obtain ⟨_, -, h⟩ := bind_eq_ok h
  obtain ⟨_, -, h⟩ := bind_eq_ok h
  obtain ⟨_, -, h⟩ := bind_eq_ok h
  obtain ⟨_, -, h⟩ := bind_eq_ok h
  obtain ⟨_, -, h⟩ := bind_eq_ok h
  cases h
  exact ⟨ht, rfl, rfl⟩

/-- What an open sends: one request, encoded and so validated. -/
theorem openRemote_calls {options : RemoteConnectionOptions}
    (h : .call method request ∈ (openRemote arrow derived remote options).2) :
    method = .openConnection ∧ typedRequest arrow derived .openConnection
      ⟨options.target, options.databaseOptions, options.connectionOptions⟩ = .ok request := by
  unfold openRemote at h
  simp only at h
  split at h
  · simp at h
  split at h
  · simp at h
  rename_i sent hsent
  have hcall : RemoteCall.call method request = .call .openConnection sent := by
    split at h
    · simpa using h
    · split at h <;> simpa using h
  cases hcall
  exact ⟨rfl, hsent⟩

theorem openRemote_ok {options : RemoteConnectionOptions} {c : RemoteConnection}
    (h : (openRemote arrow derived remote options).1 = .ok c) :
    ∃ request, .call .openConnection request ∈ (openRemote arrow derived remote options).2 := by
  unfold openRemote at h ⊢
  simp only at h ⊢
  split at h
  · cases h
  split at h
  · cases h
  rename_i sent hsent
  refine ⟨sent, ?_⟩
  split at h
  · cases h
  · split <;> simp

theorem newConnection_calls
    (h : .call method request ∈ (newConnectionWithOpts arrow derived hashing remote db opts).2) :
    method = .openConnection ∧ ∃ target, db.stringOption arrow.platform.unicode optionTarget = .ok target ∧
      typedRequest arrow derived .openConnection
        ⟨target, (db.forwarded hashing).map namedOption, opts.map namedOption⟩ = .ok request := by
  unfold newConnectionWithOpts at h
  split at h
  · cases h
  rename_i options hoptions
  obtain ⟨ht, hdb, hconn⟩ := remoteConnectionOptions_ok hoptions
  obtain ⟨hm, hr⟩ := openRemote_calls h
  rw [hdb, hconn, remoteOptions_eq] at hr
  exact ⟨hm, options.target, ht, hr⟩

theorem newConnection_ok {c : RemoteConnection}
    (h : (newConnectionWithOpts arrow derived hashing remote db opts).1 = .ok c) :
    ∃ request, .call .openConnection request ∈ (newConnectionWithOpts arrow derived hashing remote db opts).2 := by
  unfold newConnectionWithOpts at h ⊢
  split at h
  · cases h
  · exact openRemote_ok h

/-- A request that could be encoded has options in order. -/
theorem typedRequest_keysOk {target : String}
    (h : typedRequest arrow derived .openConnection ⟨target, database.map namedOption, opts.map namedOption⟩ =
      .ok request) :
    validateOptions (database.map namedOption) = .ok () ∧ validateOptions (opts.map namedOption) = .ok () := by
  obtain ⟨hv, -⟩ := encodeRequest_ok (mapError_eq_ok.mp h)
  obtain ⟨_, -, hv⟩ := bind_eq_ok hv
  obtain ⟨_, hdb, hconn⟩ := bind_eq_ok hv
  exact ⟨hdb, hconn⟩

end Client

/-! ## What the server makes of it -/

section Server

variable {arrow : Arrow} {derived : Derived} {srv : Service} {ctx : CallContext} {request : Protocol.Request}
  {target : String} {database opts : List (String × OptionValue)}

theorem route_sent (ctx : CallContext) (ha : arrow.Lawful) (hd : derived.Lawful) (hc : srv.codec = arrow.codec derived)
    (h : typedRequest arrow derived .openConnection ⟨target, database.map namedOption, opts.map namedOption⟩ =
      .ok request.batch) :
    routeRequest srv ctx request .openConnection = .ofExcept do
      validateProtocolVersion request
      return .openSession (← principal srv ctx) target database opts := by
  obtain ⟨hdb, hconn⟩ := typedRequest_keysOk h
  have hdecode : srv.codec.decodeRequest .openConnection request.batch maxControlBytes =
      .ok ⟨target, database.map namedOption, opts.map namedOption⟩ := by
    rw [hc]
    exact decode_encodeRequest ha hd le_rfl (mapError_eq_ok.mp h)
  unfold routeRequest Server.typedRequest
  rw [hdecode]
  cases validateProtocolVersion request with
  | error e => rfl
  | ok _ =>
    cases principal srv ctx with
    | error e => rfl
    | ok p =>
      show Plan.ofExcept (do
        let databaseOptions ← orProtocol (namedOptionsIntoAdbc (database.map namedOption))
        let connectionOptions ← orProtocol (namedOptionsIntoAdbc (opts.map namedOption))
        return .openSession p target databaseOptions connectionOptions) = .openSession p target database opts
      rw [namedOptionsIntoAdbc_namedOption hdb, namedOptionsIntoAdbc_namedOption hconn]
      rfl

/-- An open request of any client is refused, or its keys are in order. -/
theorem route_open (srv : Service) (ctx : CallContext) (request : Protocol.Request) :
    (∃ e, routeRequest srv ctx request .openConnection = .fail e) ∨
    ∃ p target database connection,
      routeRequest srv ctx request .openConnection = .openSession p target database connection ∧
      KeysOk (database.map Prod.fst) ∧ KeysOk (connection.map Prod.fst) := by
  unfold routeRequest
  generalize hr : (do
    let args : OpenConnectionRequest ← Server.typedRequest srv .openConnection request
    let principal ← principal srv ctx
    let databaseOptions ← orProtocol (namedOptionsIntoAdbc args.databaseOptions)
    let connectionOptions ← orProtocol (namedOptionsIntoAdbc args.connectionOptions)
    return Plan.openSession principal args.target databaseOptions connectionOptions : Except RpcError Plan) = plan
  cases plan with
  | error e => exact .inl ⟨e, rfl⟩
  | ok plan =>
    obtain ⟨args, -, hr⟩ := bind_eq_ok hr
    obtain ⟨p, -, hr⟩ := bind_eq_ok hr
    obtain ⟨database, hdb, hr⟩ := bind_eq_ok hr
    obtain ⟨connection, hconn, hr⟩ := bind_eq_ok hr
    cases hr
    exact .inr ⟨p, args.target, database, connection, rfl, namedOptionsIntoAdbc_keysOk (mapError_eq_ok.mp hdb),
      namedOptionsIntoAdbc_keysOk (mapError_eq_ok.mp hconn)⟩

theorem refused_arrives {e : RpcError} {invocation : Invocation} (h : route srv ctx invocation = .fail e)
    (s : Tenants.St) : (Tenants.arrives srv s ctx invocation).front = s.front ∧
      (Tenants.arrives srv s ctx invocation).objects = s.objects := by
  unfold Tenants.arrives
  rw [h]
  exact ⟨rfl, rfl⟩

end Server

/-- The options of a database and a connection, from the application's maps to the server's
    open: every option but the driver's own arrives with its value, under its key, once; the
    credentials do not; and a key that cannot be sent fails the open before anything is. -/
theorem option_forwarding (arrow : Arrow) (ha : arrow.Lawful) (derived : Derived) (hd : derived.Lawful)
    (hashing : Backend.Hashing) (remote : Remote) (db : GrainliftDatabase) (opts : List (String × OptionValue)) :
    let opened := newConnectionWithOpts arrow derived hashing remote db opts
    -- values on the wire
    (∀ w : WireOptionValue, (w.validate = .ok () ↔ ∃ v, w.intoAdbc = .ok v) ∧
      ∀ v, w.intoAdbc = .ok v → .ofAdbc v = w) ∧
    (∀ v, (WireOptionValue.ofAdbc v).intoAdbc = .ok v) ∧
    -- a successful open sent a request
    (∀ c, opened.1 = .ok c → ∃ batch, .call .openConnection batch ∈ opened.2) ∧
    -- what the server opens with on a request that was sent
    (∃ database, db.Forwarded database ∧
      (∀ value, db.endpoint arrow.platform.unicode = .ok value →
        db.stringOption arrow.platform.unicode db.endpointKey = .ok value) ∧
      (∀ e ∈ database, e.1 ≠ db.endpointKey ∧ e.1 ≠ optionBearerToken) ∧
      ∀ method batch, .call method batch ∈ opened.2 → method = .openConnection ∧
        ∃ target, db.stringOption arrow.platform.unicode optionTarget = .ok target ∧
        ∀ (srv : Service) (ctx : CallContext) (request : Protocol.Request), srv.codec = arrow.codec derived →
          request.batch = batch →
          (∀ p, validateProtocolVersion request = .ok () → principal srv ctx = .ok p →
            routeRequest srv ctx request .openConnection = .openSession p target database opts) ∧
          ∀ p target' database' connection,
            routeRequest srv ctx request .openConnection = .openSession p target' database' connection →
            principal srv ctx = .ok p ∧ target' = target ∧ database' = database ∧ connection = opts) ∧
    -- a bad key
    ((∃ key, (key = "" ∨ '\x00' ∈ key.toList) ∧
        ((∃ database value, db.Forwarded database ∧ (key, value) ∈ database) ∨ key ∈ opts.map Prod.fst)) ∨
      ¬ (opts.map Prod.fst).Nodup →
      (∃ e, opened.1 = .error e) ∧ ∀ method batch, .call method batch ∉ opened.2) ∧
    -- whatever another client sends
    (∀ (srv : Service) (ctx : CallContext) (request : Protocol.Request),
      (∃ e, route srv ctx (.request .openConnection request) = .fail e ∧ ∀ s : Tenants.St,
        (Tenants.arrives srv s ctx (.request .openConnection request)).front = s.front ∧
        (Tenants.arrives srv s ctx (.request .openConnection request)).objects = s.objects) ∨
      ∃ p target database connection,
        route srv ctx (.request .openConnection request) = .openSession p target database connection ∧
        KeysOk (database.map Prod.fst) ∧ KeysOk (connection.map Prod.fst)) := by
  intro opened
  refine ⟨?_, intoAdbc_ofAdbc, fun c hc => newConnection_ok hc, ?_, ?_, ?_⟩
  · intro w
    refine ⟨?_, fun v hv => (intoAdbc_ok_iff.mp hv).symm⟩
    rw [validate_ok_iff]
    exact exists_congr fun v => intoAdbc_ok_iff.symm
  · have hf := forwarded_ok hashing db
    refine ⟨db.forwarded hashing, hf, fun _ => endpoint_ok, fun e he => Forwarded.noCredential hf he, ?_⟩
    intro method batch hcall
    obtain ⟨hm, target, ht, hsent⟩ := newConnection_calls hcall
    refine ⟨hm, target, ht, ?_⟩
    intro srv ctx request hc hb
    subst hb
    have hroute := route_sent ctx ha hd hc hsent
    refine ⟨?_, ?_⟩
    · intro p hv hp
      rw [hroute, hv, hp]
      rfl
    · intro p target' database' connection hopen
      rw [hroute] at hopen
      generalize hr : (do
        validateProtocolVersion request
        return Plan.openSession (← principal srv ctx) target (db.forwarded hashing) opts :
          Except RpcError Plan) = plan at hopen
      cases plan with
      | error e => cases hopen
      | ok plan =>
        obtain ⟨_, -, hr⟩ := bind_eq_ok hr
        obtain ⟨p', hp, hr⟩ := bind_eq_ok hr
        cases hr
        cases hopen
        exact ⟨hp, rfl, rfl, rfl⟩
  · intro hbad
    have hnone : ∀ method batch, .call method batch ∉ opened.2 := by
      intro method batch hcall
      obtain ⟨-, target, -, hsent⟩ := newConnection_calls hcall
      obtain ⟨hdb, hconn⟩ := typedRequest_keysOk hsent
      have hkdb := (validateOptions_ok_iff.mp hdb).1
      have hkconn := (validateOptions_ok_iff.mp hconn).1
      rw [map_namedOption_key] at hkdb hkconn
      rcases hbad with ⟨key, hkey, ⟨database, value, hf, he⟩ | hmem⟩ | hdup
      · have he' := ((forwarded_ok hashing db).exactly key value).mpr ((hf.exactly key value).mp he)
        obtain ⟨hne, hnul⟩ := hkdb.handles key (List.mem_map_of_mem he')
        exact hkey.elim hne hnul
      · obtain ⟨hne, hnul⟩ := hkconn.handles key hmem
        exact hkey.elim hne hnul
      · exact hdup hkconn.once
    refine ⟨?_, hnone⟩
    cases ho : opened.1 with
    | error e => exact ⟨e, rfl⟩
    | ok c =>
      obtain ⟨batch, hcall⟩ := newConnection_ok ho
      exact absurd hcall (hnone _ batch)
  · intro srv ctx request
    rcases route_open srv ctx request with ⟨e, he⟩ | hok
    · exact .inl ⟨e, he, refused_arrives he⟩
    · exact .inr hok

/-! ## A connection that is opened

  Arrow as it is at a few batches and the bytes of their streams. -/

def IpcStream.known {β : Type} [DecidableEq β] (streams : List (β × List Bytes)) : IpcStream β where
  memorySize _ := 64
  writes b :=
    match streams.find? fun e => decide (e.1 = b) with
    | some e => .ok e.2
    | none => .error "unsupported"
  reads bytes :=
    match streams.find? fun e => decide (e.2.flatten = bytes) with
    | some e => .ok fun n => if n = 0 then some (.ok ⟨e.1, []⟩) else none
    | none => .error "unsupported"

theorem IpcStream.known_lawful {β : Type} [DecidableEq β] {streams : List (β × List Bytes)} {p : Platform}
    {bodyLength : Bytes → Option Int64} (hf : ∀ e ∈ streams, Framed bodyLength e.2.flatten)
    (hn : (streams.map fun e => e.2.flatten).Nodup) : (IpcStream.known streams).Lawful p bodyLength := by
  have hw : ∀ b chunks, (IpcStream.known streams).writes b = .ok chunks → (b, chunks) ∈ streams := by
    intro b chunks h
    unfold IpcStream.known at h
    simp only at h
    split at h
    · rename_i e he
      obtain rfl : e.1 = b := by simpa using List.find?_some he
      cases h
      exact List.mem_of_find?_eq_some he
    · cases h
  refine ⟨?_, ?_, ?_⟩
  · intro b chunks h
    exact hf _ (hw b chunks h)
  · intro b chunks h
    have hm := hw b chunks h
    refine ⟨⟨b, []⟩, ⟨fun n => if n = 0 then some (.ok ⟨b, []⟩) else none, ?_, rfl, rfl⟩, rfl⟩
    unfold IpcStream.known
    simp only
    cases hfind : streams.find? fun e => decide (e.2.flatten = chunks.flatten) with
    | none => exact absurd (decide_eq_true rfl) (List.find?_eq_none.mp hfind _ hm)
    | some e =>
      have heq : e.2.flatten = chunks.flatten := by simpa using List.find?_some hfind
      obtain rfl := List.inj_on_of_nodup_map hn (List.mem_of_find?_eq_some hfind) hm heq
      rfl
  · intro bytes decoded h
    obtain ⟨next, hr, h0, -⟩ := h
    unfold IpcStream.known at hr
    simp only at hr
    split at hr
    · cases hr
      cases h0
      exact Nat.zero_le _
    · cases hr

/-- The record of a session id, by its column. -/
def sessionVgi : VgiArrow ResponseKind.session.Record where
  arrowDataType := .struct (.cons "session_id" false [] .utf8 .nil)
  buildSingleton r := .ok (.struct [true] (.cons "session_id" false [] (.utf8 [some (sessionIdOf r)]) .nil))
  read a _ :=
    match a with
    | .struct _ (.cons _ _ _ (.utf8 [some sessionId]) .nil) => .ok ⟨.session sessionId, rfl⟩
    | _ => .error "unsupported"

theorem sessionVgi_lawful : sessionVgi.Lawful := by
  refine ⟨?_, ?_⟩
  · intro r a h
    cases h
    exact ⟨rfl, rfl⟩
  · intro h' a h
    obtain ⟨r, hr⟩ := h'
    cases r with
    | session sessionId =>
      cases h
      rfl
    | ok | statement | execute | schema | update | partitions | value => cases hr

deriving instance DecidableEq for OpenConnectionRequest

/-- One struct of an option, its value a string. -/
def optionColumns (key value : String) : ArrowColumns :=
  .cons "key" false [] (.utf8 [some key]) (.cons "value" false []
    (.struct [true] (.cons "kind" false [] (.utf8 [some "string"]) (.cons "string_value" true [] (.utf8 [some value])
      (.cons "bytes_value" true [] (.binary [none]) (.cons "int_value" true [] (.int64 [none])
        (.cons "double_value" true [] (.float64 [none]) .nil)))))) .nil)

def sqliteRequest : OpenConnectionRequest :=
  ⟨"main", [namedOption ("uri", .string "file:a")], [namedOption ("readonly", .string "true")]⟩

def sqliteColumns : ArrowColumns :=
  .cons "target" false [] (.utf8 [some "main"]) (.cons "database_options" false []
    (.list "item" false [] [true] [0, 1] (.struct [true] (optionColumns "uri" "file:a")))
    (.cons "connection_options" false []
      (.list "item" false [] [true] [0, 1] (.struct [true] (optionColumns "readonly" "true"))) .nil))

def sessionColumns : ArrowColumns := .cons "session_id" false [] (.utf8 [some "c"]) .nil

def sqliteVgi : VgiArrow OpenConnectionRequest := .one sqliteRequest (.struct [true] sqliteColumns)

def sqliteDerived : Derived where
  request
    | .openConnection => sqliteVgi
    | .getTableSchema | .setConnectionOption | .setStatementOption | .getInfo | .getObjects | .getStatistics => .none
  response
    | .session => sessionVgi
    | .ok | .statement | .execute | .schema | .update | .partitions | .value => .none

def bodyFrame (body : Bytes) (h : body.length = 8) : Frame lastByte :=
  ⟨true, [12, 0, 0, 0, 0, 0, 0, 8], body, by decide, 8, by decide, by rw [h]; decide⟩

def sqliteFrame : Frame lastByte := bodyFrame [102, 105, 108, 101, 58, 97, 0, 0] rfl

def sessionFrame : Frame lastByte := bodyFrame [99, 0, 0, 0, 0, 0, 0, 0] rfl

def sqlitePayload : Bytes := stream [schemaFrame, sqliteFrame] true

def sessionPayload : Bytes := stream [schemaFrame, sessionFrame] true

def envelopeFrame : Frame lastByte :=
  ⟨true, [12, 0, 0, 0, 0, 0, 0, 48], sqlitePayload, by decide, 48, by decide, by decide⟩

def sqliteArrow : Arrow where
  platform := tableArrow.platform
  bodyLength := lastByte
  batches := .one (envelope "request" sqlitePayload) [schemaFrame.bytes, envelopeFrame.bytes, terminator true]
  records := IpcStream.known [(⟨1, sqliteColumns⟩, [schemaFrame.bytes, sqliteFrame.bytes, terminator true]),
    (⟨1, sessionColumns⟩, [schemaFrame.bytes, sessionFrame.bytes, terminator true])]
  decodeSchema _ := .error .invalidSchemaMessage
  encodeSchema _ := .ok []
  objectDepth n := .ok n

/-- The service is at `grainlift.uri`, so `uri` is for SQLite. -/
def sqliteDatabase : GrainliftDatabase :=
  ⟨Table.insertAll ∅ [("grainlift.uri", .string "http://localhost"), ("grainlift.target", .string "main"),
    ("grainlift.auth.bearer_token", .string "secret"), ("uri", .string "file:a")]⟩

def answering : Remote where
  connect _ _ _ _ _ := .ok ()
  call _ _ := .ok (envelope "result" sessionPayload)

def sqliteOpen : Except AdbcError RemoteConnection × List RemoteCall :=
  newConnectionWithOpts sqliteArrow sqliteDerived Backend.inOrder answering sqliteDatabase
    [("readonly", .string "true")]

def sqliteService : Service := { smallService with codec := sqliteArrow.codec sqliteDerived }

/-- The connection is opened, and the server opens SQLite's file, without the token. -/
theorem option_forwarding_sqlite : sqliteOpen.1 = .ok ⟨"c", 64 * 1024 * 1024⟩ ∧
    ∃ request database, request.metadata = AList.insert "vgi_rpc.protocol_version" "0.4.0" ∅ ∧
      .call .openConnection request.batch ∈ sqliteOpen.2 ∧
      routeRequest sqliteService anonymous request .openConnection =
        .openSession "\x00anonymous" "main" database [("readonly", .string "true")] ∧
      ("uri", .string "file:a") ∈ database ∧ ∀ e ∈ database, e.1 ≠ "grainlift.auth.bearer_token" := by
  have ha : sqliteArrow.Lawful := by
    refine ⟨IpcStream.one_lawful ⟨[schemaFrame, envelopeFrame], true, rfl⟩, IpcStream.known_lawful ?_ (by decide)⟩
    intro e he
    simp only [List.mem_cons, List.not_mem_nil, or_false] at he
    rcases he with rfl | rfl
    · exact ⟨[schemaFrame, sqliteFrame], true, rfl⟩
    · exact ⟨[schemaFrame, sessionFrame], true, rfl⟩
  have hd : sqliteDerived.Lawful := by
    refine ⟨?_, ?_⟩
    · intro t
      cases t with
      | openConnection =>
        have h : sqliteVgi.Lawful := VgiArrow.one_lawful rfl
        exact h
      | getTableSchema | setConnectionOption | setStatementOption | getInfo | getObjects | getStatistics =>
        exact VgiArrow.none_lawful
    · intro k
      cases k with
      | session => exact sessionVgi_lawful
      | ok | statement | execute | schema | update | partitions | value => exact VgiArrow.none_lawful
  have hok : sqliteOpen.1 = .ok ⟨"c", 64 * 1024 * 1024⟩ := by decide
  obtain ⟨-, -, hsent, ⟨database, hf, -, hcredential, hserver⟩, -, -⟩ :=
    option_forwarding sqliteArrow ha sqliteDerived hd Backend.inOrder answering sqliteDatabase
      [("readonly", .string "true")]
  obtain ⟨batch, hbatch⟩ := hsent _ hok
  obtain ⟨-, target, ht, hroute⟩ := hserver _ batch hbatch
  cases ht
  refine ⟨hok, ⟨_, batch⟩, database, rfl, hbatch, ?_, ?_, ?_⟩
  · exact (hroute sqliteService anonymous ⟨_, batch⟩ rfl rfl).1 _ rfl rfl
  · exact (hf.exactly "uri" (.string "file:a")).mpr ⟨rfl, by decide, fun _ => rfl⟩
  · intro e he
    exact (hcredential e he).2

end Grainlift.Client.Options
