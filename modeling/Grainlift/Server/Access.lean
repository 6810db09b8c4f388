/-
  Grainlift.Server.Access — what the server is configured with and who may do what:
  session limits, principal keys, the target authorizer, and the policy on client
  options (session.rs, config.rs), with the errors the session layer makes.
-/

import Grainlift.Lib.Table
import Grainlift.Protocol.Values

namespace Grainlift.Server

open Grainlift.Lib Grainlift.Protocol

/-! ## Errors of the session layer -/

def quota (kind : String) : AdbcError := .withMessageAndStatus (kind ++ " quota exceeded") .invalidState

def internal (message : String) : AdbcError := .withMessageAndStatus message .internal

def busy (message : String) : AdbcError := .withMessageAndStatus message .invalidState

def timeout (message : String) : AdbcError := .withMessageAndStatus message .timeout

def invalidData (message : String) : AdbcError := .withMessageAndStatus message .invalidData

def notFound (kind : String) : AdbcError := .withMessageAndStatus (kind ++ " was not found") .notFound

def notTheOwner : AdbcError :=
  .withMessageAndStatus "session does not belong to the authenticated principal" .unauthorized

/-! ## Limits -/

structure SessionLimits where
  maxSessions : Nat
  maxSessionsPerPrincipal : Nat
  maxStatementsPerSession : Nat
  maxResultsPerSession : Nat
  deriving DecidableEq, Repr

def SessionLimits.default : SessionLimits := ⟨1024, 32, 64, 64⟩

def SessionLimits.validate (l : SessionLimits) : Except String Unit :=
  if l.maxSessions = 0 ∨ l.maxSessionsPerPrincipal = 0 ∨ l.maxStatementsPerSession = 0 ∨
    l.maxResultsPerSession = 0 then
    .error "all session, statement, and result limits must be positive"
  else if l.maxSessions < l.maxSessionsPerPrincipal then
    .error "max_sessions_per_principal must not exceed max_sessions"
  else .ok ()

theorem SessionLimits.validate_default : SessionLimits.default.validate = .ok () := rfl

/-! ## Principals and targets -/

structure AuthContext where
  authenticated : Bool
  domain : String
  principal : String
  deriving DecidableEq, Repr

/-- `SessionManager::principal`. -/
def principalKey (requireAuthentication : Bool) (auth : AuthContext) : Except RpcError String :=
  if requireAuthentication && !auth.authenticated then .error .unauthenticated
  else if auth.authenticated then .ok (auth.domain ++ "\x00" ++ auth.principal)
  else .ok "\x00anonymous"

structure TargetAuthorizer where
  permissions : Option (Table String (List String))

def TargetAuthorizer.new (permissions : Table String (List String)) : TargetAuthorizer :=
  if permissions.entries.isEmpty then ⟨none⟩ else ⟨some permissions⟩

/-- `principal.split_once('\0').map_or(principal, |(_, name)| name)`. -/
def principalName (principal : String) : String :=
  match principal.toList.dropWhile (· ≠ '\x00') with
  | _ :: name => String.ofList name
  | [] => principal

def TargetAuthorizer.allows (a : TargetAuthorizer) (principal target : String) : Bool :=
  match a.permissions with
  | none => true
  | some permissions =>
    match (permissions.lookup (principalName principal)).or (permissions.lookup principal) with
    | some targets => targets.contains "*" || targets.contains target
    | none => false

/-! ## Client options -/

inductive JsonOptionValue where
  | string (v : String)
  | bytes (base64 : String)
  | int (v : Int64)
  | double (bits : UInt64)
  deriving DecidableEq

structure WireOption where
  key : String
  value : JsonOptionValue
  deriving DecidableEq

structure ClientOptionPolicy where
  allowAll : Bool
  allowed : List String
  isConfigured : List String
  deriving DecidableEq

namespace ClientOptionPolicy

def new (allowAll : Bool) (allowed : List String) (configured : List WireOption) : ClientOptionPolicy :=
  ⟨allowAll, allowed, configured.map (·.key)⟩

def isProtected (p : ClientOptionPolicy) (key : String) : Bool := p.isConfigured.contains key

def permits (p : ClientOptionPolicy) (key : String) : Bool :=
  !p.isProtected key && (p.allowAll || p.allowed.contains key)

end ClientOptionPolicy

structure TargetConfig where
  driver : String
  entrypoint : Option String
  databaseOptions : List WireOption
  connectionOptions : List WireOption
  allowClientDatabaseOptions : Bool
  allowClientConnectionOptions : Bool
  allowedClientDatabaseOptions : List String
  allowedClientConnectionOptions : List String
  deriving DecidableEq

def TargetConfig.connectionOptionPolicy (t : TargetConfig) : ClientOptionPolicy :=
  .new t.allowClientConnectionOptions t.allowedClientConnectionOptions t.connectionOptions

/-- What `SessionManager` is built with, less the backend and the partition signer.
    `operationTimeout` is the duration as its `Debug` prints it: how long it is shows only
    in when a wait expires. -/
structure Config where
  targets : Table String TargetConfig
  ttl : Nat
  requireAuthentication : Bool
  limits : SessionLimits
  authorizer : TargetAuthorizer
  operationTimeout : String

end Grainlift.Server
