/-
  Grainlift.Server.Validation — a request that is not in order does nothing.

  `Accepted` is what a request must be before its method does anything: of protocol version
  0.4.x, from a principal that can be established, and with every argument of the method as
  the method declares it (`Method.arguments`, the request schemas of `build_server`). What
  an argument must be is said of the batch (`Argument.Good`), not of the functions that
  read it.

  A handler reads some of its arguments before it has its session and the others after
  (`routeRequest`). Either way an argument that is not good is met before the first
  operation: the plan has failed, or the program it would run is over with an error
  (`rejected_plan`). `Idle` carries this through the runs of the server.

  Proved (`validation_before_effects`): no call on a backend is made for such a request, and
  none is left to run late; two steps of its own end it, with an error, whatever comes in
  between; a step of it leaves the registered sessions, what each of them holds and the
  opens as they are, but for the lease of the caller's own session or the removal of that
  session when it had expired (`Spared`). One of the wrong version has no step but its
  arrival, which changes nothing (`Still`).

  A step of such a request can be the end of a session in two ways: its lookup drops the
  caller's own expired one, or it gives back the last reference to one that others removed
  meanwhile. Either way the dropped session cancels what it had (`Deed.cleanup`).
-/

import Grainlift.Server.Tenants

namespace Grainlift.Server

open Grainlift.Lib Grainlift.Protocol

/-! ## Requests in order -/

/-- 0.4.x, x one or more ASCII digits. -/
def Compatible (request : Request) : Prop :=
  ∃ patch : List Char, patch ≠ [] ∧ (∀ ch ∈ patch, '0' ≤ ch ∧ ch ≤ '9') ∧
    ∃ version, request.metadata.lookup "vgi_rpc.protocol_version" = some version ∧
      version.toList = '0' :: '.' :: '4' :: '.' :: patch

/-- An argument by its column and what it must hold. -/
inductive Argument where
  | handle (name : String)
  | text (name : String)
  | binary (name : String)
  | int64 (name : String)
  /-- A schema as an IPC message. -/
  | schema (name : String)
  /-- The one column of a typed request. -/
  | record (t : RequestKind)

/-- The batch's only value in the column. -/
def Holds (batch : RecordBatch) (name : String) (column : Column) : Prop :=
  batch.numRows = 1 ∧ batch.columnByName name = some column

def Argument.Good (codec : Codec) (batch : RecordBatch) : Argument → Prop
  | .handle name => ∃ value : String, Holds batch name (.utf8 [some value]) ∧ '\x00' ∉ value.toList ∧ value ≠ ""
  | .text name => ∃ value : String, Holds batch name (.utf8 [some value]) ∧ '\x00' ∉ value.toList
  | .binary name => ∃ value, Holds batch name (.binary [some value])
  | .int64 name => ∃ value, Holds batch name (.int64 [some value])
  | .schema name => ∃ value schema, Holds batch name (.binary [some value]) ∧ codec.decodeSchema value = .ok schema
  | .record t => batch.schema.fields = envelopeFields "request" ∧ ∃ value record,
      Holds batch "request" (.binary [some value]) ∧
      codec.decodeRecordIpc t value maxControlBytes = .ok record ∧ t.validate record = .ok ()

/-- The arguments of a method, as its request schema declares them. -/
def Method.arguments : Method → List Argument
  | .openConnection => [.record .openConnection]
  | .setConnectionOption => [.record .setConnectionOption]
  | .setStatementOption => [.record .setStatementOption]
  | .getInfo => [.record .getInfo]
  | .getObjects => [.record .getObjects]
  | .getTableSchema => [.record .getTableSchema]
  | .getStatistics => [.record .getStatistics]
  | .closeConnection | .commit | .rollback | .cancelConnection | .newStatement | .getTableTypes |
    .getStatisticNames => [.handle "session_id"]
  | .getConnectionOption => [.handle "session_id", .handle "key", .text "value_type"]
  | .readPartition => [.handle "session_id", .binary "payload"]
  | .getStatementOption => [.handle "session_id", .handle "statement_id", .handle "key", .text "value_type"]
  | .setSqlQuery => [.handle "session_id", .handle "statement_id", .text "sql"]
  | .setSubstraitPlan => [.handle "session_id", .handle "statement_id", .binary "payload"]
  | .prepare | .cancelStatement | .execute | .executeUpdate | .executeSchema | .getParameterSchema |
    .executePartitions | .closeStatement => [.handle "session_id", .handle "statement_id"]
  | .closeResult => [.handle "session_id", .handle "result_id"]
  | .bind | .bindStream => [.handle "session_id", .handle "statement_id", .schema "schema_ipc"]
  | .readResult => [.handle "session_id", .handle "result_id", .int64 "sequence"]

/-- Every argument is good. -/
def AllGood (codec : Codec) (batch : RecordBatch) (arguments : List Argument) : Prop :=
  ∀ a ∈ arguments, a.Good codec batch

structure Accepted (srv : Service) (ctx : CallContext) (arguments : List Argument) (request : Request) : Prop where
  version : Compatible request
  principal : ∃ p, principal srv ctx = .ok p
  arguments : AllGood srv.codec request.batch arguments

/-! ## What was read is good -/

section Reading

variable {request : Request} {name : String}

theorem validateProtocolVersion_ok (h : validateProtocolVersion request = .ok ()) : Compatible request := by
  unfold validateProtocolVersion at h
  cases hl : request.metadata.lookup "vgi_rpc.protocol_version" with
  | none => simp [hl] at h
  | some version =>
    simp only [hl] at h
    split at h
    · rename_i patch hp
      split at h
      · rename_i hc
        simp only [Bool.and_eq_true, Bool.not_eq_true', List.isEmpty_eq_false_iff, List.all_eq_true,
          decide_eq_true_eq] at hc
        exact ⟨patch, hc.1, hc.2, version, hl, hp⟩
      · cases h
    · cases h

theorem columnByName_mem {batch : RecordBatch} {column : Column} (h : batch.columnByName name = some column) :
    column ∈ batch.columns := by
  unfold RecordBatch.columnByName at h
  obtain ⟨fc, hf, rfl⟩ := Option.map_eq_some_iff.mp h
  exact (List.of_mem_zip (List.mem_of_find?_eq_some hf)).2

/-- A value that was read is the only one in its column. -/
theorem columnValue_ok {α : Type} {expected : String} {downcast : Column → Option (List (Option α))}
    (hlen : ∀ column rows, downcast column = some rows → column.length = rows.length) {batch : RecordBatch} {value : α}
    (h : columnValue expected downcast batch name = .ok value) :
    ∃ column, Holds batch name column ∧ downcast column = some [some value] := by
  obtain ⟨_, hrows, h⟩ := bind_eq_ok h
  have hone : batch.numRows = 1 := by
    unfold requireOneRow at hrows
    split at hrows
    · cases hrows
    · rename_i hn
      exact not_not.mp hn
  cases hc : batch.columnByName name with
  | none => simp [hc] at h
  | some column =>
    simp only [hc] at h
    cases hd : downcast column with
    | none => simp [hd] at h
    | some rows =>
      simp only [hd] at h
      refine ⟨column, ⟨hone, hc⟩, ?_⟩
      have hrow : rows.length = 1 := by rw [← hlen column rows hd, batch.wf.2 column (columnByName_mem hc), hone]
      obtain ⟨row, rfl⟩ := List.length_eq_one_iff.mp hrow
      cases row with
      | none => simp at h
      | some v =>
        simp only [List.head?_cons, Except.ok.injEq] at h
        rw [hd, h]

theorem stringValue_ok {batch : RecordBatch} {value : String} (h : stringValue batch name = .ok value) :
    Holds batch name (.utf8 [some value]) := by
  obtain ⟨column, hh, hd⟩ := columnValue_ok (by intro c r hr; cases c <;> simp at hr; subst hr; rfl) h
  cases column with
  | utf8 rows =>
    cases hd
    exact hh
  | _ => cases hd

theorem binaryValue_ok {batch : RecordBatch} {value : Bytes} (h : binaryValue batch name = .ok value) :
    Holds batch name (.binary [some value]) := by
  obtain ⟨column, hh, hd⟩ := columnValue_ok (by intro c r hr; cases c <;> simp at hr; subst hr; rfl) h
  cases column with
  | binary rows =>
    cases hd
    exact hh
  | _ => cases hd

theorem int64Value_ok {batch : RecordBatch} {value : Int64} (h : int64Value batch name = .ok value) :
    Holds batch name (.int64 [some value]) := by
  obtain ⟨column, hh, hd⟩ := columnValue_ok (by intro c r hr; cases c <;> simp at hr; subst hr; rfl) h
  cases column with
  | int64 rows =>
    cases hd
    exact hh
  | _ => cases hd

theorem validateText_ok {value : String} (h : validateText value = .ok ()) : '\x00' ∉ value.toList := by
  unfold validateText at h
  split at h
  · cases h
  · rename_i hc
    simpa using hc

theorem validateHandle_ok {value : String} (h : validateHandle value = .ok ()) :
    '\x00' ∉ value.toList ∧ value ≠ "" := by
  obtain ⟨_, ht, h⟩ := bind_eq_ok h
  split at h
  · cases h
  · rename_i hne
    exact ⟨validateText_ok ht, hne⟩

theorem string_handle {codec : Codec} {value : String}
    (hn : ["session_id", "statement_id", "result_id", "key"].contains name = true)
    (h : string request name = .ok value) : (Argument.handle name).Good codec request.batch := by
  obtain ⟨v, hv, h⟩ := bind_eq_ok h
  rw [if_pos hn] at h
  obtain ⟨_, hc, -⟩ := bind_eq_ok h
  obtain ⟨hnul, hne⟩ := validateHandle_ok (mapError_eq_ok.mp hc)
  exact ⟨v, stringValue_ok (mapError_eq_ok.mp hv), hnul, hne⟩

theorem string_text {codec : Codec} {value : String}
    (hn : ["session_id", "statement_id", "result_id", "key"].contains name = false)
    (h : string request name = .ok value) : (Argument.text name).Good codec request.batch := by
  obtain ⟨v, hv, h⟩ := bind_eq_ok h
  rw [if_neg (by simp only [hn, Bool.false_eq_true, not_false_eq_true])] at h
  obtain ⟨_, hc, -⟩ := bind_eq_ok h
  exact ⟨v, stringValue_ok (mapError_eq_ok.mp hv), validateText_ok (mapError_eq_ok.mp hc)⟩

theorem binary_good {codec : Codec} {value : Bytes} (h : binary request name = .ok value) :
    (Argument.binary name).Good codec request.batch := ⟨value, binaryValue_ok (mapError_eq_ok.mp h)⟩

theorem schema_good {codec : Codec} {value : Bytes} {schema : Schema} (h : binary request name = .ok value)
    (hd : orProtocol (codec.decodeSchema value) = .ok schema) : (Argument.schema name).Good codec request.batch :=
  ⟨value, schema, binaryValue_ok (mapError_eq_ok.mp h), mapError_eq_ok.mp hd⟩

theorem typedRequest_ok {srv : Service} {t : RequestKind} {record : t.Record}
    (h : typedRequest srv t request = .ok record) :
    Compatible request ∧ (Argument.record t).Good srv.codec request.batch := by
  obtain ⟨_, hv, h⟩ := bind_eq_ok h
  have h := mapError_eq_ok.mp h
  unfold Codec.decodeRequest at h
  split at h
  · cases h
  rename_i hf
  obtain ⟨value, hb, h⟩ := bind_eq_ok h
  obtain ⟨record', hd, h⟩ := bind_eq_ok h
  obtain ⟨_, hr, -⟩ := bind_eq_ok h
  exact ⟨validateProtocolVersion_ok hv, not_not.mp hf, value, record', binaryValue_ok hb, hd, hr⟩

end Reading

/-! ## A request that is not in order -/

/-- Over with an error. -/
def Failed (prog : Do RpcError Reply) : Prop := ∃ e, prog = .done (.error e)

/-- No session is opened or closed, and the program that would run has failed. -/
def Plan.Failed : Plan → Prop
  | .fail _ => True
  | .onSession _ _ body => ∀ v, Server.Failed (body v)
  | _ => False

section Rejected

variable {srv : Service} {ctx : CallContext} {request : Request} {codec : Codec} {batch : RecordBatch}

theorem allGood_nil : AllGood codec batch [] := by
  intro a ha
  cases ha

theorem AllGood.cons {a : Argument} {rest : List Argument} (h : AllGood codec batch rest) (ha : a.Good codec batch) :
    AllGood codec batch (a :: rest) := by
  intro x hx
  rcases List.mem_cons.mp hx with rfl | hx
  · exact ha
  · exact h x hx

/-- A program that reads first: it fails as what it reads does, or later. -/
theorem failed_read {α : Type} {r : Except RpcError α} {f : α → Do RpcError Reply}
    (h : ∀ a, r = .ok a → Failed (f a)) : Failed (liftM r >>= f) := by
  cases r with
  | ok a => exact h a rfl
  | error e => exact ⟨e, rfl⟩

theorem ofExcept_failed {r : Except RpcError Plan} (h : ∀ plan, r = .ok plan → plan.Failed) :
    (Plan.ofExcept r).Failed := by
  cases r with
  | ok plan => exact h plan rfl
  | error e => trivial

theorem getSession_failed {rest : List Argument} {f : SessionView → Do RpcError Reply}
    (hf : ¬ AllGood srv.codec request.batch rest → ∀ v, Failed (f v))
    (h : ¬ Accepted srv ctx (.handle "session_id" :: rest) request) : (getSession srv ctx request f).Failed := by
  apply ofExcept_failed
  intro plan hr
  obtain ⟨_, hv, hr⟩ := bind_eq_ok hr
  obtain ⟨p, hp, hr⟩ := bind_eq_ok hr
  obtain ⟨id, hs, hr⟩ := bind_eq_ok hr
  cases hr
  apply hf
  intro hrest
  exact h ⟨validateProtocolVersion_ok hv, ⟨p, hp⟩, hrest.cons (string_handle rfl hs)⟩

theorem typed_failed {t : RequestKind} {id : t.Record → String} {f : t.Record → SessionView → Do RpcError Reply}
    (h : ¬ Accepted srv ctx [.record t] request) :
    (Plan.ofExcept (typedRequest srv t request >>= fun args => sessionById srv ctx (id args) (f args))).Failed := by
  apply ofExcept_failed
  intro plan hr
  obtain ⟨args, ha, hr⟩ := bind_eq_ok hr
  obtain ⟨p, hp, -⟩ := bind_eq_ok hr
  obtain ⟨hv, hgood⟩ := typedRequest_ok ha
  exact absurd ⟨hv, ⟨p, hp⟩, allGood_nil.cons hgood⟩ h

/-- A statement's handler that reads nothing but its id. -/
theorem statement_failed {f : String → Do RpcError Reply}
    (hbad : ¬ AllGood srv.codec request.batch [.handle "statement_id"]) :
    Failed (liftM (string request "statement_id") >>= f) :=
  failed_read fun _ hs => absurd (allGood_nil.cons (string_handle rfl hs)) hbad

theorem bind_failed {mode : BindMode} {v : SessionView}
    (hbad : ¬ AllGood srv.codec request.batch [.handle "statement_id", .schema "schema_ipc"]) :
    Failed (bindHandler srv mode request v) := by
  refine failed_read fun sid hs => failed_read fun bytes hb => failed_read fun schema hd => ?_
  exact absurd ((allGood_nil.cons (schema_good hb hd)).cons (string_handle rfl hs)) hbad

/-- Whatever is wrong with a request, its method comes to nothing. -/
theorem rejected_plan (m : Method) (h : ¬ Accepted srv ctx m.arguments request) :
    (routeRequest srv ctx request m).Failed := by
  cases m with
  | openConnection =>
    apply ofExcept_failed
    intro plan hr
    obtain ⟨args, ha, hr⟩ := bind_eq_ok hr
    obtain ⟨p, hp, -⟩ := bind_eq_ok hr
    obtain ⟨hv, hgood⟩ := typedRequest_ok ha
    exact absurd ⟨hv, ⟨p, hp⟩, allGood_nil.cons hgood⟩ h
  | closeConnection =>
    apply ofExcept_failed
    intro plan hr
    obtain ⟨_, hv, hr⟩ := bind_eq_ok hr
    obtain ⟨p, hp, hr⟩ := bind_eq_ok hr
    obtain ⟨id, hs, -⟩ := bind_eq_ok hr
    exact absurd ⟨validateProtocolVersion_ok hv, ⟨p, hp⟩, allGood_nil.cons (string_handle rfl hs)⟩ h
  | commit | rollback | cancelConnection | newStatement | getTableTypes | getStatisticNames =>
    exact getSession_failed (fun hbad => absurd allGood_nil hbad) h
  | setConnectionOption | getInfo | getObjects | getTableSchema | getStatistics | setStatementOption =>
    exact typed_failed h
  | prepare | cancelStatement | execute | executeUpdate | executeSchema | getParameterSchema | executePartitions |
    closeStatement =>
    exact getSession_failed (fun hbad _ => statement_failed hbad) h
  | getConnectionOption =>
    refine getSession_failed (fun hbad _ => failed_read fun key hk => failed_read fun type ht => ?_) h
    exact absurd ((allGood_nil.cons (string_text rfl ht)).cons (string_handle rfl hk)) hbad
  | readPartition =>
    refine getSession_failed (fun hbad _ => failed_read fun token ht => ?_) h
    exact absurd (allGood_nil.cons (binary_good ht)) hbad
  | getStatementOption =>
    refine getSession_failed (fun hbad _ => failed_read fun sid hs => failed_read fun key hk => failed_read fun type ht =>
      ?_) h
    exact absurd (((allGood_nil.cons (string_text rfl ht)).cons (string_handle rfl hk)).cons (string_handle rfl hs)) hbad
  | setSqlQuery =>
    refine getSession_failed (fun hbad _ => failed_read fun sid hs => failed_read fun sql hq => ?_) h
    exact absurd ((allGood_nil.cons (string_text rfl hq)).cons (string_handle rfl hs)) hbad
  | setSubstraitPlan =>
    refine getSession_failed (fun hbad _ => failed_read fun sid hs => failed_read fun plan hp => ?_) h
    exact absurd ((allGood_nil.cons (binary_good hp)).cons (string_handle rfl hs)) hbad
  | closeResult =>
    refine getSession_failed (fun hbad _ => failed_read fun id hr => ?_) h
    exact absurd (allGood_nil.cons (string_handle rfl hr)) hbad
  | bind | bindStream => exact getSession_failed (fun hbad _ => bind_failed hbad) h
  | readResult =>
    refine getSession_failed (fun hbad _ => failed_read fun id hr => failed_read fun sequence hs => ?_) h
    refine absurd ((allGood_nil.cons (a := .int64 "sequence") ?_).cons (string_handle rfl hr)) hbad
    exact ⟨sequence, int64Value_ok (mapError_eq_ok.mp hs)⟩

theorem ofExcept_fails {r : Except RpcError Plan} (h : ∀ plan, r ≠ .ok plan) : ∃ e, Plan.ofExcept r = .fail e := by
  cases r with
  | ok plan => exact absurd rfl (h plan)
  | error e => exact ⟨e, rfl⟩

/-- One of the wrong version is refused at once. -/
theorem incompatible_plan (m : Method) (h : ¬ Compatible request) : ∃ e, routeRequest srv ctx request m = .fail e := by
  have hflat : ∀ {f : Unit → Except RpcError Plan},
      ∃ e, Plan.ofExcept (validateProtocolVersion request >>= f) = .fail e := by
    intro f
    apply ofExcept_fails
    intro plan hr
    obtain ⟨_, hv, -⟩ := bind_eq_ok hr
    exact h (validateProtocolVersion_ok hv)
  have htyped : ∀ {t : RequestKind} {f : t.Record → Except RpcError Plan},
      ∃ e, Plan.ofExcept (typedRequest srv t request >>= f) = .fail e := by
    intro t f
    apply ofExcept_fails
    intro plan hr
    obtain ⟨args, ha, -⟩ := bind_eq_ok hr
    exact h (typedRequest_ok ha).1
  cases m with
  | openConnection | setConnectionOption | getInfo | getObjects | getTableSchema | getStatistics |
    setStatementOption => exact htyped
  | _ => exact hflat

end Rejected

/-! ## Its course -/

open Tenants

/-- Nothing was done, and nothing will be. -/
def Failing : Stage → Prop
  | .taking _ _ body => ∀ v, Failed (body v)
  | .running _ prog => Failed prog
  | .finished reply => ∃ e, reply = .error e
  | .closing _ _ | .opening _ _ _ => False

/-- The steps of its own a request like that has before it. -/
def left : Stage → Nat
  | .taking _ _ _ => 2
  | .running _ _ => 1
  | _ => 0

/-- A step the request `n` takes on its own. -/
def isProceed (n : Nat) : Ev → Bool
  | .proceed i _ => i == n
  | _ => false

/-- The request of a method that does not accept it. -/
def Rejected (srv : Service) (r : Served) : Prop :=
  ∃ m request, r.invocation = .request m request ∧ ¬ Accepted srv r.ctx m.arguments request

def Incompatible (r : Served) : Prop := ∃ m request, r.invocation = .request m request ∧ ¬ Compatible request

/-- Requests that are not in order have done nothing. -/
structure Idle (srv : Service) (s : St) : Prop where
  stages : ∀ (n : Nat) (r : Served), s.requests[n]? = some r → Rejected srv r → Failing r.stage
  refused : ∀ (n : Nat) (r : Served), s.requests[n]? = some r → Incompatible r → ∃ e, r.stage = .finished (.error e)
  late : ∀ l ∈ s.late, ∀ r, s.requests[l.request]? = some r → ¬ Rejected srv r
  made : ∀ d ∈ s.made, ∀ n r, d.request = some n → s.requests[n]? = some r → Rejected srv r →
    ∃ statements, d.deed = .cleanup statements

section Course

variable {host : Host} {srv : Service} {s s' : St} {e : Ev} {n : Nat} {r : Served}

/-- A request that is not in order arrives, and is listed. -/
theorem arrives_failing {ctx : CallContext} {m : Method} {request : Request}
    (h : ¬ Accepted srv ctx m.arguments request) :
    ∃ stage, Failing stage ∧ arrives srv s ctx (.request m request) =
      { s with requests := s.requests ++ [⟨ctx, .request m request, stage⟩] } := by
  have hfailed : (route srv ctx (.request m request)).Failed := rejected_plan m h
  unfold arrives
  cases hr : route srv ctx (.request m request) with
  | fail err => exact ⟨.finished (.error err), ⟨err, rfl⟩, rfl⟩
  | onSession p id body =>
    rw [hr] at hfailed
    exact ⟨.taking p id body, hfailed, rfl⟩
  | openSession _ _ _ _ | closeSession _ _ | nothing =>
    rw [hr] at hfailed
    cases hfailed

theorem arrives_refused {ctx : CallContext} {m : Method} {request : Request} (h : ¬ Compatible request) :
    ∃ err, arrives srv s ctx (.request m request) =
      { s with requests := s.requests ++ [⟨ctx, .request m request, .finished (.error err)⟩] } := by
  obtain ⟨err, he⟩ := @incompatible_plan srv ctx request m h
  have he : route srv ctx (.request m request) = .fail err := he
  exact ⟨err, by rw [arrives, he]⟩

theorem arrived_stage {requests : List Served} {ctx : CallContext} {invocation : Invocation} {stage stage' : Stage}
    (h : requests ++ [⟨ctx, invocation, stage⟩] = requests ++ [⟨ctx, invocation, stage'⟩]) : stage = stage' := by
  have h := List.append_cancel_left h
  simpa only [List.cons.injEq, Served.mk.injEq, true_and, and_true] using h

/-- Of a request only its stage changes. -/
theorem served_before (h : Does host srv s e s') {r' : Served} (hr : s.requests[n]? = some r)
    (hr' : s'.requests[n]? = some r') : r'.ctx = r.ctx ∧ r'.invocation = r.invocation := by
  obtain ⟨r1, hr1, hctx, hinv⟩ := request_later h hr
  rw [hr'] at hr1
  cases hr1
  exact ⟨hctx, hinv⟩

theorem rejected_before (h : Does host srv s e s') {r' : Served} (hr : s.requests[n]? = some r)
    (hr' : s'.requests[n]? = some r') (hrej : Rejected srv r') : Rejected srv r := by
  obtain ⟨hctx, hinv⟩ := served_before h hr hr'
  obtain ⟨m, request, hm, hbad⟩ := hrej
  exact ⟨m, request, hinv ▸ hm, hctx ▸ hbad⟩

theorem serves_request {id : String} (h : Serves srv s n id) : ∃ r, s.requests[n]? = some r := by
  obtain ⟨p, hk, -⟩ := h
  obtain ⟨r, hr, -⟩ := Option.bind_eq_some_iff.mp hk
  exact ⟨r, hr⟩

/-- A request that makes a step of its own: the others stay. -/
theorem goes_failing {stage : Stage} (hs : Idle srv s)
    (hreq : s'.requests = s.requests.set n { r with stage := stage }) (hn : Rejected srv r → Failing stage) :
    ∀ (i : Nat) (x : Served), s'.requests[i]? = some x → Rejected srv x → Failing x.stage := by
  intro i x hx hrej
  rw [hreq] at hx
  rcases getElem?_set_cases hx with ⟨rfl, rfl⟩ | ⟨-, hx⟩
  · exact hn hrej
  · exact hs.stages i x hx hrej

theorem goes_refused {stage : Stage} (hs : Idle srv s) (hr : s.requests[n]? = some r)
    (hstage : ∀ err, r.stage ≠ .finished (.error err))
    (hreq : s'.requests = s.requests.set n { r with stage := stage }) :
    ∀ (i : Nat) (x : Served), s'.requests[i]? = some x → Incompatible x → ∃ err, x.stage = .finished (.error err) := by
  intro i x hx hinc
  rw [hreq] at hx
  rcases getElem?_set_cases hx with ⟨rfl, rfl⟩ | ⟨-, hx⟩
  · obtain ⟨err, he⟩ := hs.refused _ r hr hinc
    exact absurd he (hstage err)
  · exact hs.refused i x hx hinc

/-- A request that does something is in order. -/
theorem busy_accepted {stage : Stage} (hs : Idle srv s) (hr : s.requests[n]? = some r) (hst : r.stage = stage)
    (hbusy : ¬ Failing stage) : ¬ Rejected srv r := by
  intro hrej
  exact hbusy (hst ▸ hs.stages n r hr hrej)

theorem calling_busy {id : String} {op : Op} {k : Ans op → Do RpcError Reply} :
    ¬ Failing (.running id (.call op k)) := by
  intro h
  obtain ⟨_, hf⟩ := h
  cases hf

theorem step_failing (hs : Idle srv s) (h : Does host srv s e s') :
    ∀ (i : Nat) (x : Served), s'.requests[i]? = some x → Rejected srv x → Failing x.stage := by
  cases h with
  | @arrived ctx invocation =>
    intro i x hx hrej
    obtain ⟨stage, hreq⟩ := arrives_requests srv s ctx invocation
    rw [hreq] at hx
    rcases getElem?_snoc_cases hx with hx | ⟨rfl, rfl⟩
    · exact hs.stages i x hx hrej
    · obtain ⟨m, request, rfl, hbad⟩ := hrej
      obtain ⟨stage', hf, harr⟩ := @arrives_failing srv s ctx m request hbad
      rw [harr] at hreq
      rwa [← arrived_stage hreq]
  | @took n r p id body _ o _ hr hst _ _ =>
    apply goes_failing hs rfl
    intro hrej
    have hf := hs.stages n r hr hrej
    rw [hst] at hf
    exact hf (viewOf id o)
  | missed hr hst _ => exact goes_failing hs rfl fun _ => ⟨_, rfl⟩
  | @ended n r _ reply _ hr hst =>
    apply goes_failing hs rfl
    intro hrej
    have hf := hs.stages n r hr hrej
    rw [hst] at hf
    obtain ⟨err, hf⟩ := hf
    cases hf
    exact ⟨err, rfl⟩
  | operated hr hst _ => exact goes_failing hs rfl fun hrej => absurd hrej (busy_accepted hs hr hst calling_busy)
  | closed hr hst => exact goes_failing hs rfl fun hrej => absurd hrej (busy_accepted hs hr hst id)
  | answered hr hst _ _ => exact goes_failing hs rfl fun hrej => absurd hrej (busy_accepted hs hr hst id)
  | withdrew hr hst _ _ => exact goes_failing hs rfl fun hrej => absurd hrej (busy_accepted hs hr hst id)
  | moved _ _ _ | opened _ _ _ | ranLate _ _ | chore => exact hs.stages

theorem step_refused (hs : Idle srv s) (h : Does host srv s e s') :
    ∀ (i : Nat) (x : Served), s'.requests[i]? = some x → Incompatible x → ∃ err, x.stage = .finished (.error err) := by
  cases h with
  | @arrived ctx invocation =>
    intro i x hx hinc
    obtain ⟨stage, hreq⟩ := arrives_requests srv s ctx invocation
    rw [hreq] at hx
    rcases getElem?_snoc_cases hx with hx | ⟨rfl, rfl⟩
    · exact hs.refused i x hx hinc
    · obtain ⟨m, request, rfl, hbad⟩ := hinc
      obtain ⟨err, harr⟩ := @arrives_refused srv s ctx m request hbad
      rw [harr] at hreq
      exact ⟨err, (arrived_stage hreq).symm⟩
  | took hr hst _ _ => exact goes_refused hs hr (by simp [hst]) rfl
  | missed hr hst _ => exact goes_refused hs hr (by simp [hst]) rfl
  | operated hr hst _ => exact goes_refused hs hr (by simp [hst]) rfl
  | ended hr hst => exact goes_refused hs hr (by simp [hst]) rfl
  | closed hr hst => exact goes_refused hs hr (by simp [hst]) rfl
  | answered hr hst _ _ => exact goes_refused hs hr (by simp [hst]) rfl
  | withdrew hr hst _ _ => exact goes_refused hs hr (by simp [hst]) rfl
  | moved _ _ _ | opened _ _ _ | ranLate _ _ | chore => exact hs.refused

theorem step_idleLate (hi : Inv srv s) (hs : Idle srv s) (h : Does host srv s e s') :
    ∀ l ∈ s'.late, ∀ x, s'.requests[l.request]? = some x → ¬ Rejected srv x := by
  have hold : ∀ l ∈ s.late, ∀ x, s'.requests[l.request]? = some x → ¬ Rejected srv x := by
    intro l hl x hx hrej
    obtain ⟨r, hr⟩ := serves_request (hi.late l hl)
    exact hs.late l hl r hr (rejected_before h hr hx hrej)
  have hall := h
  cases h with
  | arrived =>
    rw [(arrives_objects srv s _ _).2.2.1]
    exact hold
  | operated hr hst _ =>
    intro l hl x hx hrej
    rcases List.mem_append.mp hl with hl | hl
    · exact hold l hl x hx hrej
    · rw [(leftOver_mem hl).1] at hx
      exact busy_accepted hs hr hst calling_busy (rejected_before hall hr hx hrej)
  | ranLate _ _ =>
    intro l hl
    exact hold l (List.mem_of_mem_eraseIdx hl)
  | took _ _ _ _ | missed _ _ _ | ended _ _ | closed _ _ | answered _ _ _ _ | withdrew _ _ _ _ | moved _ _ _
  | opened _ _ _ | chore => exact hold

theorem step_idleMade (hi : Inv srv s) (hs : Idle srv s) (h : Does host srv s e s') :
    ∀ d ∈ s'.made, ∀ i x, d.request = some i → s'.requests[i]? = some x → Rejected srv x →
      ∃ statements, d.deed = .cleanup statements := by
  have hold : ∀ d ∈ s.made, ∀ i x, d.request = some i → s'.requests[i]? = some x → Rejected srv x →
      ∃ statements, d.deed = .cleanup statements := by
    intro d hd i x hn hx hrej
    rcases hi.made d hd with ⟨j, hj, hserves⟩ | ⟨-, hc⟩
    · rw [hn] at hj
      cases hj
      obtain ⟨r, hr⟩ := serves_request hserves
      exact hs.made d hd i r hn hr (rejected_before h hr hx hrej)
    · exact hc
  have hmoves : ∀ {request : Option Nat} {front : Admission.St Unit}, ∀ d ∈ (s.moves request front).made, ∀ i x,
      d.request = some i → s'.requests[i]? = some x → Rejected srv x → ∃ statements, d.deed = .cleanup statements := by
    intro request front d hd
    rcases moves_made hd with hd | ⟨-, -, -, hc⟩
    · exact hold d hd
    · exact fun _ _ _ _ _ => hc
  have hall := h
  cases h with
  | arrived =>
    rw [(arrives_objects srv s _ _).2.1]
    exact hold
  | operated hr hst _ =>
    intro d hd i x hn hx hrej
    rcases performed_made hd with hd | ⟨hd, -⟩
    · exact hold d hd i x hn hx hrej
    · rw [hn] at hd
      cases hd
      exact absurd (rejected_before hall hr hx hrej) (busy_accepted hs hr hst calling_busy)
  | ranLate hl _ =>
    intro d hd i x hn hx hrej
    rcases performed_made hd with hd | ⟨hd, -⟩
    · exact hold d hd i x hn hx hrej
    · rw [hn] at hd
      cases hd
      exact absurd hrej (hs.late _ (List.mem_of_getElem? hl) x hx)
  | answered _ _ _ _ => exact hold
  | took _ _ _ _ | missed _ _ _ | ended _ _ | closed _ _ | withdrew _ _ _ _ | moved _ _ _ | chore => exact hmoves
  | opened _ _ _ =>
    intro d hd
    rcases List.mem_append.mp hd with hd | hd
    · exact hmoves d hd
    · split at hd
      · cases hd
      · obtain rfl := List.mem_singleton.mp hd
        exact fun _ _ _ _ _ => ⟨_, rfl⟩

theorem step_idle (hi : Inv srv s) (hs : Idle srv s) (e : Ev) : Idle srv (step host srv s e) := by
  rcases @step_does host srv s e with heq | h
  · rw [heq]
    exact hs
  · exact ⟨step_failing hs h, step_refused hs h, step_idleLate hi hs h, step_idleMade hi hs h⟩

theorem reach_idle (h : (machine host srv).Reach s) : Idle srv s := by
  refine h.invariant_under (fun _ => reach_inv) ?_ ?_
  · intro s0 h0
    have h0 : s0 = init := h0
    subst h0
    constructor
    case stages =>
      intro n r hr
      cases hr
    case refused =>
      intro n r hr
      cases hr
    case late =>
      intro l hl
      cases hl
    case made =>
      intro d hd
      cases hd
  · intro s0 e _ hi _ hs
    exact step_idle hi hs e

end Course

/-! ## Its steps -/

section

variable (srv : Service) (ctx : CallContext) (a a' : Admission.St Unit) (id : String)

/-- The lookup of the caller's own session refreshed its lease. -/
def Refreshed : Prop :=
  ∃ session, a.registry.sessions.lookup id = some session ∧ principal srv ctx = .ok session.principal ∧
    a'.registry.sessions.lookup id = some { session with lastUsed := a.now }

/-- The lookup of the caller's own session found it idle and past its lease, and dropped it. -/
structure Expires : Prop where
  expired : ∃ session, a.registry.sessions.lookup id = some session ∧ principal srv ctx = .ok session.principal ∧
    srv.config.ttl < a.now - session.lastUsed
  idle : id ∉ a.references
  removed : a'.registry.sessions.lookup id = none

/-- Nobody holds the session any more: it expired so, or it was no longer registered. -/
def Dropped : Prop :=
  alive a' id = false ∧ (Expires srv ctx a a' id ∨ a.registry.sessions.lookup id = none)

end

/-- No session is opened or closed, none that is still held changes but for a lease, and
    nothing is called. -/
structure Spared (srv : Service) (ctx : CallContext) (s s' : St) : Prop where
  sessions : ∀ id, s'.front.registry.sessions.lookup id = s.front.registry.sessions.lookup id ∨
    Refreshed srv ctx s.front s'.front id ∨ Expires srv ctx s.front s'.front id
  objects : ∀ id, s'.objects id = s.objects id ∨ Dropped srv ctx s.front s'.front id
  made : ∃ more, s'.made = s.made ++ more ∧
    ∀ d ∈ more, Dropped srv ctx s.front s'.front d.session ∧ ∃ statements, d.deed = .cleanup statements
  late : s'.late = s.late
  opens : s'.front.opens = s.front.opens
  opening : s'.front.registry.openingTotal = s.front.registry.openingTotal ∧
    s'.front.registry.openingByPrincipal = s.front.registry.openingByPrincipal

/-- Only the list of requests changes, if anything. -/
structure Still (s s' : St) : Prop where
  front : s'.front = s.front
  objects : s'.objects = s.objects
  late : s'.late = s.late
  made : s'.made = s.made

section Steps

variable {host : Host} {srv : Service} {ctx : CallContext} {s s' : St} {e : Ev} {n : Nat} {r : Served}

theorem Still.spared (h : Still s s') : Spared srv ctx s s' where
  sessions _ := .inl (by rw [h.front])
  objects _ := .inl (by rw [h.objects])
  made := ⟨[], by rw [h.made, List.append_nil], by simp⟩
  late := h.late
  opens := by rw [h.front]
  opening := by simp [h.front]

theorem Spared.goes (h : Spared srv ctx s s') (r : Served) (stage : Stage) : Spared srv ctx s (s'.goes n r stage) :=
  ⟨h.sessions, h.objects, h.made, h.late, h.opens, h.opening⟩

/-- What a registry move drops, it drops because of what it does to the registered sessions. -/
theorem moves_spared {request : Option Nat} {front : Admission.St Unit}
    (hsessions : ∀ id, front.registry.sessions.lookup id = s.front.registry.sessions.lookup id ∨
      Refreshed srv ctx s.front front id ∨ Expires srv ctx s.front front id)
    (hopens : front.opens = s.front.opens)
    (hopening : front.registry.openingTotal = s.front.registry.openingTotal ∧
      front.registry.openingByPrincipal = s.front.registry.openingByPrincipal) :
    Spared srv ctx s (s.moves request front) := by
  have hdropped : ∀ id ∈ gone s.front front, Dropped srv ctx s.front front id := by
    intro id hid
    have hnot := (mem_gone.mp hid).2
    refine ⟨hnot, ?_⟩
    simp only [alive, Bool.or_eq_false_iff, Option.isSome_eq_false_iff, Option.isNone_iff_eq_none] at hnot
    rcases hsessions id with heq | ⟨session, -, -, hl⟩ | hexp
    · exact .inr (heq ▸ hnot.1)
    · rw [hnot.1] at hl
      cases hl
    · exact .inl hexp
  refine ⟨hsessions, ?_, ?_, rfl, hopens, hopening⟩
  · intro id
    by_cases hid : id ∈ gone s.front front
    · exact .inr (hdropped id hid)
    · left
      simp only [St.moves, if_neg hid]
      exact Option.map_id'
  · refine ⟨_, rfl, ?_⟩
    intro d hd
    obtain ⟨id, hid, hd⟩ := List.mem_filterMap.mp hd
    obtain ⟨o, -, rfl⟩ := Option.map_eq_some_iff.mp hd
    exact ⟨hdropped id hid, _, rfl⟩

theorem getLocked_opening {now ttl : Nat} {inFlight : String → Bool} (registry : SessionRegistry Unit) (id p : String) :
    (registry.getLocked now ttl inFlight id p).2.openingTotal = registry.openingTotal ∧
    (registry.getLocked now ttl inFlight id p).2.openingByPrincipal = registry.openingByPrincipal := by
  unfold SessionRegistry.getLocked
  split
  · exact ⟨rfl, rfl⟩
  split
  · exact ⟨rfl, rfl⟩
  split <;> exact ⟨rfl, rfl⟩

theorem get_opens (cfg : Config) (a : Admission.St Unit) (p id : String) :
    (Admission.step cfg a (.get p id)).opens = a.opens := by
  simp only [Admission.step]
  split <;> rfl

theorem get_spared {p id : String} (hp : principal srv ctx = .ok p) :
    Spared srv ctx s (s.moves (some n) (Admission.step srv.config s.front (.get p id))) := by
  refine moves_spared ?_ (get_opens _ _ _ _) (by rw [Lease.get_registry]; exact getLocked_opening _ _ _)
  intro id'
  by_cases hid : id' = id
  · subst hid
    cases hl : s.front.registry.sessions.lookup id' with
    | none =>
      left
      rw [Lease.get_registry, SessionRegistry.getLocked]
      simp only [hl]
    | some session =>
      by_cases howner : p = session.principal
      · subst howner
        by_cases hx : Lease.Expirable srv.config s.front id' session.lastUsed
        · refine .inr (.inr ⟨⟨session, hl, hp, hx.1⟩, hx.2, ?_⟩)
          rw [Lease.get_registry, Lease.get_expired hl hx]
          exact AList.lookup_erase _ _
        · refine .inr (.inl ⟨session, hl, hp, ?_⟩)
          rw [Lease.get_registry, Lease.get_owner hl hx]
          exact AList.lookup_insert _
      · left
        rw [Lease.get_registry, Lease.get_stranger hl howner]
        exact hl
  · left
    rw [Lease.get_registry]
    exact Lease.get_other hid p

theorem rejected_step (hi : Inv srv s) (hs : Idle srv s) (h : Does host srv s e s') (hn : e.request s = some n)
    (hr : s'.requests[n]? = some r) (hrej : Rejected srv r) : Spared srv r.ctx s s' := by
  have hall := h
  have hbusy : ∀ {r0 : Served} {stage : Stage}, s.requests[n]? = some r0 → r0.stage = stage → ¬ Failing stage →
      Spared srv r.ctx s s' := fun hr0 hst hno =>
    absurd (rejected_before hall hr0 hr hrej) (busy_accepted hs hr0 hst hno)
  cases h with
  | @arrived ctx invocation =>
    cases hn
    obtain ⟨stage, hreq⟩ := arrives_requests srv s ctx invocation
    rw [hreq, List.getElem?_concat_length] at hr
    cases hr
    obtain ⟨m, request, rfl, hbad⟩ := hrej
    obtain ⟨stage', -, harr⟩ := @arrives_failing srv s ctx m request hbad
    rw [harr]
    exact Still.spared ⟨rfl, rfl, rfl, rfl⟩
  | took hr0 hst _ _ =>
    cases hn
    rw [(served_before hall hr0 hr).1]
    exact (get_spared (taking_key hi hr0 hst)).goes _ _
  | missed hr0 hst _ =>
    cases hn
    rw [(served_before hall hr0 hr).1]
    exact (get_spared (taking_key hi hr0 hst)).goes _ _
  | @ended _ _ id _ _ _ _ =>
    cases hn
    -- the registry holds what it held, so what this drops was not registered
    have hmoves : Spared srv r.ctx s (s.moves (some n) (Admission.step srv.config s.front (.dropReference id))) :=
      moves_spared (fun _ => .inl rfl) rfl ⟨rfl, rfl⟩
    exact hmoves.goes _ _
  | operated hr0 hst _ =>
    cases hn
    exact hbusy hr0 hst calling_busy
  | closed hr0 hst =>
    cases hn
    exact hbusy hr0 hst id
  | answered hr0 hst _ _ =>
    cases hn
    exact hbusy hr0 hst id
  | withdrew hr0 hst _ _ =>
    cases hn
    exact hbusy hr0 hst id
  | moved hr0 hst _ =>
    cases hn
    exact hbusy hr0 hst id
  | opened hr0 hst _ =>
    cases hn
    exact hbusy hr0 hst id
  | ranLate hl _ =>
    simp only [Ev.request, hl, Option.map_some, Option.some.injEq] at hn
    subst hn
    exact absurd hrej (hs.late _ (List.mem_of_getElem? hl) r hr)
  | chore => cases hn

theorem Incompatible.rejected (h : Incompatible r) : Rejected srv r := by
  obtain ⟨m, request, hm, hbad⟩ := h
  exact ⟨m, request, hm, fun ha => hbad ha.version⟩

/-- One of the wrong version has no step but its arrival. -/
theorem incompatible_step (hs : Idle srv s) (h : Does host srv s e s') (hn : e.request s = some n)
    (hr : s'.requests[n]? = some r) (hinc : Incompatible r) : Still s s' := by
  have hall := h
  have hover : ∀ {r0 : Served}, s.requests[n]? = some r0 → ∃ err, r0.stage = .finished (.error err) := by
    intro r0 hr0
    obtain ⟨m, request, hm, hbad⟩ := hinc
    exact hs.refused n r0 hr0 ⟨m, request, (served_before hall hr0 hr).2 ▸ hm, hbad⟩
  have hnone : ∀ {r0 : Served} {stage : Stage}, s.requests[n]? = some r0 → r0.stage = stage →
      (∀ err, stage ≠ .finished (.error err)) → Still s s' := by
    intro r0 stage hr0 hst hne
    obtain ⟨err, he⟩ := hover hr0
    exact absurd (hst.symm.trans he) (hne err)
  cases h with
  | @arrived ctx invocation =>
    cases hn
    obtain ⟨stage, hreq⟩ := arrives_requests srv s ctx invocation
    rw [hreq, List.getElem?_concat_length] at hr
    cases hr
    obtain ⟨m, request, rfl, hbad⟩ := hinc
    obtain ⟨err, harr⟩ := @arrives_refused srv s ctx m request hbad
    rw [harr]
    exact ⟨rfl, rfl, rfl, rfl⟩
  | took hr0 hst _ _ =>
    cases hn
    exact hnone hr0 hst (by simp)
  | missed hr0 hst _ =>
    cases hn
    exact hnone hr0 hst (by simp)
  | operated hr0 hst _ =>
    cases hn
    exact hnone hr0 hst (by simp)
  | ended hr0 hst =>
    cases hn
    exact hnone hr0 hst (by simp)
  | closed hr0 hst =>
    cases hn
    exact hnone hr0 hst (by simp)
  | answered hr0 hst _ _ =>
    cases hn
    exact hnone hr0 hst (by simp)
  | withdrew hr0 hst _ _ =>
    cases hn
    exact hnone hr0 hst (by simp)
  | moved hr0 hst _ =>
    cases hn
    exact hnone hr0 hst (by simp)
  | opened hr0 hst _ =>
    cases hn
    exact hnone hr0 hst (by simp)
  | ranLate hl _ =>
    simp only [Ev.request, hl, Option.map_some, Option.some.injEq] at hn
    subst hn
    exact absurd hinc.rejected (hs.late _ (List.mem_of_getElem? hl) r hr)
  | chore => cases hn

/-! ## Its end -/

theorem left_le (stage : Stage) : left stage ≤ 2 := by cases stage <;> simp [left]

/-- A step of its own brings a request that is not in order nearer its end. -/
theorem own_step (hi : Inv srv s) (hs : Idle srv s) (hr : s.requests[n]? = some r) (hrej : Rejected srv r) (m : Moment) :
    ∃ stage, (step host srv s (.proceed n m)).requests[n]? = some { r with stage := stage } ∧
      left stage ≤ left r.stage - 1 := by
  have hf := hs.stages n r hr hrej
  cases hst : r.stage with
  | taking p id body =>
    cases hget : (s.front.registry.getLocked s.front.now srv.config.ttl (Admission.inFlight s.front) id p).1 with
    | error err =>
      refine ⟨.finished (.error (.adbc err)), ?_, by simp [left]⟩
      simp only [step, next, hr, Option.bind_eq_bind, Option.bind_some, proceeds, hst, hget, Option.getD_some]
      exact getElem?_set_of_some hr
    | ok session =>
      obtain ⟨_, -, ho⟩ := got_serves hi hr hst hget
      obtain ⟨o, ho, -⟩ := Option.map_eq_some_iff.mp ho
      refine ⟨.running id (body (viewOf id o)), ?_, by simp [left]⟩
      simp only [step, next, hr, Option.bind_eq_bind, Option.bind_some, proceeds, hst, hget, ho, Option.getD_some]
      exact getElem?_set_of_some hr
  | running id prog =>
    rw [hst] at hf
    obtain ⟨err, rfl⟩ := hf
    refine ⟨.finished (.error err), ?_, by simp [left]⟩
    simp only [step, next, hr, Option.bind_eq_bind, Option.bind_some, proceeds, hst, Option.getD_some]
    exact getElem?_set_of_some hr
  | finished reply =>
    refine ⟨.finished reply, ?_, by simp [left]⟩
    simp only [step, next, hr, Option.bind_eq_bind, Option.bind_some, proceeds, hst, Option.getD_none]
    rw [← hst]
  | closing _ _ | opening _ _ _ =>
    rw [hst] at hf
    cases hf

theorem other_step (h : Does host srv s e s') (hr : s.requests[n]? = some r) (he : isProceed n e = false) :
    s'.requests[n]? = some r := by
  have hset : ∀ {i : Nat} {x : Served}, (i == n) = false → (s.requests.set i x)[n]? = some r := by
    intro i x hi
    rw [List.getElem?_set_ne (by simpa using hi)]
    exact hr
  cases h with
  | arrived =>
    obtain ⟨stage, hreq⟩ := arrives_requests srv s _ _
    rw [hreq]
    exact getElem?_snoc_of_some hr
  | took _ _ _ _ | missed _ _ _ | operated _ _ _ | ended _ _ | closed _ _ | answered _ _ _ _ | withdrew _ _ _ _ =>
    exact hset he
  | moved _ _ _ | opened _ _ _ | ranLate _ _ | chore => exact hr

/-- It ends with an error, whatever the others do in between. -/
theorem run_ends (hi : Inv srv s) (hs : Idle srv s) (hr : s.requests[n]? = some r) (hrej : Rejected srv r)
    {es : List Ev} (hes : left r.stage ≤ es.countP (isProceed n)) :
    ∃ err, ((machine host srv).run s es).requests[n]? = some { r with stage := .finished (.error err) } := by
  induction es generalizing s r with
  | nil =>
    have hf := hs.stages n r hr hrej
    cases hst : r.stage with
    | finished reply =>
      rw [hst] at hf
      obtain ⟨err, rfl⟩ := hf
      refine ⟨err, ?_⟩
      rw [← hst]
      exact hr
    | closing _ _ | opening _ _ _ =>
      rw [hst] at hf
      cases hf
    | taking _ _ _ | running _ _ => simp [hst, left] at hes
  | cons e es ih =>
    have hi' : Inv srv (step host srv s e) := inv_later hi e
    have hs' : Idle srv (step host srv s e) := step_idle hi hs e
    rw [List.countP_cons] at hes
    cases he : isProceed n e with
    | true =>
      cases e with
      | proceed i m =>
        obtain rfl : i = n := by simpa [isProceed] using he
        obtain ⟨stage, hr', hleft⟩ := @own_step host srv s i r hi hs hr hrej m
        rw [if_pos he] at hes
        exact ih (r := { r with stage := stage }) hi' hs' hr' hrej (by simp only; omega)
      | _ => cases he
    | false =>
      rw [if_neg (by simp [he])] at hes
      have hr' : (step host srv s e).requests[n]? = some r := by
        rcases @step_does host srv s e with heq | h
        · rw [heq]
          exact hr
        · exact other_step h hr he
      exact ih hi' hs' hr' hrej hes

end Steps

/-! ## Validation before effects -/

/-- A request its method does not accept does nothing on a backend, at once or late, leaves
    every session and upload of others alone, and ends with an error; one of an incompatible
    protocol version does nothing at all. -/
theorem validation_before_effects (host : Host) (srv : Service) (s : St) (h : (machine host srv).Reach s) :
    -- what a request that its method does not accept has done
    (∀ (n : Nat) (r : Served), s.requests[n]? = some r → Rejected srv r →
      (∀ d ∈ s.made, d.request = some n → ∃ statements, d.deed = .cleanup statements) ∧
      (∀ l ∈ s.late, l.request ≠ n) ∧
      -- it ends with an error
      (∀ reply, r.stage = .finished reply → ∃ err, reply = .error err) ∧
      (∀ es, 2 ≤ es.countP (isProceed n) →
        ∃ err, ((machine host srv).run s es).requests[n]? = some { r with stage := .finished (.error err) })) ∧
    (∀ (n : Nat) (r : Served), s.requests[n]? = some r → Incompatible r → ∃ err, r.stage = .finished (.error err)) ∧
    -- what a step of it does
    (∀ e n r, e.request s = some n → (step host srv s e).requests[n]? = some r → Rejected srv r →
      Spared srv r.ctx s (step host srv s e)) ∧
    (∀ e n r, e.request s = some n → (step host srv s e).requests[n]? = some r → Incompatible r →
      Still s (step host srv s e)) := by
  have hi := reach_inv h
  have hs := reach_idle h
  refine ⟨?_, hs.refused, ?_, ?_⟩
  · intro n r hr hrej
    refine ⟨fun d hd hn => hs.made d hd n r hn hr hrej, ?_, ?_, ?_⟩
    · intro l hl heq'
      subst heq'
      exact hs.late l hl r hr hrej
    · intro reply hst
      have hf := hs.stages n r hr hrej
      rwa [hst] at hf
    · intro es hes
      exact run_ends hi hs hr hrej (Nat.le_trans (left_le r.stage) hes)
  · intro e n r hn hr hrej
    rcases @step_does host srv s e with heq | hd
    · exact Still.spared ⟨by rw [heq], by rw [heq], by rw [heq], by rw [heq]⟩
    · exact rejected_step hi hs hd hn hr hrej
  · intro e n r hn hr hinc
    rcases @step_does host srv s e with heq | hd
    · exact ⟨by rw [heq], by rw [heq], by rw [heq], by rw [heq]⟩
    · exact incompatible_step hs hd hn hr hinc

/-- Alice has a session, and asks to execute without naming a statement. -/
def aliceExecutes : St := (machine Solo.smallHost openService).run init
  (.arrive alice (.request .openConnection openRequest) :: opens 0 ++
    [.arrive alice (.request .execute (flatRequest [("session_id", "c")]))])

theorem validation_before_effects_alice :
    Spared openService alice aliceExecutes (step Solo.smallHost openService aliceExecutes (.proceed 1 soon)) ∧
    ∃ err, ((machine Solo.smallHost openService).run aliceExecutes [.proceed 1 soon, .proceed 1 soon]).requests[1]? =
      some ⟨alice, .request .execute (flatRequest [("session_id", "c")]), .finished (.error err)⟩ := by
  have hbad : ¬ Accepted openService alice (Method.arguments .execute) (flatRequest [("session_id", "c")]) := by
    intro h
    obtain ⟨value, ⟨-, hc⟩, -⟩ := h.arguments (.handle "statement_id") (by simp [Method.arguments])
    cases hc
  obtain ⟨r, hr, hctx, hinv⟩ : ∃ r, aliceExecutes.requests[1]? = some r ∧ r.ctx = alice ∧
      r.invocation = .request .execute (flatRequest [("session_id", "c")]) := ⟨_, rfl, rfl, rfl⟩
  obtain ⟨h1, -, h3, -⟩ := validation_before_effects Solo.smallHost openService aliceExecutes (.run rfl _)
  refine ⟨?_, ?_⟩
  · exact h3 (.proceed 1 soon) 1 _ rfl rfl ⟨_, _, rfl, hbad⟩
  · obtain ⟨err, he⟩ := (h1 1 r hr ⟨_, _, hinv, hctx ▸ hbad⟩).2.2.2 [.proceed 1 soon, .proceed 1 soon] (by decide)
    exact ⟨err, by rw [he, hctx, hinv]⟩

end Grainlift.Server
