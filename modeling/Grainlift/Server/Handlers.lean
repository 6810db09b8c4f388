/-
  Grainlift.Server.Handlers — the shapes of the programs that run on a session.

  However many methods there are, a handler does one of a few things with the registries:
  nothing (`plain`), make a statement, make a result of a reader, run an execute, close
  something, or take its turn in a bind exchange. `shape` reads this off the handlers once;
  a fact about every handler on a session is then one about each shape.
-/

import Grainlift.Server.Service

namespace Grainlift.Server

open Grainlift.Lib Grainlift.Protocol

/-- The program an invocation runs on the session `v`, if it is for that session. -/
def programOn (srv : Service) (v : SessionView) (ctx : CallContext) (invocation : Invocation) :
    Option (Do RpcError Reply) :=
  match route srv ctx invocation with
  | .onSession p sessionId body => if p = v.principal ∧ sessionId = v.sessionId then some (body v) else none
  | _ => none

/-- SET_CONNECTION_OPTION, the one method that sets options of a connection. -/
def Invocation.sets : Invocation → Prop
  | .request .setConnectionOption _ => True
  | _ => False

/-- Operations that leave the registries as they are and execute nothing; options of the
    connection are set only where `sets` holds. -/
def Plain (sets : Prop) : Op → Prop
  | .job (.connection (.setOption _ _)) => sets
  | .job (.connection _) | .job (.resultSchema _) | .job (.nextResult _ _) => True
  | .job (.statement _ .execute) | .job (.statement _ (.bind _)) | .job (.statement _ (.bindStream _)) => False
  | .job (.statement _ _) => True
  | .hold (.checkStatement _) | .hold .cancelConnection | .hold (.cancelStatement _) => True
  | _ => False

/-- The operations of a bind exchange's turns. -/
def Binding : Op → Prop
  | .hold (.pushUpload _ _) | .hold (.takeUpload _) | .hold (.finishUpload _) => True
  | .job (.statement _ (.bind _)) | .job (.statement _ (.bindStream _)) => True
  | _ => False

/-- EXECUTE once it read its statement id. -/
def executeOn (srv : Service) (ctx : CallContext) (sid : String) : Do RpcError Reply := do
  (invalidateStatementResults sid).mapErr .adbc
  let reader ← (withStatement sid .execute).mapErr .adbc
  let inserted ← (insertStatementResult sid reader).mapErr .adbc
  resultResponse srv inserted.1 inserted.2 (responseLimit ctx)

/-- The other executes: no reader comes of them. -/
def executeOther (sid : String) (op : StatementOp) (respond : op.Ret → Except RpcError Reply) : Do RpcError Reply := do
  (invalidateStatementResults sid).mapErr .adbc
  let x ← (withStatement sid op).mapErr .adbc
  respond x

/-- The init request of a bind exchange once it was read. -/
def bindOn (srv : Service) (v : SessionView) (sid : String) (mode : BindMode) (schema : Schema) :
    Do RpcError Reply := do
  let uploadId ← (startBindUpload sid mode schema srv.maxBindBytes).mapErr .adbc
  return .exchange ⟨v.sessionId, uploadId, srv.maxBindBytes⟩

/-- A turn of a bind exchange, or its cancellation. -/
inductive BindTurn where
  | exchange (cursor : BindCursor) (input : RecordBatch)
  | cancel (cursor : BindCursor)

def Invocation.bindTurn : Invocation → Option BindTurn
  | .exchange cursor input => some (.exchange cursor input)
  | .exchangeCancel cursor => some (.cancel cursor)
  | _ => none

inductive Shape (srv : Service) (ctx : CallContext) (sets : Prop) : Option BindTurn → Do RpcError Reply → Prop
  | plain {p : Do RpcError Reply} : Prog.Uses (Plain sets) p → Shape srv ctx sets none p
  | newStatement (v : SessionView) : Shape srv ctx sets none (newStatementHandler srv ctx v)
  | insert {x : Do AdbcError Reader} : Prog.Uses (Plain sets) x → Shape srv ctx sets none (thenInsert srv ctx x)
  | execute (sid : String) : Shape srv ctx sets none (executeOn srv ctx sid)
  | executeOther (sid : String) (op : StatementOp) (respond : op.Ret → Except RpcError Reply) :
      Plain sets (.job (.statement sid op)) → Shape srv ctx sets none (executeOther sid op respond)
  | closeStatement (sid : String) : Shape srv ctx sets none (thenOk srv (closeStatement sid))
  | closeResult (id : String) : Shape srv ctx sets none (thenOk srv (closeResult id))
  | bind (v : SessionView) (sid : String) (mode : BindMode) (schema : Schema) :
      Shape srv ctx sets none (bindOn srv v sid mode schema)
  | exchange (cursor : BindCursor) (input : RecordBatch) :
      Shape srv ctx sets (some (.exchange cursor input)) (exchangeTurn srv ctx cursor input)
  | exchangeCancel (cursor : BindCursor) : Shape srv ctx sets (some (.cancel cursor)) (exchangeCancelTurn cursor)
  | produceCancel (cursor : ResultCursor) : Shape srv ctx sets none (produceCancelTurn cursor)

/-! ## Reading the shapes off -/

section

variable {srv : Service} {ctx : CallContext} {v : SessionView} {request : Request} {sets : Prop}

theorem call_plain {j : Job} (h : Plain sets (.job j)) : Prog.Uses (Plain sets) (call j) := ⟨h, fun _ => trivial⟩

theorem hold_plain {h : Hold} (hp : Plain sets (.hold h)) : Prog.Uses (Plain sets) (hold h) := ⟨hp, fun _ => trivial⟩

theorem lift_plain {ε α : Type} (r : Except ε α) : Prog.Uses (Plain sets) (liftM r : Do ε α) := trivial

theorem thenOk_plain {x : Do AdbcError Unit} (hx : Prog.Uses (Plain sets) x) : Prog.Uses (Plain sets) (thenOk srv x) :=
  Act.uses_bind (Act.uses_mapErr _ hx) fun _ => trivial

/-- An argument the handler reads first: unread, it stops there. -/
theorem shape_read {α : Type} {r : Except RpcError α} {f : α → Do RpcError Reply} (h : ∀ a, Shape srv ctx sets none (f a)) :
    Shape srv ctx sets none (liftM r >>= f) := by
  cases r with
  | ok a => exact h a
  | error e => exact .plain trivial

theorem thenConnection_plain {op : ConnectionOp} {f : op.Ret → Do RpcError Reply}
    (hop : Plain sets (.job (.connection op))) (hf : ∀ x, Prog.Uses (Plain sets) (f x)) :
    Prog.Uses (Plain sets) ((withConnection op).mapErr .adbc >>= f : Do RpcError Reply) :=
  Act.uses_bind (Act.uses_mapErr _ (call_plain hop)) hf

theorem thenStatement_plain {sid : String} {op : StatementOp} {f : op.Ret → Do RpcError Reply}
    (hop : Plain sets (.job (.statement sid op))) (hf : ∀ x, Prog.Uses (Plain sets) (f x)) :
    Prog.Uses (Plain sets) ((withStatement sid op).mapErr .adbc >>= f : Do RpcError Reply) :=
  Act.uses_bind (Act.uses_mapErr _ (call_plain hop)) hf

theorem setConnectionOption_plain (hsets : sets) (unicode : Unicode) (policy : ClientOptionPolicy) (key : String)
    (value : OptionValue) : Prog.Uses (Plain sets) (setConnectionOption unicode policy key value) := by
  unfold setConnectionOption
  split
  · exact call_plain hsets
  · trivial

theorem produceTurn_plain (cursor : ResultCursor) : Prog.Uses (Plain sets) (produceTurn ctx cursor) := by
  refine Act.uses_bind (Act.uses_mapErr _ (call_plain trivial)) ?_
  intro b
  cases b with
  | none => trivial
  | some batch => exact Act.uses_bind (lift_plain _) fun _ => trivial

variable {p sessionId : String} {body : SessionView → Do RpcError Reply}

theorem request_shape (method : Method) (h : routeRequest srv ctx request method = .onSession p sessionId body) :
    Shape srv ctx (Invocation.request method request).sets none (body v) := by
  cases method with
  | openConnection =>
    obtain ⟨_, -, h⟩ := bind_eq_ok (ofExcept_onSession h)
    obtain ⟨_, -, h⟩ := bind_eq_ok h
    obtain ⟨_, -, h⟩ := bind_eq_ok h
    obtain ⟨_, -, h⟩ := bind_eq_ok h
    cases h
  | closeConnection =>
    obtain ⟨_, -, h⟩ := bind_eq_ok (ofExcept_onSession h)
    obtain ⟨_, -, h⟩ := bind_eq_ok h
    obtain ⟨_, -, h⟩ := bind_eq_ok h
    cases h
  | commit =>
    obtain ⟨-, rfl⟩ := getSession_onSession h
    exact .plain (thenOk_plain (call_plain trivial))
  | rollback =>
    obtain ⟨-, rfl⟩ := getSession_onSession h
    exact .plain (thenOk_plain (call_plain trivial))
  | cancelConnection =>
    obtain ⟨-, rfl⟩ := getSession_onSession h
    exact .plain (thenOk_plain (hold_plain trivial))
  | newStatement =>
    obtain ⟨-, rfl⟩ := getSession_onSession h
    exact .newStatement v
  | setConnectionOption =>
    obtain ⟨args, -, -, rfl⟩ := typed_onSession h
    exact shape_read fun value => .plain (thenOk_plain (setConnectionOption_plain trivial _ _ _ _))
  | getConnectionOption =>
    obtain ⟨-, rfl⟩ := getSession_onSession h
    exact shape_read fun key => shape_read fun valueType => .plain (thenConnection_plain trivial fun _ => lift_plain _)
  | getInfo =>
    obtain ⟨args, -, -, rfl⟩ := typed_onSession h
    exact .insert (call_plain trivial)
  | getObjects =>
    obtain ⟨args, -, -, rfl⟩ := typed_onSession h
    exact shape_read fun depth => .insert (call_plain trivial)
  | getTableSchema =>
    obtain ⟨args, -, -, rfl⟩ := typed_onSession h
    exact .plain (thenConnection_plain trivial fun _ => lift_plain _)
  | getTableTypes =>
    obtain ⟨-, rfl⟩ := getSession_onSession h
    exact .insert (call_plain trivial)
  | getStatisticNames =>
    obtain ⟨-, rfl⟩ := getSession_onSession h
    exact .insert (call_plain trivial)
  | getStatistics =>
    obtain ⟨args, -, -, rfl⟩ := typed_onSession h
    exact .insert (call_plain trivial)
  | readPartition =>
    obtain ⟨-, rfl⟩ := getSession_onSession h
    exact shape_read fun token => shape_read fun partition => .insert (call_plain trivial)
  | setStatementOption =>
    obtain ⟨args, -, -, rfl⟩ := typed_onSession h
    exact shape_read fun value => .plain (thenOk_plain (call_plain trivial))
  | getStatementOption =>
    obtain ⟨-, rfl⟩ := getSession_onSession h
    exact shape_read fun sid => shape_read fun key => shape_read fun valueType =>
      .plain (thenStatement_plain trivial fun _ => lift_plain _)
  | setSqlQuery =>
    obtain ⟨-, rfl⟩ := getSession_onSession h
    exact shape_read fun sid => shape_read fun sql => .plain (thenOk_plain (call_plain trivial))
  | setSubstraitPlan =>
    obtain ⟨-, rfl⟩ := getSession_onSession h
    exact shape_read fun sid => shape_read fun plan => .plain (thenOk_plain (call_plain trivial))
  | prepare =>
    obtain ⟨-, rfl⟩ := getSession_onSession h
    exact shape_read fun sid => .plain (thenOk_plain (call_plain trivial))
  | cancelStatement =>
    obtain ⟨-, rfl⟩ := getSession_onSession h
    exact shape_read fun sid => .plain (thenOk_plain (hold_plain trivial))
  | execute =>
    obtain ⟨-, rfl⟩ := getSession_onSession h
    exact shape_read fun sid => .execute sid
  | executeUpdate =>
    obtain ⟨-, rfl⟩ := getSession_onSession h
    exact shape_read fun sid => .executeOther sid .executeUpdate _ trivial
  | executeSchema =>
    obtain ⟨-, rfl⟩ := getSession_onSession h
    exact shape_read fun sid => .executeOther sid .executeSchema _ trivial
  | getParameterSchema =>
    obtain ⟨-, rfl⟩ := getSession_onSession h
    exact shape_read fun sid => .plain (thenStatement_plain trivial fun _ => lift_plain _)
  | executePartitions =>
    obtain ⟨-, rfl⟩ := getSession_onSession h
    exact shape_read fun sid => .executeOther sid .executePartitions _ trivial
  | closeStatement =>
    obtain ⟨-, rfl⟩ := getSession_onSession h
    exact shape_read fun sid => .closeStatement sid
  | closeResult =>
    obtain ⟨-, rfl⟩ := getSession_onSession h
    exact shape_read fun id => .closeResult id
  | bind =>
    obtain ⟨-, rfl⟩ := getSession_onSession h
    exact shape_read fun sid => shape_read fun bytes => shape_read fun schema => .bind v sid .batch schema
  | bindStream =>
    obtain ⟨-, rfl⟩ := getSession_onSession h
    exact shape_read fun sid => shape_read fun bytes => shape_read fun schema => .bind v sid .stream schema
  | readResult =>
    obtain ⟨-, rfl⟩ := getSession_onSession h
    exact shape_read fun id => shape_read fun sequence =>
      .plain (Act.uses_bind (Act.uses_mapErr _ (call_plain trivial)) fun _ => trivial)

theorem route_shape {invocation : Invocation} (hroute : route srv ctx invocation = .onSession p sessionId body) :
    Shape srv ctx invocation.sets invocation.bindTurn (body v) := by
  cases invocation with
  | request method request => exact request_shape method hroute
  | exchange cursor input =>
    obtain ⟨-, -, rfl⟩ := sessionById_onSession (ofExcept_onSession hroute)
    exact .exchange cursor input
  | produce cursor =>
    obtain ⟨-, -, rfl⟩ := sessionById_onSession (ofExcept_onSession hroute)
    exact .plain (produceTurn_plain cursor)
  | exchangeCancel cursor =>
    simp only [route] at hroute
    split at hroute
    · cases hroute
      exact .exchangeCancel cursor
    · cases hroute
  | produceCancel cursor =>
    simp only [route] at hroute
    split at hroute
    · cases hroute
      exact .produceCancel cursor
    · cases hroute

theorem shape {invocation : Invocation} {q : Do RpcError Reply} (h : programOn srv v ctx invocation = some q) :
    Shape srv ctx invocation.sets invocation.bindTurn q := by
  unfold programOn at h
  split at h
  case h_2 => cases h
  case h_1 p sessionId body hroute =>
  split at h
  case isFalse => cases h
  case isTrue =>
  cases h
  exact route_shape hroute

end

/-! ## The turns of a bind exchange -/

section

variable {srv : Service} {ctx : CallContext}

theorem hold_binding {h : Hold} (hb : Binding (.hold h)) : Prog.Uses Binding (hold h) := ⟨hb, fun _ => trivial⟩

theorem cancel_binding {ε : Type} (id : String) : Prog.Uses Binding (cancelBindUpload id : Do ε Unit) :=
  ⟨trivial, fun _ => trivial⟩

theorem acknowledge_binding (finished : Bool) : Prog.Uses Binding (acknowledge ctx finished) :=
  Act.uses_bind (x := (liftM (ctx.emit bindAck) : Do RpcError Unit)) trivial fun _ => trivial

theorem finishBindUpload_binding (id : String) : Prog.Uses Binding (finishBindUpload id) := by
  refine Act.uses_bind (hold_binding (h := .takeUpload id) trivial) ?_
  intro entry
  refine Act.uses_bind (hold_binding (h := .finishUpload entry.upload) trivial) ?_
  intro reader
  cases entry.mode with
  | batch =>
    exact Act.uses_bind (x := (liftM (exactlyOne reader) : Do AdbcError RecordBatch)) trivial
      fun batch => ⟨trivial, fun _ => trivial⟩
  | stream => exact ⟨trivial, fun _ => trivial⟩

theorem exchange_binding (cursor : BindCursor) (input : RecordBatch) :
    Prog.Uses Binding (exchangeTurn srv ctx cursor input) := by
  unfold exchangeTurn
  split
  · exact Act.uses_bind (cancel_binding _) fun _ => trivial
  · refine Act.uses_bind (Act.uses_recover (hold_binding trivial) ?_) fun _ => acknowledge_binding false
    intro e
    exact Act.uses_bind (cancel_binding _) fun _ => trivial
  · exact Act.uses_bind (Act.uses_mapErr _ (finishBindUpload_binding _)) fun _ => acknowledge_binding true

theorem exchangeCancel_binding (cursor : BindCursor) : Prog.Uses Binding (exchangeCancelTurn cursor) :=
  Act.uses_bind (cancel_binding _) fun _ => trivial

end

/-! ## Disciplines on a session -/

section

variable {Γ : Type} {D : Discipline Ans Γ} {g : Γ}

@[simp] theorem follows_job {j : Job} {post : Γ → Except AdbcError j.Ret → Prop} :
    D.Follows g (ρ := no_index (Except AdbcError j.Ret)) (call j) post ↔
    D.allows g (.job j) ∧ (∀ x, post (D.next g (.job j) (.ok x)) (.ok x)) ∧
    ∀ e, post (D.next g (.job j) (.error e)) (.error e) := by
  refine and_congr_right fun _ => ⟨fun h => ⟨fun x => h (.ok x), fun e => h (.error e)⟩, ?_⟩
  intro h a
  cases a with
  | ok x => exact h.1 x
  | error e => exact h.2 e

@[simp] theorem follows_hold {h : Hold} {post : Γ → Except AdbcError h.Ret → Prop} :
    D.Follows g (ρ := no_index (Except AdbcError h.Ret)) (hold h) post ↔
    D.allows g (.hold h) ∧ (∀ x, post (D.next g (.hold h) (.ok x)) (.ok x)) ∧
    ∀ e, post (D.next g (.hold h) (.error e)) (.error e) := by
  refine and_congr_right fun _ => ⟨fun h => ⟨fun x => h (.ok x), fun e => h (.error e)⟩, ?_⟩
  intro h a
  cases a with
  | ok x => exact h.1 x
  | error e => exact h.2 e

end

end Grainlift.Server
