/-
  Grainlift.Server.OptionPolicy — a session's options over its whole life
  (`SessionManager::open`, `Session::set_connection_option`, session.rs;
  `DriverManagerBackend::open`, backend.rs).

  The server is that of Grainlift.Server.Tenants: requests of any clients in any order, late
  jobs and all. Here the `backend.open` that an open spawns is the driver manager's, given the
  target the open was admitted for and the options its request carried; each is recorded with
  what it asks of the driver manager (`Opening`), also when the open no longer waits for it.

  Proved (`option_policy`): in every run the driver manager is given, at an open, what
  `Given` says of the request's options, or nothing if one of them is not permitted; every
  session has its target's policy and came of an open whose options were all permitted; and
  an option set later is one a request asked for, with its value, under a key the target
  permits.
-/

import Grainlift.Server.Confidential
import Grainlift.Server.Handlers

namespace Grainlift.Server.OptionPolicy

open Grainlift.Lib Grainlift.Protocol Function
open Backend (Hashing Manager ManagerCall openConnection databaseOptionPolicy Given AllPermitted Decodes inOrder)
open Tenants (policyOf viewOf Object Served Made Same Does)
open Confidential (openOf)

/-! ## What a request may set -/

/-- The option a backend call sets on the connection. -/
def setting : BackendCall → Option (String × OptionValue)
  | .connection (.setOption key value) _ => some (key, value)
  | _ => none

/-- The request asks for the option to be set to the value. -/
def Asked (srv : Service) (invocation : Invocation) (key : String) (value : OptionValue) : Prop :=
  ∃ (request : Protocol.Request) (args : SetConnectionOptionRequest),
    invocation = .request .setConnectionOption request ∧ typedRequest srv .setConnectionOption request = .ok args ∧
    args.key = key ∧ args.value.intoAdbc = .ok value

/-- What a request does on a session of that policy: it sets what it asked for, if that is
    permitted, and does nothing else; or it sets nothing. -/
def Allowed (srv : Service) (policy : ClientOptionPolicy) (invocation : Invocation) : Op → Prop
  | .job (.connection (.setOption key value)) => policy.permits key = true ∧ Asked srv invocation key value
  | _ => ¬ invocation.sets

/-- What its backend calls then are. -/
def CallAllowed (srv : Service) (policy : ClientOptionPolicy) (invocation : Invocation) (c : BackendCall) : Prop :=
  match setting c with
  | some (key, value) => policy.permits key = true ∧ Asked srv invocation key value
  | none => ¬ invocation.sets

/-- An operation that sets no option of the connection. -/
def SetsNone : Op → Prop
  | .job (.connection (.setOption _ _)) => False
  | _ => True

def setter : Discipline Ans Unit where
  allows _ := SetsNone
  next _ _ _ := ()

/-- The program sets no option of the connection. -/
abbrev Leaves (p : Do RpcError Reply) : Prop := setter.Follows () p fun _ _ => True

section Programs

variable {srv : Service} {ctx : CallContext} {sets : Prop} {op : Op} {p : Do RpcError Reply}

@[simp] theorem setter_allows (g : Unit) (op : Op) : setter.allows g op = SetsNone op := rfl

@[simp] theorem setter_next (g : Unit) (op : Op) (a : Ans op) : setter.next g op a = () := rfl

theorem leaves_uses (h : Leaves p) : Prog.Uses SetsNone p := by
  induction p with
  | done r => trivial
  | call op k ih => exact ⟨h.1, fun a => ih a (h.2 a)⟩

theorem setsNone_of_plain (hn : ¬ sets) (h : Plain sets op) : SetsNone op := by
  unfold SetsNone
  split
  · exact hn h
  · trivial

theorem setsNone_of_binding (h : Binding op) : SetsNone op := by
  unfold SetsNone
  split
  · exact h
  · trivial

theorem leaves_of_uses {A : Op → Prop} (hp : Prog.Uses A p) (hA : ∀ op, A op → SetsNone op) : Leaves p :=
  .of_uses hp (fun op h => ⟨hA op h, fun _ => rfl⟩) fun _ => trivial

theorem resultResponse_leaves (resultId : String) (schema : Schema) (limit : Nat) :
    Leaves (resultResponse srv resultId schema limit) := by
  unfold resultResponse
  split <;> simp [closeResult, SetsNone]

theorem handleResponse_leaves (value : Response) (limit : Nat) (id : String) :
    Leaves (handleResponse srv value limit (closeStatement id).ignore) := by
  unfold handleResponse
  split <;> simp [closeStatement, invalidateStatementResults, SetsNone]

/-- No handler but the one of SET_CONNECTION_OPTION sets an option of the connection. -/
theorem shape_leaves {t : Option BindTurn} (hn : ¬ sets) (h : Shape srv ctx sets t p) : Leaves p := by
  cases h with
  | plain hp => exact leaves_of_uses hp fun _ h => setsNone_of_plain hn h
  | newStatement v => simp [newStatementHandler, newStatement, handleResponse_leaves, SetsNone]
  | insert hx =>
    simp only [thenInsert, Discipline.follows_seq, Discipline.follows_mapErr]
    refine .of_uses hx (fun _ h => ⟨setsNone_of_plain hn h, fun _ => rfl⟩) ?_
    intro r
    cases r with
    | error e => trivial
    | ok reader => simp [insertReaderResponse, insertResult, insertOwnedResult, resultResponse_leaves, SetsNone]
  | execute sid =>
    simp [executeOn, invalidateStatementResults, withStatement, insertStatementResult, insertOwnedResult,
      resultResponse_leaves, SetsNone]
  | executeOther sid op respond hop =>
    simp [executeOther, invalidateStatementResults, withStatement, SetsNone]
  | closeStatement sid => simp [thenOk, closeStatement, invalidateStatementResults, SetsNone]
  | closeResult id => simp [thenOk, closeResult, SetsNone]
  | bind v sid mode schema => simp [bindOn, startBindUpload, SetsNone]
  | exchange cursor input => exact leaves_of_uses (exchange_binding cursor input) fun _ h => setsNone_of_binding h
  | exchangeCancel cursor => exact leaves_of_uses (exchangeCancel_binding cursor) fun _ h => setsNone_of_binding h
  | produceCancel cursor => simp [produceCancelTurn, closeResult, SetsNone]

/-- The handler of SET_CONNECTION_OPTION, its arguments read. -/
theorem route_sets {request : Protocol.Request} {q id : String} {body : SessionView → Do RpcError Reply}
    (h : route srv ctx (.request .setConnectionOption request) = .onSession q id body) :
    ∃ args : SetConnectionOptionRequest, typedRequest srv .setConnectionOption request = .ok args ∧
      body = setConnectionOptionHandler srv args := by
  obtain ⟨args, hargs, -, rfl⟩ := typed_onSession h
  exact ⟨args, hargs, rfl⟩

/-- A set that is asked for, on a session of that policy. -/
theorem handler_asked {key : String} {value : OptionValue} {request : Protocol.Request} {q id : String}
    {body : SessionView → Do RpcError Reply}
    (h : route srv ctx (.request .setConnectionOption request) = .onSession q id body)
    (ha : Asked srv (.request .setConnectionOption request) key value) (v : SessionView) :
    body v = thenOk srv (setConnectionOption srv.unicode v.connectionOptionPolicy key value) := by
  obtain ⟨args, hargs, rfl⟩ := route_sets h
  obtain ⟨request', args', hr, hargs', rfl, hvalue⟩ := ha
  cases hr
  rw [hargs] at hargs'
  cases hargs'
  unfold setConnectionOptionHandler
  rw [hvalue]
  rfl

theorem route_allowed {invocation : Invocation} {q id : String} {body : SessionView → Do RpcError Reply}
    (h : route srv ctx invocation = .onSession q id body) (v : SessionView) :
    Prog.Uses (Allowed srv v.connectionOptionPolicy invocation) (body v) := by
  by_cases hs : invocation.sets
  · obtain ⟨request, rfl⟩ : ∃ request, invocation = .request .setConnectionOption request := by
      unfold Invocation.sets at hs
      split at hs
      · exact ⟨_, rfl⟩
      · exact hs.elim
    obtain ⟨args, hargs, hbody⟩ := route_sets h
    cases hvalue : args.value.intoAdbc with
    | error e =>
      rw [hbody]
      unfold setConnectionOptionHandler
      rw [hvalue]
      trivial
    | ok value =>
      have hasked : Asked srv (.request .setConnectionOption request) args.key value := ⟨_, args, rfl, hargs, rfl, hvalue⟩
      rw [handler_asked h hasked v]
      refine Act.uses_bind (Act.uses_mapErr _ ?_) fun _ => trivial
      unfold setConnectionOption
      split
      · rename_i hp
        exact ⟨⟨hp, hasked⟩, fun _ => trivial⟩
      · trivial
  · refine (leaves_uses (shape_leaves hs (route_shape h))).mono ?_
    intro op hop
    unfold Allowed
    split
    · exact hop.elim
    · exact hs

end Programs

/-! ## What an operation does -/

/-- The calls that set an option are those of the operation. -/
def Stems (op : Op) (c : BackendCall) : Prop :=
  ∀ key value, setting c = some (key, value) ↔ op = .job (.connection (.setOption key value))

/-- The policy stays, and each new call stems from the operation. -/
structure Steps (op : Op) (s s' : Inner) : Prop where
  policy : s'.connectionOptionPolicy = s.connectionOptionPolicy
  calls : ∃ cs, s'.calls = s.calls ++ cs ∧ ∀ c ∈ cs, Stems op c

section Operations

variable {op : Op} {s : Inner}

theorem Steps.same {s' : Inner} (hp : s'.connectionOptionPolicy = s.connectionOptionPolicy) (hc : s'.calls = s.calls) :
    Steps op s s' :=
  ⟨hp, [], by rw [hc, List.append_nil], fun _ h => absurd h List.not_mem_nil⟩

theorem Steps.called {c : BackendCall} (hc : Stems op c) : Steps op s (s.called c) :=
  ⟨rfl, [c], rfl, fun _ h => List.mem_singleton.mp h ▸ hc⟩

theorem newStatement_steps (limits : SessionLimits) (w : World) (s : Inner) :
    Steps (.job .newStatement) s (newStatementJob limits w s).2 := by
  have hcall : Stems (.job .newStatement) (.newStatement w.driver.unit) := fun key value => by simp [setting]
  unfold newStatementJob
  split
  · exact .same rfl rfl
  · dsimp only
    split
    · exact .called hcall
    · exact ⟨rfl, [_], rfl, fun _ h => List.mem_singleton.mp h ▸ hcall⟩

theorem nextResult_steps (id : String) (sequence : Int64) (s : Inner) :
    Steps (.job (.nextResult id sequence)) s (nextResultJob id sequence s).2 := by
  unfold nextResultJob
  split
  · exact .same rfl rfl
  · dsimp only
    split
    · exact .same rfl rfl
    · exact ⟨rfl, [_], rfl, fun _ h => List.mem_singleton.mp h ▸ fun key value => by simp [setting]⟩

theorem job_steps (limits : SessionLimits) (w : World) (j : Job) (s : Inner) :
    Steps (.job j) s (j.perform limits w s).2 := by
  cases j with
  | connection op =>
    simp only [Job.perform]
    split
    · refine .called fun key value => ?_
      cases op <;> simp [setting]
    · exact .same rfl rfl
  | newStatement => exact newStatement_steps limits w s
  | statement id op =>
    simp only [Job.perform]
    split
    · split
      · exact .called fun key value => by simp [setting]
      · exact .same rfl rfl
    · exact .same rfl rfl
  | removeStatement id =>
    simp only [Job.perform]
    split <;> exact .same rfl rfl
  | invalidate statementId => exact .same rfl rfl
  | insertResult owner reader =>
    simp only [Job.perform, insertResultJob]
    split <;> exact .same rfl rfl
  | resultSchema id =>
    simp only [Job.perform]
    split <;> exact .same rfl rfl
  | nextResult id sequence => exact nextResult_steps id sequence s
  | closeResult id =>
    simp only [Job.perform]
    split <;> exact .same rfl rfl

theorem hold_steps (ipc : Ipc) (w : World) (h : Hold) (s : Inner) : Steps (.hold h) s (h.perform ipc w s).2 := by
  cases h with
  | cancelConnection => exact .called fun key value => by simp [setting]
  | cancelStatement id =>
    simp only [Hold.perform]
    split
    · exact .called fun key value => by simp [setting]
    · exact .same rfl rfl
  | pushUpload id batch =>
    simp only [Hold.perform, pushUploadHold]
    split <;> exact .same rfl rfl
  | takeUpload id =>
    simp only [Hold.perform]
    split <;> exact .same rfl rfl
  | _ => exact .same rfl rfl

theorem respond_steps (host : Host) (m : Moment) (op : Op) (s : Inner) : Steps op s (respond host m op s).2 := by
  cases op with
  | hold h => exact hold_steps host.ipc m.world h s
  | job j =>
    simp only [respond]
    cases m.fate with
    | answered | late => exact job_steps host.limits m.world j s
    | full | stopped | abandoned => exact .same rfl rfl

theorem allowed_call {srv : Service} {policy : ClientOptionPolicy} {invocation : Invocation} {c : BackendCall}
    (ha : Allowed srv policy invocation op) (hc : Stems op c) : CallAllowed srv policy invocation c := by
  unfold CallAllowed
  cases hs : setting c with
  | some e =>
    rw [(hc e.1 e.2).mp hs] at ha
    exact ha
  | none =>
    unfold Allowed at ha
    split at ha
    · rename_i key value
      rw [(hc key value).mpr rfl] at hs
      cases hs
    · exact ha

end Operations

/-! ## Sets in a run -/

/-- The request and the session are there, and `P` holds of the target's policy and of what
    the request asks. -/
def On (srv : Service) (s : Tenants.St) (n : Nat) (id : String) (P : ClientOptionPolicy → Invocation → Prop) : Prop :=
  ∃ (r : Served) (o : Object), s.requests[n]? = some r ∧ s.objects id = some o ∧ P (policyOf srv o.target) r.invocation

/-- The driver was given the option, for the request. -/
def SetMade (s : Tenants.St) (n : Nat) (id key : String) (value : OptionValue) : Prop :=
  ∃ d ∈ s.made, d.request = some n ∧ d.session = id ∧ ∃ c, d.deed = .call c ∧ setting c = some (key, value)

/-- What a worker call ends with that was refused or given up on. -/
def lost (host : Host) : List AdbcError := [queueFull, workerStopped, timedOut host]

/-- A set that was asked for is still to do, or done: then the driver was given it, or the
    worker call was lost. -/
def SetRuns (host : Host) (s : Tenants.St) (n : Nat) (id : String) (srv : Service) (policy : ClientOptionPolicy)
    (key : String) (value : OptionValue) (prog : Do RpcError Reply) : Prop :=
  prog = thenOk srv (setConnectionOption srv.unicode policy key value) ∨
  ∃ reply, prog = .done reply ∧ (SetMade s n id key value ∨ ∃ e ∈ lost host, reply = .error (.adbc e))

/-- What the stage of a request says of the options it sets. -/
def StageOk (host : Host) (srv : Service) (s : Tenants.St) (n : Nat) (r : Served) : Prop :=
  match r.stage with
  | .taking p id body => route srv r.ctx r.invocation = .onSession p id body
  | .running id prog => ∃ o, s.objects id = some o ∧ Prog.Uses (Allowed srv (policyOf srv o.target) r.invocation) prog ∧
      ∀ key value, Asked srv r.invocation key value → SetRuns host s n id srv (policyOf srv o.target) key value prog
  | .closing _ _ | .opening _ _ _ => ¬ r.invocation.sets
  | .finished (.ok _) => ∀ key value, Asked srv r.invocation key value → ∃ id, SetMade s n id key value
  | .finished (.error _) => True

structure Inv (host : Host) (srv : Service) (s : Tenants.St) : Prop where
  base : Tenants.Inv srv s
  policy : ∀ id o, s.objects id = some o → o.inner.connectionOptionPolicy = policyOf srv o.target
  stages : ∀ (n : Nat) (r : Served), s.requests[n]? = some r → StageOk host srv s n r
  late : ∀ l ∈ s.late, On srv s l.request l.session fun policy invocation => Allowed srv policy invocation (.job l.job)
  made : ∀ d ∈ s.made, ∀ c, d.deed = .call c →
    ∃ n, d.request = some n ∧ On srv s n d.session fun policy invocation => CallAllowed srv policy invocation c

section Sets

variable {host : Host} {srv : Service} {s s' : Tenants.St} {e : Tenants.Ev} {n : Nat} {id key : String}
  {value : OptionValue}

theorem asked_sets {invocation : Invocation} (h : Asked srv invocation key value) : invocation.sets := by
  obtain ⟨request, args, rfl, -⟩ := h
  trivial

/-- A set is refused, or goes to a session. -/
theorem sets_route {ctx : CallContext} {invocation : Invocation} (h : invocation.sets) :
    (∃ e, route srv ctx invocation = .fail e) ∨ ∃ p id body, route srv ctx invocation = .onSession p id body := by
  unfold Invocation.sets at h
  split at h
  · rename_i request
    have hroute : route srv ctx (.request .setConnectionOption request) =
        .ofExcept (typedRequest srv .setConnectionOption request >>= fun args : SetConnectionOptionRequest =>
          sessionById srv ctx args.sessionId (setConnectionOptionHandler srv args)) := rfl
    rw [hroute]
    cases typedRequest srv .setConnectionOption request with
    | error e => exact .inl ⟨e, rfl⟩
    | ok args =>
      simp only [sessionById, bind, Except.bind]
      cases principal srv ctx with
      | error e => exact .inl ⟨e, rfl⟩
      | ok p => exact .inr ⟨p, _, _, rfl⟩
  · exact h.elim

theorem made_later (h : Does host srv s e s') {d : Made} (hd : d ∈ s.made) : d ∈ s'.made := by
  cases h with
  | arrived =>
    rw [(Tenants.arrives_objects srv s _ _).2.1]
    exact hd
  | answered _ _ _ _ => exact hd
  | opened _ _ _ => exact List.mem_append_left _ (List.mem_append_left _ hd)
  | took _ _ _ _ | missed _ _ _ | operated _ _ _ | ended _ _ | closed _ _ | withdrew _ _ _ _ | moved _ _ _
  | ranLate _ _ | chore => exact List.mem_append_left _ hd

theorem SetMade.later (h : Does host srv s e s') (hm : SetMade s n id key value) : SetMade s' n id key value := by
  obtain ⟨d, hd, hm⟩ := hm
  exact ⟨d, made_later h hd, hm⟩

theorem On.later {P : ClientOptionPolicy → Invocation → Prop} (hi : Inv host srv s) (h : Does host srv s e s')
    (ho : On srv s n id P) : On srv s' n id P := by
  obtain ⟨r, o, hr, ho, hp⟩ := ho
  obtain ⟨r', hr', -, hinv⟩ := Tenants.request_later h hr
  obtain ⟨o', ho', hsame⟩ := Tenants.object_later hi.base.known h ho
  exact ⟨r', o', hr', ho', by rw [hsame.target, hinv]; exact hp⟩

theorem StageOk.later (hi : Inv host srv s) (h : Does host srv s e s') {r : Served} (hs : StageOk host srv s n r) :
    StageOk host srv s' n r := by
  unfold StageOk at hs ⊢
  split at hs
  · exact hs
  · obtain ⟨o, ho, huses, hruns⟩ := hs
    obtain ⟨o', ho', hsame⟩ := Tenants.object_later hi.base.known h ho
    refine ⟨o', ho', by rw [hsame.target]; exact huses, ?_⟩
    intro key value ha
    rw [hsame.target]
    rcases hruns key value ha with hprog | ⟨reply, hprog, hm | hlost⟩
    · exact .inl hprog
    · exact .inr ⟨reply, hprog, .inl (hm.later h)⟩
    · exact .inr ⟨reply, hprog, .inr hlost⟩
  · exact hs
  · exact hs
  · intro key value ha
    obtain ⟨id, hm⟩ := hs key value ha
    exact ⟨id, hm.later h⟩
  · trivial

/-- The calls an operation appends are its own. -/
theorem performed_calls {o : Object} {inner : Inner} {op : Op} (hs : Steps op o.inner inner) {d : Made}
    (hd : d ∈ (s.performed n id o inner).made) :
    d ∈ s.made ∨ d.request = some n ∧ d.session = id ∧ ∃ c, d.deed = .call c ∧ Stems op c := by
  obtain ⟨cs, hcs, hstems⟩ := hs.calls
  rcases List.mem_append.mp hd with hd | hd
  · exact .inl hd
  · rw [hcs, List.drop_left] at hd
    obtain ⟨c, hc, rfl⟩ := List.mem_map.mp hd
    exact .inr ⟨rfl, rfl, c, rfl, hstems c hc⟩

theorem performed_policy {o : Object} {inner : Inner} {op : Op} (hi : Inv host srv s) (hs : Steps op o.inner inner)
    (ho : s.objects id = some o) {id' : String} {o' : Object} (ho' : (s.performed n id o inner).objects id' = some o') :
    o'.inner.connectionOptionPolicy = policyOf srv o'.target := by
  by_cases hid : id' = id
  · subst hid
    have hobj : (s.performed n id' o inner).objects id' = some { o with inner := inner } := update_self _ _ _
    rw [hobj] at ho'
    cases ho'
    exact hs.policy.trans (hi.policy id' o ho)
  · exact hi.policy id' o' ((update_of_ne hid _ _).symm.trans ho')

theorem moves_policy (hi : Inv host srv s) (request : Option Nat) {front : Admission.St Unit} {o : Object}
    (ho : (s.moves request front).objects id = some o) : o.inner.connectionOptionPolicy = policyOf srv o.target := by
  obtain ⟨o1, ho1, rfl⟩ := Option.map_eq_some_iff.mp ho
  have hp := hi.policy id o1 ho1
  split
  · exact hp
  · exact hp

/-- A session keeps the policy of its target. -/
theorem step_policy (hi : Inv host srv s) (h : Does host srv s e s') (id : String) (o : Object)
    (ho : s'.objects id = some o) : o.inner.connectionOptionPolicy = policyOf srv o.target := by
  cases h with
  | arrived =>
    rw [(Tenants.arrives_objects srv s _ _).1] at ho
    exact hi.policy id o ho
  | answered _ _ _ _ => exact hi.policy id o ho
  | operated _ _ ho1 => exact performed_policy (n := 0) hi (respond_steps host _ _ _) ho1 ho
  | ranLate _ ho1 => exact performed_policy (n := 0) hi (job_steps host.limits _ _ _) ho1 ho
  | @opened n i r _ _ m id1 o1 hr hst hb =>
    by_cases hid : id = id1
    · subst hid
      have hobj : o1 = o := by simpa [Tenants.St.builds] using ho
      subst hobj
      obtain ⟨x, session, -, -, -, -, rfl⟩ := Tenants.built_some hb
      rfl
    · exact moves_policy hi _ ((update_of_ne hid _ _).symm.trans ho)
  | took _ _ _ _ | missed _ _ _ | ended _ _ | closed _ _ | withdrew _ _ _ _ | moved _ _ _ | chore =>
    exact moves_policy hi none ho

/-- A request that arrives is at the stage its route says. -/
theorem arrives_stageOk (s : Tenants.St) (ctx : CallContext) (invocation : Invocation) :
    ∃ stage, (Tenants.arrives srv s ctx invocation).requests = s.requests ++ [⟨ctx, invocation, stage⟩] ∧
      ∀ s' n, StageOk host srv s' n ⟨ctx, invocation, stage⟩ := by
  have hnot : (∀ e, route srv ctx invocation ≠ .fail e) →
      (∀ p id body, route srv ctx invocation ≠ .onSession p id body) → ¬ invocation.sets := by
    intro hfail hon hs
    rcases sets_route hs with ⟨e, he⟩ | ⟨p, id, body, hb⟩
    · exact hfail e he
    · exact hon p id body hb
  unfold Tenants.arrives
  cases hroute : route srv ctx invocation with
  | fail e => exact ⟨_, rfl, fun _ _ => trivial⟩
  | nothing =>
    refine ⟨_, rfl, fun _ _ => fun key value ha => ?_⟩
    exact absurd (asked_sets ha) (hnot (by simp [hroute]) (by simp [hroute]))
  | onSession p id body => exact ⟨_, rfl, fun _ _ => hroute⟩
  | closeSession p id => exact ⟨_, rfl, fun _ _ => hnot (by simp [hroute]) (by simp [hroute])⟩
  | openSession p target database connection => exact ⟨_, rfl, fun _ _ => hnot (by simp [hroute]) (by simp [hroute])⟩

theorem goes_stages (hi : Inv host srv s) (h : Does host srv s e s') {r : Served} {stage : Tenants.Stage}
    (hreq : s'.requests = s.requests.set n { r with stage := stage })
    (hn : StageOk host srv s' n { r with stage := stage }) :
    ∀ (i : Nat) (x : Served), s'.requests[i]? = some x → StageOk host srv s' i x := by
  intro i x hx
  rw [hreq] at hx
  rcases getElem?_set_cases hx with ⟨rfl, rfl⟩ | ⟨-, hx⟩
  · exact hn
  · exact StageOk.later hi h (hi.stages i x hx)

/-- A session taken: the program may do what the target's policy permits. -/
theorem took_stage (hi : Inv host srv s) {r : Served} {p : String} {body : SessionView → Do RpcError Reply} {o : Object}
    (hr : s.requests[n]? = some r) (hst : r.stage = .taking p id body) (ho : s.objects id = some o)
    (hs' : ∃ o', s'.objects id = some o' ∧ Same o o') :
    StageOk host srv s' n { r with stage := .running id (body (viewOf id o)) } := by
  have hroute := hi.stages n r hr
  simp only [StageOk, hst] at hroute
  obtain ⟨o', ho', hsame⟩ := hs'
  have hpolicy : (viewOf id o).connectionOptionPolicy = policyOf srv o'.target := by
    rw [hsame.target]
    exact hi.policy id o ho
  refine ⟨o', ho', ?_, ?_⟩
  · rw [← hpolicy]
    exact route_allowed hroute (viewOf id o)
  · intro key value ha
    left
    have hinv := ha
    obtain ⟨request, args, hinv, -⟩ := hinv
    simp only at hinv ha
    rw [hinv] at hroute ha
    rw [← hpolicy]
    exact handler_asked hroute ha (viewOf id o)

/-- A permitted set is one operation. -/
theorem thenOk_permitted {policy : ClientOptionPolicy} (hp : policy.permits key = true) :
    thenOk srv (setConnectionOption srv.unicode policy key value) = .call (.job (.connection (.setOption key value)))
      fun (a : Except AdbcError Unit) => .done (a.mapError .adbc >>= fun _ => okBatch srv) := by
  unfold thenOk setConnectionOption
  rw [if_pos hp]
  refine congrArg (Prog.call _) (funext fun a => ?_)
  cases a with
  | ok u => rfl
  | error e => rfl

/-- And one that is not permitted is none. -/
theorem thenOk_refused {policy : ClientOptionPolicy} (hp : policy.permits key = false) :
    ∃ e, thenOk srv (setConnectionOption srv.unicode policy key value) = .done (.error e) := by
  unfold thenOk setConnectionOption
  rw [if_neg (by simp [hp])]
  exact ⟨_, rfl⟩

/-- A set still to do is permitted. -/
theorem SetRuns.of_call {policy : ClientOptionPolicy} {op : Op} {k : Ans op → Do RpcError Reply}
    (h : SetRuns host s n id srv policy key value (.call op k)) : policy.permits key = true ∧
      (.call op k : Do RpcError Reply) = .call (.job (.connection (.setOption key value)))
        fun (a : Except AdbcError Unit) => .done (a.mapError .adbc >>= fun _ => okBatch srv) := by
  rcases h with hprog | ⟨reply, hprog, -⟩
  · cases hp : policy.permits key with
    | false =>
      obtain ⟨e, he⟩ := @thenOk_refused srv key value _ hp
      rw [he] at hprog
      cases hprog
    | true => exact ⟨rfl, hprog.trans (thenOk_permitted hp)⟩
  · cases hprog

/-- One that is done was made, or failed. -/
theorem SetRuns.of_done {policy : ClientOptionPolicy} {reply : Except RpcError Reply}
    (h : SetRuns host s n id srv policy key value (.done reply)) :
    SetMade s n id key value ∨ ∃ e, reply = .error e := by
  rcases h with hprog | ⟨reply', hprog, hm | ⟨e, -, he⟩⟩
  · cases hp : policy.permits key with
    | false =>
      obtain ⟨e, he⟩ := @thenOk_refused srv key value _ hp
      rw [he] at hprog
      cases hprog
      exact .inr ⟨e, rfl⟩
    | true =>
      rw [thenOk_permitted hp] at hprog
      cases hprog
  · exact .inl hm
  · cases hprog
    exact .inr ⟨_, he⟩

/-- The driver is given a set, unless its worker call is lost. -/
theorem respond_set (host : Host) (m : Moment) (s : Inner) (key : String) (value : OptionValue) :
    (∃ c, setting c = some (key, value) ∧
      (respond host (Tenants.atOnce m) (.job (.connection (.setOption key value))) s).2.calls = s.calls ++ [c]) ∨
    ∃ e ∈ lost host, (respond host (Tenants.atOnce m) (.job (.connection (.setOption key value))) s).1 = .error e := by
  unfold respond Tenants.atOnce lost
  cases m.fate with
  | answered => exact .inl ⟨_, rfl, rfl⟩
  | full => exact .inr ⟨queueFull, by simp, rfl⟩
  | stopped => exact .inr ⟨workerStopped, by simp, rfl⟩
  | abandoned | late => exact .inr ⟨timedOut host, by simp, rfl⟩

/-- An operation performed. -/
theorem operated_stage (hi : Inv host srv s) {r : Served} {op : Op} {k : Ans op → Do RpcError Reply} {o : Object}
    {m : Moment} (hr : s.requests[n]? = some r) (hst : r.stage = .running id (.call op k)) (ho : s.objects id = some o)
    (hmade : s'.made = (s.performed n id o (respond host (Tenants.atOnce m) op o.inner).2).made)
    (hs' : ∃ o', s'.objects id = some o' ∧ Same o o') :
    StageOk host srv s' n { r with stage := .running id (k (respond host (Tenants.atOnce m) op o.inner).1) } := by
  have hstage := hi.stages n r hr
  simp only [StageOk, hst] at hstage
  obtain ⟨o1, ho1, huses, hruns⟩ := hstage
  rw [ho] at ho1
  cases ho1
  obtain ⟨o', ho', hsame⟩ := hs'
  refine ⟨o', ho', by rw [hsame.target]; exact huses.2 _, ?_⟩
  intro key value ha
  rw [hsame.target]
  obtain ⟨-, hprog⟩ := (hruns key value ha).of_call
  cases hprog
  refine .inr ⟨_, rfl, ?_⟩
  rcases respond_set host m o.inner key value with ⟨c, hc, hcalls⟩ | ⟨e, he, herr⟩
  · refine .inl ⟨⟨id, some n, .call c⟩, ?_, rfl, rfl, c, rfl, hc⟩
    rw [hmade]
    refine List.mem_append_right _ (List.mem_map.mpr ⟨c, ?_, rfl⟩)
    rw [hcalls, List.drop_left]
    exact List.mem_singleton.mpr rfl
  · rw [herr]
    exact .inr ⟨e, he, rfl⟩

/-- A program at its end. -/
theorem ended_stage (hi : Inv host srv s) {r : Served} {reply : Except RpcError Reply} (hr : s.requests[n]? = some r)
    (hst : r.stage = .running id (.done reply)) (hmade : ∀ d ∈ s.made, d ∈ s'.made) :
    StageOk host srv s' n { r with stage := .finished reply } := by
  have hstage := hi.stages n r hr
  simp only [StageOk, hst] at hstage
  obtain ⟨o, -, -, hruns⟩ := hstage
  cases reply with
  | error e => trivial
  | ok reply =>
    intro key value ha
    rcases (hruns key value ha).of_done with ⟨d, hd, hm⟩ | ⟨e, he⟩
    · exact ⟨id, d, hmade d hd, hm⟩
    · cases he

/-- A request that cannot be a set ends as it likes. -/
theorem other_stage {r : Served} {reply : Except RpcError Reply} (hn : ¬ r.invocation.sets) :
    StageOk host srv s' n { r with stage := .finished reply } := by
  cases reply with
  | error e => trivial
  | ok reply => exact fun key value ha => absurd (asked_sets ha) hn

theorem step_stages (hi : Inv host srv s) (h : Does host srv s e s') :
    ∀ (n : Nat) (r : Served), s'.requests[n]? = some r → StageOk host srv s' n r := by
  have hall := h
  have hother : ∀ {n : Nat} {r : Served}, s.requests[n]? = some r → (∃ p id, r.stage = .closing p id) ∨
      (∃ i database connection, r.stage = .opening i database connection) → ¬ r.invocation.sets := by
    intro n r hr hst
    have hstage := hi.stages n r hr
    rcases hst with ⟨p, id, hst⟩ | ⟨i, database, connection, hst⟩
    · simpa only [StageOk, hst] using hstage
    · simpa only [StageOk, hst] using hstage
  cases h with
  | @arrived ctx invocation =>
    obtain ⟨stage, hreq, hok⟩ := @arrives_stageOk host srv s ctx invocation
    intro n r hr
    rw [hreq] at hr
    rcases getElem?_snoc_cases hr with hr | ⟨rfl, rfl⟩
    · exact StageOk.later hi hall (hi.stages n r hr)
    · exact hok _ _
  | took hr hst hget ho =>
    exact goes_stages hi hall rfl (took_stage hi hr hst ho (Tenants.object_later hi.base.known hall ho))
  | missed hr hst hget => exact goes_stages hi hall rfl trivial
  | operated hr hst ho =>
    exact goes_stages hi hall rfl (operated_stage hi hr hst ho rfl (Tenants.object_later hi.base.known hall ho))
  | ended hr hst => exact goes_stages hi hall rfl (ended_stage hi hr hst fun d hd => made_later hall hd)
  | closed hr hst => exact goes_stages hi hall rfl (other_stage (hother hr (.inl ⟨_, _, hst⟩)))
  | answered hr hst _ _ => exact goes_stages hi hall rfl (other_stage (hother hr (.inr ⟨_, _, _, hst⟩)))
  | withdrew hr hst _ _ => exact goes_stages hi hall rfl (other_stage (hother hr (.inr ⟨_, _, _, hst⟩)))
  | moved _ _ _ | opened _ _ _ | ranLate _ _ | chore =>
    intro n r hr
    exact StageOk.later hi hall (hi.stages n r hr)

/-- What a running request does next is allowed. -/
theorem running_allowed (hi : Inv host srv s) {r : Served} {op : Op} {k : Ans op → Do RpcError Reply}
    (hr : s.requests[n]? = some r) (hst : r.stage = .running id (.call op k)) :
    On srv s n id fun policy invocation => Allowed srv policy invocation op := by
  have hstage := hi.stages n r hr
  simp only [StageOk, hst] at hstage
  obtain ⟨o, ho, huses, -⟩ := hstage
  exact ⟨r, o, hr, ho, huses.1⟩

theorem step_late (hi : Inv host srv s) (h : Does host srv s e s') :
    ∀ l ∈ s'.late, On srv s' l.request l.session fun policy invocation => Allowed srv policy invocation (.job l.job) := by
  have hall := h
  have hold : ∀ l ∈ s.late, On srv s' l.request l.session
      fun policy invocation => Allowed srv policy invocation (.job l.job) := fun l hl => (hi.late l hl).later hi hall
  cases h with
  | arrived =>
    rw [(Tenants.arrives_objects srv s _ _).2.2.1]
    exact hold
  | @operated n r id op k o m hr hst ho =>
    intro l hl
    rcases List.mem_append.mp hl with hl | hl
    · exact hold l hl
    · have hallowed := (running_allowed hi hr hst).later hi hall
      unfold Tenants.leftOver at hl
      split at hl
      · split at hl
        · obtain rfl := List.mem_singleton.mp hl
          exact hallowed
        · cases hl
      · cases hl
  | ranLate _ _ =>
    intro l hl
    exact hold l (List.mem_of_mem_eraseIdx hl)
  | took _ _ _ _ | missed _ _ _ | ended _ _ | closed _ _ | answered _ _ _ _ | withdrew _ _ _ _ | moved _ _ _
  | opened _ _ _ | chore => exact hold

theorem On.mono {P Q : ClientOptionPolicy → Invocation → Prop} (ho : On srv s n id P) (h : ∀ p i, P p i → Q p i) :
    On srv s n id Q := by
  obtain ⟨r, o, hr, ho, hp⟩ := ho
  exact ⟨r, o, hr, ho, h _ _ hp⟩

theorem step_made (hi : Inv host srv s) (h : Does host srv s e s') : ∀ d ∈ s'.made, ∀ c, d.deed = .call c →
    ∃ n, d.request = some n ∧ On srv s' n d.session fun policy invocation => CallAllowed srv policy invocation c := by
  have hall := h
  have hold : ∀ d ∈ s.made, ∀ c, d.deed = .call c → ∃ n, d.request = some n ∧
      On srv s' n d.session fun policy invocation => CallAllowed srv policy invocation c := by
    intro d hd c hc
    obtain ⟨n, hn, hon⟩ := hi.made d hd c hc
    exact ⟨n, hn, hon.later hi hall⟩
  have hmoves : ∀ {request : Option Nat} {front : Admission.St Unit}, ∀ d ∈ (s.moves request front).made, ∀ c,
      d.deed = .call c → ∃ n, d.request = some n ∧
        On srv s' n d.session fun policy invocation => CallAllowed srv policy invocation c := by
    intro request front d hd c hc
    rcases Tenants.moves_made hd with hd | ⟨-, -, -, statements, hcleanup⟩
    · exact hold d hd c hc
    · rw [hcleanup] at hc
      cases hc
  have hperformed : ∀ {n : Nat} {id : String} {o : Object} {inner : Inner} {op : Op},
      (On srv s n id fun policy invocation => Allowed srv policy invocation op) → Steps op o.inner inner →
      ∀ d ∈ (s.performed n id o inner).made, ∀ c, d.deed = .call c → ∃ n, d.request = some n ∧
        On srv s' n d.session fun policy invocation => CallAllowed srv policy invocation c := by
    intro n id o inner op hon hsteps d hd c hc
    rcases performed_calls hsteps hd with hd | ⟨hn, hid, c', hc', hstems⟩
    · exact hold d hd c hc
    · rw [hc'] at hc
      cases hc
      refine ⟨n, hn, ?_⟩
      rw [hid]
      exact (hon.mono fun _ _ ha => allowed_call ha hstems).later hi hall
  cases h with
  | arrived =>
    rw [(Tenants.arrives_objects srv s _ _).2.1]
    exact hold
  | operated hr hst ho => exact hperformed (running_allowed hi hr hst) (respond_steps host _ _ _)
  | ranLate hl ho => exact hperformed (hi.late _ (List.mem_of_getElem? hl)) (job_steps host.limits _ _ _)
  | answered _ _ _ _ => exact hold
  | took _ _ _ _ | missed _ _ _ | ended _ _ | closed _ _ | withdrew _ _ _ _ | moved _ _ _ | chore => exact hmoves
  | opened _ _ hb =>
    intro d hd c hc
    rcases List.mem_append.mp hd with hd | hd
    · exact hmoves d hd c hc
    · split at hd
      · cases hd
      · obtain rfl := List.mem_singleton.mp hd
        cases hc

theorem step_inv (hi : Inv host srv s) (h : Does host srv s e s') : Inv host srv s' where
  base := Tenants.step_inv hi.base h
  policy := step_policy hi h
  stages := step_stages hi h
  late := step_late hi h
  made := step_made hi h

theorem init_inv : Inv host srv Tenants.init where
  base := Tenants.init_inv
  policy := by
    intro id o h
    cases h
  stages := by
    intro n r h
    cases h
  late := by
    intro l h
    cases h
  made := by
    intro d h
    cases h

theorem inv_later (hi : Inv host srv s) (e : Tenants.Ev) : Inv host srv (Tenants.step host srv s e) := by
  rcases @Tenants.step_does host srv s e with heq | hd
  · rw [heq]
    exact hi
  · exact step_inv hi hd

end Sets

/-! ## The opens -/

/-- A `backend.open` that was spawned: the request it is for, what the driver manager answers in
    it, and what it is asked. -/
structure Opening where
  request : Nat
  manager : Manager
  answer : Except AdbcError Unit
  calls : List ManagerCall

structure St where
  base : Tenants.St
  openings : List Opening

def init : St := ⟨Tenants.init, []⟩

inductive Ev where
  | base (e : Tenants.Ev)
  /-- A request's open spawns its `backend.open`. -/
  | spawns (n : Nat) (hashing : Hashing) (manager : Manager)
  /-- And that one returns. -/
  | returns (n : Nat)

section Machine

variable (base64 : Base64) (host : Host) (srv : Service)

/-- `DriverManagerBackend::open`, spawned for the request `n`. -/
def spawns (s : St) (n : Nat) (hashing : Hashing) (manager : Manager) : Option St := do
  let (i, database, connection) ← openOf s.base n
  let o ← s.base.front.opens[i]?
  let target ← srv.config.targets.lookup o.target
  match o.stage with
  | .reserved =>
    let r := openConnection srv.unicode base64 hashing manager target database connection
    some ⟨Tenants.step host srv s.base (.move n (.spawn none)), s.openings ++ [⟨n, manager, r.1, r.2⟩]⟩
  | _ => none

/-- It returns what it came to. -/
def returns (s : St) (n : Nat) : Option St := do
  let x ← s.openings.find? fun x => x.request == n
  some { s with base := Tenants.step host srv s.base (.move n (.backendReturns x.answer)) }

def step (s : St) : Ev → St
  -- a backend is spawned in `spawns` and returns in `returns`
  | .base (.move _ (.spawn none)) | .base (.move _ (.backendReturns _)) => s
  | .base e => { s with base := Tenants.step host srv s.base e }
  | .spawns n hashing manager => (spawns base64 host srv s n hashing manager).getD s
  | .returns n => (returns host srv s n).getD s

def machine : Machine St Ev where
  init := (· = init)
  step := step base64 host srv

end Machine

/-- The record is of an open of the request's target with the request's options. -/
def Recorded (base64 : Base64) (srv : Service) (s : Tenants.St) (x : Opening) : Prop :=
  ∃ r p name database connection target hashing, s.requests[x.request]? = some r ∧
    route srv r.ctx r.invocation = .openSession p name database connection ∧
    srv.config.targets.lookup name = some target ∧
    (x.answer, x.calls) = openConnection srv.unicode base64 hashing x.manager target database connection

/-- The open of that request had a connection from the driver. -/
def Succeeded (s : St) (n : Nat) : Prop := ∃ x ∈ s.openings, x.request = n ∧ x.answer = .ok ()

/-- An open that has its connection has it from the backend. -/
def Fed (o : Admission.Open Unit) : Prop :=
  (∃ c, o.stage = .opened c) ∨ (∃ session, o.stage = .ready session) ∨ (∃ id, o.stage = .returned (.ok id)) →
    o.backend = .returned (.ok ())

structure Whole (base64 : Base64) (host : Host) (srv : Service) (s : St) : Prop where
  sets : Inv host srv s.base
  recorded : ∀ x ∈ s.openings, Recorded base64 srv s.base x
  /-- An open is one request's. -/
  alone : ∀ {n n' i d c d' c'}, openOf s.base n = some (i, d, c) → openOf s.base n' = some (i, d', c') → n = n'
  returned : ∀ {n i d c o}, openOf s.base n = some (i, d, c) → s.base.front.opens[i]? = some o →
    o.backend = .returned (.ok ()) → Succeeded s n
  fed : ∀ o ∈ s.base.front.opens, Fed o
  objects : ∀ id o, s.base.objects id = some o → Succeeded s o.opener
  /-- A request to open is in its open, or at its end. -/
  plans : ∀ (n : Nat) (r : Served) p name database connection, s.base.requests[n]? = some r →
    route srv r.ctx r.invocation = .openSession p name database connection →
    (∃ i d c, r.stage = .opening i d c) ∨ ∃ reply, r.stage = .finished reply ∧ ∀ x, reply = .ok x → Succeeded s n

section Opens

variable {base64 : Base64} {host : Host} {srv : Service} {s s' : Tenants.St} {e : Tenants.Ev} {n i : Nat}
  {database connection : List (String × OptionValue)}

theorem openOf_some (h : openOf s n = some (i, database, connection)) :
    ∃ r, s.requests[n]? = some r ∧ r.stage = .opening i database connection := by
  obtain ⟨r, hr, h⟩ := Option.bind_eq_some_iff.mp h
  split at h
  · rename_i hst
    cases h
    exact ⟨r, hr, hst⟩
  · cases h

theorem openOf_eq {r : Served} (hr : s.requests[n]? = some r) (hst : r.stage = .opening i database connection) :
    openOf s n = some (i, database, connection) := by
  unfold openOf
  rw [hr]
  simp only [Option.bind_eq_bind, Option.bind_some, hst]

theorem openOf_set {r : Served} {stage : Tenants.Stage} {m : Nat}
    (hreq : s'.requests = s.requests.set m { r with stage := stage }) (hst : ∀ i d c, stage ≠ .opening i d c)
    (h : openOf s' n = some (i, database, connection)) : openOf s n = some (i, database, connection) := by
  obtain ⟨r', hr', hst'⟩ := openOf_some h
  rw [hreq] at hr'
  rcases getElem?_set_cases hr' with ⟨-, rfl⟩ | ⟨-, hr'⟩
  · exact absurd hst' (hst i database connection)
  · exact openOf_eq hr' hst'

/-- A request that is in an open was there before, or has just arrived. -/
theorem openOf_before (h : Does host srv s e s') (ho : openOf s' n = some (i, database, connection)) :
    openOf s n = some (i, database, connection) ∨ n = s.requests.length ∧ i = s.front.opens.length := by
  cases h with
  | @arrived ctx invocation =>
    obtain ⟨r, hr, hst⟩ := openOf_some ho
    obtain ⟨stage, hreq, hstage⟩ : ∃ stage, (Tenants.arrives srv s ctx invocation).requests =
        s.requests ++ [⟨ctx, invocation, stage⟩] ∧ ∀ i d c, stage = .opening i d c → i = s.front.opens.length := by
      unfold Tenants.arrives
      split
      · exact ⟨_, rfl, fun _ _ _ h => by cases h⟩
      · exact ⟨_, rfl, fun _ _ _ h => by cases h⟩
      · exact ⟨_, rfl, fun _ _ _ h => by cases h⟩
      · exact ⟨_, rfl, fun _ _ _ h => by cases h⟩
      · exact ⟨_, rfl, fun _ _ _ h => by cases h; rfl⟩
    rw [hreq] at hr
    rcases getElem?_snoc_cases hr with hr | ⟨rfl, rfl⟩
    · exact .inl (openOf_eq hr hst)
    · exact .inr ⟨rfl, hstage i _ _ hst⟩
  | took _ _ _ _ | missed _ _ _ | operated _ _ _ | ended _ _ | closed _ _ | answered _ _ _ _ | withdrew _ _ _ _ =>
    exact .inl (openOf_set rfl (fun _ _ _ h => by cases h) ho)
  | moved _ _ _ | opened _ _ _ | ranLate _ _ | chore => exact .inl ho

theorem advance_fed {closing : Bool} {now : Nat} {o o' : Admission.Open Unit} {m : Admission.Move Unit}
    (h : Admission.Advance closing now o m o') (hf : Fed o) : Fed o' := by
  cases h with
  | stay => exact hf
  | backendReturned r hb | backendPanicked hb =>
    intro hst
    have hret := hf hst
    rw [hb] at hret
    cases hret
  | received connection hs hb => exact fun _ => hb
  | started connection hs => exact fun _ => hf (.inl ⟨_, hs⟩)
  | inserted id session hs _ => exact fun _ => hf (.inr (.inl ⟨_, hs⟩))
  | refused e hs | checked hs _ | reaped hs | denied e hs | reserved hs _ | spawned hs | spawnFailed text e hs
  | receivedError e hs _ | expired e hs _ | startFailed text e connection hs | released e hs
  | insertRefused id session e hs _ =>
    rintro (⟨c, hst⟩ | ⟨session, hst⟩ | ⟨id, hst⟩) <;> cases hst

theorem step_fed {cfg : Config} {a : Admission.St Unit} (h : ∀ o ∈ a.opens, Fed o) (e : Admission.Ev Unit) :
    ∀ o ∈ (Admission.step cfg a e).opens, Fed o := by
  intro o ho
  rcases Admission.step_opens cfg a e with he | ⟨p, target, stage, -, hstage, he⟩ | ⟨i, m, o1, o2, -, hi, he, hadv⟩
  · rw [he] at ho
    exact h o ho
  · rw [he] at ho
    rcases List.mem_append.mp ho with ho | ho
    · exact h o ho
    · obtain rfl := List.mem_singleton.mp ho
      rcases hstage with rfl | ⟨x, rfl⟩ <;> rintro (⟨c, hst⟩ | ⟨session, hst⟩ | ⟨id, hst⟩) <;> cases hst
  · rw [he] at ho
    rcases List.mem_or_eq_of_mem_set ho with ho | rfl
    · exact h o ho
    · exact advance_fed hadv (h o1 (List.mem_of_getElem? hi))

/-- What a backend returned it had returned before, unless it returns now. -/
theorem backend_before {cfg : Config} {a : Admission.St Unit} {ae : Admission.Ev Unit} {o' : Admission.Open Unit}
    {r : Except AdbcError Unit} (ho : (Admission.step cfg a ae).opens[i]? = some o') (hb : o'.backend = .returned r) :
    (∃ o, a.opens[i]? = some o ∧ o.backend = .returned r) ∨ ae = .move i (.backendReturns r) := by
  rcases Admission.step_opens cfg a ae with he | ⟨p, target, stage, -, -, he⟩ | ⟨j, m, o1, o2, hae, hj, he, hadv⟩
  · rw [he] at ho
    exact .inl ⟨o', ho, hb⟩
  · rw [he] at ho
    rcases getElem?_snoc_cases ho with ho | ⟨-, rfl⟩
    · exact .inl ⟨o', ho, hb⟩
    · cases hb
  · rw [he] at ho
    rcases getElem?_set_cases ho with ⟨rfl, rfl⟩ | ⟨-, ho⟩
    · cases hadv with
      | backendReturned r' _ =>
        cases hb
        exact .inr hae
      | spawned _ => cases hb
      | backendPanicked _ => cases hb
      | _ => exact .inl ⟨_, hj, hb⟩
    · exact .inl ⟨o', ho, hb⟩

end Opens

section Whole

variable {base64 : Base64} {host : Host} {srv : Service} {s s' : St} {e : Tenants.Ev} {n : Nat}

theorem Succeeded.later (hsub : ∀ x ∈ s.openings, x ∈ s'.openings) (h : Succeeded s n) : Succeeded s' n := by
  obtain ⟨x, hx, h⟩ := h
  exact ⟨x, hsub x hx, h⟩

theorem Recorded.later {a a' : Tenants.St} (h : Does host srv a e a') {x : Opening} (hx : Recorded base64 srv a x) :
    Recorded base64 srv a' x := by
  obtain ⟨r, p, name, database, connection, target, hashing, hr, hroute, hx⟩ := hx
  obtain ⟨r', hr', hctx, hinv⟩ := Tenants.request_later h hr
  exact ⟨r', p, name, database, connection, target, hashing, hr', by rw [hctx, hinv]; exact hroute, hx⟩

/-- The open a request is in is there. -/
theorem openOf_lt (hi : Tenants.Inv srv s.base) {i : Nat} {d c : List (String × OptionValue)}
    (h : openOf s.base n = some (i, d, c)) : i < s.base.front.opens.length := by
  obtain ⟨r, hr, hst⟩ := openOf_some h
  have hstage := hi.stages n r hr
  simp only [Tenants.StageOk, hst] at hstage
  obtain ⟨o, ho, -⟩ := hstage
  exact (List.getElem?_eq_some_iff.mp ho).1

theorem alone_later (hw : Whole base64 host srv s) {a : Tenants.St} (h : Does host srv s.base e a) {n n' i : Nat}
    {d c d' c' : List (String × OptionValue)} (h1 : openOf a n = some (i, d, c))
    (h2 : openOf a n' = some (i, d', c')) : n = n' := by
  rcases openOf_before h h1 with h1 | ⟨hn, hi⟩
  · rcases openOf_before h h2 with h2 | ⟨-, hi'⟩
    · exact hw.alone h1 h2
    · have := openOf_lt hw.sets.base h1
      omega
  · rcases openOf_before h h2 with h2 | ⟨hn', -⟩
    · have := openOf_lt hw.sets.base h2
      omega
    · rw [hn, hn']

theorem fed_later (hw : Whole base64 host srv s) {a : Tenants.St} (h : Does host srv s.base e a) :
    ∀ o ∈ a.front.opens, Fed o := by
  rcases Tenants.does_front h with hf | ⟨ae, hf⟩
  · rw [hf]
    exact hw.fed
  · rw [hf]
    exact step_fed hw.fed ae

theorem objects_later (hw : Whole base64 host srv s) {a : Tenants.St} (h : Does host srv s.base e a) (id : String)
    (o : Object) (ho : a.objects id = some o) : Succeeded s o.opener := by
  rcases Tenants.object_before h ho with hb | ⟨n, r, i, database, connection, m, rfl, hr, hst, hb⟩
  · obtain ⟨o1, ho1⟩ := Option.isSome_iff_exists.mp hb
    obtain ⟨o2, ho2, hsame⟩ := Tenants.object_later hw.sets.base.known h ho1
    rw [ho] at ho2
    cases ho2
    rw [hsame.opener]
    exact hw.objects id o1 ho1
  · obtain ⟨x, session, -, hx, hready, -, rfl⟩ := Tenants.built_some hb
    have hfed := hw.fed x (List.mem_of_getElem? hx) (.inr (.inl ⟨session, hready⟩))
    exact hw.returned (openOf_eq hr hst) hx hfed

/-- What `plans` says of one request. -/
def PlanOk (srv : Service) (s : St) (n : Nat) (r : Served) : Prop :=
  ∀ p name database connection, route srv r.ctx r.invocation = .openSession p name database connection →
    (∃ i d c, r.stage = .opening i d c) ∨ ∃ reply, r.stage = .finished reply ∧ ∀ x, reply = .ok x → Succeeded s n

theorem PlanOk.later (hsub : ∀ x ∈ s.openings, x ∈ s'.openings) {r : Served} (h : PlanOk srv s n r) :
    PlanOk srv s' n r := by
  intro p name database connection hroute
  rcases h p name database connection hroute with h | ⟨reply, hst, hok⟩
  · exact .inl h
  · exact .inr ⟨reply, hst, fun x hx => (hok x hx).later hsub⟩

/-- A request that is elsewhere does not open. -/
theorem PlanOk.other {r : Served} (h : PlanOk srv s n r) (ho : ∀ i d c, r.stage ≠ .opening i d c)
    (hf : ∀ reply, r.stage ≠ .finished reply) {stage : Tenants.Stage} : PlanOk srv s n { r with stage := stage } := by
  intro p name database connection hroute
  rcases h p name database connection hroute with ⟨i, d, c, hst⟩ | ⟨reply, hst, -⟩
  · exact absurd hst (ho i d c)
  · exact absurd hst (hf reply)

/-- An open that answers with an id succeeded. -/
theorem answered_plan (hw : Whole base64 host srv s) {r : Served} {i : Nat} {d c : List (String × OptionValue)}
    {o : Admission.Open Unit} {answer : Except AdbcError String} (hr : s.base.requests[n]? = some r)
    (hst : r.stage = .opening i d c) (ho : s.base.front.opens[i]? = some o) (hanswer : o.stage = .returned answer) :
    PlanOk srv s n { r with stage := .finished (Tenants.openReply srv r.ctx answer) } := by
  intro p name database connection _
  refine .inr ⟨_, rfl, ?_⟩
  intro x hx
  cases answer with
  | error e => cases hx
  | ok id =>
    have hfed := hw.fed o (List.mem_of_getElem? ho) (.inr (.inr ⟨id, hanswer⟩))
    exact hw.returned (openOf_eq hr hst) ho hfed

theorem plans_set (hw : Whole base64 host srv s) {a : Tenants.St} {m : Nat} {r : Served} {stage : Tenants.Stage}
    (hreq : a.requests = s.base.requests.set m { r with stage := stage })
    (hm : PlanOk srv s m { r with stage := stage }) : ∀ (n : Nat) (x : Served), a.requests[n]? = some x → PlanOk srv s n x := by
  intro n x hx
  rw [hreq] at hx
  rcases getElem?_set_cases hx with ⟨rfl, rfl⟩ | ⟨-, hx⟩
  · exact hm
  · exact fun p name database connection => hw.plans n x p name database connection hx

theorem plans_later (hw : Whole base64 host srv s) {a : Tenants.St} (h : Does host srv s.base e a) :
    ∀ (n : Nat) (r : Served), a.requests[n]? = some r → PlanOk srv s n r := by
  have hold : ∀ {n : Nat} {r : Served}, s.base.requests[n]? = some r → PlanOk srv s n r :=
    fun hr p name database connection => hw.plans _ _ p name database connection hr
  cases h with
  | @arrived ctx invocation =>
    intro n r hr
    obtain ⟨stage, hreq, hstage⟩ : ∃ stage, (Tenants.arrives srv s.base ctx invocation).requests =
        s.base.requests ++ [⟨ctx, invocation, stage⟩] ∧
          PlanOk srv s s.base.requests.length ⟨ctx, invocation, stage⟩ := by
      unfold Tenants.arrives PlanOk
      cases hroute : route srv ctx invocation with
      | openSession p target database connection => exact ⟨_, rfl, fun _ _ _ _ _ => .inl ⟨_, _, _, rfl⟩⟩
      | fail e | nothing | onSession p id body | closeSession p id =>
        refine ⟨_, rfl, fun _ _ _ _ hopen => ?_⟩
        rw [hroute] at hopen
        cases hopen
    rw [hreq] at hr
    rcases getElem?_snoc_cases hr with hr | ⟨rfl, rfl⟩
    · exact hold hr
    · exact hstage
  | took hr hst _ _ | missed hr hst _ | operated hr hst _ | ended hr hst | closed hr hst =>
    exact plans_set hw rfl ((hold hr).other (by simp [hst]) (by simp [hst]))
  | answered hr hst ho hanswer | withdrew hr hst ho hanswer =>
    exact plans_set hw rfl (answered_plan hw hr hst ho hanswer)
  | moved _ _ _ | opened _ _ _ | ranLate _ _ | chore => exact fun n r hr => hold hr

/-- What an event is to the opens; a backend's return is one to the request's open. -/
theorem front_event {a a' : Tenants.St} (h : Does host srv a e a') :
    a'.front = a.front ∨ ∃ ae, a'.front = Admission.step srv.config a.front ae ∧
      ∀ i r, ae = .move i (.backendReturns r) → ∃ n d c, e = .move n (.backendReturns r) ∧ openOf a n = some (i, d, c) := by
  cases h with
  | arrived =>
    rcases (Tenants.arrives_objects srv a _ _).2.2.2 with h | ⟨p, target, h⟩
    · exact .inl h
    · exact .inr ⟨_, h, by simp⟩
  | operated _ _ _ => exact .inl rfl
  | ranLate _ _ => exact .inl rfl
  | answered _ _ _ _ => exact .inl rfl
  | took _ _ _ _ | missed _ _ _ => exact .inr ⟨.get _ _, rfl, by simp⟩
  | ended _ _ => exact .inr ⟨.dropReference _, rfl, by simp⟩
  | closed _ _ => exact .inr ⟨.close _ _, rfl, by simp⟩
  | withdrew _ _ _ _ => exact .inr ⟨.close _ _, rfl, by simp⟩
  | @moved n i r d c m hr hst _ | @opened n i r d c m _ _ hr hst _ =>
    refine .inr ⟨.move i m, rfl, ?_⟩
    intro j r' heq
    cases heq
    exact ⟨n, d, c, rfl, openOf_eq hr hst⟩
  | @chore c => exact .inr ⟨c.ev, rfl, by cases c <;> simp [Tenants.Chore.ev]⟩

theorem returned_later (hw : Whole base64 host srv s) {a : Tenants.St} (h : Does host srv s.base e a)
    (hret : ∀ n, e = .move n (.backendReturns (.ok ())) → Succeeded s n) {i : Nat} {d c : List (String × OptionValue)}
    {o : Admission.Open Unit} (hopen : openOf a n = some (i, d, c)) (ho : a.front.opens[i]? = some o)
    (hb : o.backend = .returned (.ok ())) : Succeeded s n := by
  have hbefore : (∃ o, s.base.front.opens[i]? = some o ∧ o.backend = .returned (.ok ())) ∨
      ∃ n d c, e = .move n (.backendReturns (.ok ())) ∧ openOf s.base n = some (i, d, c) := by
    rcases front_event h with hf | ⟨ae, hf, hae⟩
    · rw [hf] at ho
      exact .inl ⟨o, ho, hb⟩
    · rw [hf] at ho
      exact (backend_before ho hb).imp_right (hae i _)
  rcases openOf_before h hopen with hopen | ⟨-, hi⟩
  · rcases hbefore with ⟨o1, ho1, hb1⟩ | ⟨n', d', c', he, hopen'⟩
    · exact hw.returned hopen ho1 hb1
    · obtain rfl := hw.alone hopen hopen'
      exact hret n he
  · -- an open that has just been asked for has no backend
    rcases hbefore with ⟨o1, ho1, -⟩ | ⟨n', d', c', -, hopen'⟩
    · have := (List.getElem?_eq_some_iff.mp ho1).1
      omega
    · have := openOf_lt hw.sets.base hopen'
      omega

theorem base_whole (hw : Whole base64 host srv s) {a : Tenants.St} (h : Does host srv s.base e a)
    (hret : ∀ n, e = .move n (.backendReturns (.ok ())) → Succeeded s n) : Whole base64 host srv { s with base := a } where
  sets := step_inv hw.sets h
  recorded x hx := (hw.recorded x hx).later h
  alone := alone_later hw h
  returned := returned_later hw h hret
  fed := fed_later hw h
  objects := objects_later hw h
  plans n r p name database connection hr := plans_later hw h n r hr p name database connection

/-- A step of the server that returns nothing from a backend, or what was recorded. -/
theorem next_whole (hw : Whole base64 host srv s) (e : Tenants.Ev)
    (hret : ∀ n, e = .move n (.backendReturns (.ok ())) → Succeeded s n) :
    Whole base64 host srv { s with base := Tenants.step host srv s.base e } := by
  rcases @Tenants.step_does host srv s.base e with heq | hd
  · rw [heq]
    exact hw
  · exact base_whole hw hd hret

/-- One more record. -/
theorem recorded_whole (hw : Whole base64 host srv s) {x : Opening} (hx : Recorded base64 srv s.base x) :
    Whole base64 host srv { s with openings := s.openings ++ [x] } where
  sets := hw.sets
  recorded y hy := by
    rcases List.mem_append.mp hy with hy | hy
    · exact hw.recorded y hy
    · obtain rfl := List.mem_singleton.mp hy
      exact hx
  alone := hw.alone
  returned hopen ho hb := (hw.returned hopen ho hb).later fun _ hy => List.mem_append_left _ hy
  fed := hw.fed
  objects id o ho := (hw.objects id o ho).later fun _ hy => List.mem_append_left _ hy
  plans n r p name database connection hr hroute :=
    (PlanOk.later (fun _ hy => List.mem_append_left _ hy) fun p name database connection =>
      hw.plans n r p name database connection hr) p name database connection hroute

theorem spawns_whole (hw : Whole base64 host srv s) {hashing : Hashing} {manager : Manager}
    (h : spawns base64 host srv s n hashing manager = some s') : Whole base64 host srv s' := by
  obtain ⟨⟨i, d, c⟩, hopen, h⟩ := Option.bind_eq_some_iff.mp h
  obtain ⟨o, ho, h⟩ := Option.bind_eq_some_iff.mp h
  obtain ⟨target, htarget, h⟩ := Option.bind_eq_some_iff.mp h
  split at h
  · cases h
    obtain ⟨r, hr, hst⟩ := openOf_some hopen
    have hstage := hw.sets.base.stages n r hr
    simp only [Tenants.StageOk, hst] at hstage
    obtain ⟨o', ho', hroute⟩ := hstage
    rw [ho] at ho'
    cases ho'
    have hx : Recorded base64 srv s.base ⟨n, manager, (openConnection srv.unicode base64 hashing manager target d c).1,
        (openConnection srv.unicode base64 hashing manager target d c).2⟩ :=
      ⟨r, o.principal, o.target, d, c, target, hashing, hr, hroute, htarget, rfl⟩
    exact next_whole (recorded_whole hw hx) (.move n (.spawn none)) fun m he => by cases he
  · cases h

theorem returns_whole (hw : Whole base64 host srv s) (h : returns host srv s n = some s') : Whole base64 host srv s' := by
  obtain ⟨x, hx, h⟩ := Option.bind_eq_some_iff.mp h
  cases h
  refine next_whole hw _ ?_
  intro m he
  simp only [Tenants.Ev.move.injEq, Admission.Move.backendReturns.injEq] at he
  obtain ⟨rfl, hanswer⟩ := he
  exact ⟨x, List.mem_of_find?_eq_some hx, by simpa using List.find?_some hx, hanswer⟩

theorem step_whole (hw : Whole base64 host srv s) (e : Ev) : Whole base64 host srv (step base64 host srv s e) := by
  unfold step
  split
  · exact hw
  · exact hw
  · rename_i hne
    exact next_whole hw _ fun n he => absurd he (hne n _)
  · rename_i n hashing manager
    cases hs : spawns base64 host srv s n hashing manager with
    | none => exact hw
    | some s' => exact spawns_whole hw hs
  · rename_i n
    cases hs : returns host srv s n with
    | none => exact hw
    | some s' => exact returns_whole hw hs

theorem init_whole : Whole base64 host srv init where
  sets := init_inv
  recorded := by
    intro x h
    cases h
  alone := by
    intro n n' i d c d' c' h
    cases h
  returned := by
    intro n i d c o h
    cases h
  fed := by
    intro o h
    cases h
  objects := by
    intro id o h
    cases h
  plans := by
    intro n r p name database connection h
    cases h

theorem reach_whole (h : (machine base64 host srv).Reach s) : Whole base64 host srv s := by
  refine h.invariant ?_ ?_
  · intro s h0
    have h0 : s = init := h0
    rw [h0]
    exact init_whole
  · intro s e _ hw
    exact step_whole hw e

end Whole

/-! ## The policy -/

/-- What the driver manager is asked at an open of the target with a client's options. -/
structure Keeps (base64 : Base64) (target : TargetConfig) (database connection : List (String × OptionValue))
    (x : Opening) : Prop where
  givenDatabase : ∀ options, .newDatabase options ∈ x.calls →
    Given base64 target.databaseOptions (databaseOptionPolicy target) database options
  givenConnection : ∀ options, .newConnection options ∈ x.calls →
    Given base64 target.connectionOptions target.connectionOptionPolicy connection options
  reaches : AllPermitted (databaseOptionPolicy target) database → AllPermitted target.connectionOptionPolicy connection →
    Decodes base64 target.databaseOptions → Decodes base64 target.connectionOptions → x.manager.load = .ok () →
    ∃ options options', .newDatabase options ∈ x.calls ∧
      (x.manager.newDatabase options = .ok () → .newConnection options' ∈ x.calls)

section Policy

variable {base64 : Base64} {host : Host} {srv : Service} {s : St} {n : Nat}

theorem ofExcept_openSession {r : Except RpcError Plan} {p name : String}
    {database connection : List (String × OptionValue)}
    (h : Plan.ofExcept r = .openSession p name database connection) :
    r = .ok (.openSession p name database connection) := by
  cases r with
  | error e => cases h
  | ok plan => exact congrArg Except.ok h

theorem sessionById_opens {ctx : CallContext} {id p name : String} {f : SessionView → Do RpcError Reply}
    {database connection : List (String × OptionValue)} :
    sessionById srv ctx id f ≠ .ok (.openSession p name database connection) := by
  intro h
  obtain ⟨_, -, h⟩ := bind_eq_ok h
  cases h

theorem typed_opens {ctx : CallContext} {request : Protocol.Request} {t : RequestKind} {id : t.Record → String}
    {f : t.Record → SessionView → Do RpcError Reply} {p name : String} {database connection : List (String × OptionValue)} :
    Plan.ofExcept (typedRequest srv t request >>= fun args => sessionById srv ctx (id args) (f args)) ≠
      .openSession p name database connection := by
  intro h
  obtain ⟨args, -, h⟩ := bind_eq_ok (ofExcept_openSession h)
  exact sessionById_opens h

theorem getSession_opens {ctx : CallContext} {request : Protocol.Request} {f : SessionView → Do RpcError Reply}
    {p name : String} {database connection : List (String × OptionValue)} :
    getSession srv ctx request f ≠ .openSession p name database connection := by
  intro h
  obtain ⟨_, -, h⟩ := bind_eq_ok (ofExcept_openSession h)
  obtain ⟨_, -, h⟩ := bind_eq_ok h
  obtain ⟨_, -, h⟩ := bind_eq_ok h
  cases h

/-- An open that was decoded names each option once. -/
theorem openSession_nodup {ctx : CallContext} {invocation : Invocation} {p name : String}
    {database connection : List (String × OptionValue)}
    (h : route srv ctx invocation = .openSession p name database connection) :
    (database.map Prod.fst).Nodup ∧ (connection.map Prod.fst).Nodup := by
  cases invocation with
  | request method request =>
    cases method with
    | openConnection =>
      obtain ⟨_, -, h⟩ := bind_eq_ok (ofExcept_openSession h)
      obtain ⟨_, -, h⟩ := bind_eq_ok h
      obtain ⟨database', hd, h⟩ := bind_eq_ok h
      obtain ⟨connection', hc, h⟩ := bind_eq_ok h
      cases h
      exact ⟨Backend.namedOptions_nodup (mapError_eq_ok.mp hd), Backend.namedOptions_nodup (mapError_eq_ok.mp hc)⟩
    | closeConnection =>
      obtain ⟨_, -, h⟩ := bind_eq_ok (ofExcept_openSession h)
      obtain ⟨_, -, h⟩ := bind_eq_ok h
      obtain ⟨_, -, h⟩ := bind_eq_ok h
      cases h
    | setConnectionOption | getInfo | getObjects | getTableSchema | getStatistics | setStatementOption =>
      exact absurd h typed_opens
    | _ => exact absurd h getSession_opens
  | exchange cursor input => exact absurd (ofExcept_openSession h) sessionById_opens
  | produce cursor => exact absurd (ofExcept_openSession h) sessionById_opens
  | exchangeCancel cursor | produceCancel cursor =>
    simp only [route] at h
    split at h
    · cases h
    · cases h

/-- An open that the policy does not permit: nothing was created for it, and it fails. -/
structure Refused (srv : Service) (s : St) (n : Nat) (r : Served) (target : TargetConfig) : Prop where
  calls : ∀ x ∈ s.openings, x.request = n → x.calls = [.load target.driver target.entrypoint]
  session : ∀ id o, s.base.objects id = some o → o.opener ≠ n
  reply : ∀ reply, r.stage ≠ .finished (.ok reply)

/-- A request to set an option: what it does on the backend, and how it goes on a session. -/
structure Sets (host : Host) (srv : Service) (s : Tenants.St) (n : Nat) (r : Served) (key : String)
    (value : OptionValue) : Prop where
  calls : ∀ d ∈ s.made, d.request = some n → ∀ c, d.deed = .call c → setting c = some (key, value)
  runs : ∀ id prog, r.stage = .running id prog → ∃ o target, s.objects id = some o ∧
    srv.config.targets.lookup o.target = some target ∧
    SetRuns host s n id srv target.connectionOptionPolicy key value prog ∧
    (target.connectionOptionPolicy.permits key = false → ∃ e, prog = .done (.error e))
  finished : ∀ reply, r.stage = .finished (.ok reply) → ∃ id, SetMade s n id key value

theorem policyOf_configured {a : Tenants.St} (hi : Tenants.Inv srv a) {id : String} {o : Object}
    (ho : a.objects id = some o) : ∃ target, srv.config.targets.lookup o.target = some target ∧
      policyOf srv o.target = target.connectionOptionPolicy := by
  obtain ⟨⟨c, hc⟩, -⟩ := hi.opened id o ho
  obtain ⟨-, hl⟩ := Tenants.authorize_ok hc
  refine ⟨c, hl, ?_⟩
  unfold policyOf
  rw [hl]
  rfl

theorem asked_once {invocation : Invocation} {key key' : String} {value value' : OptionValue}
    (h : Asked srv invocation key value) (h' : Asked srv invocation key' value') : key' = key ∧ value' = value := by
  obtain ⟨request, args, rfl, hargs, rfl, hvalue⟩ := h
  obtain ⟨request', args', hr, hargs', rfl, hvalue'⟩ := h'
  cases hr
  rw [hargs] at hargs'
  cases hargs'
  rw [hvalue] at hvalue'
  cases hvalue'
  exact ⟨rfl, rfl⟩

theorem recorded_keeps (hv : ∀ name target, srv.config.targets.lookup name = some target →
    Backend.validateTarget srv.unicode name target = .ok ()) {x : Opening} (hx : Recorded base64 srv s.base x) :
    ∃ r p name database connection target, s.base.requests[x.request]? = some r ∧
      route srv r.ctx r.invocation = .openSession p name database connection ∧
      srv.config.targets.lookup name = some target ∧ Keeps base64 target database connection x := by
  obtain ⟨r, p, name, database, connection, target, hashing, hr, hroute, htarget, hcall⟩ := hx
  obtain ⟨hdk, hck⟩ := Backend.validateTarget_nodup (hv name target htarget)
  obtain ⟨hd, hc⟩ := openSession_nodup hroute
  have hcalls : x.calls = (openConnection srv.unicode base64 hashing x.manager target database connection).2 :=
    congrArg Prod.snd hcall
  refine ⟨r, p, name, database, connection, target, hr, hroute, htarget, ?_, ?_, ?_⟩
  · rw [hcalls]
    exact (Backend.openConnection_given hdk hck hd hc).1
  · rw [hcalls]
    exact (Backend.openConnection_given hdk hck hd hc).2
  · rw [hcalls]
    exact Backend.openConnection_opens

/-- A record of an open that the policy does not permit. -/
theorem recorded_refused {x : Opening} (hx : Recorded base64 srv s.base x) {r : Served} {p name : String}
    {database connection : List (String × OptionValue)} {target : TargetConfig}
    (hr : s.base.requests[x.request]? = some r)
    (hroute : route srv r.ctx r.invocation = .openSession p name database connection)
    (htarget : srv.config.targets.lookup name = some target)
    (hn : ¬ (AllPermitted (databaseOptionPolicy target) database ∧ AllPermitted target.connectionOptionPolicy connection)) :
    (∃ e, x.answer = .error e) ∧ x.calls = [.load target.driver target.entrypoint] := by
  obtain ⟨r', p', name', database', connection', target', hashing, hr', hroute', htarget', hcall⟩ := hx
  rw [hr] at hr'
  cases hr'
  rw [hroute] at hroute'
  cases hroute'
  rw [htarget] at htarget'
  cases htarget'
  obtain ⟨e, he⟩ := @Backend.openConnection_refused srv.unicode base64 hashing x.manager _ _ _ hn
  rw [he] at hcall
  exact ⟨⟨e, congrArg Prod.fst hcall⟩, congrArg Prod.snd hcall⟩

theorem whole_refused (hw : Whole base64 host srv s) {r : Served} {p name : String}
    {database connection : List (String × OptionValue)} {target : TargetConfig} (hr : s.base.requests[n]? = some r)
    (hroute : route srv r.ctx r.invocation = .openSession p name database connection)
    (htarget : srv.config.targets.lookup name = some target)
    (hn : ¬ (AllPermitted (databaseOptionPolicy target) database ∧ AllPermitted target.connectionOptionPolicy connection)) :
    Refused srv s n r target := by
  have hfails : ¬ Succeeded s n := by
    rintro ⟨x, hx, rfl, hok⟩
    obtain ⟨⟨e, he⟩, -⟩ := recorded_refused (hw.recorded x hx) hr hroute htarget hn
    rw [he] at hok
    cases hok
  refine ⟨?_, ?_, ?_⟩
  · rintro x hx rfl
    exact (recorded_refused (hw.recorded x hx) hr hroute htarget hn).2
  · rintro id o ho rfl
    exact hfails (hw.objects id o ho)
  · intro reply hst
    rcases hw.plans n r p name database connection hr hroute with ⟨i, d, c, hst'⟩ | ⟨reply', hst', hok⟩
    · rw [hst] at hst'
      cases hst'
    · rw [hst] at hst'
      cases hst'
      exact hfails (hok reply rfl)

theorem made_set {a : Tenants.St} (hi : Inv host srv a) {d : Made} (hd : d ∈ a.made) {c : BackendCall} {key : String}
    {value : OptionValue} (hc : d.deed = .call c) (hset : setting c = some (key, value)) :
    ∃ n r o target, d.request = some n ∧ a.requests[n]? = some r ∧ Asked srv r.invocation key value ∧
      a.objects d.session = some o ∧ srv.config.targets.lookup o.target = some target ∧
      target.connectionOptionPolicy.permits key = true := by
  obtain ⟨n, hn, r, o, hr, ho, hallowed⟩ := hi.made d hd c hc
  obtain ⟨target, htarget, hpolicy⟩ := policyOf_configured hi.base ho
  simp only [CallAllowed, hset, hpolicy] at hallowed
  exact ⟨n, r, o, target, hn, hr, hallowed.2, ho, htarget, hallowed.1⟩

theorem inv_sets {a : Tenants.St} (hi : Inv host srv a) {r : Served} {key : String} {value : OptionValue}
    (hr : a.requests[n]? = some r) (ha : Asked srv r.invocation key value) : Sets host srv a n r key value := by
  have hstage := hi.stages n r hr
  refine ⟨?_, ?_, ?_⟩
  · intro d hd hn c hc
    obtain ⟨n', hn', r', o, hr', -, hallowed⟩ := hi.made d hd c hc
    rw [hn] at hn'
    cases hn'
    rw [hr] at hr'
    cases hr'
    unfold CallAllowed at hallowed
    split at hallowed
    · rename_i key' value' hset
      obtain ⟨rfl, rfl⟩ := asked_once ha hallowed.2
      exact hset
    · exact absurd (asked_sets ha) hallowed
  · intro id prog hst
    simp only [StageOk, hst] at hstage
    obtain ⟨o, ho, -, hruns⟩ := hstage
    obtain ⟨target, htarget, hpolicy⟩ := policyOf_configured hi.base ho
    have hruns := hruns key value ha
    rw [hpolicy] at hruns
    refine ⟨o, target, ho, htarget, hruns, ?_⟩
    intro hp
    cases prog with
    | call op k =>
      rw [hruns.of_call.1] at hp
      cases hp
    | done reply =>
      rcases hruns.of_done with ⟨d, hd, -, hid, c, hc, hset⟩ | ⟨e, he⟩
      · obtain ⟨_, _, o', target', -, -, -, ho', htarget', hp'⟩ := made_set hi hd hc hset
        rw [hid, ho] at ho'
        cases ho'
        rw [htarget] at htarget'
        cases htarget'
        rw [hp] at hp'
        cases hp'
      · exact ⟨e, by rw [he]⟩
  · intro reply hst
    simp only [StageOk, hst] at hstage
    exact hstage key value ha

end Policy

/-- The client's options over the whole life of its sessions, whatever else the server does:
    what the driver manager is given at the opens, which opens fail, the policy a session
    keeps, and what is set on it later. -/
theorem option_policy (base64 : Base64) (host : Host) (srv : Service)
    (hv : ∀ name target, srv.config.targets.lookup name = some target →
      Backend.validateTarget srv.unicode name target = .ok ())
    (s : St) (h : (machine base64 host srv).Reach s) :
    -- what a target permits
    (∀ name target, srv.config.targets.lookup name = some target → ∀ key,
      ((databaseOptionPolicy target).permits key = true ↔ (∀ o ∈ target.databaseOptions, o.key ≠ key) ∧
        (target.allowClientDatabaseOptions = true ∨ key ∈ target.allowedClientDatabaseOptions)) ∧
      (target.connectionOptionPolicy.permits key = true ↔ (∀ o ∈ target.connectionOptions, o.key ≠ key) ∧
        (target.allowClientConnectionOptions = true ∨ key ∈ target.allowedClientConnectionOptions))) ∧
    -- what the driver manager is given at an open
    (∀ x ∈ s.openings, ∃ r p name database connection target, s.base.requests[x.request]? = some r ∧
      route srv r.ctx r.invocation = .openSession p name database connection ∧
      srv.config.targets.lookup name = some target ∧ Keeps base64 target database connection x) ∧
    -- an open with an option that is not permitted
    (∀ n r p name database connection target, s.base.requests[n]? = some r →
      route srv r.ctx r.invocation = .openSession p name database connection →
      srv.config.targets.lookup name = some target →
      ¬ (AllPermitted (databaseOptionPolicy target) database ∧ AllPermitted target.connectionOptionPolicy connection) →
      Refused srv s n r target) ∧
    -- the policy of a session
    (∀ id o, s.base.objects id = some o → ∃ target, srv.config.targets.lookup o.target = some target ∧
      o.inner.connectionOptionPolicy = target.connectionOptionPolicy) ∧
    -- the options set later
    (∀ d ∈ s.base.made, ∀ c key value, d.deed = .call c → setting c = some (key, value) →
      ∃ n r o target, d.request = some n ∧ s.base.requests[n]? = some r ∧ Asked srv r.invocation key value ∧
        s.base.objects d.session = some o ∧ srv.config.targets.lookup o.target = some target ∧
        target.connectionOptionPolicy.permits key = true) ∧
    -- a request to set one
    (∀ n r key value, s.base.requests[n]? = some r → Asked srv r.invocation key value →
      Sets host srv s.base n r key value) := by
  have hw := reach_whole h
  refine ⟨fun name target _ key => ⟨Backend.permits_iff, Backend.permits_iff⟩, ?_, ?_, ?_, ?_, ?_⟩
  · exact fun x hx => recorded_keeps hv (hw.recorded x hx)
  · exact fun n r p name database connection target hr hroute htarget hn => whole_refused hw hr hroute htarget hn
  · intro id o ho
    obtain ⟨target, htarget, hpolicy⟩ := policyOf_configured hw.sets.base ho
    exact ⟨target, htarget, (hw.sets.policy id o ho).trans hpolicy⟩
  · exact fun d hd c key value hc hset => made_set hw.sets hd hc hset
  · exact fun n r key value hr ha => inv_sets hw.sets hr ha

/-- A password only the server knows, a user name the client may give. -/
def postgres : TargetConfig where
  driver := "adbc_driver_postgresql"
  entrypoint := none
  databaseOptions := [⟨"password", .string "server-secret"⟩]
  connectionOptions := [⟨"adbc.connection.readonly", .string "true"⟩]
  allowClientDatabaseOptions := false
  allowClientConnectionOptions := false
  allowedClientDatabaseOptions := ["uri", "username"]
  allowedClientConnectionOptions := ["adbc.connection.autocommit"]

def postgresService : Service :=
  let decode (t : RequestKind) (bytes : Bytes) (_ : Nat) : Except ProtocolError t.Record :=
    match t with
    | .openConnection => .ok ⟨"main", [⟨"username", ⟨"string", some "alice", none, none, none⟩⟩], []⟩
    | .setConnectionOption =>
      let key := if bytes = [] then "adbc.connection.autocommit" else "adbc.connection.readonly"
      .ok ⟨"c", key, ⟨"string", some "false", none, none, none⟩⟩
    | _ => .error (invalid "no record")
  { smallService with
    codec := { smallCodec with decodeRecordIpc := decode }
    config := { smallService.config with targets := AList.insert "main" postgres ∅ } }

def opener : Manager := ⟨.ok (), fun _ => .ok (), fun _ => .ok ()⟩

def postgresMachine : Machine St Ev := machine .standard Solo.smallHost postgresService

def setRequest (bytes : Bytes) : Protocol.Request where
  metadata := AList.insert "vgi_rpc.protocol_version" "0.4.0" ∅
  batch := ⟨⟨envelopeFields "request", []⟩, [.binary [some bytes]], 1,
    by simp [envelopeFields, Column.dataType, Column.length]⟩

/-- Up to the backend's open. -/
def aliceOpening : St := postgresMachine.run init
  (([.arrive Tenants.alice (.request .openConnection Tenants.openRequest), .move 0 .checkClosing, .move 0 .reap,
    .move 0 .reserve] : List Tenants.Ev).map .base)

def aliceGiven : List (String × OptionValue) := [("password", .string "server-secret"), ("username", .string "alice")]

def aliceCalls : List ManagerCall :=
  [.load "adbc_driver_postgresql" none, .newDatabase aliceGiven,
    .newConnection [("adbc.connection.readonly", .string "true")]]

/-- Its backend spawned. -/
def aliceSpawned : St :=
  ⟨Tenants.step Solo.smallHost postgresService aliceOpening.base (.move 0 (.spawn none)), [⟨0, opener, .ok (), aliceCalls⟩]⟩

theorem alice_opens : openConnection .ascii .standard inOrder opener postgres [("username", .string "alice")] [] =
    (.ok (), aliceCalls) := by
  have hd : Backend.firstRejected (databaseOptionPolicy postgres) [("username", .string "alice")] = none := by
    refine Backend.firstRejected_none.mpr fun e he => ?_
    obtain rfl := List.mem_singleton.mp he
    decide
  have hc : Backend.firstRejected postgres.connectionOptionPolicy [] = none :=
    Backend.firstRejected_none.mpr fun e he => by cases he
  simp only [openConnection, Backend.mergeOptions, hd, hc]
  rfl

theorem alice_spawns : postgresMachine.step aliceOpening (.spawns 0 inOrder opener) = aliceSpawned := by
  show (spawns .standard Solo.smallHost postgresService aliceOpening 0 inOrder opener).getD aliceOpening = _
  have h : spawns .standard Solo.smallHost postgresService aliceOpening 0 inOrder opener =
      some ⟨Tenants.step Solo.smallHost postgresService aliceOpening.base (.move 0 (.spawn none)),
        [⟨0, opener, (openConnection .ascii .standard inOrder opener postgres [("username", .string "alice")] []).1,
          (openConnection .ascii .standard inOrder opener postgres [("username", .string "alice")] []).2⟩]⟩ := rfl
  rw [h, alice_opens]
  rfl

/-- Her session and her two requests. -/
def aliceSets : St := postgresMachine.run aliceSpawned
  (.returns 0 :: ([.move 0 .receive, .move 0 (.workerStart none), .move 0 (.insert "c"),
    .arrive Tenants.alice (.request .setConnectionOption (setRequest [])), .proceed 1 Tenants.soon,
    .proceed 1 Tenants.soon, .proceed 1 Tenants.soon,
    .arrive Tenants.alice (.request .setConnectionOption (setRequest [1])), .proceed 2 Tenants.soon] :
      List Tenants.Ev).map .base)

theorem aliceSets_reach : postgresMachine.Reach aliceSets := by
  have hopening : postgresMachine.Reach aliceOpening := .run rfl _
  have hspawned := hopening.next (.spawns 0 inOrder opener)
  rw [alice_spawns] at hspawned
  exact hspawned.extend (.run _ _)

theorem aliceSets_third : ∃ r prog, aliceSets.base.requests[2]? = some r ∧ r.stage = .running "c" prog ∧
    Asked postgresService r.invocation "adbc.connection.readonly" (.string "false") :=
  ⟨_, _, rfl, rfl, _, _, rfl, rfl, rfl, rfl⟩

theorem postgresService_target {name : String} {target : TargetConfig}
    (h : postgresService.config.targets.lookup name = some target) : name = "main" ∧ target = postgres := by
  rw [show postgresService.config.targets = AList.insert "main" postgres ∅ from rfl] at h
  rcases eq_or_ne name "main" with rfl | hn
  · cases h
    exact ⟨rfl, rfl⟩
  · rw [AList.lookup_insert_ne hn] at h
    cases h

theorem postgresService_valid (name : String) (target : TargetConfig)
    (h : postgresService.config.targets.lookup name = some target) :
    Backend.validateTarget postgresService.unicode name target = .ok () := by
  obtain ⟨rfl, rfl⟩ := postgresService_target h
  rfl

/-- Alice opens with her user name: the database has it with the server's password. The
    autocommit she asked for was set; what would make the connection writable fails, with no
    call. -/
theorem option_policy_postgres :
    (∃ x ∈ aliceSets.openings, ∃ options, .newDatabase options ∈ x.calls ∧ (options.map Prod.fst).Nodup ∧
      ("password", .string "server-secret") ∈ options ∧ ("username", .string "alice") ∈ options) ∧
    (∃ id, SetMade aliceSets.base 1 id "adbc.connection.autocommit" (.string "false")) ∧
    (∃ r e, aliceSets.base.requests[2]? = some r ∧ r.stage = .running "c" (.done (.error e))) ∧
    ∀ d ∈ aliceSets.base.made, d.request = some 2 → ∀ c, d.deed ≠ .call c := by
  obtain ⟨-, hopenings, -, -, hmade, hsets⟩ :=
    option_policy .standard Solo.smallHost postgresService postgresService_valid aliceSets aliceSets_reach
  have hreadonly : postgres.connectionOptionPolicy.permits "adbc.connection.readonly" = false := by decide
  obtain ⟨r, prog, hr, hst, ha⟩ := aliceSets_third
  have hs := hsets 2 r _ _ hr ha
  refine ⟨?_, ?_, ?_, ?_⟩
  · refine ⟨⟨0, opener, .ok (), aliceCalls⟩, .head _, ?_⟩
    obtain ⟨r, p, name, database, connection, target, hr, hroute, htarget, hkeeps⟩ := hopenings _ (.head _)
    cases hr
    cases hroute
    cases htarget
    have hg := hkeeps.givenDatabase aliceGiven (.tail _ (.head _))
    refine ⟨aliceGiven, .tail _ (.head _), hg.once, ?_, hg.allClient _ (.head _)⟩
    obtain ⟨v, hvalue, hm⟩ := hg.allConfigured _ (.head _)
    cases hvalue
    exact hm
  · exact (hsets 1 _ "adbc.connection.autocommit" (.string "false") rfl ⟨_, _, rfl, rfl, rfl, rfl⟩).finished _ rfl
  · obtain ⟨o, target, ho, htarget, -, hrefused⟩ := hs.runs _ _ hst
    obtain ⟨-, rfl⟩ := postgresService_target htarget
    obtain ⟨e, rfl⟩ := hrefused hreadonly
    exact ⟨r, e, hr, hst⟩
  · intro d hd hn c hc
    obtain ⟨n, r, o, target, -, -, -, -, htarget, hp⟩ := hmade d hd c _ _ hc (hs.calls d hd hn c hc)
    obtain ⟨-, rfl⟩ := postgresService_target htarget
    rw [hreadonly] at hp
    cases hp

end Grainlift.Server.OptionPolicy
