/-
  Grainlift.Server.Solo — one handler at a time on a session, whatever happens to its
  worker calls.

  A call of the session's worker is answered, refused (the queue is full, the worker is
  gone), or given up on, and then its job was either skipped or ran all the same
  (`abandoned`, `late`). `respond` is one operation under such a fate; a solo run performs
  a handler's operations in order, each at a moment of its own.

  The result quota is tested by the job that registers a result, after the driver was
  asked; the statement quota by the job that asks it, before. So (`quota_harmless_iff`) a
  quota error means that nothing was done downstream and no result was lost, except
  when the reader a driver call returned meets a full result registry, or the driver's
  own error is that very value. `rejected_after_executing` is an EXECUTE rejected by the
  quota after its SQL ran.
-/

import Grainlift.Server.Service

namespace Grainlift.Server

open Grainlift.Lib Grainlift.Protocol

/-- What a session's operations run against. -/
structure Host where
  limits : SessionLimits
  ipc : Ipc
  operationTimeout : String

/-- What becomes of a worker call. -/
inductive Fate where
  | answered
  | full
  | stopped
  /-- Given up on, its job skipped. -/
  | abandoned
  /-- Given up on, its job run all the same. -/
  | late
  deriving DecidableEq

structure Moment where
  fate : Fate
  world : World

def timedOut (host : Host) : AdbcError := timeout ("downstream operation exceeded " ++ host.operationTimeout)

def queueFull : AdbcError := busy "session worker queue is full"

def workerStopped : AdbcError := internal "session worker stopped"

/-- One operation at one moment. Only worker calls have a fate. -/
def respond (host : Host) (m : Moment) : (op : Op) → Inner → Ans op × Inner
  | .hold h, s => h.perform host.ipc m.world s
  | .job j, s =>
    match m.fate with
    | .answered => j.perform host.limits m.world s
    | .full => (.error queueFull, s)
    | .stopped => (.error workerStopped, s)
    | .abandoned => (.error (timedOut host), s)
    | .late => (.error (timedOut host), (j.perform host.limits m.world s).2)

namespace Solo

structure St where
  inner : Inner
  moments : Nat → Moment
  time : Nat

def St.moment (s : St) (n : Nat) : Moment := s.moments (s.time + n)

def exec (host : Host) (op : Op) (s : St) : Ans op × St :=
  let r := respond host (s.moments s.time) op s.inner
  (r.1, { s with inner := r.2, time := s.time + 1 })

def run {ε α : Type} (host : Host) (x : Do ε α) (s : St) : Except ε α × St := Prog.run (exec host) x s

section Run

variable (host : Host) (s : St) {ε δ α β : Type}

theorem run_call (j : Job) : run host (call j) s = exec host (.job j) s := rfl

theorem run_hold (h : Hold) : run host (hold h) s = exec host (.hold h) s := rfl

@[simp] theorem run_done (r : Except ε α) : run host (.done r : Do ε α) s = (r, s) := rfl

@[simp] theorem run_pure (a : α) : run host (pure a : Do ε α) s = (.ok a, s) := rfl

@[simp] theorem run_fail (e : ε) : run host (.fail e : Do ε α) s = (.error e, s) := rfl

theorem run_bind (x : Do ε α) (f : α → Do ε β) :
    run host (x >>= f) s = Act.proceed id (run host x s) fun a s' => run host (f a) s' := Act.run_bind _ _ _ _

/-- A step of a session method inside a handler. -/
theorem run_adbc (x : Do AdbcError α) (f : α → Do RpcError β) :
    run host (x.mapErr .adbc >>= f) s = Act.proceed .adbc (run host x s) fun a s' => run host (f a) s' :=
  Act.run_mapErr_bind _ _ _ _ _

theorem run_recover (x : Do ε α) (f : ε → Do δ α) :
    run host (x.recover f) s = Act.rescue (run host x s) fun e s' => run host (f e) s' := Act.run_recover _ _ _ _

theorem run_ignore (x : Do ε α) : run host (x.ignore : Do δ Unit) s = (.ok (), (run host x s).2) :=
  Act.run_ignore _ _ _

end Run

/-! ## A quota error and what was done before it -/

/-- The RPC returned a quota error of the session layer. -/
def Rejected (r : Except RpcError Reply) : Prop :=
  r = .error (.adbc (quota "statement")) ∨ r = .error (.adbc (quota "result"))

/-- If the handler is rejected by a quota, it called nothing downstream and every result
    is still registered. -/
def Harmless (host : Host) (s : St) (body : Do RpcError Reply) : Prop :=
  Rejected (run host body s).1 →
    (run host body s).2.inner.calls = s.inner.calls ∧
    ∀ id, s.inner.results.lookup id ≠ none → (run host body s).2.inner.results.lookup id ≠ none

/-- The methods a quota can reject. -/
def quotaMethods : List Method :=
  [.newStatement, .execute, .readPartition, .getInfo, .getObjects, .getTableTypes, .getStatisticNames, .getStatistics]

def QuotaError (e : AdbcError) : Prop := e = quota "statement" ∨ e = quota "result"

instance (e : AdbcError) : Decidable (QuotaError e) := inferInstanceAs (Decidable (_ ∨ _))

variable (host : Host) (srv : Service) (ctx : CallContext) (s : St) (v : SessionView)

/-- A reader from the connection that is then refused a place, or a driver error that
    reads like a quota error. -/
def ReaderRefused : Prop :=
  (s.moment 0).fate = .answered ∧
  ((∃ e, (s.moment 0).world.driver.reader = .error e ∧ QuotaError e) ∨
    ((∃ r, (s.moment 0).world.driver.reader = .ok r) ∧ (s.moment 1).fate = .answered ∧
      host.limits.maxResultsPerSession ≤ s.inner.results.size))

def ExecuteRefused (statementId : String) : Prop :=
  statementId ∈ s.inner.statements ∧ (s.moment 0).fate = .answered ∧ (s.moment 1).fate = .answered ∧
  ((∃ e, (s.moment 1).world.driver.reader = .error e ∧ QuotaError e) ∨
    ((∃ r, (s.moment 1).world.driver.reader = .ok r) ∧ (s.moment 2).fate = .answered ∧ (s.moment 3).fate = .answered ∧
      host.limits.maxResultsPerSession ≤ (s.inner.results.retain (notOwnedBy statementId)).size))

def NewStatementRefused : Prop :=
  (s.moment 0).fate = .answered ∧ s.inner.statements.card < host.limits.maxStatementsPerSession ∧
  ∃ e, (s.moment 0).world.driver.unit = .error e ∧ QuotaError e

@[simp] theorem rejected_ok (r : Reply) : ¬ Rejected (.ok r) := by simp [Rejected]
@[simp] theorem rejected_protocol (e : ProtocolError) : ¬ Rejected (.error (.protocol e)) := by simp [Rejected]
@[simp] theorem rejected_adbc {e : AdbcError} :
    Rejected (.error (.adbc e)) ↔ QuotaError e := by simp [Rejected, QuotaError]

@[simp] theorem quotaError_result : QuotaError (quota "result") := Or.inr rfl
@[simp] theorem quotaError_statement : QuotaError (quota "statement") := Or.inl rfl

/-- What a worker call says when it was not answered is no quota error. -/
theorem unanswered_not_quota : ¬ QuotaError queueFull ∧ ¬ QuotaError workerStopped ∧ ¬ QuotaError (timedOut host) := by
  refine ⟨by decide, by decide, ?_⟩
  intro h
  rcases h with h | h <;> cases congrArg AdbcError.status h

/-- A call that was not answered answers an error, and it is no quota error. -/
theorem exec_unanswered {j : Job} (h : (s.moments s.time).fate ≠ .answered) :
    ∃ e, (exec host (.job j) s).1 = .error e ∧ ¬ QuotaError e := by
  obtain ⟨hf, hs, ht⟩ := unanswered_not_quota host
  simp only [exec, respond]
  cases hm : (s.moments s.time).fate with
  | answered => exact absurd hm h
  | full => exact ⟨_, rfl, hf⟩
  | stopped => exact ⟨_, rfl, hs⟩
  | abandoned => exact ⟨_, rfl, ht⟩
  | late => exact ⟨_, rfl, ht⟩

theorem exec_answered {j : Job} (h : (s.moments s.time).fate = .answered) :
    exec host (.job j) s = ((j.perform host.limits (s.moments s.time).world s.inner).1,
      { s with inner := (j.perform host.limits (s.moments s.time).world s.inner).2, time := s.time + 1 }) := by
  simp only [exec, respond, h]

/-- A call that is not answered ends its handler with an error that is no quota error. -/
theorem unanswered_not_rejected {j : Job} (f : j.Ret → Do RpcError Reply) (h : (s.moments s.time).fate ≠ .answered) :
    ¬ Rejected (run host ((call j).mapErr .adbc >>= f) s).1 := by
  obtain ⟨e, he, hn⟩ := exec_unanswered host s (j := j) h
  rw [run_adbc, run_call]
  generalize exec host (.job j) s = r at he
  obtain ⟨_ | a, s'⟩ := r
  · cases he
    simp [hn]
  · cases he

/-- Once the result has its place, no quota error can come. -/
theorem resultResponse_not_rejected (resultId : String) (schema : Schema) (limit : Nat) :
    ¬ Rejected (run host (resultResponse srv resultId schema limit) s).1 := by
  unfold resultResponse
  split
  · simp
  · rw [run_bind, run_ignore]; simp

/-- What is registered and answered once a driver call returned `reader`. -/
def register (owner : Option String) (reader : Reader) (limit : Nat) : Do RpcError Reply := do
  let inserted ← (insertOwnedResult owner reader).mapErr .adbc
  resultResponse srv inserted.1 inserted.2 limit

/-- The registration is rejected exactly when it meets a full registry. -/
theorem register_rejected (owner : Option String) (reader : Reader) (limit : Nat) :
    Rejected (run host (register srv owner reader limit) s).1 ↔
      (s.moments s.time).fate = .answered ∧ host.limits.maxResultsPerSession ≤ s.inner.results.size := by
  by_cases hf : (s.moments s.time).fate = .answered
  · rw [register, run_adbc, insertOwnedResult, run_call, exec_answered host s hf]
    by_cases hq : host.limits.maxResultsPerSession ≤ s.inner.results.size
    · simp [Job.perform, insertResultJob, hq, hf]
    · simp [Job.perform, insertResultJob, hq, resultResponse_not_rejected]
  · simp only [hf, false_and, iff_false]
    exact unanswered_not_rejected host s (j := .insertResult owner reader) _ hf

/-- Then it did nothing. -/
theorem register_rejected_inner {owner : Option String} {reader : Reader} {limit : Nat}
    (h : Rejected (run host (register srv owner reader limit) s).1) :
    (run host (register srv owner reader limit) s).2.inner = s.inner := by
  obtain ⟨hf, hq⟩ := (register_rejected host srv s owner reader limit).mp h
  rw [register, run_adbc, insertOwnedResult, run_call, exec_answered host s hf]
  simp [Job.perform, insertResultJob, hq]

theorem called_ne (i : Inner) (c : BackendCall) : (i.called c).calls ≠ i.calls := by simp [Inner.called]

/-- A reader from the connection becomes a result: the metadata methods and READ_PARTITION. -/
theorem thenInsert_harmless {x : Do AdbcError Reader} {c : BackendCall}
    (ha : (s.moments s.time).fate = .answered →
      run host x s = ((s.moments s.time).world.driver.reader, ⟨s.inner.called c, s.moments, s.time + 1⟩))
    (hu : (s.moments s.time).fate ≠ .answered → ∃ e s', run host x s = (.error e, s') ∧ ¬ QuotaError e) :
    Harmless host s (thenInsert srv ctx x) ↔ ¬ ReaderRefused host s := by
  have hrun : run host (thenInsert srv ctx x) s = Act.proceed .adbc (run host x s) fun reader s' =>
      run host (register srv none reader (responseLimit ctx)) s' := run_adbc host s x _
  simp only [Harmless, ReaderRefused, hrun, St.moment, Nat.add_zero]
  by_cases hf : (s.moments s.time).fate = .answered
  · rw [ha hf]
    cases hd : (s.moments s.time).world.driver.reader with
    | error e => simp [hf, called_ne]
    | ok reader =>
      simp only [Act.proceed_ok]
      have hr := register_rejected host srv ⟨s.inner.called c, s.moments, s.time + 1⟩ none reader (responseLimit ctx)
      constructor
      · intro h hx
        obtain ⟨-, ⟨e, he, -⟩ | ⟨-, hf', hq⟩⟩ := hx
        · cases he
        · have hrej := hr.mpr ⟨hf', hq⟩
          have hc := (h hrej).1
          rw [register_rejected_inner host srv _ hrej] at hc
          exact called_ne _ _ hc
      · intro h hrej
        obtain ⟨hf', hq⟩ := hr.mp hrej
        exact absurd ⟨hf, .inr ⟨⟨reader, rfl⟩, hf', hq⟩⟩ h
  · obtain ⟨e, s', he, hn⟩ := hu hf
    rw [he]
    simp [hf, hn]

theorem withConnection_answered {op : ConnectionOp} (hr : op.reaches = true)
    (h : (s.moments s.time).fate = .answered) :
    run host (withConnection op) s = (op.answer (s.moments s.time).world.driver,
      ⟨s.inner.called (.connection op (op.answer (s.moments s.time).world.driver)), s.moments, s.time + 1⟩) := by
  rw [withConnection, run_call, exec_answered host s h]
  simp only [Job.perform, hr, if_true]

theorem call_unanswered {j : Job} (h : (s.moments s.time).fate ≠ .answered) :
    ∃ e s', run host (call j) s = (.error e, s') ∧ ¬ QuotaError e := by
  obtain ⟨e, he, hn⟩ := exec_unanswered host s (j := j) h
  exact ⟨e, (exec host (.job j) s).2, Prod.ext he rfl, hn⟩

theorem newStatement_harmless : Harmless host s (newStatementHandler srv ctx v) ↔ ¬ NewStatementRefused host s := by
  have hresp : ∀ id limit s', ¬ Rejected (run host (handleResponse srv (.statement v.sessionId id) limit
      (closeStatement id).ignore) s').1 := by
    intro id limit s'
    unfold handleResponse
    split
    · simp
    · rw [run_bind, run_ignore]; simp
  simp only [Harmless, NewStatementRefused, St.moment, Nat.add_zero]
  by_cases hf : (s.moments s.time).fate = .answered
  · rw [newStatementHandler, run_adbc, newStatement, run_call, exec_answered host s hf]
    by_cases hq : host.limits.maxStatementsPerSession ≤ s.inner.statements.card
    · simp [Job.perform, newStatementJob, hq, Nat.not_lt.mpr hq]
    · cases hd : (s.moments s.time).world.driver.unit with
      | error e => simp [Job.perform, newStatementJob, hq, hd, hf, called_ne, Nat.lt_of_not_le hq]
      | ok u => simp [Job.perform, newStatementJob, hq, hd, hresp]
  · have := unanswered_not_rejected host s (j := .newStatement)
      (fun id => handleResponse srv (.statement v.sessionId id) (responseLimit ctx) (closeStatement id).ignore) hf
    exact ⟨fun _ h => hf h.1, fun _ hr => absurd hr this⟩

/-- What EXECUTE does with the reader it got. -/
def executed (statementId : String) (reader : Reader) : Do RpcError Reply := do
  let inserted ← (insertStatementResult statementId reader).mapErr .adbc
  resultResponse srv inserted.1 inserted.2 (responseLimit ctx)

theorem run_executed (statementId : String) (reader : Reader) :
    run host (executed srv ctx statementId reader) s =
      Act.proceed .adbc (exec host (.job (.invalidate statementId)) s) fun _ s' =>
        run host (register srv (some statementId) reader (responseLimit ctx)) s' := by
  rw [executed, run_adbc, insertStatementResult, run_bind, invalidateStatementResults, run_call]
  generalize exec host (.job (.invalidate statementId)) s = r
  obtain ⟨_ | a, s'⟩ := r
  · rfl
  · simp only [Act.proceed_ok]
    rw [register, run_adbc]

/-- EXECUTE, once it read its statement id. -/
theorem executeHandler_eq {request : Request} {statementId : String}
    (hs : string request "statement_id" = .ok statementId) :
    executeHandler srv ctx request = (call (.invalidate statementId)).mapErr .adbc >>= fun _ =>
      (call (.statement statementId .execute)).mapErr .adbc >>= executed srv ctx statementId := by
  unfold executeHandler
  rw [hs]
  rfl

/-- The registration after EXECUTE's driver call: rejected exactly when the second
    invalidation and the insert are answered and the registry is full in between. -/
theorem executed_rejected (statementId : String) (reader : Reader) :
    Rejected (run host (executed srv ctx statementId reader) s).1 ↔
      (s.moment 0).fate = .answered ∧ (s.moment 1).fate = .answered ∧
      host.limits.maxResultsPerSession ≤ (s.inner.results.retain (notOwnedBy statementId)).size := by
  simp only [St.moment, Nat.add_zero]
  by_cases h0 : (s.moments s.time).fate = .answered
  · rw [run_executed, exec_answered host s h0]
    simp only [Job.perform, Act.proceed_ok, register_rejected, h0, true_and]
  · obtain ⟨e, he, hn⟩ := exec_unanswered host s (j := .invalidate statementId) h0
    rw [run_executed]
    generalize exec host (.job (.invalidate statementId)) s = r at he
    obtain ⟨_ | a, s'⟩ := r
    · cases he
      simp [hn, h0]
    · cases he

theorem executed_rejected_calls {statementId : String} {reader : Reader}
    (h : Rejected (run host (executed srv ctx statementId reader) s).1) :
    (run host (executed srv ctx statementId reader) s).2.inner.calls = s.inner.calls := by
  have h0 := ((executed_rejected host srv ctx s statementId reader).mp h).1
  simp only [St.moment, Nat.add_zero] at h0
  rw [run_executed, exec_answered host s h0] at h ⊢
  simp only [Job.perform, Act.proceed_ok] at h ⊢
  rw [register_rejected_inner host srv _ h]

theorem execute_harmless {request : Request} {statementId : String}
    (hs : string request "statement_id" = .ok statementId) :
    Harmless host s (executeHandler srv ctx request) ↔ ¬ ExecuteRefused host s statementId := by
  rw [executeHandler_eq srv ctx hs]
  simp only [Harmless, ExecuteRefused, St.moment, Nat.add_zero]
  by_cases h0 : (s.moments s.time).fate = .answered
  case neg => exact ⟨fun _ h => h0 h.2.1, fun _ hr => absurd hr (unanswered_not_rejected host s _ h0)⟩
  rw [run_adbc, run_call, exec_answered host s h0]
  simp only [Job.perform, Act.proceed_ok]
  by_cases h1 : (s.moments (s.time + 1)).fate = .answered
  case neg => exact ⟨fun _ h => h1 h.2.2.1, fun _ hr => absurd hr (unanswered_not_rejected host _ _ h1)⟩
  rw [run_adbc, run_call, exec_answered host _ h1]
  by_cases hm : statementId ∈ s.inner.statements
  case neg =>
    have hn : ¬ QuotaError (notFound "statement") := by decide
    simp [Job.perform, hm, hn]
  cases hd : (s.moments (s.time + 1)).world.driver.reader with
  | error e =>
    simp [Job.perform, hm, StatementOp.answer, hd, StatementOp.reaches, h0, h1, Inner.called]
  | ok reader =>
    simp only [Job.perform, hm, StatementOp.answer, hd, StatementOp.reaches, if_true, Act.proceed_ok]
    generalize hs2 : (⟨_, s.moments, s.time + 1 + 1⟩ : St) = s2
    have hr := executed_rejected host srv ctx s2 statementId reader
    have hcalls : s2.inner.calls ≠ s.inner.calls := by rw [← hs2]; simp [Inner.called]
    have hres : s2.inner.results = s.inner.results.retain (notOwnedBy statementId) := by rw [← hs2]; rfl
    have hm2 : s2.moment 0 = s.moments (s.time + 2) ∧ s2.moment 1 = s.moments (s.time + 3) := by
      rw [← hs2]; exact ⟨rfl, rfl⟩
    rw [hm2.1, hm2.2, hres, Table.retain_retain] at hr
    constructor
    · intro h hx
      obtain ⟨-, -, -, ⟨e, he, -⟩ | ⟨-, h2, h3, hq⟩⟩ := hx
      · cases he
      · have hrej := hr.mpr ⟨h2, h3, hq⟩
        exact hcalls ((executed_rejected_calls host srv ctx s2 hrej).symm.trans (h hrej).1)
    · intro h hrej
      obtain ⟨h2, h3, hq⟩ := hr.mp hrej
      exact absurd ⟨trivial, h0, h1, .inr ⟨⟨reader, rfl⟩, h2, h3, hq⟩⟩ h

/-- A handler that fails before its first operation. -/
theorem harmless_of_done {body : Do RpcError Reply} {r : Except RpcError Reply} (h : run host body s = (r, s)) :
    Harmless host s body := by
  intro _
  rw [h]
  exact ⟨rfl, fun _ hid => hid⟩

/-! ## Every method a quota can reject -/

/-- The handler had something done downstream, or dropped results, and reports a quota
    error: by the method, what it was sent, the session's state and the answers it met. -/
def Misreports (request : Request) : Method → Prop
  | .newStatement => NewStatementRefused host s
  | .execute => ∃ statementId, string request "statement_id" = .ok statementId ∧ ExecuteRefused host s statementId
  | .readPartition =>
    (∃ token, binary request "payload" = .ok token ∧
      ∃ partition, ctx.signer.openToken v.target v.principal token maxControlBytes = .ok partition) ∧
        ReaderRefused host s
  | .getObjects =>
    (∃ args : GetObjectsRequest, typedRequest srv .getObjects request = .ok args ∧
      ∃ depth, srv.codec.objectDepth args.depth.toInt32.toInt = .ok depth) ∧ ReaderRefused host s
  | _ => ReaderRefused host s

theorem execute_stops {request : Request} {e : RpcError} (hs : string request "statement_id" = .error e) :
    run host (executeHandler srv ctx request) s = (.error e, s) := by
  unfold executeHandler
  rw [hs]
  rfl

theorem readPartition_harmless (request : Request) :
    Harmless host s (readPartitionHandler srv ctx request v) ↔
      ¬ Misreports host srv ctx s v request .readPartition := by
  simp only [Misreports]
  cases hb : binary request "payload" with
  | error e =>
    have hrun : run host (readPartitionHandler srv ctx request v) s = (.error e, s) := by
      unfold readPartitionHandler
      rw [hb]
      rfl
    simp [harmless_of_done host s hrun]
  | ok token =>
    have heq : readPartitionHandler srv ctx request v = (do
        let partition ← orAdbc (ctx.signer.openToken v.target v.principal token maxControlBytes)
        thenInsert srv ctx (withConnection (.readPartition partition)) : Do RpcError Reply) := by
      unfold readPartitionHandler
      rw [hb]
      rfl
    cases ho : ctx.signer.openToken v.target v.principal token maxControlBytes with
    | error e =>
      have hrun : run host (readPartitionHandler srv ctx request v) s = (.error (.adbc e), s) := by
        rw [heq, ho]
        rfl
      simp [ho, harmless_of_done host s hrun]
    | ok partition =>
      have heq' : readPartitionHandler srv ctx request v =
          thenInsert srv ctx (withConnection (.readPartition partition)) := by
        rw [heq, ho]
        rfl
      rw [heq', thenInsert_harmless host srv ctx s (withConnection_answered host s rfl) (call_unanswered host s)]
      simp [ho]

theorem getObjects_harmless {request : Request} {args : GetObjectsRequest}
    (ha : typedRequest srv .getObjects request = .ok args) :
    Harmless host s (getObjectsHandler srv ctx args) ↔ ¬ Misreports host srv ctx s v request .getObjects := by
  have hex : Misreports host srv ctx s v request .getObjects ↔
      (∃ depth, srv.codec.objectDepth args.depth.toInt32.toInt = .ok depth) ∧ ReaderRefused host s := by
    simp only [Misreports]
    refine and_congr_left fun _ => ⟨?_, fun hd => ⟨args, ha, hd⟩⟩
    intro h
    obtain ⟨args', h', hd⟩ := h
    obtain rfl : args' = args := Except.ok.inj (h'.symm.trans ha)
    exact hd
  rw [hex]
  cases hd : srv.codec.objectDepth args.depth.toInt32.toInt with
  | error e =>
    have hrun : run host (getObjectsHandler srv ctx args) s = (.error (.adbc e), s) := by
      unfold getObjectsHandler
      rw [hd]
      rfl
    simp [harmless_of_done host s hrun]
  | ok depth =>
    have heq : getObjectsHandler srv ctx args = thenInsert srv ctx (withConnection (.getObjects depth args.catalog
        args.dbSchema args.tableName args.tableTypes args.columnName)) := by
      unfold getObjectsHandler
      rw [hd]
      rfl
    rw [heq, thenInsert_harmless host srv ctx s (withConnection_answered host s rfl) (call_unanswered host s)]
    simp

/-- For every method with a quota, and every fate of its calls: a quota error means that nothing
    was called downstream and no result was lost, if and only if it is not one of the cases of
    `Misreports`. -/
theorem quota_harmless_iff (m : Method) (hm : m ∈ quotaMethods) (request : Request) (p sessionId : String)
    (body : SessionView → Do RpcError Reply) (hr : route srv ctx (.request m request) = .onSession p sessionId body) :
    Harmless host s (body v) ↔ ¬ Misreports host srv ctx s v request m := by
  simp only [quotaMethods, List.mem_cons, List.not_mem_nil, or_false] at hm
  rcases hm with rfl | rfl | rfl | rfl | rfl | rfl | rfl | rfl
  · obtain ⟨-, rfl⟩ := getSession_onSession hr
    exact newStatement_harmless host srv ctx s v
  · obtain ⟨-, rfl⟩ := getSession_onSession hr
    cases hs : string request "statement_id" with
    | ok statementId => simp [Misreports, hs, execute_harmless host srv ctx s hs]
    | error e => simp [Misreports, hs, harmless_of_done host s (execute_stops host srv ctx s hs)]
  · obtain ⟨-, rfl⟩ := getSession_onSession hr
    exact readPartition_harmless host srv ctx s v request
  · obtain ⟨args, -, -, rfl⟩ := typed_onSession hr
    exact thenInsert_harmless host srv ctx s (withConnection_answered host s rfl) (call_unanswered host s)
  · obtain ⟨args, ha, -, rfl⟩ := typed_onSession hr
    exact getObjects_harmless host srv ctx s v ha
  · obtain ⟨-, rfl⟩ := getSession_onSession hr
    exact thenInsert_harmless host srv ctx s (withConnection_answered host s rfl) (call_unanswered host s)
  · obtain ⟨-, rfl⟩ := getSession_onSession hr
    exact thenInsert_harmless host srv ctx s (withConnection_answered host s rfl) (call_unanswered host s)
  · obtain ⟨args, -, -, rfl⟩ := typed_onSession hr
    exact thenInsert_harmless host srv ctx s (withConnection_answered host s rfl) (call_unanswered host s)

/-! ## A rejected EXECUTE that ran -/

def smallHost : Host :=
  ⟨smallService.config.limits, ⟨fun _ => .ok 8, fun _ _ _ => .ok 8, 8, fun _ bs i => (bs[i]?).map .ok⟩, "300s"⟩

/-- Two statements; the one result the quota allows belongs to the second. -/
def fullSession : St where
  inner :=
    { connectionOptionPolicy := .new false [] []
      statements := {"s1", "s2"}
      results := AList.insert "r" (.fresh (some "s2") emptyReader) ∅
      bindUploads := ∅
      calls := [] }
  moments _ := ⟨.answered, willing, .fine, "fresh"⟩
  time := 0

def smallView : SessionView := ⟨"c", "\x00anonymous", "main", .new false [] []⟩

theorem quota_harmless_iff_full : Harmless smallHost fullSession
      (executeHandler smallService anonymous (flatRequest [("session_id", "c"), ("statement_id", "s1")])) ↔
    ¬ Misreports smallHost smallService anonymous fullSession smallView
      (flatRequest [("session_id", "c"), ("statement_id", "s1")]) .execute :=
  quota_harmless_iff smallHost smallService anonymous fullSession smallView .execute (by decide) _ "\x00anonymous" "c"
    (fun _ => executeHandler smallService anonymous _) rfl

/-- EXECUTE of the first is rejected by the quota after its SQL ran. -/
theorem rejected_after_executing : ∃ body,
    route smallService anonymous (.request .execute (flatRequest [("session_id", "c"), ("statement_id", "s1")])) =
      .onSession "\x00anonymous" "c" body ∧
    (run smallHost (body smallView) fullSession).1 = .error (.adbc (quota "result")) ∧
    (run smallHost (body smallView) fullSession).2.inner.calls = [.statement "s1" .execute (.ok emptyReader)] ∧
    ¬ Harmless smallHost fullSession (body smallView) := by
  refine ⟨_, rfl, rfl, rfl, ?_⟩
  intro h
  have hc : (run smallHost _ fullSession).2.inner.calls = [] := (h (Or.inr rfl)).1
  exact List.cons_ne_nil _ _ hc

end Solo

end Grainlift.Server
