/-
  Grainlift.Server.Locks — which locks are held while a driver is called (session.rs).

  Every mutex is a lock with its holder. A worker's closure and what a handler does by
  itself are programs that take locks, read and change what those guard, and call the
  driver; `SessionManager::get`, `close`, `reap_expired`, `close_all`, the three critical
  sections of `open`, `resource_counts` and `Drop for Session` are programs too. A thread
  is inside a driver call while that call is its next step. Destructors of statements and
  readers are driver calls like the others.

  Any thread may begin any operation at any time, a worker may get any job when it has
  none (`Worker` says which it gets), and what the registry says of a session (`Question`)
  is answered by the environment (`Admission` and `Lease` have it): the runs here are more
  than the server's. Guards are not poisoned.

  `closure_run` and `holds_run`: run alone, a closure and a hold do what `Job.perform` and
  `Hold.perform` say. `reach_wf`: in every reachable state the locks of a worker and of a
  thread are those its code expects, `around` a job's driver calls and `beside` an operation's.
-/

import Grainlift.Lib.Machine
import Grainlift.Lib.Mutex
import Grainlift.Server.Solo

namespace Grainlift.Server.Locks

open Grainlift.Lib Grainlift.Lib.Mutex Grainlift.Protocol Function

inductive Lock where
  | registry
  | lastUsed (session : String)
  | connection (session : String)
  | statements (session : String)
  | results (session : String)
  | bindUploads (session : String)
  /-- `StatementEntry::statement` -/
  | statement (session id : String)
  | result (session id : String)
  deriving DecidableEq

/-! ## Steps -/

inductive DriverCall where
  | connection (op : ConnectionOp)
  | newStatement
  /-- `cancel_handle` of a new statement. -/
  | cancelHandle
  | statement (id : String) (op : StatementOp)
  | dropStatement (id : String)
  | readerSchema (reader : Reader)
  | pull (result : String)
  | dropReader
  | cancelConnection
  | cancelStatement (id : String)
  | dropResources

@[reducible] def DriverCall.Out : DriverCall → Type
  | .connection op => op.Ret
  | .statement _ op => op.Ret
  | .readerSchema _ => Schema
  | .newStatement | .cancelHandle | .dropStatement _ | .pull _ | .dropReader | .cancelConnection | .cancelStatement _ |
    .dropResources => Unit

/-- What is read or changed under a lock of the session. -/
inductive Data where
  | fresh
  | statementCount
  | hasStatement (id : String)
  | statementIds
  | insertStatement (id : String)
  | removeStatement (id : String)
  | resultCount
  | resultIds
  | hasResult (id : String)
  | insertResult (id : String) (owner : Option String) (reader : Reader)
  | removeResult (id : String)
  | ownedBy (statementId id : String)
  | schemaOf (id : String)
  | polls (id : String) (sequence : Int64)
  | next (id : String) (sequence : Int64)
  | uploadCount
  | drainUploads
  | hold (h : Hold)

@[reducible] def Data.Out : Data → Type
  | .fresh => String
  | .statementCount | .resultCount | .uploadCount => Nat
  | .statementIds => Finset String
  | .resultIds => List String
  | .hasStatement _ | .hasResult _ | .ownedBy _ _ | .polls _ _ => Bool
  | .insertStatement _ | .removeStatement _ | .insertResult _ _ _ | .removeResult _ | .drainUploads => Unit
  | .schemaOf _ => Schema
  | .next _ _ => Option RecordBatch
  | .hold h => h.Ret

/-- What the registry and the lease say of a session. -/
inductive Question where
  | registered
  | owned
  /-- Does another reference to the session live? -/
  | inFlight
  | expired
  | closing
  | full
  | fullForPrincipal

inductive Prim where
  | driver (session : String) (f : DriverCall)
  | data (session : String) (d : Data)
  | asks (q : Question)
  | sessions

@[reducible] def Prim.Out : Prim → Type
  | .driver _ f => f.Out
  | .data _ d => d.Out
  | .asks _ => Bool
  | .sessions => List String

@[reducible] def Prim.Ans (o : Prim) : Type := Except AdbcError o.Out

/-- What the world answers to one step. -/
structure Env where
  world : World
  answer : Question → Bool
  sessions : List String

section Perform

variable (ipc : Ipc) (e : Env)

def DriverCall.perform : (f : DriverCall) → Inner → Except AdbcError f.Out × Inner
  | .connection op, s => (op.answer e.world.driver, s.called (.connection op (op.answer e.world.driver)))
  | .newStatement, s => (e.world.driver.unit, s.called (.newStatement e.world.driver.unit))
  | .statement id op, s => (op.answer e.world.driver, s.called (.statement id op (op.answer e.world.driver)))
  | .readerSchema reader, s => (.ok reader.schema, s)
  | .pull id, s => (.ok (), s.called (.pull id))
  | .cancelConnection, s => (e.world.driver.unit, s.called .cancelConnection)
  | .cancelStatement id, s => (e.world.driver.unit, s.called (.cancelStatement id))
  | .cancelHandle, s | .dropStatement _, s | .dropReader, s | .dropResources, s => (.ok (), s)

/-- Whether `next` comes to the reader. -/
def polled (sequence : Int64) (entry : ResultEntry) : Bool :=
  (entry.next sequence).2.reader.polled ≠ entry.reader.polled

def Data.perform : (d : Data) → Inner → Except AdbcError d.Out × Inner
  | .fresh, s => (.ok e.world.fresh, s)
  | .statementCount, s => (.ok s.statements.card, s)
  | .hasStatement id, s => (.ok (decide (id ∈ s.statements)), s)
  | .statementIds, s => (.ok s.statements, s)
  | .insertStatement id, s => (.ok (), { s with statements := insert id s.statements })
  | .removeStatement id, s => (.ok (), { s with statements := s.statements.erase id })
  | .resultCount, s => (.ok s.results.size, s)
  | .resultIds, s => (.ok s.results.keys, s)
  | .hasResult id, s => (.ok (s.results.lookup id).isSome, s)
  | .insertResult id owner reader, s => (.ok (), { s with results := s.results.insert id (.fresh owner reader) })
  | .removeResult id, s => (.ok (), { s with results := s.results.erase id })
  | .ownedBy statementId id, s => (.ok ((s.results.lookup id).any fun r => !notOwnedBy statementId id r), s)
  | .schemaOf id, s => (((s.results.lookup id).map ResultEntry.schema).elim (.error (notFound "result")) .ok, s)
  | .polls id sequence, s => (.ok ((s.results.lookup id).any (polled sequence)), s)
  | .next id sequence, s =>
    match s.results.lookup id with
    | none => (.error (notFound "result"), s)
    | some entry => ((entry.next sequence).1, { s with results := s.results.insert id (entry.next sequence).2 })
  | .uploadCount, s => (.ok s.bindUploads.size, s)
  | .drainUploads, s => (.ok (), { s with bindUploads := ∅ })
  | .hold h, s => h.perform ipc e.world s

/-- A step on the session's own data. -/
def Prim.own : (o : Prim) → Inner → o.Ans × Inner
  | .driver _ f, s => f.perform e s
  | .data _ d, s => d.perform ipc e s
  | .asks q, s => (.ok (e.answer q), s)
  | .sessions, s => (.ok e.sessions, s)

/-- A step on the data of the session it names. -/
def Prim.perform : (o : Prim) → (String → Inner) → o.Ans × (String → Inner)
  | .driver sid f, x => ((f.perform e (x sid)).1, update x sid (f.perform e (x sid)).2)
  | .data sid d, x => ((d.perform ipc e (x sid)).1, update x sid (d.perform ipc e (x sid)).2)
  | .asks q, x => (.ok (e.answer q), x)
  | .sessions, x => (.ok e.sessions, x)

end Perform

/-! ## The worker's closures -/

abbrev Code (α : Type) := Act (Mutex.Ans Lock Prim.Ans) AdbcError α

def does (o : Prim) : Code o.Out := .call (Step.op o) .done

def locked {α : Type} (l : Lock) (x : Code α) : Code α := guarded l x

section Closures

variable (limits : SessionLimits) (sid : String)

def driver (f : DriverCall) : Code f.Out := does (.driver sid f)

def data (d : Data) : Code d.Out := does (.data sid d)

def unknownValueType : AdbcError := .withMessageAndStatus "unknown option value type" .invalidArguments

def withConnectionClosure (op : ConnectionOp) : Code op.Ret :=
  locked (.connection sid) (if op.reaches then driver sid (.connection op) else .fail unknownValueType)

/-- `statements` is locked to the end; the guard of the connection goes with its statement. -/
def newStatementClosure : Code String :=
  locked (.statements sid) do
    let n ← data sid .statementCount
    if limits.maxStatementsPerSession ≤ n then .fail (quota "statement")
    else do
      locked (.connection sid) (driver sid .newStatement)
      driver sid .cancelHandle
      let id ← data sid .fresh
      data sid (.insertStatement id)
      pure id

/-- The entry is cloned out of the registry, whose guard goes before the statement's is taken. -/
def withStatementClosure (id : String) (op : StatementOp) : Code op.Ret := do
  let found ← locked (.statements sid) (data sid (.hasStatement id))
  if found then
    locked (.statement sid id) (if op.reaches then driver sid (.statement id op) else .fail unknownValueType)
  else .fail (notFound "statement")

/-- The removed entry goes before the guard it was removed under. -/
def closeStatementClosure (id : String) : Code Unit :=
  locked (.statements sid) do
    let found ← data sid (.hasStatement id)
    if found then do
      data sid (.removeStatement id)
      driver sid (.dropStatement id)
    else .fail (notFound "statement")

/-- `retain`: each entry is locked for the test, and an entry that fails it goes. -/
def retainLoop (statementId : String) : List String → Code Unit
  | [] => pure ()
  | id :: ids => do
    let owned ← locked (.result sid id) (data sid (.ownedBy statementId id))
    if owned then do
      data sid (.removeResult id)
      driver sid .dropReader
      retainLoop statementId ids
    else retainLoop statementId ids

def invalidateClosure (statementId : String) : Code Unit :=
  locked (.results sid) do
    let ids ← data sid .resultIds
    retainLoop sid statementId ids

/-- A reader that is refused goes after the guard. -/
def insertResultClosure (owner : Option String) (reader : Reader) : Code (String × Schema) := do
  let schema ← driver sid (.readerSchema reader)
  let id ← data sid .fresh
  let inserted : Code Bool := locked (.results sid) do
    let n ← data sid .resultCount
    if limits.maxResultsPerSession ≤ n then pure false
    else do
      data sid (.insertResult id owner reader)
      pure true
  let kept ← inserted
  if kept then pure (id, schema)
  else do
    driver sid .dropReader
    .fail (quota "result")

def resultSchemaClosure (id : String) : Code Schema := do
  let found ← locked (.results sid) (data sid (.hasResult id))
  if found then locked (.result sid id) (data sid (.schemaOf id))
  else .fail (notFound "result")

def nextResultClosure (id : String) (sequence : Int64) : Code (Option RecordBatch) := do
  let found ← locked (.results sid) (data sid (.hasResult id))
  if found then
    locked (.result sid id) do
      let polls ← data sid (.polls id sequence)
      if polls then do
        driver sid (.pull id)
        data sid (.next id sequence)
      else data sid (.next id sequence)
  else .fail (notFound "result")

def closeResultClosure (id : String) : Code Unit :=
  locked (.results sid) do
    let found ← data sid (.hasResult id)
    if found then do
      data sid (.removeResult id)
      driver sid .dropReader
    else .fail (notFound "result")

def closure : (j : Job) → Code j.Ret
  | .connection op => withConnectionClosure sid op
  | .newStatement => newStatementClosure limits sid
  | .statement id op => withStatementClosure sid id op
  | .removeStatement id => closeStatementClosure sid id
  | .invalidate statementId => invalidateClosure sid statementId
  | .insertResult owner reader => insertResultClosure limits sid owner reader
  | .resultSchema id => resultSchemaClosure sid id
  | .nextResult id sequence => nextResultClosure sid id sequence
  | .closeResult id => closeResultClosure sid id

end Closures

/-! ## What threads do by themselves -/

section Operations

variable (sid : String)

/-- A hold of a handler; `cancel_statement` cancels with `statements` locked. -/
def holds : (h : Hold) → Code h.Ret
  | .checkStatement id => locked (.statements sid) (data sid (.hold (.checkStatement id)))
  | .startUpload schema maxBytes => data sid (.hold (.startUpload schema maxBytes))
  | .insertUpload entry => locked (.bindUploads sid) (data sid (.hold (.insertUpload entry)))
  | .pushUpload id batch => locked (.bindUploads sid) (data sid (.hold (.pushUpload id batch)))
  | .takeUpload id => locked (.bindUploads sid) (data sid (.hold (.takeUpload id)))
  | .takeUploadsOf statementId => locked (.bindUploads sid) (data sid (.hold (.takeUploadsOf statementId)))
  | .finishUpload upload => data sid (.hold (.finishUpload upload))
  | .cancelConnection => driver sid .cancelConnection
  | .cancelStatement id => locked (.statements sid) do
    let found ← data sid (.hasStatement id)
    if found then driver sid (.cancelStatement id) else .fail (notFound "statement")

/-- `Drop for Session`, up to the thread it starts (`Operation.cleanup`). -/
def dropSession : Code Unit := do
  let _ ← locked (.statements sid) (data sid .statementIds)
  locked (.bindUploads sid) (data sid .drainUploads)

def dropAll : List String → Code Unit
  | [] => pure ()
  | sid :: sids => do
    dropSession sid
    dropAll sids

/-- A reference to the session goes; the last one takes the session with it. -/
def dropReference : Code Unit := do
  let others ← does (.asks .inFlight)
  if others then pure () else dropSession sid

def dropReferences : List String → Code Unit
  | [] => pure ()
  | sid :: sids => do
    dropReference sid
    dropReferences sids

/-- The check of the registry entry that `get` and `close` begin with. -/
def ownEntry : Code Unit := do
  let registered ← does (.asks .registered)
  if registered then do
    let owned ← does (.asks .owned)
    if owned then pure () else .fail notTheOwner
  else .fail (notFound "session")

def get : Code Unit := do
  let expired ← locked .registry do
    ownEntry
    locked (.lastUsed sid) do
      let expired ← does (.asks .expired)
      let others ← does (.asks .inFlight)
      pure (expired && !others)
  if expired then do
    dropSession sid
    .fail (notFound "expired session")
  else pure ()

def close : Code Unit := do
  locked .registry ownEntry
  dropReference sid

/-- The sessions past their lease that nobody uses. -/
def expiredAmong : List String → Code (List String)
  | [] => pure []
  | sid :: sids => do
    let others ← does (.asks .inFlight)
    if others then expiredAmong sids
    else do
      let expired ← locked (.lastUsed sid) (does (.asks .expired))
      let rest ← expiredAmong sids
      pure (if expired then sid :: rest else rest)

def reapExpired : Code Unit := do
  let removed ← locked .registry do
    let sids ← does .sessions
    expiredAmong sids
  dropAll removed

def closeAll : Code Unit := do
  let sids ← locked .registry (does .sessions)
  dropReferences sids

def reserveOpen : Code Unit := do
  let closing ← does (.asks .closing)
  if closing then .fail (busy "proxy is shutting down")
  else do
    reapExpired
    locked .registry do
      let closing ← does (.asks .closing)
      if closing then .fail (busy "proxy is shutting down")
      else do
        let full ← does (.asks .full)
        if full then .fail (quota "global session")
        else do
          let full ← does (.asks .fullForPrincipal)
          if full then .fail (quota "per-principal session") else pure ()

/-- The end of `open`. -/
def register : Code Unit := do
  let closing ← locked .registry (does (.asks .closing))
  if closing then do
    dropSession sid
    .fail (busy "proxy is shutting down")
  else pure ()

def countAll : List String → Code Unit
  | [] => pure ()
  | sid :: sids => do
    let _ ← locked (.statements sid) (data sid .statementCount)
    let _ ← locked (.results sid) (data sid .resultCount)
    let _ ← locked (.bindUploads sid) (data sid .uploadCount)
    countAll sids

def resourceCounts : Code Unit :=
  locked .registry do
    let sids ← does .sessions
    countAll sids

def cancelStatements : List String → Code Unit
  | [] => pure ()
  | id :: ids => do
    (driver sid (.cancelStatement id)).ignore
    cancelStatements ids

/-- The thread a dropped session starts. -/
def cleanup (ids : List String) : Code Unit := do
  (driver sid .cancelConnection).ignore
  cancelStatements sid ids
  driver sid .dropResources

end Operations

inductive Operation where
  | hold (session : String) (h : Hold)
  | get (session : String)
  | close (session : String)
  | reapExpired
  | closeAll
  | reserveOpen
  | register (session : String)
  | releaseReservation
  | dropReference (session : String)
  | dropSession (session : String)
  | resourceCounts
  | cleanup (session : String) (ids : List String)

def Operation.code : Operation → Code Unit
  | .hold sid h => (holds sid h).ignore
  | .get sid => Locks.get sid
  | .close sid => Locks.close sid
  | .reapExpired => Locks.reapExpired
  | .closeAll => Locks.closeAll
  | .reserveOpen => Locks.reserveOpen
  | .register sid => Locks.register sid
  | .releaseReservation => locked .registry (pure ())
  | .dropReference sid => Locks.dropReference sid
  | .dropSession sid => Locks.dropSession sid
  | .resourceCounts => Locks.resourceCounts
  | .cleanup sid ids => Locks.cleanup sid ids

/-! ## Closures and jobs -/

section Alone

variable {ipc : Ipc} {e : Env} {sid : String} {limits : SessionLimits} {s : Inner}

/-- The code run on a session with nobody else about. -/
abbrev alone {α : Type} (ipc : Ipc) (e : Env) (c : Code α) (s : Inner) : Except AdbcError α × Inner :=
  Prog.run (plain (Prim.own ipc e)) c s

theorem alone_locked {α : Type} (l : Lock) (c : Code α) : alone ipc e (locked l c) s = alone ipc e c s :=
  run_guarded _ l c s

theorem alone_bind {α β : Type} (c : Code α) (f : α → Code β) :
    alone ipc e (c >>= f) s = Act.proceed id (alone ipc e c s) fun a s => alone ipc e (f a) s :=
  Act.run_bind _ s c f

theorem connection_refuses (op : ConnectionOp) (d : Driver) (h : op.reaches = false) :
    op.answer d = .error unknownValueType := by
  cases op with
  | getOption key valueType =>
    simp [ConnectionOp.reaches, valueTypes] at h
    simp [ConnectionOp.answer, Driver.option, h, unknownValueType]
  | _ => cases h

theorem statement_refuses (op : StatementOp) (d : Driver) (h : op.reaches = false) :
    op.answer d = .error unknownValueType := by
  cases op with
  | getOption key valueType =>
    simp [StatementOp.reaches, valueTypes] at h
    simp [StatementOp.answer, Driver.option, h, unknownValueType]
  | _ => cases h

theorem newStatement_run : alone ipc e (newStatementClosure limits sid) s = newStatementJob limits e.world s := by
  unfold newStatementClosure newStatementJob
  rw [alone_locked, alone_bind]
  show alone ipc e (if limits.maxStatementsPerSession ≤ s.statements.card then _ else _) s = _
  split
  · rfl
  · rw [alone_bind, alone_locked]
    show Act.proceed id (e.world.driver.unit, s.called (.newStatement e.world.driver.unit)) _ = _
    cases e.world.driver.unit <;> rfl

/-- What the loop leaves of the results. -/
theorem retainLoop_run (statementId : String) (ids : List String) :
    alone ipc e (retainLoop sid statementId ids) s =
      (.ok (), { s with results := s.results.retain fun id r => !(ids.contains id) || notOwnedBy statementId id r }) := by
  induction ids generalizing s with
  | nil =>
    rw [Table.retain_true (by simp)]
    rfl
  | cons id ids ih =>
    unfold retainLoop
    rw [alone_bind, alone_locked]
    show alone ipc e (if (s.results.lookup id).any (fun r => !notOwnedBy statementId id r) = true then _ else _) s = _
    split
    · rename_i ho
      show alone ipc e (retainLoop sid statementId ids) { s with results := s.results.erase id } = _
      rw [ih, Table.retain_erase]
      congr 2
      apply Table.retain_congr
      intro k v hk
      by_cases hkid : k = id
      · subst hkid
        simpa [hk] using ho
      · simp [hkid]
    · rename_i ho
      rw [ih]
      congr 2
      apply Table.retain_congr
      intro k v hk
      by_cases hkid : k = id
      · subst hkid
        have hnot : notOwnedBy statementId k v = true := by simpa [hk] using ho
        simp [hnot]
      · simp [hkid]

theorem nextResult_run (id : String) (sequence : Int64) :
    alone ipc e (nextResultClosure sid id sequence) s = nextResultJob id sequence s := by
  unfold nextResultClosure nextResultJob
  rw [alone_bind, alone_locked]
  show alone ipc e (if (s.results.lookup id).isSome = true then _ else _) s = _
  cases hl : s.results.lookup id with
  | none => rfl
  | some entry =>
    simp only [Option.isSome_some, if_true, alone_locked, alone_bind]
    show alone ipc e (if (s.results.lookup id).any (polled sequence) = true then _ else _) s = _
    simp only [hl, Option.any_some, polled, decide_not, Bool.not_eq_true', decide_eq_false_iff_not]
    have hnext : ∀ s' : Inner, s'.results = s.results → alone ipc e (data sid (.next id sequence)) s' =
        ((entry.next sequence).1, { s' with results := s'.results.insert id (entry.next sequence).2 }) := by
      intro s' hs
      show (Data.next id sequence).perform ipc e s' = _
      simp only [Data.perform, hs, hl]
    by_cases hp : (entry.next sequence).2.reader.polled = entry.reader.polled
    · simp only [hp, not_true, if_false, if_true]
      exact hnext s rfl
    · simp only [hp, not_false_iff, if_true, if_false]
      exact hnext (s.called (.pull id)) rfl

theorem closure_run (j : Job) : alone ipc e (closure limits sid j) s = j.perform limits e.world s := by
  cases j with
  | connection op =>
    simp only [closure, withConnectionClosure, Job.perform, alone_locked]
    cases hr : op.reaches with
    | true => rfl
    | false =>
      rw [connection_refuses op _ hr]
      rfl
  | newStatement => exact newStatement_run
  | statement id op =>
    simp only [closure, withStatementClosure, Job.perform, alone_bind, alone_locked]
    show alone ipc e (if decide (id ∈ s.statements) = true then _ else _) s = _
    by_cases hm : id ∈ s.statements
    · simp only [hm, decide_true, if_true, alone_locked]
      cases hr : op.reaches with
      | true => rfl
      | false =>
        rw [statement_refuses op _ hr]
        rfl
    · simp only [hm, decide_false, Bool.false_eq_true, if_false]
      rfl
  | removeStatement id =>
    simp only [closure, closeStatementClosure, Job.perform, alone_locked, alone_bind]
    show alone ipc e (if decide (id ∈ s.statements) = true then _ else _) s = _
    by_cases hm : id ∈ s.statements
    · simp only [hm, decide_true, if_true]
      rfl
    · simp only [hm, decide_false, Bool.false_eq_true, if_false]
      rfl
  | invalidate statementId =>
    simp only [closure, invalidateClosure, Job.perform, alone_locked, alone_bind]
    show alone ipc e (retainLoop sid statementId s.results.keys) s = _
    rw [retainLoop_run]
    have : s.results.retain (fun id r => !s.results.keys.contains id || notOwnedBy statementId id r) =
        s.results.retain (notOwnedBy statementId) := by
      apply Table.retain_congr
      intro k v hk
      have : k ∈ s.results.keys := List.mem_keys_of_mem (Table.mem_entries.mpr hk)
      simp [this]
    rw [this]
  | insertResult owner reader =>
    simp only [closure, insertResultClosure, Job.perform, insertResultJob, alone_bind, alone_locked]
    show Act.proceed id (alone ipc e (if limits.maxResultsPerSession ≤ s.results.size then _ else _) s) _ = _
    split
    · rfl
    · rfl
  | resultSchema id =>
    simp only [closure, resultSchemaClosure, Job.perform, alone_bind, alone_locked]
    show alone ipc e (if (s.results.lookup id).isSome = true then _ else _) s = _
    cases hl : s.results.lookup id with
    | none => rfl
    | some entry =>
      simp only [Option.isSome_some, if_true, alone_locked]
      show (Data.schemaOf id).perform ipc e s = _
      simp [Data.perform, hl]
  | nextResult id sequence => exact nextResult_run id sequence
  | closeResult id =>
    simp only [closure, closeResultClosure, Job.perform, alone_locked, alone_bind]
    show alone ipc e (if (s.results.lookup id).isSome = true then _ else _) s = _
    cases s.results.lookup id <;> rfl

theorem holds_run (h : Hold) : alone ipc e (holds sid h) s = h.perform ipc e.world s := by
  cases h with
  | startUpload schema maxBytes => rfl
  | finishUpload upload => rfl
  | cancelConnection => rfl
  | cancelStatement id =>
    simp only [holds, Hold.perform, alone_locked, alone_bind]
    show alone ipc e (if decide (id ∈ s.statements) = true then _ else _) s = _
    by_cases hm : id ∈ s.statements
    · simp only [hm, decide_true, if_true]
      rfl
    · simp only [hm, decide_false, Bool.false_eq_true, if_false]
      rfl
  | _ =>
    simp only [holds, alone_locked]
    rfl

/-- The two levels agree on every closure and every method of a handler. -/
theorem methods_alone : (∀ j : Job, alone ipc e (closure limits sid j) s = j.perform limits e.world s) ∧
    ∀ h : Hold, alone ipc e (holds sid h) s = h.perform ipc e.world s := by
  exact ⟨closure_run, holds_run⟩

end Alone

/-! ## The machine -/

inductive Thread where
  | worker (session : String)
  | thread (n : Nat)
  deriving DecidableEq

/-- A worker in a job. -/
structure Running where
  job : Job
  code : Code job.Ret

/-- A thread in an operation. -/
structure Serving where
  operation : Operation
  code : Code Unit

structure St where
  holder : Lock → Option Thread
  inner : String → Inner
  workers : String → Option Running
  threads : List Serving

inductive Ev where
  | job (session : String) (j : Job)
  | worker (session : String) (e : Env)
  | start (o : Operation)
  | thread (n : Nat) (e : Env)

section Machine

variable (host : Host)

def next (s : St) : Ev → Option St
  | .job sid j =>
    match s.workers sid with
    | none => some { s with workers := update s.workers sid (some ⟨j, closure host.limits sid j⟩) }
    | some _ => none
  | .worker sid e => do
    let r ← s.workers sid
    match r.code with
    | .done _ => some { s with workers := update s.workers sid none }
    | .call o k =>
      let (code, holder, inner) ← advance (Prim.perform host.ipc e) (Thread.worker sid) s.holder s.inner (.call o k)
      some { s with holder := holder, inner := inner, workers := update s.workers sid (some ⟨r.job, code⟩) }
  | .start o => some { s with threads := s.threads ++ [⟨o, o.code⟩] }
  | .thread n e => do
    let r ← s.threads[n]?
    let (code, holder, inner) ← advance (Prim.perform host.ipc e) (Thread.thread n) s.holder s.inner r.code
    some { s with holder := holder, inner := inner, threads := s.threads.set n ⟨r.operation, code⟩ }

def step (s : St) (e : Ev) : St := (next host s e).getD s

def machine : Machine St Ev where
  init s := (∀ sid, ∃ policy, s.inner sid = Inner.opened policy) ∧ s.holder = (fun _ => none) ∧
    s.workers = (fun _ => none) ∧ s.threads = []
  step := step host

end Machine

/-! ## Locks around driver calls -/

/-- The locks of cancellations, the reaper, closes, the shutdown and drops. -/
def Lock.prompt : Lock → Bool
  | .registry | .lastUsed _ | .statements _ | .bindUploads _ => true
  | _ => false

/-- The operations that must not wait for a driver. -/
def Operation.prompt : Operation → Bool
  | .hold _ .cancelConnection | .hold _ (.cancelStatement _) | .reapExpired | .close _ | .closeAll | .dropSession _ =>
    true
  | _ => false

/-- Some run of the code comes to the lock. -/
def Needs {α : Type} (c : Code α) (l : Lock) : Prop := ¬ Prog.Uses (· ≠ Step.lock l) c

/-- The closures that call the driver with `statements` locked. -/
def Job.pins : Job → Bool
  | .newStatement | .removeStatement _ => true
  | _ => false

/-- The closures that let a reader go, with `results` locked. -/
def Job.drops : Job → Bool
  | .closeResult _ | .invalidate _ => true
  | _ => false

/-- The session of a connection, a statement or a result, whose lock only the worker of
    that session takes. -/
def Lock.entry : Lock → Option String
  | .connection sid | .statement sid _ | .result sid _ => some sid
  | _ => none

/-- The locks the job of the session's worker takes, and those it holds at a driver call. -/
def around (sid : String) (j : Job) (g : Set Lock) : Step Lock Prim → Prop
  | .lock l => l.entry = some sid ∨ l = .statements sid ∨ l = .results sid
  | .op (.driver _ _) =>
    if Job.pins j then Lock.statements sid ∈ g
    else if Job.drops j then g = {Lock.results sid}
    else ∀ l ∈ g, l.entry = some sid
  | _ => True

section Balanced

variable {sid : String} {j : Job} {g : Set Lock} {C : Set Lock → Step Lock Prim → Prop} {α β : Type}

theorem balanced_data (d : Data) : Balanced (around sid j) g (data sid d) := balanced_ask trivial

/-- A driver call of a job that holds at most the lock of what it calls. -/
theorem balanced_driver (f : DriverCall) (hj : Job.pins j = false ∧ Job.drops j = false)
    (hg : ∀ l ∈ g, l.entry = some sid) : Balanced (around sid j) g (driver sid f) := by
  apply balanced_ask
  show if Job.pins j = true then _ else if Job.drops j = true then _ else _
  rw [hj.1, hj.2]
  exact hg

/-- A driver call of a job that has `statements` locked. -/
theorem balanced_pinned (f : DriverCall) (hj : Job.pins j = true) (hg : Lock.statements sid ∈ g) :
    Balanced (around sid j) g (driver sid f) := by
  apply balanced_ask
  show if Job.pins j = true then _ else _
  rw [if_pos hj]
  exact hg

/-- A reader that goes with `results` locked. -/
theorem balanced_dropReader (hj : Job.pins j = false ∧ Job.drops j = true) :
    Balanced (around sid j) {Lock.results sid} (driver sid .dropReader) := by
  apply balanced_ask
  show if Job.pins j = true then _ else if Job.drops j = true then _ else _
  rw [hj.1, hj.2]
  rfl

theorem balanced_pure (a : α) : Balanced C g (pure a : Code α) := balanced_done _

theorem balanced_fail (e : AdbcError) : Balanced C g (.fail e : Code α) := balanced_done _

theorem balanced_locked {l : Lock} {c : Code α} (hl : l ∉ g) (hC : C g (.lock l)) (hc : Balanced C (insert l g) c) :
    Balanced C g (locked l c) :=
  balanced_guarded hl hC hc

theorem balanced_if {p : Prop} [Decidable p] {c d : Code α} (hc : Balanced C g c) (hd : Balanced C g d) :
    Balanced C g (@ite (Code α) p _ c d) := by
  split
  · exact hc
  · exact hd

/-- The lock of a connection, a statement or a result. -/
theorem balanced_entry {l : Lock} {c : Code α} (hl : l ∉ g) (he : l.entry = some sid)
    (hc : Balanced (around sid j) (insert l g) c) : Balanced (around sid j) g (locked l c) :=
  balanced_locked hl (.inl he) hc

theorem balanced_statements {c : Code α} (hc : Balanced (around sid j) {Lock.statements sid} c) :
    Balanced (around sid j) ∅ (locked (.statements sid) c) := by
  refine balanced_locked (by simp) (.inr (.inl rfl)) ?_
  rwa [insert_empty_eq]

theorem balanced_results {c : Code α} (hc : Balanced (around sid j) {Lock.results sid} c) :
    Balanced (around sid j) ∅ (locked (.results sid) c) := by
  refine balanced_locked (by simp) (.inr (.inr rfl)) ?_
  rwa [insert_empty_eq]

theorem retainLoop_balanced (statementId : String) (ids : List String) :
    Balanced (around sid (.invalidate statementId)) {Lock.results sid} (retainLoop sid statementId ids) := by
  induction ids with
  | nil => exact balanced_pure _
  | cons id ids ih =>
    refine balanced_seq (balanced_entry (by simp) rfl (balanced_data _)) ?_
    intro owned
    refine balanced_if ?_ ih
    exact balanced_seq (balanced_data _) fun _ => balanced_seq (balanced_dropReader ⟨rfl, rfl⟩) fun _ => ih

theorem closure_balanced (limits : SessionLimits) (sid : String) (j : Job) :
    Balanced (around sid j) ∅ (closure limits sid j) := by
  cases j with
  | connection op =>
    refine balanced_entry (by simp) rfl (balanced_if (balanced_driver _ ⟨rfl, rfl⟩ ?_) (balanced_fail _))
    simp [Lock.entry]
  | newStatement =>
    refine balanced_statements (balanced_seq (balanced_data _) ?_)
    intro n
    apply balanced_if (balanced_fail _)
    refine balanced_seq (balanced_entry (by simp) rfl (balanced_pinned _ rfl (by simp))) ?_
    intro _
    refine balanced_seq (balanced_pinned _ rfl (by simp)) ?_
    intro _
    exact balanced_seq (balanced_data _) fun id => balanced_seq (balanced_data _) fun _ => balanced_pure id
  | statement id op =>
    refine balanced_seq (balanced_statements (balanced_data _)) ?_
    intro found
    refine balanced_if (balanced_entry (by simp) rfl ?_) (balanced_fail _)
    refine balanced_if (balanced_driver _ ⟨rfl, rfl⟩ ?_) (balanced_fail _)
    simp [Lock.entry]
  | removeStatement id =>
    refine balanced_statements (balanced_seq (balanced_data _) ?_)
    intro found
    exact balanced_if (balanced_seq (balanced_data _) fun _ => balanced_pinned _ rfl (by simp)) (balanced_fail _)
  | invalidate statementId =>
    refine balanced_results (balanced_seq (balanced_data _) ?_)
    intro ids
    exact retainLoop_balanced statementId ids
  | insertResult owner reader =>
    refine balanced_seq (balanced_driver _ ⟨rfl, rfl⟩ (by simp)) fun schema => balanced_seq (balanced_data _) ?_
    intro id
    refine balanced_seq (balanced_results (balanced_seq (balanced_data _) ?_)) ?_
    · intro n
      exact balanced_if (balanced_pure _) (balanced_seq (balanced_data _) fun _ => balanced_pure _)
    · intro kept
      apply balanced_if (balanced_pure _)
      exact balanced_seq (balanced_driver _ ⟨rfl, rfl⟩ (by simp)) fun _ => balanced_fail _
  | resultSchema id =>
    refine balanced_seq (balanced_results (balanced_data _)) ?_
    intro found
    exact balanced_if (balanced_entry (by simp) rfl (balanced_data _)) (balanced_fail _)
  | nextResult id sequence =>
    refine balanced_seq (balanced_results (balanced_data _)) ?_
    intro found
    refine balanced_if (balanced_entry (by simp) rfl (balanced_seq (balanced_data _) ?_)) (balanced_fail _)
    intro polls
    refine balanced_if (balanced_seq (balanced_driver _ ⟨rfl, rfl⟩ ?_) fun _ => balanced_data _) (balanced_data _)
    simp [Lock.entry]
  | closeResult id =>
    refine balanced_results (balanced_seq (balanced_data _) ?_)
    intro found
    exact balanced_if (balanced_seq (balanced_data _) fun _ => balanced_dropReader ⟨rfl, rfl⟩) (balanced_fail _)

/-! What threads do by themselves is balanced too. -/

/-- The lock under which the operation calls the driver. -/
def Operation.pinned : Operation → Set Lock
  | .hold sid (.cancelStatement _) => {Lock.statements sid}
  | _ => ∅

/-- The locks a thread takes in the operation, and those it holds at a driver call:
    `results` is for counting, and then the registry is locked. -/
def beside (o : Operation) (g : Set Lock) : Step Lock Prim → Prop
  | .lock l => l.prompt = true ∨ o = .resourceCounts ∧ Lock.registry ∈ g ∧ ∃ sid, l = .results sid
  | .op (.driver _ _) => g = o.pinned
  | _ => True

variable {o : Operation}

theorem does_balanced (p : Prim) (hp : beside o g (.op p)) : Balanced (beside o) g (does p) := balanced_ask hp

theorem balanced_prompt {l : Lock} {c : Code α} (hl : l ∉ g) (hp : l.prompt = true)
    (hc : Balanced (beside o) (insert l g) c) : Balanced (beside o) g (locked l c) :=
  balanced_locked hl (.inl hp) hc

theorem dropSession_balanced (sid : String) : Balanced (beside o) ∅ (dropSession sid) := by
  refine balanced_seq (balanced_prompt (by simp) rfl (does_balanced _ trivial)) ?_
  intro _
  exact balanced_prompt (by simp) rfl (does_balanced _ trivial)

theorem dropAll_balanced (sids : List String) : Balanced (beside o) ∅ (dropAll sids) := by
  induction sids with
  | nil => exact balanced_pure _
  | cons sid sids ih => exact balanced_seq (dropSession_balanced sid) fun _ => ih

theorem dropReference_balanced (sid : String) : Balanced (beside o) ∅ (dropReference sid) :=
  balanced_seq (does_balanced _ trivial) fun _ => balanced_if (balanced_pure _) (dropSession_balanced sid)

theorem dropReferences_balanced (sids : List String) : Balanced (beside o) ∅ (dropReferences sids) := by
  induction sids with
  | nil => exact balanced_pure _
  | cons sid sids ih => exact balanced_seq (dropReference_balanced sid) fun _ => ih

theorem ownEntry_balanced : Balanced (beside o) g ownEntry := by
  refine balanced_seq (does_balanced _ trivial) fun registered => balanced_if ?_ (balanced_fail _)
  exact balanced_seq (does_balanced _ trivial) fun owned => balanced_if (balanced_pure _) (balanced_fail _)

theorem expiredAmong_balanced (sids : List String) : Balanced (beside o) {Lock.registry} (expiredAmong sids) := by
  induction sids with
  | nil => exact balanced_pure _
  | cons sid sids ih =>
    refine balanced_seq (does_balanced _ trivial) fun others => balanced_if ih ?_
    refine balanced_seq (balanced_prompt (by simp) rfl (does_balanced _ trivial)) ?_
    intro expired
    exact balanced_seq ih fun rest => balanced_pure _

theorem reapExpired_balanced : Balanced (beside o) ∅ reapExpired := by
  refine balanced_seq (balanced_prompt (by simp) rfl ?_) fun removed => dropAll_balanced removed
  rw [insert_empty_eq]
  exact balanced_seq (does_balanced _ trivial) fun sids => expiredAmong_balanced sids

theorem countAll_balanced (sids : List String) :
    Balanced (beside .resourceCounts) {Lock.registry} (countAll sids) := by
  induction sids with
  | nil => exact balanced_pure _
  | cons sid sids ih =>
    refine balanced_seq (balanced_prompt (by simp) rfl (does_balanced _ trivial)) ?_
    intro _
    refine balanced_seq (balanced_locked (by simp) (.inr ⟨rfl, rfl, sid, rfl⟩) (does_balanced _ trivial)) ?_
    intro _
    exact balanced_seq (balanced_prompt (by simp) rfl (does_balanced _ trivial)) fun _ => ih

theorem cancelStatements_balanced (sid : String) (ids : List String) (ho : o.pinned = ∅) :
    Balanced (beside o) ∅ (cancelStatements sid ids) := by
  induction ids with
  | nil => exact balanced_pure _
  | cons id ids ih =>
    refine balanced_seq (balanced_bind (does_balanced _ ?_) fun _ => balanced_done _) fun _ => ih
    exact ho.symm

theorem holds_balanced (sid : String) (h : Hold) : Balanced (beside (.hold sid h)) ∅ (holds sid h) := by
  cases h with
  | startUpload schema maxBytes => exact does_balanced _ trivial
  | finishUpload upload => exact does_balanced _ trivial
  | cancelConnection => exact does_balanced _ rfl
  | cancelStatement id =>
    refine balanced_prompt (by simp) rfl (balanced_seq (does_balanced _ trivial) ?_)
    intro found
    rw [insert_empty_eq]
    exact balanced_if (does_balanced _ rfl) (balanced_fail _)
  | _ => exact balanced_prompt (by simp) rfl (does_balanced _ trivial)

theorem operation_balanced (o : Operation) : Balanced (beside o) ∅ o.code := by
  cases o with
  | hold sid h => exact balanced_bind (holds_balanced sid h) fun _ => balanced_done _
  | get sid =>
    refine balanced_seq (balanced_prompt (by simp) rfl (balanced_seq ownEntry_balanced ?_)) ?_
    · intro _
      refine balanced_prompt (by simp) rfl (balanced_seq (does_balanced _ trivial) ?_)
      intro expired
      exact balanced_seq (does_balanced _ trivial) fun others => balanced_pure _
    · intro expired
      exact balanced_if (balanced_seq (dropSession_balanced sid) fun _ => balanced_fail _) (balanced_pure _)
  | close sid => exact balanced_seq (balanced_prompt (by simp) rfl ownEntry_balanced) fun _ => dropReference_balanced sid
  | reapExpired => exact reapExpired_balanced
  | closeAll =>
    exact balanced_seq (balanced_prompt (by simp) rfl (does_balanced _ trivial)) fun sids => dropReferences_balanced sids
  | reserveOpen =>
    refine balanced_seq (does_balanced _ trivial) fun closing => balanced_if (balanced_fail _) ?_
    refine balanced_seq reapExpired_balanced fun _ => balanced_prompt (by simp) rfl ?_
    refine balanced_seq (does_balanced _ trivial) fun closing => balanced_if (balanced_fail _) ?_
    refine balanced_seq (does_balanced _ trivial) fun full => balanced_if (balanced_fail _) ?_
    exact balanced_seq (does_balanced _ trivial) fun full => balanced_if (balanced_fail _) (balanced_pure _)
  | register sid =>
    refine balanced_seq (balanced_prompt (by simp) rfl (does_balanced _ trivial)) ?_
    intro closing
    exact balanced_if (balanced_seq (dropSession_balanced sid) fun _ => balanced_fail _) (balanced_pure _)
  | releaseReservation => exact balanced_prompt (by simp) rfl (balanced_pure _)
  | dropReference sid => exact dropReference_balanced sid
  | dropSession sid => exact dropSession_balanced sid
  | resourceCounts =>
    refine balanced_prompt (by simp) rfl (balanced_seq (does_balanced _ trivial) ?_)
    intro sids
    rw [insert_empty_eq]
    exact countAll_balanced sids
  | cleanup sid ids =>
    refine balanced_seq (balanced_bind (does_balanced _ rfl) fun _ => balanced_done _) ?_
    intro _
    exact balanced_seq (cancelStatements_balanced sid ids rfl) fun _ => does_balanced _ rfl

end Balanced

/-! ## The locks prompt operations need -/

section Prompt

/-- A step that takes no lock but a prompt one. -/
def TakesPrompt (st : Step Lock Prim) : Prop := ∀ l, st = .lock l → l.prompt = true

variable {α β : Type}

theorem uses_does (o : Prim) : Prog.Uses TakesPrompt (does o) := by
  refine ⟨?_, fun _ => trivial⟩
  intro l hl
  cases hl

theorem uses_locked {l : Lock} {c : Code α} (hl : l.prompt = true) (hc : Prog.Uses TakesPrompt c) :
    Prog.Uses TakesPrompt (locked l c) := by
  refine uses_guarded ?_ ?_ hc
  · intro m hm
    cases hm
    exact hl
  · intro m hm
    cases hm

theorem uses_if {p : Prop} [Decidable p] {c d : Code α} (hc : Prog.Uses TakesPrompt c) (hd : Prog.Uses TakesPrompt d) :
    Prog.Uses TakesPrompt (@ite (Code α) p _ c d) := by
  split
  · exact hc
  · exact hd

theorem dropSession_uses (sid : String) : Prog.Uses TakesPrompt (dropSession sid) :=
  Act.uses_bind (uses_locked rfl (uses_does _)) fun _ => uses_locked rfl (uses_does _)

theorem dropAll_uses (sids : List String) : Prog.Uses TakesPrompt (dropAll sids) := by
  induction sids with
  | nil => trivial
  | cons sid sids ih => exact Act.uses_bind (dropSession_uses sid) fun _ => ih

theorem dropReference_uses (sid : String) : Prog.Uses TakesPrompt (dropReference sid) :=
  Act.uses_bind (uses_does _) fun _ => uses_if trivial (dropSession_uses sid)

theorem dropReferences_uses (sids : List String) : Prog.Uses TakesPrompt (dropReferences sids) := by
  induction sids with
  | nil => trivial
  | cons sid sids ih => exact Act.uses_bind (dropReference_uses sid) fun _ => ih

theorem expiredAmong_uses (sids : List String) : Prog.Uses TakesPrompt (expiredAmong sids) := by
  induction sids with
  | nil => trivial
  | cons sid sids ih =>
    refine Act.uses_bind (uses_does _) fun others => uses_if ih ?_
    exact Act.uses_bind (uses_locked rfl (uses_does _)) fun expired => Act.uses_bind ih fun rest => trivial

theorem ownEntry_uses : Prog.Uses TakesPrompt ownEntry := by
  refine Act.uses_bind (uses_does _) fun registered => uses_if ?_ trivial
  exact Act.uses_bind (uses_does _) fun owned => uses_if trivial trivial

theorem prompt_uses {o : Operation} (h : o.prompt = true) : Prog.Uses TakesPrompt o.code := by
  cases o with
  | hold sid h' =>
    cases h' with
    | cancelConnection => exact Act.uses_ignore (uses_does _)
    | cancelStatement id =>
      refine Act.uses_ignore (uses_locked rfl (Act.uses_bind (uses_does _) ?_))
      intro found
      exact uses_if (uses_does _) trivial
    | _ => cases h
  | close sid => exact Act.uses_bind (uses_locked rfl ownEntry_uses) fun _ => dropReference_uses sid
  | reapExpired =>
    refine Act.uses_bind (uses_locked rfl ?_) fun removed => dropAll_uses removed
    exact Act.uses_bind (uses_does _) fun sids => expiredAmong_uses sids
  | closeAll => exact Act.uses_bind (uses_locked rfl (uses_does _)) fun sids => dropReferences_uses sids
  | dropSession sid => exact dropSession_uses sid
  | _ => cases h

theorem prompt_needs {o : Operation} (h : o.prompt = true) {l : Lock} (hl : Needs o.code l) : l.prompt = true := by
  by_contra hp
  refine hl ((prompt_uses h).mono ?_)
  intro st hst heq
  exact hp (hst l heq)

end Prompt

/-! ## Every reachable state -/

section WellFormed

variable {host : Host} {s s' : St}

/-- Nothing is held by whoever has nothing to do, and what is held is what the code left to run expects. -/
structure Wf (s : St) : Prop where
  idle : ∀ sid, s.workers sid = none → heldBy s.holder (.worker sid) = ∅
  worker : ∀ sid r, s.workers sid = some r →
    (within (around sid r.job)).Follows (heldBy s.holder (.worker sid)) r.code fun g _ => g = ∅
  unborn : ∀ n, s.threads.length ≤ n → heldBy s.holder (.thread n) = ∅
  thread : ∀ (n : Nat) (r : Serving), s.threads[n]? = some r →
    (within (beside r.operation)).Follows (heldBy s.holder (.thread n)) r.code fun g _ => g = ∅
  needs : ∀ (n : Nat) (r : Serving), s.threads[n]? = some r → ∀ l, Needs r.code l → Needs r.operation.code l

theorem init_wf (h : (machine host).init s) : Wf s := by
  obtain ⟨-, hh, hw, ht⟩ := h
  have hnone : ∀ t, heldBy s.holder t = ∅ := by
    intro t
    ext l
    simp [hh]
  refine ⟨fun sid _ => hnone _, ?_, fun n _ => hnone _, ?_, ?_⟩
  · intro sid r hr
    simp [hw] at hr
  · intro n r hr
    simp [ht] at hr
  · intro n r hr
    simp [ht] at hr

/-- A job taken. -/
theorem job_wf (hs : Wf s) {sid : String} (j : Job) (hw : s.workers sid = none) :
    Wf { s with workers := update s.workers sid (some ⟨j, closure host.limits sid j⟩) } := by
  refine { hs with idle := ?_, worker := ?_ }
  · intro sid' h
    by_cases hsid : sid' = sid
    · subst hsid
      simp at h
    · exact hs.idle sid' (by simpa [hsid] using h)
  · intro sid' r h
    by_cases hsid : sid' = sid
    · subst hsid
      simp only [update_self, Option.some.injEq] at h
      subst h
      rw [hs.idle sid' hw]
      exact closure_balanced host.limits sid' j
    · exact hs.worker sid' r (by simpa [hsid] using h)

/-- A job's end. -/
theorem done_wf (hs : Wf s) {sid : String} {r : Running} (hr : s.workers sid = some r) {a : Except AdbcError r.job.Ret}
    (hd : r.code = .done a) : Wf { s with workers := update s.workers sid none } := by
  have hempty : heldBy s.holder (.worker sid) = ∅ := by
    have hf := hs.worker sid r hr
    rw [hd] at hf
    exact hf
  refine { hs with idle := ?_, worker := ?_ }
  · intro sid' h
    by_cases hsid : sid' = sid
    · subst hsid
      exact hempty
    · exact hs.idle sid' (by simpa [hsid] using h)
  · intro sid' r' h
    by_cases hsid : sid' = sid
    · subst hsid
      simp at h
    · exact hs.worker sid' r' (by simpa [hsid] using h)

/-- A worker's step. -/
theorem worker_wf (hs : Wf s) {sid : String} {r : Running} (hr : s.workers sid = some r) {e : Env}
    {code : Code r.job.Ret} {holder : Lock → Option Thread} {inner : String → Inner}
    (ha : advance (Prim.perform host.ipc e) (Thread.worker sid) s.holder s.inner r.code = some (code, holder, inner)) :
    Wf { s with holder := holder, inner := inner, workers := update s.workers sid (some ⟨r.job, code⟩) } := by
  have hsame : ∀ u, u ≠ .worker sid → heldBy holder u = heldBy s.holder u := fun u hu => advance_other hu ha
  refine ⟨?_, ?_, ?_, ?_, hs.needs⟩
  · intro sid' h
    by_cases hsid : sid' = sid
    · subst hsid
      simp at h
    · rw [hsame _ (by simpa using hsid)]
      exact hs.idle sid' (by simpa [hsid] using h)
  · intro sid' r' h
    by_cases hsid : sid' = sid
    · subst hsid
      simp only [update_self, Option.some.injEq] at h
      subst h
      exact advance_follows (hs.worker sid' r hr) ha
    · rw [hsame _ (by simpa using hsid)]
      exact hs.worker sid' r' (by simpa [hsid] using h)
  · intro n hn
    rw [hsame _ (by simp)]
    exact hs.unborn n hn
  · intro n r' hr'
    rw [hsame _ (by simp)]
    exact hs.thread n r' hr'

/-- An operation begun. -/
theorem start_wf (hs : Wf s) (o : Operation) : Wf { s with threads := s.threads ++ [⟨o, o.code⟩] } := by
  refine { hs with unborn := ?_, thread := ?_, needs := ?_ }
  · intro n hn
    simp only [List.length_append, List.length_singleton] at hn
    exact hs.unborn n (by omega)
  · intro n r hr
    rcases getElem?_snoc_cases hr with hr | ⟨rfl, rfl⟩
    · exact hs.thread n r hr
    · rw [hs.unborn _ (Nat.le_refl _)]
      exact operation_balanced o
  · intro n r hr
    rcases getElem?_snoc_cases hr with hr | ⟨rfl, rfl⟩
    · exact hs.needs n r hr
    · intro l hl
      exact hl

/-- A step of a thread in its operation. -/
theorem thread_wf (hs : Wf s) {n : Nat} {r : Serving} (hr : s.threads[n]? = some r) {e : Env} {code : Code Unit}
    {holder : Lock → Option Thread} {inner : String → Inner}
    (ha : advance (Prim.perform host.ipc e) (Thread.thread n) s.holder s.inner r.code = some (code, holder, inner)) :
    Wf { s with holder := holder, inner := inner, threads := s.threads.set n ⟨r.operation, code⟩ } := by
  have hsame : ∀ u, u ≠ .thread n → heldBy holder u = heldBy s.holder u := fun u hu => advance_other hu ha
  refine ⟨?_, ?_, ?_, ?_, ?_⟩
  · intro sid h
    rw [hsame _ (by simp)]
    exact hs.idle sid h
  · intro sid r' hr'
    rw [hsame _ (by simp)]
    exact hs.worker sid r' hr'
  · intro m hm
    rw [List.length_set] at hm
    have hlt := (List.getElem?_eq_some_iff.mp hr).1
    have hne : m ≠ n := by omega
    rw [hsame _ (by simpa using hne)]
    exact hs.unborn m hm
  · intro m r' hr'
    rcases getElem?_set_cases hr' with ⟨rfl, rfl⟩ | ⟨hne, hr'⟩
    · exact advance_follows (hs.thread m r hr) ha
    · rw [hsame _ (by simpa using hne)]
      exact hs.thread m r' hr'
  · intro m r' hr'
    rcases getElem?_set_cases hr' with ⟨rfl, rfl⟩ | ⟨hne, hr'⟩
    · intro l hl
      refine hs.needs m r hr l fun hu => hl ?_
      exact advance_uses hu ha
    · exact hs.needs m r' hr'

theorem next_wf (hs : Wf s) (e : Ev) (h : next host s e = some s') : Wf s' := by
  cases e with
  | job sid j =>
    simp only [next] at h
    split at h
    · rename_i hw
      cases h
      exact job_wf hs j hw
    · cases h
  | worker sid e =>
    simp only [next, Option.bind_eq_bind, Option.bind_eq_some_iff] at h
    obtain ⟨r, hr, h⟩ := h
    split at h
    · rename_i a hd
      cases h
      exact done_wf hs hr hd
    · rename_i o k hd
      obtain ⟨⟨code, holder, inner⟩, ha, h⟩ := Option.bind_eq_some_iff.mp h
      cases h
      rw [← hd] at ha
      exact worker_wf hs hr ha
  | start o =>
    cases h
    exact start_wf hs o
  | thread n e =>
    simp only [next, Option.bind_eq_bind, Option.bind_eq_some_iff] at h
    obtain ⟨r, hr, ⟨code, holder, inner⟩, ha, h⟩ := h
    cases h
    exact thread_wf hs hr ha

theorem reach_wf (h : (machine host).Reach s) : Wf s := by
  apply h.invariant (fun s h0 => init_wf h0)
  intro s e _ hs
  show Wf (step host s e)
  unfold step
  cases hn : next host s e with
  | none => exact hs
  | some s' => exact next_wf hs e hn

end WellFormed

/-! ## A server to begin with -/

/-- A server whose sessions have nothing registered yet. -/
def quietServer : St := ⟨fun _ => none, fun _ => Inner.opened (.new false [] []), fun _ => none, []⟩

theorem quietServer_init : (machine Solo.smallHost).init quietServer := ⟨fun _ => ⟨_, rfl⟩, rfl, rfl, rfl⟩

def calm : Env := ⟨⟨willing, .fine, "id"⟩, fun _ => false, []⟩

/-- The worker of `c` takes `n` steps of the job. -/
def working (j : Job) (n : Nat) : List Ev := .job "c" j :: List.replicate n (.worker "c" calm)

end Grainlift.Server.Locks
