/-
  Grainlift.Client.Lifetimes — what keeps a session open, and who closes it
  (`GrainliftConnection`, `GrainliftStatement`, `RemoteReader`, the cancel handles and their
  `Drop`s; adbc-driver-grainlift/src/lib.rs).

  The connection, its statements and its readers share one `RemoteConnection`: an `Arc`
  each, so that a reader may outlive its statement and a statement its connection. A cancel
  handle has a weak reference only, and upgrades it for its request. Whoever drops the last
  `Arc` sends CLOSE_CONNECTION, on its own thread; a dropped statement or reader first sends
  its own close, and gives up its `Arc` after that. Only then goes the stream of a byte
  reader: its worker, on a connection of its own, sends the cancellation.

  Each method, drop and cancellation is a program of the references and requests it makes,
  and any number of them run at once, in any order: an object may be used by many threads
  and is dropped by one, once none uses it (Rust's borrow). What is answered is left open.

  Proved (`lifetimes`): in every run, CLOSE_CONNECTION is sent at most once, when no object
  is left and no call waits for its reply, and only cancellations of byte streams come after
  it; nothing uses an object after its drop has begun to send; a drop sends the close of its
  object and then CLOSE_CONNECTION or nothing; and once all is done, the session was closed
  if and only if every object was dropped.
-/

import Grainlift.Lib.Counted
import Grainlift.Client.Bind
import Grainlift.Client.ResultStream

namespace Grainlift.Client.Lifetimes

open Grainlift.Lib Grainlift.Protocol Grainlift.Server Counted
open Grainlift.Client.Calls (ApiCall Sent)

/-! ## Objects and requests -/

/-- What the application holds. -/
inductive Object where
  | connection
  | statement (id : String)
  | reader (resultId : String)
  deriving DecidableEq

inductive Request where
  | unary (sent : Sent)
  | bind (statementId : String) (c : Bind.StreamCall)
  /-- READ_RESULT, over HTTP with its first reply. -/
  | openResult (resultId : String)
  /-- A continuation, or a tick. -/
  | turn (resultId : String)
  | cancelStream (resultId : String)

@[reducible] def Request.Reply : Request → Type
  | .unary sent => Calls.Answer sent
  | .bind _ c => Bind.StreamAns c
  | .openResult _ => Except AdbcError Unit
  | .turn _ | .cancelStream _ => Unit

inductive Op where
  | send (r : Request)
  | reply (r : Request)
  /-- Whether `next_remote` makes a request. -/
  | turnDue
  | infoBatch
  /-- Whether a byte reader's worker still takes commands. -/
  | workerRuns
  | tellWorker (resultId : String)

@[reducible] def Op.Ans : Op → Type
  | .send _ | .tellWorker _ => Unit
  | .reply r => r.Reply
  | .turnDue | .workerRuns => Bool
  | .infoBatch => Except AdbcError Unit

abbrev Code (α : Type) := Act (Counted.Ans Object Op.Ans) AdbcError α

def take (st : Step Object Op) : Code (Counted.Ans Object Op.Ans st) := .call st fun a => .done (.ok a)

/-- A request, and its reply. -/
def request (r : Request) : Prog (Counted.Ans Object Op.Ans) r.Reply :=
  .call (.op (.send r)) fun _ => .call (.op (.reply r)) .done

def remotely {α : Type} (x : Calls.Remotely α) : Code α := Prog.interp (fun sent => request (.unary sent)) x

def streaming {α : Type} (statementId : String) (x : Bind.Streaming α) : Code α :=
  Prog.interp (fun c => request (.bind statementId c)) x

/-! ## Drops -/

section Code

variable (http : Bool) (arrow : Arrow) (derived : Derived) (maxBindBytes : Nat) (sessionId : String)

def closeConnection : Code Unit := remotely (Calls.sessionCall arrow derived sessionId .closeConnection)

/-- An `Arc<RemoteConnection>` goes; `Drop for RemoteConnection` with the last. -/
def dropRemote : Code Unit := do
  let last ← take .release
  if last then (closeConnection arrow derived sessionId).ignore else pure ()

/-- `Drop for GrainliftStatement`, then its fields. -/
def dropStatement (id : String) : Code Unit := do
  (remotely (Calls.closeStatement arrow derived sessionId id)).ignore
  dropRemote arrow derived sessionId

/-- `Drop for ByteReader`. -/
def dropByteReader (resultId : String) : Code Unit := do
  let runs ← take (.op .workerRuns)
  if runs then take (.op (.tellWorker resultId)) else pure ()

/-- `Drop for RemoteReader`, then its fields in their order. -/
def dropReader (resultId : String) : Code Unit := do
  (remotely (Calls.closeResult arrow derived sessionId resultId)).ignore
  dropRemote arrow derived sessionId
  if http then pure () else dropByteReader resultId

def Object.drop : Object → Code Unit
  | .connection => dropRemote arrow derived sessionId
  | .statement id => dropStatement arrow derived sessionId id
  | .reader resultId => dropReader http arrow derived sessionId resultId

/-! ## Methods -/

/-- The end of `reader_from_response`: `self.clone()` and `RemoteReader::open`. -/
def openReader (resultId : String) : Code Unit := do
  take .clone
  Act.recover (request (.openResult resultId)) fun e => do
    dropRemote arrow derived sessionId
    .fail e

/-- What a method does with what its call returned. -/
def finish : (c : ApiCall) → c.Ret → Code Unit
  | .newStatement, id => do
    take .clone
    take (.keep (.statement id))
  | .getInfo _, (resultId, _) => do
    openReader arrow derived sessionId resultId
    Act.recover (.call (.op .infoBatch) .done) fun e => do
      dropReader http arrow derived sessionId resultId
      .fail e
    take (.keep (.reader resultId))
  | c, x =>
    match ResultStream.resultOf c x with
    | some (resultId, _) => do
      openReader arrow derived sessionId resultId
      take (.keep (.reader resultId))
    | none => pure ()

def method (c : ApiCall) : Code Unit :=
  remotely (c.client arrow derived sessionId) >>= finish http arrow derived sessionId c

/-- Whose method it is; cancellations and closes are nobody's. -/
def receiver : ApiCall → Option Object
  | .setConnectionOption _ _ | .getConnectionOption _ _ | .newStatement | .getInfo _ | .getObjects _ _ _ _ _ _ |
    .getTableSchema _ _ _ | .getTableTypes | .getStatisticNames | .getStatistics _ _ _ _ | .commit | .rollback |
    .readPartition _ => some .connection
  | .setStatementOption id _ _ | .getStatementOption id _ _ | .execute id | .executeUpdate id | .executeSchema id |
    .executePartitions id | .getParameterSchema id | .prepare id | .setSqlQuery id _ | .setSubstraitPlan id _ => some (.statement id)
  | .cancelConnection | .cancelStatement _ | .closeStatement _ | .closeResult _ => none

/-- `next_remote`. -/
def nextRemote (resultId : String) : Code Unit := do
  let due ← take (.op .turnDue)
  if due then (request (.turn resultId)).bind fun _ => .done (.ok ()) else pure ()

/-- `try_cancel`: a handle whose connection is gone does nothing. -/
def tryCancel (x : Calls.Remotely Unit) : Code Unit := do
  let upgraded ← take .upgrade
  if upgraded then Prog.bind (remotely x) fun r => Prog.bind (dropRemote arrow derived sessionId) fun _ => .done r
  else pure ()

/-- The worker of a byte reader, told to cancel. -/
def cancelStream (resultId : String) : Code Unit := (request (.cancelStream resultId)).bind fun _ => .done (.ok ())

/-! ## What threads do -/

inductive Activity where
  /-- A method of the `k`th object. -/
  | call (k : Nat) (c : ApiCall)
  | bind (k : Nat) (batch : RecordBatch)
  | bindStream (k : Nat) (schema : Schema) (reader : List (Except AdbcError RecordBatch))
  | next (k : Nat)
  | drop (k : Nat)
  | cancelConnection
  /-- The handle of the `k`th object, a statement. -/
  | cancelStatement (k : Nat)
  | cancelStream (resultId : String)

/-- The object it borrows. -/
def Activity.borrows : Activity → Option Nat
  | .call k _ | .bind k _ | .bindStream k _ _ | .next k => some k
  | .drop _ | .cancelConnection | .cancelStatement _ | .cancelStream _ => none

/-- On the object it names, if it has one. -/
def Activity.code (object : Option Object) : Activity → Option (Code Unit)
  | .call _ c => if receiver c = object ∧ object.isSome then some (method http arrow derived sessionId c) else none
  | .bind _ batch =>
    match object with
    | some (.statement id) => some (streaming id (Bind.bind arrow derived maxBindBytes sessionId id batch))
    | _ => none
  | .bindStream _ schema reader =>
    match object with
    | some (.statement id) => some (streaming id (Bind.bindStream arrow derived maxBindBytes sessionId id schema reader))
    | _ => none
  | .next _ =>
    match object with
    | some (.reader resultId) => some (nextRemote resultId)
    | _ => none
  | .drop _ => object.map (Object.drop http arrow derived sessionId)
  | .cancelConnection =>
    some (Lifetimes.tryCancel arrow derived sessionId (Calls.cancelConnection arrow derived sessionId))
  | .cancelStatement _ =>
    match object with
    | some (.statement id) =>
      some (Lifetimes.tryCancel arrow derived sessionId (Calls.cancelStatement arrow derived sessionId id))
    | _ => none
  | .cancelStream resultId => some (Lifetimes.cancelStream resultId)

/-- The object it names. -/
def Activity.object : Activity → Option Nat
  | .call k _ | .bind k _ | .bindStream k _ _ | .next k | .drop k | .cancelStatement k => some k
  | .cancelConnection | .cancelStream _ => none

/-! ## The application -/

structure Owned where
  object : Object
  alive : Bool

structure Thread where
  activity : Activity
  code : Code Unit

def Thread.running (t : Thread) : Bool :=
  match t.code with
  | .done _ => false
  | .call _ _ => true

/-- What each request came of is written down with it. -/
structure St where
  strong : Nat
  objects : List Owned
  threads : List Thread
  log : List (Activity × Request)

inductive Ev where
  | start (a : Activity)
  /-- The thread's next step; the answer to an operation is the world's. -/
  | step (n : Nat) (answer : (o : Op) → o.Ans)

/-- The activity may begin: the objects it uses or drops are there, and nobody uses what it
    drops. -/
def St.admits (s : St) : Activity → Bool
  | .drop k => (s.objects[k]?.any Owned.alive) && s.threads.all fun t => !t.running || t.activity.borrows != some k
  | a =>
    match a.borrows with
    | some k => s.objects[k]?.any Owned.alive
    | none => true

def St.named (s : St) (a : Activity) : Option Object := a.object.bind fun k => s.objects[k]?.map Owned.object

/-- A dropped object is moved into its drop. -/
def St.moved (s : St) : Activity → List Owned
  | .drop k => s.objects.modify k fun o => { o with alive := false }
  | _ => s.objects

/-- What a step is answered. -/
def St.answer (s : St) (answer : (o : Op) → o.Ans) : (st : Step Object Op) → Counted.Ans Object Op.Ans st
  | .clone | .keep _ => ()
  | .upgrade => decide (0 < s.strong)
  | .release => decide (s.strong = 1)
  | .op o => answer o

def counted (strong : Nat) : (st : Step Object Op) → Counted.Ans Object Op.Ans st → Nat
  | .clone, _ => strong + 1
  | .upgrade, upgraded => if upgraded then strong + 1 else strong
  | .release, _ => strong - 1
  | .keep _, _ | .op _, _ => strong

def kept : Step Object Op → List Owned
  | .keep o => [⟨o, true⟩]
  | _ => []

def sent : Step Object Op → List Request
  | .op (.send r) => [r]
  | _ => []

/-- A worker that is told to cancel goes on by itself. -/
def started : Step Object Op → List Thread
  | .op (.tellWorker id) => [⟨.cancelStream id, Lifetimes.cancelStream id⟩]
  | _ => []

/-- The thread `t`, at number `n`, took the step `st`. -/
def St.took (s : St) (n : Nat) (t : Thread) (st : Step Object Op) (a : Counted.Ans Object Op.Ans st)
    (code : Code Unit) : St where
  strong := counted s.strong st a
  objects := s.objects ++ kept st
  threads := s.threads.set n { t with code := code } ++ started st
  log := s.log ++ (sent st).map fun r => (t.activity, r)

def next (s : St) : Ev → Option St
  | .start a =>
    if s.admits a then
      (a.code http arrow derived maxBindBytes sessionId (s.named a)).map fun code =>
        { s with objects := s.moved a, threads := s.threads ++ [⟨a, code⟩] }
    else none
  | .step n answer =>
    match s.threads[n]? with
    | none => none
    | some t =>
      match t.code with
      | .done _ => none
      | .call st k => some (s.took n t st (s.answer answer st) (k (s.answer answer st)))

def step (s : St) (e : Ev) : St := (next http arrow derived maxBindBytes sessionId s e).getD s

/-- From the moment `new_connection` returned. -/
def machine : Machine St Ev where
  init s := s = ⟨1, [⟨.connection, true⟩], [], []⟩
  step := step http arrow derived maxBindBytes sessionId

end Code

/-! ## References -/

def Request.closesSession : Request → Bool
  | .unary sent => sent.method = .closeConnection
  | _ => false

def Request.cancelsStream : Request → Bool
  | .cancelStream _ => true
  | _ => false

/-- CLOSE_CONNECTION is the finalizer's; a byte reader's worker needs no reference. -/
def Request.needs (r : Request) : Need :=
  if r.closesSession then .last else if r.cancelsStream then .nothing else .alive

theorem needs_last {r : Request} : r.needs = .last ↔ r.closesSession = true := by
  unfold Request.needs
  cases r.closesSession with
  | true => simp
  | false => cases r.cancelsStream <;> simp

theorem needs_nothing {r : Request} (h : r.needs = .nothing) : r.cancelsStream = true := by
  cases hr : r.cancelsStream with
  | true => rfl
  | false => cases hc : r.closesSession <;> simp [Request.needs, hc, hr] at h

def Op.needs : Op → Need
  | .send r => r.needs
  | .reply r => if r.needs = .alive then .alive else .nothing
  | .turnDue | .infoBatch | .workerRuns | .tellWorker _ => .nothing

/-- The references of a program, which may borrow an object. -/
abbrev holds (borrows : Prop) : Discipline (Counted.Ans Object Op.Ans) Share := refs Op.needs borrows

section References

variable {borrows : Prop} {g : Share} {α : Type} {http : Bool} {arrow : Arrow} {derived : Derived} {maxBindBytes : Nat}
  {sessionId : String}

theorem reply_alive {r : Request} (h : r.needs = .alive) : (Op.reply r).needs = .alive := if_pos h


/-- What needs no reference. -/
theorem follows_idle {o : Op} (h : o.needs = .nothing) {k : o.Ans → Prog (Counted.Ans Object Op.Ans) α}
    {post : Share → α → Prop} (hk : ∀ a, (holds borrows).Follows g (k a) post) :
    (holds borrows).Follows g (.call (.op o) k) post := follows_nothing h hk

theorem follows_request {r : Request} (hr : r.needs = .alive) (hl : g.Live borrows) :
    (holds borrows).Follows g (request r) fun g' _ => g' = g := by
  have hsend : (Op.send r).needs = .alive := hr
  refine follows_alive hsend hl fun _ => ?_
  exact follows_alive (reply_alive hr) hl fun _ => Discipline.follows_done.mpr rfl

/-- Requests that leave the session open. -/
def Stays (sent : Sent) : Prop := sent.method ≠ .closeConnection

theorem unary_alive {sent : Sent} (h : Stays sent) : (Request.unary sent).needs = .alive := by
  have hcloses : (Request.unary sent).closesSession = false := decide_eq_false h
  unfold Request.needs
  rw [hcloses]
  rfl

theorem follows_remotely {x : Calls.Remotely α} (hx : Prog.Uses Stays x) (hl : g.Live borrows) :
    (holds borrows).Follows g (remotely x) fun g' _ => g' = g :=
  Discipline.follows_interp (A := Stays) (fun _ hs => follows_request (unary_alive hs) hl) hx

theorem follows_streaming (statementId : String) (x : Bind.Streaming α) (hl : g.Live borrows) :
    (holds borrows).Follows g (streaming statementId x) fun g' _ => g' = g :=
  Discipline.follows_interp (A := fun _ => True) (fun _ _ => follows_request rfl hl) (Prog.uses_true x)

theorem remotely_callOk (method : Method) (batch : RecordBatch) :
    remotely (Calls.callOk arrow derived method batch) = Prog.bind (request (.unary ⟨method, batch⟩)) fun r =>
      .done (r >>= Calls.checked arrow derived method >>= fun _ => .ok ()) :=
  congrArg (Prog.interp fun sent => request (.unary sent)) (Calls.call_eq (d := fun _ => .ok ()) fun _ => rfl)

/-- Who gave back the last reference closes the session. -/
theorem follows_closeConnection (hlast : g.last = true) :
    (holds borrows).Follows g (closeConnection arrow derived sessionId) fun g' _ => g' = { g with last := false } := by
  have hneeds : (Op.send (.unary ⟨.closeConnection, sessionRequest sessionId⟩)).needs = .last := rfl
  unfold closeConnection Calls.sessionCall
  rw [remotely_callOk]
  refine ⟨(allows_last hneeds).mpr hlast, fun _ => ?_⟩
  rw [next_last hneeds]
  exact follows_idle rfl fun _ => rfl

/-- The reference is given back, and with the last one the session is closed. -/
theorem follows_dropRemote (hown : 0 < g.own) (hlast : g.last = false) :
    (holds borrows).Follows g (dropRemote arrow derived sessionId) fun g' _ => g' = ⟨g.own - 1, false⟩ := by
  refine ⟨hown, fun last => ?_⟩
  show (holds borrows).Follows ⟨g.own - 1, g.last || last⟩ (if last = true then _ else _ : Code Unit) _
  rw [hlast, Bool.false_or]
  cases last with
  | false => exact rfl
  | true => exact Discipline.follows_ignore.mpr (follows_closeConnection rfl)

/-! ### The client's calls -/

theorem uses_lift (x : Except AdbcError α) : Prog.Uses Stays (liftM x : Calls.Remotely α) := trivial

theorem uses_call {method : Method} (h : method ≠ .closeConnection) (batch : RecordBatch) :
    Prog.Uses Stays (Calls.call arrow derived method batch) := by
  refine Act.uses_bind ⟨h, fun _ => trivial⟩ fun response => ?_
  split
  · refine Act.uses_bind (uses_lift _) fun acknowledgement => ?_
    split <;> trivial
  · trivial

theorem uses_callOk {method : Method} (h : method ≠ .closeConnection) (batch : RecordBatch) :
    Prog.Uses Stays (Calls.callOk arrow derived method batch) :=
  Act.uses_bind (uses_call h batch) fun _ => trivial

theorem uses_client (c : ApiCall) : Prog.Uses Stays (c.client arrow derived sessionId) := by
  cases c with
  | setConnectionOption _ _ | setStatementOption _ _ _ =>
    exact Act.uses_bind (uses_lift _) fun _ => uses_callOk (by decide) _
  | getConnectionOption _ _ =>
    exact Act.uses_bind (Act.uses_bind (uses_call (by decide) _) fun _ => uses_lift _) fun _ => uses_lift _
  | getStatementOption _ _ _ | executeUpdate _ | newStatement =>
    exact Act.uses_bind (uses_call (by decide) _) fun _ => Act.uses_bind (uses_lift _) fun _ => uses_lift _
  | getInfo _ | getObjects _ _ _ _ _ _ | getTableSchema _ _ _ | getStatistics _ _ _ _ =>
    exact Act.uses_bind (uses_lift _) fun _ => Act.uses_bind (uses_call (by decide) _) fun _ => uses_lift _
  | executePartitions _ =>
    refine Act.uses_bind (uses_call (by decide) _) fun _ => Act.uses_bind (uses_lift _) fun _ => ?_
    exact Act.uses_bind (uses_lift _) fun _ => trivial
  | getTableTypes | getStatisticNames | readPartition _ | execute _ | executeSchema _ | getParameterSchema _ =>
    exact Act.uses_bind (uses_call (by decide) _) fun _ => uses_lift _
  | commit | rollback | cancelConnection | prepare _ | setSqlQuery _ _ | setSubstraitPlan _ _ | cancelStatement _
  | closeStatement _ | closeResult _ => exact uses_callOk (by decide) _

/-! ### Drops and methods -/

theorem follows_drop (o : Object) (hown : 0 < g.own) (hlast : g.last = false) :
    (holds borrows).Follows g (o.drop http arrow derived sessionId) fun g' _ => g' = ⟨g.own - 1, false⟩ := by
  cases o with
  | connection => exact follows_dropRemote hown hlast
  | statement id =>
    refine Discipline.follows_seq.mpr (Discipline.follows_ignore.mpr ?_)
    refine (follows_remotely (uses_callOk (by decide) _) (.inr hown)).mono fun g' _ hg => ?_
    subst hg
    exact follows_dropRemote hown hlast
  | reader resultId =>
    refine Discipline.follows_seq.mpr (Discipline.follows_ignore.mpr ?_)
    refine (follows_remotely (uses_callOk (by decide) _) (.inr hown)).mono fun g' _ hg => ?_
    subst hg
    refine Discipline.follows_seq.mpr ((follows_dropRemote hown hlast).mono fun g' r hg => ?_)
    subst hg
    cases r with
    | error e => exact rfl
    | ok u =>
      show (holds borrows).Follows _ (if http = true then _ else _ : Code Unit) _
      split
      · exact rfl
      · refine follows_idle rfl fun runs => ?_
        show (holds borrows).Follows _ (if runs = true then _ else _ : Code Unit) _
        split
        · exact follows_idle rfl fun _ => rfl
        · exact rfl

/-- A reader that was opened has a reference; one that could not be opened has given it back. -/
theorem follows_openReader (hg : g = .none) (hb : borrows) (resultId : String) :
    (holds borrows).Follows g (openReader arrow derived sessionId resultId) fun g' r =>
      g' = match r with | .ok _ => ⟨1, false⟩ | .error _ => .none := by
  subst hg
  refine ⟨.inl hb, fun _ => ?_⟩
  refine Discipline.follows_recover.mpr ?_
  refine (follows_request (r := .openResult resultId) rfl (.inl hb)).mono fun g' r hg => ?_
  subst hg
  cases r with
  | ok u => exact rfl
  | error e =>
    refine Discipline.follows_seq.mpr ((follows_dropRemote Nat.one_pos rfl).mono fun g' r hg => ?_)
    subst hg
    cases r <;> exact rfl

theorem follows_readerKept (hb : borrows) (resultId : String) :
    (holds borrows).Follows .none (openReader arrow derived sessionId resultId >>= fun _ =>
      take (.keep (.reader resultId)) : Code Unit) fun g' _ => g' = .none := by
  refine Discipline.follows_seq.mpr ((follows_openReader rfl hb resultId).mono fun g' r hg => ?_)
  subst hg
  cases r with
  | error e => exact rfl
  | ok u => exact ⟨Nat.one_pos, fun _ => rfl⟩

theorem follows_getInfo (hb : borrows) (resultId : String) (schema : Schema) (codes : Option (List UInt32)) :
    (holds borrows).Follows .none (finish http arrow derived sessionId (.getInfo codes) (resultId, schema))
      fun g' _ => g' = .none := by
  refine Discipline.follows_seq.mpr ((follows_openReader rfl hb resultId).mono fun g' r hg => ?_)
  subst hg
  cases r with
  | error e => exact rfl
  | ok u =>
    refine Discipline.follows_seq.mpr (Discipline.follows_recover.mpr (follows_idle rfl fun r => ?_))
    cases r with
    | ok u => exact ⟨Nat.one_pos, fun _ => rfl⟩
    | error e =>
      have hdrop : (holds borrows).Follows ⟨1, false⟩ ((Object.reader resultId).drop http arrow derived sessionId)
        fun g' _ => g' = ⟨0, false⟩ := follows_drop _ Nat.one_pos rfl
      refine Discipline.follows_seq.mpr (hdrop.mono fun g' r hg => ?_)
      subst hg
      cases r <;> exact rfl

theorem follows_finish (hb : borrows) (c : ApiCall) (x : c.Ret) :
    (holds borrows).Follows .none (finish http arrow derived sessionId c x) fun g' _ => g' = .none := by
  cases c with
  | newStatement => exact ⟨.inl hb, fun _ => ⟨Nat.one_pos, fun _ => rfl⟩⟩
  | getInfo codes =>
    obtain ⟨resultId, schema⟩ := x
    exact follows_getInfo hb resultId schema codes
  | getObjects _ _ _ _ _ _ | getTableTypes | getStatisticNames | getStatistics _ _ _ _ | readPartition _ | execute _ =>
    obtain ⟨resultId, schema⟩ := x
    exact follows_readerKept hb resultId
  | _ => exact rfl

theorem follows_tryCancel {x : Calls.Remotely Unit} (hx : Prog.Uses Stays x) :
    (holds borrows).Follows .none (tryCancel arrow derived sessionId x) fun g' _ => g' = .none := by
  refine ⟨trivial, fun upgraded => ?_⟩
  show (holds borrows).Follows _ (if upgraded = true then _ else _ : Code Unit) _
  cases upgraded with
  | false => exact rfl
  | true =>
    refine Discipline.follows_bind.mpr ((follows_remotely hx (.inr Nat.one_pos)).mono fun g' r hg => ?_)
    subst hg
    exact Discipline.follows_bind.mpr ((follows_dropRemote Nat.one_pos rfl).mono fun g' r hg => hg)

/-! ### Activities -/

/-- What an activity begins with: a drop has the reference of what it drops. -/
def Activity.share : Activity → Share
  | .drop _ => ⟨1, false⟩
  | _ => .none

/-- Every activity gives back what it takes, and uses the session under a reference. -/
theorem follows_activity {a : Activity} {object : Option Object} {code : Code Unit}
    (h : a.code http arrow derived maxBindBytes sessionId object = some code) :
    (holds a.borrows.isSome).Follows a.share code fun g _ => g = .none := by
  cases a with
  | call k c =>
    simp only [Activity.code] at h
    split at h
    · cases h
      have hb : (Activity.call k c).borrows.isSome = true := rfl
      refine Discipline.follows_seq.mpr ((follows_remotely (uses_client c) (.inl hb)).mono fun g' r hg => ?_)
      subst hg
      cases r with
      | error e => exact rfl
      | ok x => exact follows_finish hb c x
    · cases h
  | bind k _ | bindStream k _ _ =>
    simp only [Activity.code] at h
    split at h
    · cases h
      exact follows_streaming _ _ (.inl rfl)
    · cases h
  | next k =>
    simp only [Activity.code] at h
    split at h
    · cases h
      refine follows_idle rfl fun due => ?_
      cases due with
      | false => exact rfl
      | true => exact Discipline.follows_bind.mpr ((follows_request (r := .turn _) rfl (.inl rfl)).mono fun g' r hg => hg)
    · cases h
  | drop k =>
    obtain ⟨o, -, rfl⟩ := Option.map_eq_some_iff.mp h
    exact follows_drop o Nat.one_pos rfl
  | cancelConnection =>
    cases h
    exact follows_tryCancel (uses_callOk (by decide) _)
  | cancelStatement k =>
    simp only [Activity.code] at h
    split at h
    · cases h
      exact follows_tryCancel (uses_callOk (by decide) _)
    · cases h
  | cancelStream resultId =>
    cases h
    exact follows_idle rfl fun _ => follows_idle rfl fun _ => rfl

end References

/-! ## What a drop sends -/

/-- Requests in the order of `full`, from its beginning. -/
def sending (full : List Request) : Discipline (Counted.Ans Object Op.Ans) (List Request) where
  allows g
    | .op (.send r) => g ++ [r] <+: full
    | _ => True
  next g
    | .op (.send r), _ => g ++ [r]
    | _, _ => g

section Sends

variable {http : Bool} {arrow : Arrow} {derived : Derived} {sessionId : String}

/-- The close of an object; the connection itself has none. -/
def Object.closing (sessionId : String) : Object → List Request
  | .connection => []
  | .statement id => [.unary ⟨.closeStatement, statementRequest sessionId id⟩]
  | .reader resultId => [.unary ⟨.closeResult, resultRequest sessionId resultId⟩]

def closes (sessionId : String) : Request := .unary ⟨.closeConnection, sessionRequest sessionId⟩

theorem sends_callOk {full g : List Request} {method : Method} {batch : RecordBatch}
    (h : g ++ [.unary ⟨method, batch⟩] <+: full) :
    (sending full).Follows g (remotely (Calls.callOk arrow derived method batch))
      fun g' _ => g' = g ++ [.unary ⟨method, batch⟩] := by
  rw [remotely_callOk]
  exact ⟨h, fun _ => ⟨trivial, fun _ => rfl⟩⟩

theorem sends_dropRemote {g : List Request} :
    (sending (g ++ [closes sessionId])).Follows g (dropRemote arrow derived sessionId) fun g' _ => g <+: g' := by
  refine ⟨trivial, fun last => ?_⟩
  show (sending _).Follows g (if last = true then _ else _ : Code Unit) _
  split
  · refine Discipline.follows_ignore.mpr ((sends_callOk (List.prefix_refl _)).mono fun g' _ hg => ?_)
    subst hg
    exact List.prefix_append g _
  · exact List.prefix_refl g

theorem sends_drop (o : Object) :
    (sending (o.closing sessionId ++ [closes sessionId])).Follows [] (o.drop http arrow derived sessionId)
      fun g _ => o.closing sessionId <+: g := by
  cases o with
  | connection => exact sends_dropRemote
  | statement id =>
    refine Discipline.follows_seq.mpr (Discipline.follows_ignore.mpr ?_)
    refine (sends_callOk (List.prefix_append _ _)).mono fun g _ hg => ?_
    subst hg
    exact sends_dropRemote
  | reader resultId =>
    refine Discipline.follows_seq.mpr (Discipline.follows_ignore.mpr ?_)
    refine (sends_callOk (List.prefix_append _ _)).mono fun g _ hg => ?_
    subst hg
    refine Discipline.follows_seq.mpr (sends_dropRemote.mono fun g r hg => ?_)
    cases r with
    | error e => exact hg
    | ok u =>
      show (sending _).Follows g (if http = true then _ else _ : Code Unit) _
      split
      · exact hg
      · refine ⟨trivial, fun runs => ?_⟩
        show (sending _).Follows g (if runs = true then _ else _ : Code Unit) _
        split
        · exact ⟨trivial, fun _ => hg⟩
        · exact hg

end Sends

/-! ## The books of a state -/

def St.books (s : St) : Books :=
  ⟨s.strong, s.objects.countP Owned.alive, s.log.countP fun e => e.2.closesSession⟩

def Activity.drops : Activity → Option Nat
  | .drop k => some k
  | _ => none

/-- What the drop of the `k`th object has sent. -/
def sentBy (log : List (Activity × Request)) (k : Nat) : List Request :=
  log.filterMap fun e => if e.1.drops = some k then some e.2 else none

/-- In the order of the log: nothing but cancelled streams after CLOSE_CONNECTION, and no
    use of an object after a request of its drop. -/
def Before (e e' : Activity × Request) : Prop :=
  (e.2.closesSession = true → e'.2.cancelsStream = true) ∧ ∀ k, e.1.drops = some k → e'.1.borrows ≠ some k

section Invariant

variable (sessionId : String)

/-- Each thread keeps to its share, and the count is that of the objects and the shares. -/
def Kept (s : St) : Prop :=
  ∃ gs : List Share, s.books.Balanced gs ∧ gs.length = s.threads.length ∧
    ∀ (n : Nat) (t : Thread) (g : Share), s.threads[n]? = some t → gs[n]? = some g →
      (holds t.activity.borrows.isSome).Follows g t.code fun g _ => g = .none

structure Inv (s : St) : Prop where
  kept : Kept s
  borrowed : ∀ t ∈ s.threads, t.running = true → ∀ k, t.activity.borrows = some k →
    ∃ o, s.objects[k]? = some ⟨o, true⟩
  dropping : ∀ t ∈ s.threads, ∀ k, t.activity.drops = some k → ∃ o, s.objects[k]? = some ⟨o, false⟩ ∧
    sentBy s.log k <+: o.closing sessionId ++ [closes sessionId] ∧
    (sending (o.closing sessionId ++ [closes sessionId])).Follows (sentBy s.log k) t.code
      fun g _ => o.closing sessionId <+: g
  once : ∀ (n m : Nat) (t t' : Thread) (k : Nat), s.threads[n]? = some t → s.threads[m]? = some t' →
    t.activity.drops = some k → t'.activity.drops = some k → n = m
  logged : ∀ e ∈ s.log, ∀ k, e.1.drops = some k → ∃ o, s.objects[k]? = some ⟨o, false⟩
  dropped : ∀ k o, s.objects[k]? = some ⟨o, false⟩ → ∃ t ∈ s.threads, t.activity.drops = some k
  ordered : s.log.Pairwise Before

/-! ### One step -/

variable {http : Bool} {arrow : Arrow} {derived : Derived} {maxBindBytes : Nat} {s : St}

variable (http arrow derived maxBindBytes) in
/-- What a step can do. -/
inductive Moved (s : St) : St → Prop
  | start (a : Activity) (code : Code Unit) : s.admits a = true →
      a.code http arrow derived maxBindBytes sessionId (s.named a) = some code →
      Moved s { s with objects := s.moved a, threads := s.threads ++ [⟨a, code⟩] }
  | took (n : Nat) (t : Thread) (st : Step Object Op) (k : Counted.Ans Object Op.Ans st → Code Unit)
      (a : Counted.Ans Object Op.Ans st) : s.threads[n]? = some t → t.code = .call st k → s.books.Answers st a →
      Moved s (s.took n t st a (k a))

variable {sessionId}

variable (http arrow derived maxBindBytes sessionId) in
theorem step_moved (s : St) (e : Ev) : step http arrow derived maxBindBytes sessionId s e = s ∨
    Moved sessionId http arrow derived maxBindBytes s (step http arrow derived maxBindBytes sessionId s e) := by
  unfold step
  cases e with
  | start a =>
    simp only [next]
    split
    case isFalse => exact .inl rfl
    rename_i hadmits
    cases hcode : a.code http arrow derived maxBindBytes sessionId (s.named a) with
    | none => exact .inl rfl
    | some code => exact .inr (.start a code hadmits hcode)
  | step n answer =>
    simp only [next]
    cases ht : s.threads[n]? with
    | none => exact .inl rfl
    | some t =>
      simp only
      cases hc : t.code with
      | done r => exact .inl rfl
      | call st k =>
        refine .inr (.took n t st k _ ht hc ?_)
        cases st <;> first | rfl | trivial

theorem books_took (s : St) (n : Nat) (t : Thread) (st : Step Object Op) (a : Counted.Ans Object Op.Ans st)
    (code : Code Unit) : (s.took n t st a code).books = s.books.next Op.needs st a := by
  cases st with
  | clone | release => simp [St.took, St.books, Books.next, counted, kept, sent]
  | upgrade => cases a <;> simp [St.took, St.books, Books.next, counted, kept, sent]
  | keep o => simp [St.took, St.books, Books.next, counted, kept, sent]
  | op o =>
    cases o with
    | send r =>
      cases hr : r.closesSession with
      | true => simp [St.took, St.books, Books.next, counted, kept, sent, Op.needs, needs_last, hr]
      | false => simp [St.took, St.books, Books.next, counted, kept, sent, Op.needs, needs_last, hr]
    | reply r =>
      by_cases hr : r.needs = .alive
      · simp [St.took, St.books, Books.next, counted, kept, sent, Op.needs, hr]
      · simp [St.took, St.books, Books.next, counted, kept, sent, Op.needs, hr]
    | turnDue | infoBatch | workerRuns | tellWorker _ =>
      simp [St.took, St.books, Books.next, counted, kept, sent, Op.needs]

theorem getElem?_append_of_some {α : Type} {l l' : List α} {i : Nat} {x : α} (h : l[i]? = some x) :
    (l ++ l')[i]? = some x := by
  rw [List.getElem?_append_left (List.getElem?_eq_some_iff.mp h).1, h]

/-- A thread after the step: it was there, or it took the step, or the step started it. -/
theorem thread_took {n m : Nat} {t t' : Thread} {st : Step Object Op} {a : Counted.Ans Object Op.Ans st}
    {code : Code Unit} (h : (s.took n t st a code).threads[m]? = some t') :
    (m = n ∧ t' = { t with code := code }) ∨ (m ≠ n ∧ s.threads[m]? = some t') ∨
      (s.threads.length ≤ m ∧ (started st)[m - s.threads.length]? = some t') := by
  rcases Nat.lt_or_ge m s.threads.length with hm | hm
  · have hset : (s.threads.set n { t with code := code })[m]? = some t' := by
      rw [← h]
      exact (List.getElem?_append_left (by simpa using hm)).symm
    rcases getElem?_set_cases hset with hx | hx
    · exact .inl hx
    · exact .inr (.inl hx)
  · refine .inr (.inr ⟨hm, ?_⟩)
    have hright : (s.threads.set n { t with code := code } ++ started st)[m]? =
        (started st)[m - (s.threads.set n { t with code := code }).length]? :=
      List.getElem?_append_right (by simpa using hm)
    rw [List.length_set] at hright
    exact hright.symm.trans h

theorem started_cancels {st : Step Object Op} {t : Thread} (h : t ∈ started st) :
    ∃ id, t = ⟨.cancelStream id, Lifetimes.cancelStream id⟩ := by
  cases st with
  | op o =>
    cases o with
    | tellWorker id => exact ⟨id, List.mem_singleton.mp h⟩
    | send _ | reply _ | turnDue | infoBatch | workerRuns => cases h
  | clone | upgrade | release | keep _ => cases h

/-! ### The shares -/

theorem alive_owned {k : Nat} {o : Object} (h : s.objects[k]? = some ⟨o, true⟩) : 0 < s.books.owned :=
  List.countP_pos_iff.mpr ⟨_, List.mem_of_getElem? h, rfl⟩

theorem follows_cancelStream (id : String) :
    (holds (Activity.cancelStream id).borrows.isSome).Follows .none (Lifetimes.cancelStream id) fun g _ => g = .none :=
  follows_idle rfl fun _ => follows_idle rfl fun _ => rfl

/-- The share of the thread that is next. -/
theorem share_of {gs : List Share} {n : Nat} {t : Thread} {st : Step Object Op}
    {k : Counted.Ans Object Op.Ans st → Code Unit} (hlen : gs.length = s.threads.length)
    (hfollows : ∀ (n : Nat) (t : Thread) (g : Share), s.threads[n]? = some t → gs[n]? = some g →
      (holds t.activity.borrows.isSome).Follows g t.code fun g _ => g = .none)
    (ht : s.threads[n]? = some t) (hc : t.code = .call st k) :
    ∃ g, gs[n]? = some g ∧ (holds t.activity.borrows.isSome).Follows g (.call st k) fun g _ => g = .none := by
  have hn : n < gs.length := hlen ▸ (List.getElem?_eq_some_iff.mp ht).1
  have hg : gs[n]? = some gs[n] := List.getElem?_eq_getElem hn
  exact ⟨gs[n], hg, hc ▸ hfollows n t gs[n] ht hg⟩

theorem Kept.took (hk : Kept s) {n : Nat} {t : Thread} {st : Step Object Op}
    {k : Counted.Ans Object Op.Ans st → Code Unit} {a : Counted.Ans Object Op.Ans st} (ht : s.threads[n]? = some t)
    (hc : t.code = .call st k) (ha : s.books.Answers st a) (hown : t.activity.borrows.isSome → 0 < s.books.owned) :
    Kept (s.took n t st a (k a)) := by
  obtain ⟨gs, hbal, hlen, hfollows⟩ := hk
  obtain ⟨g₀, hg, hfollow⟩ := share_of hlen hfollows ht hc
  have hnext := balanced_next hbal hg hown st a hfollow.1 ha
  rw [← books_took s n t st a (k a)] at hnext
  refine ⟨_, hnext.starts (started st).length, ?_, ?_⟩
  · simp [St.took, hlen]
  · intro m t' g ht' hg'
    rcases thread_took ht' with ⟨rfl, rfl⟩ | ⟨hm, ht'⟩ | ⟨hm, ht'⟩
    · have hset : (gs.set m ((holds t.activity.borrows.isSome).next g₀ st a))[m]? = _ := getElem?_set_of_some hg
      rw [getElem?_append_of_some hset] at hg'
      cases hg'
      exact hfollow.2 a
    · have hgm : (gs.set n ((holds t.activity.borrows.isSome).next g₀ st a))[m]? = gs[m]? :=
        List.getElem?_set_ne (Ne.symm hm)
      have hlt : m < gs.length := hlen ▸ (List.getElem?_eq_some_iff.mp ht').1
      rw [List.getElem?_append_left (by simpa using hlt), hgm] at hg'
      exact hfollows m t' g ht' hg'
    · rw [List.getElem?_append_right (by simpa [hlen] using hm)] at hg'
      obtain ⟨id, rfl⟩ := started_cancels (List.mem_of_getElem? ht')
      cases List.eq_of_mem_replicate (List.mem_of_getElem? hg')
      exact follows_cancelStream id

/-- A new thread, with the share its activity begins with. -/
theorem Kept.started (hk : Kept s) {a : Activity} {code : Code Unit} {objects : List Owned}
    (hbal : ∀ gs : List Share, s.books.Balanced gs →
      (⟨s.strong, objects.countP Owned.alive, s.books.finalized⟩ : Books).Balanced (gs ++ [a.share]))
    (hcode : (holds a.borrows.isSome).Follows a.share code fun g _ => g = .none) :
    Kept { s with objects := objects, threads := s.threads ++ [⟨a, code⟩] } := by
  obtain ⟨gs, hb, hlen, hfollows⟩ := hk
  refine ⟨gs ++ [a.share], hbal gs hb, by simp [hlen], ?_⟩
  intro m t g ht hg
  rcases getElem?_snoc_cases ht with ht | ⟨rfl, rfl⟩
  · have hlt : m < gs.length := hlen ▸ (List.getElem?_eq_some_iff.mp ht).1
    rw [List.getElem?_append_left hlt] at hg
    exact hfollows m t g ht hg
  · rw [← hlen, List.getElem?_append_right (Nat.le_refl _), Nat.sub_self] at hg
    cases hg
    exact hcode

/-! ### A step of a thread -/

variable {n : Nat} {t : Thread} {st : Step Object Op} {k : Counted.Ans Object Op.Ans st → Code Unit}
  {a : Counted.Ans Object Op.Ans st}

theorem running_call (hc : t.code = .call st k) : t.running = true := by
  unfold Thread.running
  rw [hc]

theorem Inv.owned (hi : Inv sessionId s) (ht : s.threads[n]? = some t) (hc : t.code = .call st k)
    (hb : t.activity.borrows.isSome = true) : 0 < s.books.owned := by
  obtain ⟨j, hj⟩ := Option.isSome_iff_exists.mp hb
  obtain ⟨o, ho⟩ := hi.borrowed t (List.mem_of_getElem? ht) (running_call hc) j hj
  exact alive_owned ho

theorem sentBy_append (log log' : List (Activity × Request)) (j : Nat) :
    sentBy (log ++ log') j = sentBy log j ++ sentBy log' j := List.filterMap_append

theorem sentBy_other {activity : Activity} {j : Nat} (h : activity.drops ≠ some j) (rs : List Request) :
    sentBy (rs.map fun r => (activity, r)) j = [] := by
  refine List.filterMap_eq_nil_iff.mpr fun e he => ?_
  obtain ⟨r, -, rfl⟩ := List.mem_map.mp he
  exact if_neg h

theorem sentBy_own {activity : Activity} {j : Nat} (h : activity.drops = some j) (rs : List Request) :
    sentBy (rs.map fun r => (activity, r)) j = rs := by
  simp [sentBy, h]

/-- The drop's own step, in the order of its requests. -/
theorem sending_next {full g : List Request} (st : Step Object Op) (a : Counted.Ans Object Op.Ans st) :
    (sending full).next g st a = g ++ sent st := by
  cases st with
  | op o =>
    cases o with
    | send r => rfl
    | reply _ | turnDue | infoBatch | workerRuns | tellWorker _ => exact (List.append_nil g).symm
  | clone | upgrade | release | keep _ => exact (List.append_nil g).symm

theorem sending_prefix {full g : List Request} (hg : g <+: full) (h : (sending full).allows g st) :
    g ++ sent st <+: full := by
  have hnil : g ++ [] <+: full := by rwa [List.append_nil]
  cases st with
  | op o =>
    cases o with
    | send r => exact h
    | reply _ | turnDue | infoBatch | workerRuns | tellWorker _ => exact hnil
  | clone | upgrade | release | keep _ => exact hnil

theorem Inv.dropping_took (hi : Inv sessionId s) (ht : s.threads[n]? = some t) (hc : t.code = .call st k) :
    ∀ t' ∈ (s.took n t st a (k a)).threads, ∀ j, t'.activity.drops = some j →
      ∃ o, (s.took n t st a (k a)).objects[j]? = some ⟨o, false⟩ ∧
        sentBy (s.took n t st a (k a)).log j <+: o.closing sessionId ++ [closes sessionId] ∧
        (sending (o.closing sessionId ++ [closes sessionId])).Follows (sentBy (s.took n t st a (k a)).log j) t'.code
          fun g _ => o.closing sessionId <+: g := by
  intro t' hmem j hj
  obtain ⟨m, hm⟩ := List.mem_iff_getElem?.mp hmem
  have hlog : sentBy (s.took n t st a (k a)).log j =
      sentBy s.log j ++ sentBy ((sent st).map fun r => (t.activity, r)) j := sentBy_append _ _ _
  rcases thread_took hm with ⟨rfl, rfl⟩ | ⟨hne, ht'⟩ | ⟨-, ht'⟩
  · obtain ⟨o, ho, hfrom, hfollow⟩ := hi.dropping t (List.mem_of_getElem? ht) j hj
    rw [hc] at hfollow
    have hnext := hfollow.2 a
    rw [sending_next] at hnext
    rw [hlog, sentBy_own hj]
    exact ⟨o, getElem?_append_of_some ho, sending_prefix hfrom hfollow.1, hnext⟩
  · obtain ⟨o, ho, hfrom, hfollow⟩ := hi.dropping t' (List.mem_of_getElem? ht') j hj
    have hother : t.activity.drops ≠ some j := fun hj' => hne (hi.once m n t' t j ht' ht hj hj')
    rw [hlog, sentBy_other hother, List.append_nil]
    exact ⟨o, getElem?_append_of_some ho, hfrom, hfollow⟩
  · obtain ⟨id, rfl⟩ := started_cancels (List.mem_of_getElem? ht')
    cases hj

/-- The thread that took the step is who it was. -/
theorem activity_took {m : Nat} {t' : Thread} (ht : s.threads[n]? = some t) {code : Code Unit}
    (hm : (s.took n t st a code).threads[m]? = some t') :
    (∃ t₀, s.threads[m]? = some t₀ ∧ t₀.activity = t'.activity) ∨ ∃ id, t'.activity = .cancelStream id := by
  rcases thread_took hm with ⟨rfl, rfl⟩ | ⟨-, ht'⟩ | ⟨-, ht'⟩
  · exact .inl ⟨t, ht, rfl⟩
  · exact .inl ⟨t', ht', rfl⟩
  · obtain ⟨id, rfl⟩ := started_cancels (List.mem_of_getElem? ht')
    exact .inr ⟨id, rfl⟩

theorem mem_took {t₀ : Thread} (ht : s.threads[n]? = some t) (h : t₀ ∈ s.threads) (code : Code Unit) :
    ∃ t' ∈ (s.took n t st a code).threads, t'.activity = t₀.activity := by
  obtain ⟨m, hm⟩ := List.mem_iff_getElem?.mp h
  by_cases hmn : m = n
  · subst hmn
    cases ht.symm.trans hm
    exact ⟨_, List.mem_append_left _ (List.mem_of_getElem? (getElem?_set_of_some ht)), rfl⟩
  · have hset : (s.threads.set n { t with code := code })[m]? = some t₀ := by
      rw [List.getElem?_set_ne (Ne.symm hmn)]
      exact hm
    exact ⟨t₀, List.mem_append_left _ (List.mem_of_getElem? hset), rfl⟩

/-- What is sent comes after all that was sent before. -/
theorem Inv.before (hi : Inv sessionId s) (ht : s.threads[n]? = some t) {r : Request}
    {k : Counted.Ans Object Op.Ans (.op (.send r)) → Code Unit} (hc : t.code = .call (.op (.send r)) k) :
    ∀ e ∈ s.log, Before e (t.activity, r) := by
  intro e he
  refine ⟨fun hlast => ?_, fun j hj hb => ?_⟩
  · obtain ⟨gs, hbal, hlen, hfollows⟩ := hi.kept
    obtain ⟨g, hg, hfollow⟩ := share_of hlen hfollows ht hc
    have hpos : 0 < s.books.finalized := List.countP_pos_iff.mpr ⟨e, he, hlast⟩
    cases hr : r.needs with
    | alive =>
      have hneeds : (Op.send r).needs = .alive := hr
      have hlive := (allows_alive hneeds).mp hfollow.1
      have hcount := hbal.count_pos hg (hi.owned ht hc) hlive
      exact absurd (hbal.alive hcount).1 (by omega)
    | last =>
      have hneeds : (Op.send r).needs = .last := hr
      have hlast := (allows_last hneeds).mp hfollow.1
      exact absurd (hbal.finalizer hg hlast).2 (by omega)
    | nothing => exact needs_nothing hr
  · obtain ⟨o, ho⟩ := hi.logged e he j hj
    obtain ⟨o', ho'⟩ := hi.borrowed t (List.mem_of_getElem? ht) (running_call hc) j hb
    cases ho.symm.trans ho'

theorem Inv.ordered_took (hi : Inv sessionId s) (ht : s.threads[n]? = some t) (hc : t.code = .call st k) :
    (s.took n t st a (k a)).log.Pairwise Before := by
  cases st with
  | op o =>
    cases o with
    | send r =>
      refine List.pairwise_append.mpr ⟨hi.ordered, List.pairwise_singleton _ _, fun e he e' he' => ?_⟩
      cases List.mem_singleton.mp he'
      exact hi.before ht hc e he
    | reply _ | turnDue | infoBatch | workerRuns | tellWorker _ => simpa [St.took, sent] using hi.ordered
  | clone | upgrade | release | keep _ => simpa [St.took, sent] using hi.ordered

theorem Inv.took (hi : Inv sessionId s) (ht : s.threads[n]? = some t) (hc : t.code = .call st k)
    (ha : s.books.Answers st a) : Inv sessionId (s.took n t st a (k a)) where
  kept := hi.kept.took ht hc ha (hi.owned ht hc)
  borrowed t' hmem hrun j hj := by
    obtain ⟨m, hm⟩ := List.mem_iff_getElem?.mp hmem
    have hold : ∃ o, s.objects[j]? = some ⟨o, true⟩ := by
      rcases thread_took hm with ⟨rfl, rfl⟩ | ⟨-, ht'⟩ | ⟨-, ht'⟩
      · exact hi.borrowed t (List.mem_of_getElem? ht) (running_call hc) j hj
      · exact hi.borrowed t' (List.mem_of_getElem? ht') hrun j hj
      · obtain ⟨id, rfl⟩ := started_cancels (List.mem_of_getElem? ht')
        cases hj
    obtain ⟨o, ho⟩ := hold
    exact ⟨o, getElem?_append_of_some ho⟩
  dropping := hi.dropping_took ht hc
  once m m' t₁ t₂ j h₁ h₂ hj₁ hj₂ := by
    rcases activity_took ht h₁ with ⟨u₁, hu₁, he₁⟩ | ⟨id, he₁⟩
    case inr =>
      rw [he₁] at hj₁
      cases hj₁
    rcases activity_took ht h₂ with ⟨u₂, hu₂, he₂⟩ | ⟨id, he₂⟩
    case inr =>
      rw [he₂] at hj₂
      cases hj₂
    exact hi.once m m' u₁ u₂ j hu₁ hu₂ (he₁ ▸ hj₁) (he₂ ▸ hj₂)
  logged e he j hj := by
    have hold : ∃ o, s.objects[j]? = some ⟨o, false⟩ := by
      rcases List.mem_append.mp he with he | he
      · exact hi.logged e he j hj
      · obtain ⟨r, -, rfl⟩ := List.mem_map.mp he
        obtain ⟨o, ho, -⟩ := hi.dropping t (List.mem_of_getElem? ht) j hj
        exact ⟨o, ho⟩
    obtain ⟨o, ho⟩ := hold
    exact ⟨o, getElem?_append_of_some ho⟩
  dropped j o ho := by
    have hold : s.objects[j]? = some ⟨o, false⟩ := by
      rcases Nat.lt_or_ge j s.objects.length with hj | hj
      · rwa [St.took, List.getElem?_append_left hj] at ho
      · rw [St.took, List.getElem?_append_right hj] at ho
        have hmem := List.mem_of_getElem? ho
        cases st with
        | keep o' => cases List.mem_singleton.mp hmem
        | clone | upgrade | release | op _ => cases hmem
    obtain ⟨t₀, hmem, hj⟩ := hi.dropped j o hold
    obtain ⟨t', hmem', he⟩ := mem_took ht hmem (k a)
    exact ⟨t', hmem', he ▸ hj⟩
  ordered := hi.ordered_took ht hc

/-! ### A new thread -/

theorem any_alive {j : Nat} (h : s.objects[j]?.any Owned.alive = true) : ∃ o, s.objects[j]? = some ⟨o, true⟩ := by
  obtain ⟨x, hx, halive⟩ := (Option.any_eq_true _ _).mp h
  obtain ⟨o, alive⟩ := x
  cases halive
  exact ⟨o, hx⟩

theorem modify_alive {j : Nat} {o : Object} (h : s.objects[j]? = some ⟨o, true⟩) :
    s.moved (.drop j) = s.objects.set j ⟨o, false⟩ := by
  show s.objects.modify j _ = _
  rw [List.modify_eq_set_getElem?, h]
  rfl

theorem moved_self {j : Nat} {o : Object} (h : s.objects[j]? = some ⟨o, true⟩) :
    (s.moved (.drop j))[j]? = some ⟨o, false⟩ := by
  rw [modify_alive h]
  exact getElem?_set_of_some h

theorem moved_other {i j : Nat} {o : Object} (h : s.objects[j]? = some ⟨o, true⟩) (hij : i ≠ j) :
    (s.moved (.drop j))[i]? = s.objects[i]? := by
  rw [modify_alive h, List.getElem?_set_ne (Ne.symm hij)]

/-- The reference of what is dropped is no object's any more. -/
theorem owned_moved {j : Nat} {o : Object} (h : s.objects[j]? = some ⟨o, true⟩) :
    (s.moved (.drop j)).countP Owned.alive = s.books.owned - 1 := by
  have hcount := countP_set_of_some Owned.alive h ⟨o, false⟩
  rw [modify_alive h]
  show _ = s.objects.countP Owned.alive - 1
  simp only [Bool.toNat_true, Bool.toNat_false] at hcount
  omega

theorem drop_code {j : Nat} {o : Object} {code : Code Unit} (h : s.objects[j]? = some ⟨o, true⟩)
    (hcode : (Activity.drop j).code http arrow derived maxBindBytes sessionId (s.named (.drop j)) = some code) :
    code = o.drop http arrow derived sessionId := by
  have hnamed : s.named (.drop j) = some o := by
    show s.objects[j]?.map Owned.object = some o
    rw [h]
    rfl
  rw [hnamed] at hcode
  exact (Option.some.inj hcode).symm

/-- What was dropped is another object. -/
theorem ne_alive {i j : Nat} {o : Object} (h : s.objects[j]? = some ⟨o, true⟩)
    (hi : ∃ o', s.objects[i]? = some ⟨o', false⟩) : i ≠ j := by
  intro hij
  obtain ⟨o', ho'⟩ := hi
  subst hij
  cases h.symm.trans ho'

/-- An object that is alive sent nothing of its drop. -/
theorem Inv.unsent (hi : Inv sessionId s) {j : Nat} {o : Object} (h : s.objects[j]? = some ⟨o, true⟩) :
    sentBy s.log j = [] :=
  List.filterMap_eq_nil_iff.mpr fun e he => if_neg fun hj => ne_alive h (hi.logged e he j hj) rfl

/-- A drop begins: nobody uses the object, and its reference is the drop's. -/
theorem Inv.drops (hi : Inv sessionId s) {j : Nat} {code : Code Unit} (hadmits : s.admits (.drop j) = true)
    (hcode : (Activity.drop j).code http arrow derived maxBindBytes sessionId (s.named (.drop j)) = some code) :
    Inv sessionId { s with objects := s.moved (.drop j), threads := s.threads ++ [⟨.drop j, code⟩] } := by
  obtain ⟨halive, hunused⟩ := (Bool.and_eq_true _ _).mp hadmits
  obtain ⟨o, ho⟩ := any_alive halive
  have hdropped : ∀ (i : Nat) (o' : Object), s.objects[i]? = some ⟨o', false⟩ →
      (s.moved (.drop j))[i]? = some ⟨o', false⟩ :=
    fun i o' ho' => (moved_other ho (ne_alive ho ⟨o', ho'⟩)).trans ho'
  refine ⟨hi.kept.started ?_ (follows_activity hcode), ?_, ?_, ?_, ?_, ?_, hi.ordered⟩
  · intro gs hbal
    rw [owned_moved ho]
    exact hbal.take (alive_owned ho)
  · intro t hmem hrun i hb
    rcases List.mem_append.mp hmem with ht | ht
    · have hij : i ≠ j := by
        intro hij
        subst hij
        simpa [hrun, hb] using List.all_eq_true.mp hunused t ht
      obtain ⟨o', ho'⟩ := hi.borrowed t ht hrun i hb
      exact ⟨o', (moved_other ho hij).trans ho'⟩
    · cases List.mem_singleton.mp ht
      cases hb
  · intro t ht i hj
    rcases List.mem_append.mp ht with ht | ht
    · obtain ⟨o', ho', hsent⟩ := hi.dropping t ht i hj
      exact ⟨o', hdropped i o' ho', hsent⟩
    · cases List.mem_singleton.mp ht
      cases hj
      show ∃ o', (s.moved (.drop j))[j]? = some ⟨o', false⟩ ∧ sentBy s.log j <+: _ ∧
        Discipline.Follows _ (sentBy s.log j) code _
      rw [hi.unsent ho, drop_code ho hcode]
      exact ⟨o, moved_self ho, List.nil_prefix, sends_drop o⟩
  · intro m m' t t' i ht ht' hj hj'
    rcases getElem?_snoc_cases ht with ht | ⟨rfl, rfl⟩
    · rcases getElem?_snoc_cases ht' with ht' | ⟨rfl, rfl⟩
      · exact hi.once m m' t t' i ht ht' hj hj'
      · cases hj'
        obtain ⟨o', ho', -⟩ := hi.dropping t (List.mem_of_getElem? ht) j hj
        exact absurd rfl (ne_alive ho ⟨o', ho'⟩)
    · cases hj
      rcases getElem?_snoc_cases ht' with ht' | ⟨rfl, rfl⟩
      · obtain ⟨o', ho', -⟩ := hi.dropping t' (List.mem_of_getElem? ht') j hj'
        exact absurd rfl (ne_alive ho ⟨o', ho'⟩)
      · rfl
  · intro e he i hj
    obtain ⟨o', ho'⟩ := hi.logged e he i hj
    exact ⟨o', hdropped i o' ho'⟩
  · intro i o' ho'
    by_cases hij : i = j
    · subst hij
      exact ⟨_, List.mem_append_right _ (List.mem_singleton.mpr rfl), rfl⟩
    · obtain ⟨t, ht, hj⟩ := hi.dropped i o' ((moved_other ho hij).symm.trans ho')
      exact ⟨t, List.mem_append_left _ ht, hj⟩

/-- Anything else begins with no reference, on an object that is alive if it uses one. -/
theorem Inv.uses (hi : Inv sessionId s) {b : Activity} {code : Code Unit} (hshare : b.share = .none)
    (hdrops : b.drops = none)
    (halive : ∀ j, b.borrows = some j → ∃ o, s.objects[j]? = some ⟨o, true⟩)
    (hcode : (holds b.borrows.isSome).Follows b.share code fun g _ => g = .none) :
    Inv sessionId { s with threads := s.threads ++ [⟨b, code⟩] } := by
  refine ⟨hi.kept.started (fun gs hbal => hshare ▸ hbal.start) hcode, ?_, ?_, ?_, hi.logged, ?_, hi.ordered⟩
  · intro t ht hrun i hb
    rcases List.mem_append.mp ht with ht | ht
    · exact hi.borrowed t ht hrun i hb
    · cases List.mem_singleton.mp ht
      exact halive i hb
  · intro t ht i hj
    rcases List.mem_append.mp ht with ht | ht
    · exact hi.dropping t ht i hj
    · cases List.mem_singleton.mp ht
      cases hdrops.symm.trans hj
  · intro m m' t t' i ht ht' hj hj'
    rcases getElem?_snoc_cases ht with ht | ⟨rfl, rfl⟩
    case inr => cases hdrops.symm.trans hj
    rcases getElem?_snoc_cases ht' with ht' | ⟨rfl, rfl⟩
    case inr => cases hdrops.symm.trans hj'
    exact hi.once m m' t t' i ht ht' hj hj'
  · intro i o' ho'
    obtain ⟨t, ht, hj⟩ := hi.dropped i o' ho'
    exact ⟨t, List.mem_append_left _ ht, hj⟩

theorem Inv.start (hi : Inv sessionId s) {b : Activity} {code : Code Unit} (hadmits : s.admits b = true)
    (hcode : b.code http arrow derived maxBindBytes sessionId (s.named b) = some code) :
    Inv sessionId { s with objects := s.moved b, threads := s.threads ++ [⟨b, code⟩] } := by
  cases b with
  | drop j => exact hi.drops hadmits hcode
  | call j _ | bind j _ | bindStream j _ _ | next j =>
    refine hi.uses rfl rfl (fun i hb => ?_) (follows_activity hcode)
    cases hb
    exact any_alive hadmits
  | cancelConnection | cancelStatement _ | cancelStream _ =>
    exact hi.uses rfl rfl (fun i hb => by cases hb) (follows_activity hcode)

theorem inv_init : Inv sessionId ⟨1, [⟨.connection, true⟩], [], []⟩ where
  kept := ⟨[], ⟨rfl, rfl⟩, rfl, fun n t g ht => by cases ht⟩
  borrowed _ ht := by cases ht
  dropping _ ht := by cases ht
  once n m t t' j ht := by cases ht
  logged _ he := by cases he
  dropped j o ho := by
    cases j with
    | zero => cases ho
    | succ j => cases ho
  ordered := .nil

theorem reach_inv (h : (machine http arrow derived maxBindBytes sessionId).Reach s) : Inv sessionId s := by
  refine Machine.ReachIn.invariant ?_ ?_ h
  · intro s h0
    cases h0
    exact inv_init
  · intro s e _ hi
    show Inv sessionId (step http arrow derived maxBindBytes sessionId s e)
    rcases step_moved sessionId http arrow derived maxBindBytes s e with hs | hs
    · rw [hs]
      exact hi
    · generalize step http arrow derived maxBindBytes sessionId s e = s' at hs
      cases hs with
      | start b code hadmits hcode => exact hi.start hadmits hcode
      | took n t st k a ht hc ha => exact hi.took ht hc ha

end Invariant

/-! ## Whole runs -/

/-- The thread waits for the reply of a request that needs the session. -/
def Thread.Waits (t : Thread) : Prop :=
  ∃ r k, t.code = .call (.op (.reply r)) k ∧ r.closesSession = false ∧ r.cancelsStream = false

/-- What any run of the application comes to. -/
structure Lived (sessionId : String) (s : St) : Prop where
  once : s.log.countP (fun e => e.2.closesSession) ≤ 1
  ordered : s.log.Pairwise Before
  closed : (∃ e ∈ s.log, e.2.closesSession = true) →
    (∀ o ∈ s.objects, o.alive = false) ∧ ∀ t ∈ s.threads, ¬ t.Waits
  drops : ∀ k o, s.objects[k]? = some ⟨o, false⟩ →
    sentBy s.log k <+: o.closing sessionId ++ [closes sessionId] ∧
      ((∀ t ∈ s.threads, t.activity.drops = some k → t.running = false) → o.closing sessionId <+: sentBy s.log k)
  settled : (∀ t ∈ s.threads, t.running = false) →
    ((∃ e ∈ s.log, e.2.closesSession = true) ↔ ∀ o ∈ s.objects, o.alive = false)

section Lived

variable {sessionId : String} {s : St}

theorem closed_log : (∃ e ∈ s.log, e.2.closesSession = true) ↔ 0 < s.books.finalized :=
  List.countP_pos_iff.symm

theorem none_alive : (∀ o ∈ s.objects, o.alive = false) ↔ s.books.owned = 0 := by
  show _ ↔ s.objects.countP Owned.alive = 0
  rw [List.countP_eq_zero]
  exact forall₂_congr fun o _ => Bool.eq_false_iff

theorem Inv.lived (hi : Inv sessionId s) : Lived sessionId s := by
  obtain ⟨gs, hbal, hlen, hfollows⟩ := hi.kept
  have hdead : 0 < s.books.finalized → s.books.count = 0 := by
    intro hpos
    by_contra hne
    have := (hbal.alive (Nat.pos_iff_ne_zero.mpr hne)).1
    omega
  refine ⟨?_, hi.ordered, ?_, ?_, ?_⟩
  · have hdue := hbal.due
    show s.books.finalized ≤ 1
    have howed : owed s.books.count ≤ 1 := by
      unfold owed
      split <;> omega
    omega
  · intro hclosed
    have hcount := hdead (closed_log.mp hclosed)
    have hsum := hbal.sum
    refine ⟨none_alive.mpr (by omega), fun t ht hwaits => ?_⟩
    obtain ⟨r, k, hc, hcloses, hcancels⟩ := hwaits
    obtain ⟨n, hn⟩ := List.mem_iff_getElem?.mp ht
    have hlt : n < gs.length := hlen ▸ (List.getElem?_eq_some_iff.mp hn).1
    have hg : gs[n]? = some gs[n] := List.getElem?_eq_getElem hlt
    have hfollow := hfollows n t gs[n] hn hg
    rw [hc] at hfollow
    have hneeds : r.needs = .alive := by
      unfold Request.needs
      rw [hcloses, hcancels]
      rfl
    have hlive := (allows_alive (reply_alive hneeds)).mp hfollow.1
    exact absurd (hbal.count_pos hg (hi.owned hn hc) hlive) (by omega)
  · intro k o ho
    obtain ⟨t, ht, hj⟩ := hi.dropped k o ho
    obtain ⟨o', ho', hfrom, hfollow⟩ := hi.dropping t ht k hj
    cases ho.symm.trans ho'
    refine ⟨hfrom, fun hdone => ?_⟩
    have hrun := hdone t ht hj
    unfold Thread.running at hrun
    split at hrun
    · rename_i hc
      rw [hc] at hfollow
      exact hfollow
    · cases hrun
  · intro hdone
    have hshares : ∀ g ∈ gs, g.own = 0 ∧ g.last = false := by
      intro g hg
      obtain ⟨n, hn⟩ := List.mem_iff_getElem?.mp hg
      have hlt : n < s.threads.length := hlen ▸ (List.getElem?_eq_some_iff.mp hn).1
      have ht : s.threads[n]? = some s.threads[n] := List.getElem?_eq_getElem hlt
      have hrun := hdone _ (List.getElem_mem hlt)
      have hfollow := hfollows n _ g ht hn
      unfold Thread.running at hrun
      split at hrun
      · rename_i hc
        rw [hc] at hfollow
        cases hfollow
        exact ⟨rfl, rfl⟩
      · cases hrun
    obtain ⟨-, hfinal⟩ := hbal.settled hshares
    rw [closed_log, none_alive, hfinal]
    unfold owed
    split <;> omega

end Lived

/-- The life of a session: closed once, by whoever holds it last, after all that was opened
    in it. -/
theorem lifetimes (http : Bool) (arrow : Arrow) (derived : Derived) (maxBindBytes : Nat) (sessionId : String) (s : St)
    (h : (machine http arrow derived maxBindBytes sessionId).Reach s) : Lived sessionId s :=
  (reach_inv h).lived

/-! A reader of a byte transport that outlives its connection. -/

def replies : (o : Op) → o.Ans
  | .send _ | .tellWorker _ => ()
  | .reply (.unary sent) =>
    if sent.method = .getTableTypes then .ok ResultStream.typesReply else .error (notFound "session")
  | .reply (.bind _ (.openExchange _ _)) | .reply (.bind _ (.exchange _ _)) => .error (notFound "session")
  | .reply (.bind _ (.cancel _)) | .reply (.turn _) | .reply (.cancelStream _) => ()
  | .reply (.openResult _) | .infoBatch => .ok ()
  | .turnDue | .workerRuns => true

def outlivingMachine : Machine St Ev := machine false ResultStream.typesArrow ResultStream.typesDerived 65536 "c"

def onlyConnection : St := ⟨1, [⟨.connection, true⟩], [], []⟩

/-- `n` steps of a thread. -/
def steps (thread n : Nat) : List Ev := List.replicate n (.step thread replies)

def outliving : List Ev :=
  [.start (.call 0 .getTableTypes)] ++ steps 0 6 ++ [.start (.drop 0)] ++ steps 1 1 ++ [.start (.next 1)] ++ steps 2 3 ++
    [.start (.drop 1)] ++ steps 3 7 ++ steps 4 2

set_option maxRecDepth 8000 in
theorem lifetimes_outliving :
    Lived "c" (outlivingMachine.run onlyConnection outliving) ∧
    (outlivingMachine.run onlyConnection outliving).log.map Prod.snd =
      [.unary ⟨.getTableTypes, sessionRequest "c"⟩, .openResult "r", .turn "r",
        .unary ⟨.closeResult, resultRequest "c" "r"⟩, closes "c", .cancelStream "r"] :=
  ⟨lifetimes false ResultStream.typesArrow ResultStream.typesDerived 65536 "c" _ ⟨onlyConnection, rfl, .run _ _⟩, rfl⟩

end Grainlift.Client.Lifetimes
