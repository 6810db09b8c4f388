/-
  Grainlift.Client.CallRuns — a unary call in a concurrent run of the session.

  A client method makes at most one call. In a run that call is a handler among others:
  its operations interleave with theirs, its jobs wait in the worker's queue and can time
  out there, and the call or its answer can be lost on the way.

  Proved (`call_runs`): what such a call did. A call whose arguments cannot be sent did
  nothing. One whose answer came did what the session's operation says, from its first
  step to its last, and its caller has that operation's value or error; what the operation
  was told it did is in the session's history. One that was lost did a beginning of that,
  if anything. What was done for it are steps it asked for, each once and in their order.
-/

import Grainlift.Client.Calls
import Grainlift.Client.Desk
import Grainlift.Server.Solo

namespace Grainlift.Client.Calls

open Grainlift.Lib Grainlift.Protocol Grainlift.Server Concurrent

/-! ## Methods make one call -/

section Single

variable {arrow : Arrow} {derived : Derived} {srv : Service} {v : SessionView} {method : Method} {batch : RecordBatch}
  {α : Type} {sends : Prop} {runs : Sent → Prop}

/-- No call, or one and what is made of its answer. -/
inductive Single (sends : Prop) (runs : Sent → Prop) : Remotely α → Prop
  | none (e : AdbcError) : ¬ sends → Single sends runs (.done (.error e))
  | one (sent : Sent) (d : Except AdbcError RecordBatch → Except AdbcError α) : (sends → runs sent) →
      (∀ e, d (.error e) = .error e) → Single sends runs (.call sent fun r => .done (d r))

theorem single_call {f : RecordBatch → Remotely α} {d : RecordBatch → Except AdbcError α}
    (hf : ∀ response, f response = liftM (d response)) (hr : sends → runs ⟨method, batch⟩) :
    Single sends runs (call arrow derived method batch >>= f : Remotely α) := by
  rw [call_eq hf]
  exact .one _ _ hr fun e => rfl

theorem single_ok (hr : sends → runs ⟨method, batch⟩) : Single sends runs (callOk arrow derived method batch) :=
  single_call (d := fun _ => .ok ()) (fun _ => rfl) hr

theorem single_result (hr : sends → runs ⟨method, batch⟩) : Single sends runs (call arrow derived method batch >>=
    fun response => liftM (resultFromResponse arrow derived response) : Remotely (String × Schema)) :=
  single_call (fun _ => rfl) hr

theorem single_schema (hr : sends → runs ⟨method, batch⟩) : Single sends runs (call arrow derived method batch >>=
    fun response => liftM (decodeSchemaResponse arrow derived response) : Remotely Schema) :=
  single_call (fun _ => rfl) hr

/-- The call is a handler's on the caller's session. -/
def Runs (srv : Service) (v : SessionView) (sent : Sent) : Prop :=
  ∀ ctx, Mine srv ctx v → ∃ p, programOn srv v ctx (.request sent.method (versioned sent.request)) = some p

theorem runs_of_route (h : ∀ ctx, Mine srv ctx v → ∃ body,
    routeRequest srv ctx (versioned batch) method = .onSession v.principal v.sessionId body) :
    Runs srv v ⟨method, batch⟩ := by
  intro ctx hm
  obtain ⟨body, hroute⟩ := h ctx hm
  exact ⟨body v, by simp [programOn, route, hroute]⟩

/-- A typed call is made where its record can be built. -/
theorem single_typed (hw : Shared arrow derived srv) {t : RequestKind} {args : t.Record} {g : RecordBatch → Remotely α}
    (hg : ∀ batch, Server.typedRequest srv t (versioned batch) = .ok args →
      Single (ApiCall.Builds arrow derived t args) runs (g batch)) :
    Single (ApiCall.Builds arrow derived t args) runs
      (liftM (Options.typedRequest arrow derived t args) >>= g : Remotely α) := by
  by_cases h : ApiCall.Builds arrow derived t args
  · obtain ⟨batch, hb, hread⟩ := typed_sent hw h
    rw [hb]
    exact hg batch hread
  · obtain ⟨e, he⟩ := typed_refused h
    rw [he]
    exact .none e h

theorem client_single (hw : Shared arrow derived srv) (c : ApiCall) :
    Single (c.Accepted arrow derived v.sessionId) (Runs srv v) (c.client arrow derived v.sessionId) := by
  have hflat : ∀ (cells : List (String × Cell)) (method : Method) (body : CallContext → SessionView → Do RpcError Reply),
      argument cells "session_id" = some (.text v.sessionId) →
      (∀ ctx, routeRequest srv ctx (versioned (oneRow cells)) method =
        getSession srv ctx (versioned (oneRow cells)) (body ctx)) → Runs srv v ⟨method, oneRow cells⟩ :=
    fun cells method body hsid hroute => runs_of_route fun ctx hm =>
      ⟨body ctx, (hroute ctx).trans (getSession_versioned hm.caller hm.handle hsid (body ctx))⟩
  cases c with
  | setConnectionOption key value =>
    exact single_typed hw fun batch hread => single_ok fun _ => runs_of_route fun ctx hm =>
      ⟨_, typed_route hm.caller hread rfl _⟩
  | getConnectionOption t key =>
    show Single _ _ ((call arrow derived .getConnectionOption _ >>= fun response =>
      liftM (decodeOptionResponse arrow derived response)) >>= fun value => liftM (t.read value) : Remotely t.Value)
    rw [Act.seq_assoc]
    exact single_call (option_read t) fun _ => hflat _ _ _ rfl fun _ => rfl
  | newStatement => exact single_call (fun _ => Act.lift_seq _ _) fun _ => hflat _ _ _ rfl fun _ => rfl
  | getInfo codes =>
    exact single_typed hw fun batch hread => single_result fun _ => runs_of_route fun ctx hm =>
      ⟨_, typed_route hm.caller hread rfl _⟩
  | getObjects depth catalog dbSchema tableName tableType columnName =>
    exact single_typed hw fun batch hread => single_result fun _ => runs_of_route fun ctx hm =>
      ⟨_, typed_route hm.caller hread rfl _⟩
  | getTableSchema catalog dbSchema tableName =>
    exact single_typed hw fun batch hread => single_schema fun _ => runs_of_route fun ctx hm =>
      ⟨_, typed_route hm.caller hread rfl _⟩
  | getStatistics catalog dbSchema tableName approximate =>
    exact single_typed hw fun batch hread => single_result fun _ => runs_of_route fun ctx hm =>
      ⟨_, typed_route hm.caller hread rfl _⟩
  | setStatementOption id key value =>
    exact single_typed hw fun batch hread => single_ok fun _ => runs_of_route fun ctx hm =>
      ⟨_, typed_route hm.caller hread rfl _⟩
  | getStatementOption id t key => exact single_call (option_read t) fun _ => hflat _ _ _ rfl fun _ => rfl
  | executeUpdate id => exact single_call (fun _ => Act.lift_seq _ _) fun _ => hflat _ _ _ rfl fun _ => rfl
  | executePartitions id => exact single_call partsOf_lift fun _ => hflat _ _ _ rfl fun _ => rfl
  | getTableTypes | getStatisticNames | readPartition _ | execute _ =>
    exact single_result fun _ => hflat _ _ _ rfl fun _ => rfl
  | executeSchema _ | getParameterSchema _ => exact single_schema fun _ => hflat _ _ _ rfl fun _ => rfl
  | commit | rollback | cancelConnection | prepare _ | setSqlQuery _ _ | setSubstraitPlan _ _ | cancelStatement _
  | closeStatement _ | closeResult _ => exact single_ok fun _ => hflat _ _ _ rfl fun _ => rfl

end Single

/-! ## Methods stop at the first failure -/

/-- Nothing is asked for once an operation has failed. -/
def stopping : Discipline Ans Prop := ⟨fun failed _ => ¬ failed, fun failed _ a => failed ∨ ∃ e, a = .error e⟩

/-- The program has a value only if nothing failed. -/
def Stops {ε α : Type} (x : Do ε α) : Prop := stopping.Follows False x fun failed r => ∀ a, r = .ok a → ¬ failed

section Stops

variable {ε δ α β : Type}

theorem stops_op (op : Op) : Stops (Prog.ask op : Do AdbcError op.Ret) := by
  refine Discipline.follows_ask.mpr ⟨not_false, fun r a hr hf => ?_⟩
  rcases hf with hf | ⟨e, he⟩
  · exact hf
  · cases hr.symm.trans he

theorem stops_lift (r : Except ε α) : Stops (liftM r : Do ε α) := Discipline.follows_lift.mpr fun _ _ => not_false

theorem stops_seq {x : Do ε α} {f : α → Do ε β} (hx : Stops x) (hf : ∀ a, Stops (f a)) : Stops (x >>= f : Do ε β) := by
  refine Discipline.follows_seq.mpr (hx.mono fun failed r h => ?_)
  cases r with
  | error e =>
    intro a ha
    cases ha
  | ok a =>
    obtain rfl : failed = False := eq_false (h a rfl)
    exact hf a

theorem session_stops (unicode : Unicode) (ctx : CallContext) (v : SessionView) (c : ApiCall) :
    Stops (c.session unicode ctx v) := by
  have hkept : ∀ op, Stops (ApiCall.kept op) ↔ Stops (op >>= insertResult : Do AdbcError (String × Schema)) :=
    fun _ => Iff.rfl
  cases c with
  | setConnectionOption key value =>
    show Stops (Server.setConnectionOption unicode v.connectionOptionPolicy key value)
    unfold Server.setConnectionOption
    split
    · exact stops_op _
    · exact stops_lift (.error _)
  | getInfo _ | getObjects _ _ _ _ _ _ | getTableTypes | getStatisticNames | getStatistics _ _ _ _ =>
    exact (hkept _).mpr (stops_seq (stops_op _) fun _ => stops_op _)
  | readPartition _ => exact stops_seq (stops_lift _) fun _ => (hkept _).mpr (stops_seq (stops_op _) fun _ => stops_op _)
  | execute _ =>
    refine stops_seq (stops_op _) fun _ => stops_seq (stops_op _) fun _ => ?_
    exact stops_seq (stops_op _) fun _ => stops_op _
  | executeUpdate _ | executeSchema _ | executePartitions _ => exact stops_seq (stops_op _) fun _ => stops_op _
  | closeStatement _ => exact stops_seq (stops_op _) fun _ => stops_seq (stops_op _) fun _ => stops_op _
  | getConnectionOption _ _ | newStatement | getTableSchema _ _ _ | commit | rollback | cancelConnection
  | setStatementOption _ _ _ | getStatementOption _ _ _ | getParameterSchema _ | prepare _ | setSqlQuery _ _
  | setSubstraitPlan _ _ | cancelStatement _ | closeResult _ => exact stops_op _

theorem undo_stops (c : ApiCall) (x : c.Done) : stopping.Follows False (c.undo x) fun _ _ => True := by
  cases c with
  | newStatement =>
    have hclose : Stops (Server.closeStatement x) :=
      stops_seq (stops_op _) fun _ => stops_seq (stops_op _) fun _ => stops_op _
    exact Discipline.follows_ignore.mpr (hclose.mono fun _ _ _ => trivial)
  | getInfo _ | getObjects _ _ _ _ _ _ | getTableTypes | getStatisticNames | getStatistics _ _ _ _ | readPartition _
  | execute _ =>
    exact Discipline.follows_ignore.mpr ((stops_op (.job (.closeResult x.1))).mono fun _ _ _ => trivial)
  | _ => exact trivial

theorem onSession_stops (srv : Service) (ctx : CallContext) (v : SessionView) (wire : Wire) (c : ApiCall) :
    stopping.Follows False (c.onSession srv ctx v wire) fun _ _ => True := by
  refine Discipline.follows_bind.mpr ((session_stops _ ctx v c).mono fun failed r h => ?_)
  cases r with
  | error e => exact trivial
  | ok a =>
    obtain rfl : failed = False := eq_false (h a rfl)
    simp only
    cases c.outgoing srv ctx v a with
    | error e => exact trivial
    | ok sent =>
      simp only
      cases c.reply srv ctx v sent with
      | ok batch => exact trivial
      | error e => exact Discipline.follows_bind.mpr ((undo_stops c sent).mono fun _ _ _ => trivial)

theorem after_stopping (failed : Prop) (trail : List ((op : Op) × Ans op)) :
    stopping.after failed trail ↔ failed ∨ Faulted trail := by
  induction trail generalizing failed with
  | nil => simp [Faulted]
  | cons n trail ih =>
    show stopping.after (failed ∨ ∃ e, n.2 = .error e) trail ↔ _
    rw [ih]
    simp [Faulted, or_assoc]

/-- So whatever is asked for comes before any failure. -/
theorem stopping_orderly {ρ : Type} {p q : Prog Ans ρ} (h : stopping.Follows False p fun _ _ => True)
    {trail : List ((op : Op) × Ans op)} (hr : Discipline.Ran p trail q) : Orderly trail := by
  intro before o a rest heq hf
  obtain ⟨k, hat⟩ := hr.at heq
  exact (h.ran hat).1 ((after_stopping False before).mpr (.inr hf))

end Stops

/-! ## A call in a run -/

section Run

variable {host : Host} {arrow : Arrow} {derived : Derived} {srv : Service} {v : SessionView} {wire : Wire} {lossy : Prop}
  {s t : St} {ks : List (Option Nat)} {c : ApiCall} {r : Except AdbcError c.Ret}

/-- A call that did not come to its session: it was lost, or refused before. -/
def Unserved (srv : Service) (v : SessionView) (wire : Wire) (lossy : Prop) (sent : Sent) (a : Answer sent) : Prop :=
  (lossy ∧ ∃ e, a = .error e) ∨ ∃ ctx, Mine srv ctx v ∧
    programOn srv v ctx (.request sent.method (versioned sent.request)) = none ∧ a = wire.received (refused srv ctx sent)

/-- Unary calls of the session's owner. -/
def unaryDesk (srv : Service) (v : SessionView) (wire : Wire) (lossy : Prop) : Desk St Ev Nat Answer :=
  sessionDesk srv v (fun ctx => Mine srv ctx v) (fun sent => .request sent.method (versioned sent.request))
    (fun _ => wire.received) (Unserved srv v wire lossy)

/-- What the handler was told its operations did is in the history, or is an error. -/
def Accounted (s : St) (h : Nat) (trail : List ((op : Op) × Ans op)) : Prop :=
  ∀ n ∈ trail, Noted s h n ∨ ∃ e, n.2 = .error e

variable (arrow derived srv v wire lossy c t r) in
/-- What a call that came to `r` did, by `t`. -/
inductive Fate : List (Option Nat) → Prop
  | refused {ks : List (Option Nat)} : ¬ c.Accepted arrow derived v.sessionId → (∃ e, r = .error e) →
      (∀ h, some h ∈ ks → ∃ hd, t.handlers[h]? = some hd ∧ hd.trail = []) → Fate ks
  /-- The handler ran to its end, and its caller has the end. -/
  | answered (ctx : CallContext) {h : Nat} {hd : Handler} : c.Accepted arrow derived v.sessionId → Mine srv ctx v →
      (∃ i, t.started[h]? = some (ctx, i)) → t.handlers[h]? = some hd →
      Discipline.Ran (c.onSession srv ctx v wire) hd.trail (.done r) → hd.call = none → Accounted t h hd.trail →
      Fate [some h]
  | unsent : c.Accepted arrow derived v.sessionId → lossy → (∃ e, r = .error e) → Fate [none]
  /-- The handler may run on. -/
  | unanswered (ctx : CallContext) {h : Nat} {hd : Handler} {q : Prog Ans (Except AdbcError c.Ret)} :
      c.Accepted arrow derived v.sessionId → lossy → (∃ e, r = .error e) → Mine srv ctx v → t.handlers[h]? = some hd →
      Discipline.Ran (c.onSession srv ctx v wire) hd.trail q → Accounted t h hd.trail → Fate [some h]

section One

variable {ctx : CallContext} {sent : Sent} {p q : Do RpcError Reply} {trail : List ((op : Op) × Ans op)} {α : Type}
  {d : Except AdbcError RecordBatch → Except AdbcError α}

theorem interp_served (hp : programOn srv v ctx (.request sent.method (versioned sent.request)) = some p) :
    Prog.interp (serve srv ctx v wire) (.call sent fun a => .done (d a) : Remotely α) =
      p.bind fun reply => .done (d (wire.received reply)) := by
  show (serve srv ctx v wire sent).bind _ = _
  unfold serve
  rw [hp]
  exact Prog.bind_assoc p _ _

theorem interp_refused (hn : programOn srv v ctx (.request sent.method (versioned sent.request)) = none) :
    Prog.interp (serve srv ctx v wire) (.call sent fun a => .done (d a) : Remotely α) =
      .done (d (wire.received (refused srv ctx sent))) := by
  show (serve srv ctx v wire sent).bind _ = _
  unfold serve
  rw [hn]
  rfl

end One

/-- A program that is done stays so. -/
theorem ran_done {ρ : Type} {x : ρ} {trail : List ((op : Op) × Ans op)} {q : Prog Ans ρ}
    (h : Discipline.Ran (.done x) trail q) : trail = [] ∧ q = .done x := by
  induction h with
  | start => exact ⟨rfl, rfl⟩
  | answer a _ ih => cases ih.2

/-- A handler that returned waits for nothing. -/
theorem returned_idle (hr : (machine host srv v).Reach s) {h : Nat} {hd : Handler} {x : Except RpcError Reply}
    (hh : s.handlers[h]? = some hd) (hp : hd.prog = .done x) : hd.call = none := by
  cases hc : hd.call with
  | none => rfl
  | some c =>
    obtain ⟨j, k, hin⟩ := (reach_wf hr).calls h hd c hh hc
    cases hin.prog.symm.trans hp

/-- A handler goes on as its program says, and what it was told is accounted for. -/
theorem handler_ran (hr : (machine host srv v).Reach t) {ctx : CallContext} {i : Invocation} {p : Do RpcError Reply}
    {h : Nat} (hst : t.started[h]? = some (ctx, i)) (hp : programOn srv v ctx i = some p) :
    ∃ hd, t.handlers[h]? = some hd ∧ Discipline.Ran p hd.trail hd.prog ∧ Accounted t h hd.trail := by
  obtain ⟨hlen, hserves⟩ := reach_serves hr
  have hlt : h < t.handlers.length := by
    have := (List.getElem?_eq_some_iff.mp hst).1
    omega
  have hh := List.getElem?_eq_getElem hlt
  obtain ⟨c', p', hc', hp', hran⟩ := hserves h _ hh
  cases hst.symm.trans hc'
  cases hp.symm.trans hp'
  exact ⟨_, hh, hran, fun n hn => (reach_noting hr).trails h _ n hh hn⟩

theorem call_fate (hw : Shared arrow derived srv) (hs : (machine host srv v).Reach s)
    (hc : Calls (machine host srv v) (unaryDesk srv v wire lossy) s (c.client arrow derived v.sessionId) ks r t) :
    Fate arrow derived srv v wire lossy t c r ks := by
  have hsingle := client_single (v := v) hw c
  have hsame : ∀ ctx, Mine srv ctx v → c.Accepted arrow derived v.sessionId →
      Prog.interp (serve srv ctx v wire) (c.client arrow derived v.sessionId) = c.onSession srv ctx v wire :=
    fun ctx hm ha => accepted_transparent hw hm c ha
  have hother : ∀ ctx, Mine srv ctx v → ¬ c.Accepted arrow derived v.sessionId →
      ∃ e, Prog.interp (serve srv ctx v wire) (c.client arrow derived v.sessionId) = .done (.error e) :=
    fun ctx hm ha => refused_call hm c ha
  generalize c.client arrow derived v.sessionId = p at hsingle hsame hother hc
  cases hsingle with
  | none e hn =>
    cases hc with
    | done _ => exact .refused hn ⟨e, rfl⟩ fun h hh => by cases hh
  | one sent d hruns hd =>
    have hbind : Calls (machine host srv v) (unaryDesk srv v wire lossy) s
      (Prog.bind (.call sent .done) fun a => .done (d a)) ks r t := hc
    obtain ⟨a, u, ks₁, ks₂, rfl, h₁, h₂⟩ := hbind.of_bind
    cases h₂ with
    | done hlast =>
    rw [List.append_nil]
    -- a call refused at the door is one whose arguments cannot be sent
    have unserved : Unserved srv v wire lossy sent a →
        (∃ e, d a = .error e) ∧ (c.Accepted arrow derived v.sessionId → lossy) := by
      intro hl
      rcases hl with ⟨hlossy, e, rfl⟩ | ⟨ctx, hm, hnone, rfl⟩
      · exact ⟨⟨e, hd e⟩, fun _ => hlossy⟩
      · have hnot : ¬ c.Accepted arrow derived v.sessionId := by
          intro ha
          obtain ⟨p, hp⟩ := hruns ha ctx hm
          cases hnone.symm.trans hp
        obtain ⟨e, he⟩ := hother ctx hm hnot
        exact ⟨⟨e, Prog.done.inj ((interp_refused hnone).symm.trans he)⟩, fun ha => absurd ha hnot⟩
    cases served hs (h₁.idle hlast) with
    | lost _ hl =>
      obtain ⟨he, hlossy⟩ := unserved hl
      by_cases ha : c.Accepted arrow derived v.sessionId
      · exact .unsent ha (hlossy ha) he
      · refine .refused ha he fun h hh => ?_
        cases List.mem_singleton.mp hh
    | @handled x x' ctx p h _ hm hp hpath _ _ hst _ hq hwt hans =>
      have hx := (hs.extend hpath).extend hq
      have ht := hx.extend hwt
      have hst' := serving_path hx hwt hst
      obtain ⟨hd', hh, hran, haccounted⟩ := handler_ran ht hst' hp
      have hinterp := hran.bind fun reply => Prog.done (d (wire.received reply))
      rw [← interp_served hp] at hinterp
      by_cases ha : c.Accepted arrow derived v.sessionId
      · rw [hsame ctx hm ha] at hinterp
        rcases hans with ⟨hd'', r, hh', hpr, rfl⟩ | hl
        · cases hh.symm.trans hh'
          rw [hpr] at hinterp
          exact .answered ctx ha hm ⟨_, hst'⟩ hh hinterp (returned_idle ht hh hpr) haccounted
        · obtain ⟨he, hlossy⟩ := unserved hl
          exact .unanswered ctx ha (hlossy ha) he hm hh hinterp haccounted
      · obtain ⟨e, he⟩ := hother ctx hm ha
        rw [he] at hinterp
        obtain ⟨htrail, hend⟩ := ran_done hinterp
        refine .refused ha ?_ fun i hi => ?_
        · rcases hans with ⟨hd'', r, hh', hpr, rfl⟩ | hl
          · cases hh.symm.trans hh'
            rw [hpr] at hend
            exact ⟨e, Prog.done.inj hend⟩
          · exact (unserved hl).1
        · cases List.mem_singleton.mp hi
          exact ⟨hd', hh, htrail⟩

/-- Its handler asked for nothing once an operation had failed. -/
theorem Fate.orderly (hf : Fate arrow derived srv v wire lossy t c r ks) {h : Nat} {hd : Handler} (hk : some h ∈ ks)
    (hh : t.handlers[h]? = some hd) : Orderly hd.trail := by
  cases hf with
  | refused _ _ hnone =>
    obtain ⟨hd', hh', htrail⟩ := hnone h hk
    cases hh'.symm.trans hh
    intro before o a rest heq
    rw [htrail] at heq
    cases before <;> cases heq
  | answered ctx _ _ _ hh' hran _ _ =>
    cases List.mem_singleton.mp hk
    cases hh'.symm.trans hh
    exact stopping_orderly (onSession_stops srv ctx v wire c) hran
  | unsent _ _ _ => cases List.mem_singleton.mp hk
  | unanswered ctx _ _ _ _ hh' hran _ =>
    cases List.mem_singleton.mp hk
    cases hh'.symm.trans hh
    exact stopping_orderly (onSession_stops srv ctx v wire c) hran

end Run

/-- What a call did in any concurrent run of its session, whether its answer came or not:
    nothing if its arguments cannot be sent, else the session's operation, whole if the
    answer came and a beginning of it if not; and the session performed for it some of what
    its handler asked for, each operation once and in order. -/
theorem call_runs (host : Host) (arrow : Arrow) (derived : Derived) (srv : Service) (v : SessionView)
    (hw : Shared arrow derived srv) (wire : Wire) (lossy : Prop) (c : ApiCall) (s t : St) (ks : List (Option Nat))
    (r : Except AdbcError c.Ret) (hs : (machine host srv v).Reach s)
    (hc : Calls (machine host srv v) (unaryDesk srv v wire lossy) s (c.client arrow derived v.sessionId) ks r t) :
    Fate arrow derived srv v wire lossy t c r ks ∧
    ∀ h hd, some h ∈ ks → t.handlers[h]? = some hd → (eventsOf t h).Sublist hd.asked := by
  have hfate := call_fate hw hs hc
  refine ⟨hfate, fun h hd hk hh => ?_⟩
  have hworked := reach_worked (hs.extend hc.path) h hd hh (hfate.orderly hk hh)
  exact (List.sublist_append_left _ _).trans hworked

/-! A COMMIT that is answered. -/

def commitMachine : Machine St Ev := machine Solo.smallHost okService committer

def committing : St := commitMachine.step openedS (.start anonymous (.request .commit (versioned (sessionRequest "c"))))

def committed : St := commitMachine.run committing (called 0 "a")

theorem commit_calls : Calls commitMachine (unaryDesk okService committer okWire False) openedS
    (commit okArrow okDerived "c") [some 0] (.ok ()) committed := by
  have hbegins : (unaryDesk okService committer okWire False).begins openedS ⟨.commit, sessionRequest "c"⟩
      (.start anonymous (.request .commit (versioned (sessionRequest "c")))) 0 :=
    ⟨anonymous, _, committer_mine, rfl, rfl, rfl⟩
  have hanswers : (unaryDesk okService committer okWire False).answers committed 0 ⟨.commit, sessionRequest "c"⟩
      (.ok (envelope "result" (stream [schemaFrame, okFrame] true))) := ⟨_, _, rfl, rfl, rfl⟩
  exact .call (.refl _) hbegins (.run _ _) (.inl hanswers) (.done (.refl _))

theorem call_runs_commit :
    Fate okArrow okDerived okService committer okWire False committed .commit (.ok ()) [some 0] ∧
    (eventsOf committed 0).Sublist [.job (.connection .commit)] ∧
    committed.inner.calls = [.connection .commit (.ok ())] := by
  have hruns := call_runs Solo.smallHost okArrow okDerived okService committer okArrow_shared okWire False .commit openedS
    committed _ _ ⟨openedS, ⟨_, rfl⟩, .refl _⟩ commit_calls
  exact ⟨hruns.1, hruns.2 0 _ List.mem_cons_self rfl, rfl⟩

end Grainlift.Client.Calls
