/-
  Grainlift.Server.BindTurns — the turns of bind exchanges in concurrent runs
  (`BindExchange::exchange` and `on_cancel`, service.rs).

  A turn is at one of a few stages (`Stage`): it was sent, its push was accepted or
  refused, it took the upload out of the registry, read it back, handed it to a bind job,
  or is over. `turner` is the discipline of that order and `staged` what one step of a run
  does to a turn's stage; `Tasked` says that a bind job is that of a finish turn that read
  its upload back, its only one. `Uploaded` is what a step does to one upload and to the
  history of its pushes.
-/

import Grainlift.Server.BindSchema
import Grainlift.Server.History

namespace Grainlift.Server.BindDelivery

open Grainlift.Lib Grainlift.Protocol Concurrent

/-! ## An upload in the history -/

/-- `bind` and `bind_stream`. -/
def Binds : StatementOp → Prop
  | .bind _ | .bindStream _ => True
  | _ => False

/-- The batch a successful push of the upload staged. -/
def stagedBy (id : String) : (op : Op) → Ans op → Option RecordBatch
  | .hold (.pushUpload id' b), .ok _ => if id' = id then some b else none
  | _, _ => none

/-- The batches of all data turns whose push succeeded, in push order. -/
def pushed (log : List Event) (id : String) : List RecordBatch := log.filterMap fun ev => stagedBy id ev.op ev.answer

def startedBy (id : String) : (op : Op) → Ans op → Option BindUploadEntry
  | .hold (.insertUpload entry), .ok id' => if id' = id then some entry else none
  | _, _ => none

/-- The upload was started as `entry`: its statement, its mode and its schema. -/
def Started (log : List Event) (id : String) (entry : BindUploadEntry) : Prop :=
  ∃ ev ∈ log, startedBy id ev.op ev.answer = some entry

def decoded (srv : Service) (cursor : BindCursor) (input : RecordBatch) : Except ProtocolError (Option RecordBatch) :=
  srv.codec.decodeBindTurn input (min cursor.maxBytes maxControlBytes)

/-! ## Stages of a turn -/

inductive Stage where
  /-- No turn of a bind exchange. -/
  | other
  /-- An init request that started the upload and has yet to register it. -/
  | opened (upload : BindUpload)
  | sent (id : String) (turn : Except ProtocolError (Option RecordBatch))
  | cancels (id : String)
  | accepted (id : String)
  /-- Its push failed; it has yet to cancel. -/
  | refused (id : String)
  | took (id : String) (entry : BindUploadEntry)
  | read (id : String) (entry : BindUploadEntry) (reader : Reader)
  | bound (id : String) (entry : BindUploadEntry) (reader : Reader)
  | done (id : String)

def Stage.of (srv : Service) : Option BindTurn → Stage
  | none => .other
  | some (.exchange cursor input) => .sent cursor.uploadId (decoded srv cursor input)
  | some (.cancel cursor) => .cancels cursor.uploadId

/-- What the finish turn of an upload binds once it read it back. -/
def Rereads (entry : BindUploadEntry) (reader : Reader) : StatementOp → Prop
  | .bind b => entry.mode = .batch ∧ exactlyOne reader = .ok b
  | .bindStream r => entry.mode = .stream ∧ r = reader
  | _ => False

def permits : Stage → Op → Prop
  | .other, op => ¬ Binding op ∧ ∀ entry, op ≠ .hold (.insertUpload entry)
  | .opened upload, op => ∃ sid mode, op = .hold (.insertUpload ⟨sid, mode, upload⟩)
  | .sent id (.ok (some b)), op => op = .hold (.pushUpload id b)
  | .sent id (.ok none), op | .sent id (.error _), op | .cancels id, op | .refused id, op =>
    op = .hold (.takeUpload id)
  | .took _ entry, op => op = .hold (.finishUpload entry.upload)
  | .read _ entry reader, op => ∃ o, op = .job (.statement entry.statementId o) ∧ Rereads entry reader o
  | .accepted _, _ | .bound _ _ _, _ | .done _, _ => False

def Stage.next : Stage → (op : Op) → Ans op → Stage
  | .other, .hold (.startUpload _ _), .ok upload => .opened upload
  | .opened _, _, _ => .other
  | .sent id (.ok (some _)), _, .ok _ => .accepted id
  | .sent id (.ok (some _)), _, .error _ => .refused id
  | .sent id (.ok none), .hold (.takeUpload _), .ok entry => .took id entry
  | .sent id _, _, _ | .refused id, _, _ => .done id
  | .took id entry, .hold (.finishUpload _), .ok reader => .read id entry reader
  | .took id _, _, _ => .done id
  | .read id entry reader, _, _ => .bound id entry reader
  | g, _, _ => g

def turner : Discipline Ans Stage := ⟨permits, Stage.next⟩

@[simp] theorem turner_allows : turner.allows = permits := rfl
@[simp] theorem turner_next : turner.next = Stage.next := rfl

/-- Where a turn may stop. -/
def Stage.Ended : Stage → Prop
  | .other | .cancels _ | .accepted _ | .read _ _ _ | .bound _ _ _ | .done _ => True
  | .opened _ | .sent _ _ | .refused _ | .took _ _ => False

@[simp] theorem ended_other : Stage.other.Ended := trivial
@[simp] theorem ended_cancels (id : String) : (Stage.cancels id).Ended := trivial
@[simp] theorem ended_accepted (id : String) : (Stage.accepted id).Ended := trivial
@[simp] theorem ended_read (id : String) (entry : BindUploadEntry) (reader : Reader) :
    (Stage.read id entry reader).Ended := trivial
@[simp] theorem ended_bound (id : String) (entry : BindUploadEntry) (reader : Reader) :
    (Stage.bound id entry reader).Ended := trivial
@[simp] theorem ended_done (id : String) : (Stage.done id).Ended := trivial

abbrev Takes (g : Stage) (p : Do RpcError Reply) : Prop := turner.Follows g p fun g _ => g.Ended

section Follows

variable {srv : Service} {ctx : CallContext}

/-- The plain operations are none of an exchange's and open no upload. -/
theorem plain_passes {sets : Prop} {op : Op} (h : Plain sets op) : permits .other op ∧ ∀ a, Stage.other.next op a = .other := by
  match op with
  | .job (.statement _ .execute) | .job (.statement _ (.bind _)) | .job (.statement _ (.bindStream _)) => cases h
  | .job (.statement _ (.setOption _ _)) | .job (.statement _ (.getOption _ _))
  | .job (.statement _ (.setSqlQuery _)) |
    .job (.statement _ (.setSubstraitPlan _)) | .job (.statement _ .prepare) | .job (.statement _ .executeUpdate) |
    .job (.statement _ .executeSchema) | .job (.statement _ .executePartitions) |
      .job (.statement _ .getParameterSchema) |
    .job (.connection _) | .job (.resultSchema _) | .job (.nextResult _ _) |
    .hold (.checkStatement _) | .hold .cancelConnection | .hold (.cancelStatement _) =>
    exact ⟨⟨id, fun _ h => by cases h⟩, fun _ => rfl⟩
  | .job .newStatement | .job (.removeStatement _) | .job (.invalidate _) | .job (.insertResult _ _)
  | .job (.closeResult _) | .hold (.startUpload _ _) | .hold (.insertUpload _) | .hold (.takeUploadsOf _) |
    .hold (.pushUpload _ _) | .hold (.takeUpload _) | .hold (.finishUpload _) => cases h

theorem takes_of_plain {sets : Prop} {p : Do RpcError Reply} (hp : Prog.Uses (Plain sets) p) : Takes .other p :=
  .of_uses hp (fun _ h => plain_passes h) fun _ => trivial

theorem resultResponse_takes (resultId : String) (schema : Schema) (limit : Nat) :
    Takes .other (resultResponse srv resultId schema limit) := by
  unfold resultResponse
  split <;> simp [closeResult, permits, Binding, Stage.next]

theorem handleResponse_takes (value : Response) (limit : Nat) (id : String) :
    Takes .other (handleResponse srv value limit (closeStatement id).ignore) := by
  unfold handleResponse
  split <;> simp [closeStatement, invalidateStatementResults, permits, Binding, Stage.next]

theorem acknowledge_takes {g : Stage} (hg : g.Ended) (finished : Bool) : Takes g (acknowledge ctx finished) := by
  refine Discipline.follows_seq.mpr (Discipline.follows_lift.mpr ?_)
  cases ctx.emit bindAck <;> exact hg

theorem exchange_takes (cursor : BindCursor) (input : RecordBatch) :
    Takes (.sent cursor.uploadId (decoded srv cursor input)) (exchangeTurn srv ctx cursor input) := by
  unfold exchangeTurn
  cases hd : srv.codec.decodeBindTurn input (min cursor.maxBytes maxControlBytes) with
  | error e =>
    rw [show decoded srv cursor input = .error e from hd]
    simp [cancelBindUpload, permits, Stage.next]
  | ok turn =>
    rw [show decoded srv cursor input = .ok turn from hd]
    cases turn with
    | some b => simp [pushBindUpload, cancelBindUpload, permits, Stage.next, acknowledge_takes]
    | none =>
      simp only [finishBindUpload, Discipline.follows_seq, Discipline.follows_mapErr]
      refine follows_hold.mpr ⟨rfl, ?_, fun e => trivial⟩
      intro entry
      refine Discipline.follows_seq.mpr (follows_hold.mpr ⟨rfl, ?_, fun e => trivial⟩)
      intro reader
      show turner.Follows (.read cursor.uploadId entry reader) _ _
      cases hmode : entry.mode with
      | batch =>
        refine Discipline.follows_seq.mpr (Discipline.follows_lift.mpr ?_)
        cases hone : exactlyOne reader with
        | error e => trivial
        | ok b =>
          exact follows_job.mpr
            ⟨⟨_, rfl, hmode, hone⟩, fun _ => acknowledge_takes (ended_bound ..) true, fun e => trivial⟩
      | stream => exact follows_job.mpr ⟨⟨_, rfl, hmode, rfl⟩, fun _ => acknowledge_takes (ended_bound ..) true,
        fun e => trivial⟩

theorem shape_takes {sets : Prop} {t : Option BindTurn} {p : Do RpcError Reply} (h : Shape srv ctx sets t p) :
    Takes (.of srv t) p := by
  cases h with
  | plain hp => exact takes_of_plain hp
  | newStatement v =>
    simp [Stage.of, newStatementHandler, newStatement, handleResponse_takes, permits, Binding, Stage.next]
  | insert hx =>
    simp only [thenInsert, Discipline.follows_seq, Discipline.follows_mapErr]
    refine .of_uses hx (fun _ h => plain_passes h) ?_
    intro r
    cases r with
    | error e => trivial
    | ok reader =>
      simp [Stage.of, insertReaderResponse, insertResult, insertOwnedResult, resultResponse_takes, permits,
        Binding, Stage.next]
  | execute sid =>
    simp [Stage.of, executeOn, invalidateStatementResults, withStatement, insertStatementResult, insertOwnedResult,
      resultResponse_takes, permits, Binding, Stage.next]
  | executeOther sid op respond hop =>
    have hrest : Takes .other ((withStatement sid op).mapErr .adbc >>= fun x => liftM (respond x) : Do RpcError Reply) :=
      takes_of_plain (thenStatement_plain hop fun x => lift_plain (respond x))
    simpa [Stage.of, executeOther, invalidateStatementResults, permits, Binding, Stage.next] using hrest
  | closeStatement sid =>
    simp [Stage.of, thenOk, closeStatement, invalidateStatementResults, permits, Binding, Stage.next]
  | closeResult id => simp [Stage.of, thenOk, closeResult, permits, Binding, Stage.next]
  | bind v sid mode schema => simp [Stage.of, bindOn, startBindUpload, permits, Binding, Stage.next]
  | exchange cursor input => exact exchange_takes cursor input
  | exchangeCancel cursor => simp [Stage.of, exchangeCancelTurn, cancelBindUpload, permits, Stage.next]
  | produceCancel cursor => simp [Stage.of, produceCancelTurn, closeResult, permits, Binding, Stage.next]

end Follows

/-! ## Stages in a run -/

section Run

variable {host : Host} {srv : Service} {v : SessionView} {s s' : St} {e : Ev} {id : String} {h : Nat} {g : Stage}

def stage (srv : Service) (s : St) (h : Nat) : Option Stage := do
  let c ← s.started[h]?
  let hd ← s.handlers[h]?
  return turner.after (.of srv c.2.bindTurn) hd.trail

theorem stage_eq_some : stage srv s h = some g ↔
    ∃ c hd, s.started[h]? = some c ∧ s.handlers[h]? = some hd ∧ turner.after (.of srv c.2.bindTurn) hd.trail = g := by
  simp only [stage, Option.bind_eq_bind, Option.bind_eq_some_iff, Option.pure_def, Option.some.injEq]
  constructor
  · intro ⟨c, hc, hd, hh, hg⟩
    exact ⟨c, hd, hc, hh, hg⟩
  · intro ⟨c, hd, hc, hh, hg⟩
    exact ⟨c, hc, hd, hh, hg⟩

/-- Every handler goes by the stages of what it serves. -/
structure Turning (srv : Service) (s : St) : Prop where
  lengths : s.started.length = s.handlers.length
  takes : ∀ (h : Nat) (hd : Handler) (c : CallContext × Invocation), s.handlers[h]? = some hd →
    s.started[h]? = some c → Takes (turner.after (.of srv c.2.bindTurn) hd.trail) hd.prog

theorem reach_turning {G : St → Ev → Prop} (hr : (machine host srv v).ReachIn G s) : Turning srv s := by
  have hs := reach_serves hr
  refine ⟨hs.1, ?_⟩
  intro h hd c hh hc
  obtain ⟨c', p, hc', hp, hran⟩ := hs.2 h hd hh
  cases hc.symm.trans hc'
  exact (shape_takes (shape hp)).ran hran

theorem Turning.started (ht : Turning srv s) {hd : Handler} (hh : s.handlers[h]? = some hd) :
    ∃ c, s.started[h]? = some c := by
  have hlt := (List.getElem?_eq_some_iff.mp hh).1
  have hlen := ht.lengths
  exact ⟨_, List.getElem?_eq_getElem (by omega)⟩

/-- The stage of a handler, and that its next operation is permitted there. -/
theorem Turning.stage (ht : Turning srv s) {hd : Handler} (hh : s.handlers[h]? = some hd) :
    ∃ g, stage srv s h = some g ∧ Takes g hd.prog := by
  obtain ⟨c, hc⟩ := ht.started hh
  exact ⟨_, stage_eq_some.mpr ⟨c, hd, hc, hh, rfl⟩, ht.takes h hd c hh hc⟩

theorem stage_lt (hg : stage srv s h = some g) : h < s.handlers.length := by
  obtain ⟨_, _, -, hh, -⟩ := stage_eq_some.mp hg
  exact (List.getElem?_eq_some_iff.mp hh).1

/-- What a step does to the stage of the handler `h`, which is `g` after it. -/
inductive Staged (host : Host) (srv : Service) (s : St) (e : Ev) (s' : St) (h : Nat) (g : Stage) : Prop
  | same : stage srv s h = some g → Staged host srv s e s' h g
  | started (t : Option BindTurn) : h = s.handlers.length → g = .of srv t → s'.inner = s.inner →
      Staged host srv s e s' h g
  | answered {g0 : Stage} {op : Op} {a : Ans op} : stage srv s h = some g0 → permits g0 op → g = g0.next op a →
      Answer host s e s' h op a → Staged host srv s e s' h g

theorem staged (ht : Turning srv s) (hm : Move host srv v s e s') (hg : stage srv s' h = some g) :
    Staged host srv s e s' h g := by
  obtain ⟨c, x, hc', hx, hg⟩ := stage_eq_some.mp hg
  have old : ∀ {y : Handler}, s.handlers[h]? = some y →
      stage srv s h = some (turner.after (.of srv c.2.bindTurn) y.trail) := by
    intro y hy
    obtain ⟨c0, hc⟩ := ht.started hy
    cases hc'.symm.trans (hm.started_keep hc)
    exact stage_eq_some.mpr ⟨c, y, hc, hy, rfl⟩
  cases hm.moved hx with
  | same hy => exact .same (hg ▸ old hy)
  | started hl htr hi _ =>
    rw [htr] at hg
    exact .started c.2.bindTurn hl hg.symm hi
  | submitted hy _ _ hx =>
    subst hx
    exact .same ((old hy).trans (congrArg some hg))
  | @answered y op k a hy hp hx ha =>
    subst hx
    obtain ⟨g0, hg0, htakes⟩ := ht.stage hy
    cases (old hy).symm.trans hg0
    rw [hp] at htakes
    rw [Discipline.after_snoc] at hg
    exact .answered (old hy) htakes.1 hg.symm ha

/-- A handler goes on having a stage. -/
theorem stage_some (hm : Move host srv v s e s') (hg : stage srv s h = some g) : ∃ g', stage srv s' h = some g' := by
  obtain ⟨c, _, hc, hh, -⟩ := stage_eq_some.mp hg
  obtain ⟨x, hx⟩ := hm.handler_some hh
  exact ⟨_, stage_eq_some.mpr ⟨c, x, hm.started_keep hc, hx, rfl⟩⟩

theorem bound_keep (ht : Turning srv s) (hm : Move host srv v s e s') {id' : String}
    {entry : BindUploadEntry} {reader : Reader} (hg : stage srv s h = some (.bound id' entry reader)) :
    stage srv s' h = some (.bound id' entry reader) := by
  obtain ⟨g', hg'⟩ := stage_some hm hg
  cases staged ht hm hg' with
  | same h => exact hg'.trans (h.symm.trans hg)
  | started _ hl _ _ =>
    have := stage_lt hg
    omega
  | answered h hp _ _ =>
    cases hg.symm.trans h
    cases hp

/-! ## The job a finish turn submits -/

/-- The bind jobs of the worker are those of finish turns that read their upload back,
    one each. -/
structure Tasked (srv : Service) (s : St) : Prop where
  tasks : ∀ c t sid op, s.worker.op c = some t → t.job = .statement sid op → Binds op → ∃ id entry reader,
    sid = entry.statementId ∧ Rereads entry reader op ∧ (stage srv s t.handler = some (.bound id entry reader) ∨
      (stage srv s t.handler = some (.read id entry reader) ∧ ∃ hd, s.handlers[t.handler]? = some hd ∧
        hd.call = some c))
  single : ∀ c c' t t' sid sid' op op', s.worker.op c = some t → s.worker.op c' = some t' → t.job = .statement sid op →
    t'.job = .statement sid' op' → Binds op → Binds op' → t.handler = t'.handler → c = c'

theorem read_of_binds {op : StatementOp} {sid : String} (hb : Binds op) (hp : permits g (.job (.statement sid op))) :
    ∃ id entry reader, g = .read id entry reader ∧ sid = entry.statementId ∧ Rereads entry reader op := by
  cases g with
  | read id entry reader =>
    obtain ⟨o, ho, hr⟩ := hp
    cases ho
    exact ⟨id, entry, reader, rfl, rfl, hr⟩
  | other =>
    refine absurd ?_ hp.1
    cases op <;> trivial
  | opened upload =>
    obtain ⟨_, _, h⟩ := hp
    cases h
  | sent id turn =>
    match turn with
    | .error _ | .ok none | .ok (some _) => cases hp
  | cancels _ | accepted _ | refused _ | took _ _ | bound _ _ _ | done _ => cases hp

/-- A turn that waits for its bind job goes on waiting, or it is answered. -/
theorem waiting_keep (hm : Move host srv v s e s') {c : Nat} {hd : Handler} {id' : String}
    {entry : BindUploadEntry} {reader : Reader}
    (hg : stage srv s h = some (.read id' entry reader)) (hh : s.handlers[h]? = some hd) (hc : hd.call = some c) :
    stage srv s' h = some (.bound id' entry reader) ∨
      (stage srv s' h = some (.read id' entry reader) ∧ ∃ hd, s'.handlers[h]? = some hd ∧ hd.call = some c) := by
  obtain ⟨i, hd', hi, hh', hg⟩ := stage_eq_some.mp hg
  cases hh.symm.trans hh'
  obtain ⟨x, hx⟩ := hm.handler_some hh
  cases hm.moved hx with
  | same hy =>
    cases hh.symm.trans hy
    exact .inr ⟨stage_eq_some.mpr ⟨i, hd, hm.started_keep hi, hx, hg⟩, hd, hx, hc⟩
  | started hl _ _ _ =>
    have := (List.getElem?_eq_some_iff.mp hh).1
    omega
  | submitted hy hn _ _ =>
    cases hh.symm.trans hy
    cases hn.symm.trans hc
  | answered hy _ hx' _ =>
    cases hh.symm.trans hy
    subst hx'
    refine .inl (stage_eq_some.mpr ⟨i, _, hm.started_keep hi, hx, ?_⟩)
    rw [Discipline.after_snoc, hg]
    rfl

theorem move_tasked (ht : Turning srv s) (hi : Tasked srv s) (hm : Move host srv v s e s') :
    Tasked srv s' := by
  -- a bind task that is new is its handler's first
  have new : ∀ {t : Task} {sid : String} {op : StatementOp},
    (∃ hd : Handler, s.handlers[t.handler]? = some hd ∧ hd.call = none ∧ hd.prog = .call (.job t.job) t.next) →
      t.job = .statement sid op → Binds op → ∀ (c' : Nat) (t' : Task) (sid' : String) (op' : StatementOp),
        s.worker.op c' = some t' → t'.job = .statement sid' op' →
      Binds op' → t.handler ≠ t'.handler := by
    intro t sid op ⟨hd, hh, hc, hp⟩ hj hb c' t' sid' op' ho' hj' hb' heq
    obtain ⟨g, hg, htakes⟩ := ht.stage hh
    rw [hp] at htakes
    obtain ⟨id', entry, reader, rfl, -, -⟩ := read_of_binds hb (hj ▸ htakes.1)
    obtain ⟨_, _, _, -, -, hst⟩ := hi.tasks c' t' sid' op' ho' hj' hb'
    rw [← heq] at hst
    rcases hst with hst | ⟨-, hd', hh', hc'⟩
    · cases hg.symm.trans hst
    · cases hh.symm.trans hh'
      cases hc.symm.trans hc'
  constructor
  · intro c t sid op ho hj hb
    rcases hm.op_of ho with ho | ⟨rfl, hd, hh, hc, hp, hafter⟩
    · obtain ⟨id', entry, reader, hsid, hr, hst⟩ := hi.tasks c t sid op ho hj hb
      refine ⟨id', entry, reader, hsid, hr, ?_⟩
      rcases hst with hst | ⟨hst, hd, hh, hc⟩
      · exact .inl (bound_keep ht hm hst)
      · exact waiting_keep hm hst hh hc
    · obtain ⟨i, hi⟩ := ht.started hh
      have htakes := ht.takes t.handler hd i hh hi
      rw [hp] at htakes
      obtain ⟨id', entry, reader, hg, hsid, hr⟩ := read_of_binds hb (hj ▸ htakes.1)
      refine ⟨id', entry, reader, hsid, hr, ?_⟩
      rcases hafter with hx | ⟨a, hx⟩
      · exact .inr ⟨stage_eq_some.mpr ⟨i, _, hm.started_keep hi, hx, hg⟩, _, hx, rfl⟩
      · refine .inl (stage_eq_some.mpr ⟨i, _, hm.started_keep hi, hx, ?_⟩)
        rw [Discipline.after_snoc, hg]
        rfl
  · intro c c' t t' sid sid' op op' ho ho' hj hj' hb hb' heq
    rcases hm.op_of ho with ho | ⟨rfl, hd, hh, hc, hp, -⟩
    · rcases hm.op_of ho' with ho' | ⟨rfl, hd, hh, hc, hp, -⟩
      · exact hi.single c c' t t' sid sid' op op' ho ho' hj hj' hb hb' heq
      · exact absurd heq.symm (new ⟨hd, hh, hc, hp⟩ hj' hb' c t sid op ho hj hb)
    · rcases hm.op_of ho' with ho' | ⟨rfl, -⟩
      · exact absurd heq (new ⟨hd, hh, hc, hp⟩ hj hb c' t' sid' op' ho' hj' hb')
      · rfl

theorem reach_tasked {G : St → Ev → Prop} (hr : (machine host srv v).ReachIn G s) : Tasked srv s := by
  refine invariant_of_moves (P := Tasked srv) reach_turning ?_ (fun _ ht _ hi hm => move_tasked ht hi hm) hr
  intro policy
  exact ⟨fun c t sid op ho => (nomatch ho), fun c c' t t' sid sid' op op' ho => (nomatch ho)⟩

end Run

/-! ## What a turn knows -/

section Uploads

variable {host : Host} {srv : Service} {v : SessionView} {s s' : St} {e : Ev} {id : String} {h : Nat} {g : Stage}

/-- An upload just started is empty; what a finish turn reads back is the upload it took. -/
def Stage.Sound (host : Host) : Stage → Prop
  | .opened upload => upload.staged = []
  | .read _ entry reader | .bound _ entry reader => ∃ disk, entry.upload.finish host.ipc disk = .ok reader
  | _ => True

theorem start_staged {ipc : Ipc} {disk : Disk} {schema : Schema} {maxBytes : Nat} {u : BindUpload}
    (h : BindUpload.start ipc disk schema maxBytes = .ok u) : u.staged = [] := by
  unfold BindUpload.start at h
  split at h
  · cases h
  split at h
  · cases h
    rfl
  split at h
  · cases h
    rfl
  · cases h
    rfl

theorem sound_next {op : Op} {a : Ans op} (hs : g.Sound host) (hp : permits g op) (ha : Answer host s e s' h op a) :
    (g.next op a).Sound host := by
  cases g with
  | other =>
    cases ha with
    | job _ => trivial
    | @hold o w _ _ _ =>
      cases o with
      | startUpload schema maxBytes =>
        simp only [Hold.perform]
        cases hst : BindUpload.start host.ipc w.disk schema maxBytes with
        | ok u => exact start_staged hst
        | error e => trivial
      | _ => trivial
  | opened _ | cancels _ | refused _ => trivial
  | sent id turn =>
    cases turn with
    | error _ => trivial
    | ok batch =>
      cases batch with
      | none =>
        cases hp
        cases a <;> trivial
      | some batch =>
        cases hp
        cases a <;> trivial
  | took id entry =>
    cases hp
    cases ha with
    | hold w _ _ _ =>
      simp only [Hold.perform]
      cases hf : entry.upload.finish host.ipc w.disk with
      | ok reader => exact ⟨w.disk, hf⟩
      | error e => trivial
  | read id entry reader => exact hs
  | accepted _ | bound _ _ _ | done _ => cases hp

theorem reach_sound {G : St → Ev → Prop} (hr : (machine host srv v).ReachIn G s) :
    ∀ h g, stage srv s h = some g → g.Sound host := by
  refine invariant_of_moves (P := fun s => ∀ h g, stage srv s h = some g → g.Sound host) reach_turning ?_ ?_ hr
  · intro policy h g hg
    cases hg
  · intro s s' e _ ht _ hi hm h g hg
    cases staged ht hm hg with
    | same hg => exact hi h g hg
    | started t _ hg _ =>
      subst hg
      cases t with
      | none => trivial
      | some t => cases t <;> trivial
    | answered hg hp hn ha =>
      rw [hn]
      exact sound_next (hi h _ hg) hp ha

/-! ## What a step does to the upload -/

theorem pushed_snoc (log : List Event) (ev : Event) :
    pushed (log ++ [ev]) id = pushed log id ++ (stagedBy id ev.op ev.answer).toList := by
  unfold pushed
  rw [List.filterMap_append]
  cases h : stagedBy id ev.op ev.answer <;> simp [h]

theorem job_uploads (limits : SessionLimits) (w : World) (j : Job) (i : Inner) :
    (j.perform limits w i).2.bindUploads = i.bindUploads := by
  cases j with
  | connection op =>
    simp only [Job.perform]
    split <;> rfl
  | newStatement =>
    simp only [Job.perform, newStatementJob]
    split
    · rfl
    · cases w.driver.unit <;> rfl
  | statement id op =>
    simp only [Job.perform]
    split
    · split <;> rfl
    · rfl
  | removeStatement id =>
    simp only [Job.perform]
    split <;> rfl
  | invalidate sid => rfl
  | insertResult owner reader =>
    simp only [Job.perform, insertResultJob]
    split <;> rfl
  | resultSchema id =>
    simp only [Job.perform]
    split <;> rfl
  | nextResult id sequence =>
    simp only [Job.perform, nextResultJob]
    split
    · rfl
    · simp only
      split <;> rfl
  | closeResult id =>
    simp only [Job.perform]
    split <;> rfl

/-- What a step does to the upload `id` and to the history of its pushes. -/
inductive Uploaded (host : Host) (id : String) (s : St) (e : Ev) (s' : St) : Prop
  | same : s'.inner.bindUploads.lookup id = s.inner.bindUploads.lookup id → pushed s'.log id = pushed s.log id →
      Uploaded host id s e s'
  | removed : s'.inner.bindUploads.lookup id = none → pushed s'.log id = pushed s.log id → Uploaded host id s e s'
  | inserted {h : Nat} {hd : Handler} {entry : BindUploadEntry}
      {k : Ans (.hold (.insertUpload entry)) → Do RpcError Reply} :
      id ∉ s.issued → id ∈ s'.issued → s.handlers[h]? = some hd → hd.prog = .call (.hold (.insertUpload entry)) k →
      s'.inner.bindUploads.lookup id = some entry → pushed s'.log id = pushed s.log id → Started s'.log id entry →
      Uploaded host id s e s'
  | pushed {h : Nat} {hd : Handler} {entry : BindUploadEntry} {b : RecordBatch}
      {k : Ans (.hold (.pushUpload id b)) → Do RpcError Reply} (w : World) :
      e = .hold h w → s.handlers[h]? = some hd → hd.prog = .call (.hold (.pushUpload id b)) k →
      s.inner.bindUploads.lookup id = some entry →
      s'.inner.bindUploads.lookup id = some { entry with upload := (entry.upload.push host.ipc w.disk b).2 } →
      BindDelivery.pushed s'.log id = BindDelivery.pushed s.log id ++
        (stagedBy id (.hold (.pushUpload id b)) (entry.upload.push host.ipc w.disk b).1).toList →
      Uploaded host id s e s'

theorem uploaded (id : String) (hm : Move host srv v s e s') : Uploaded host id s e s' := by
  cases hm.logged with
  | nothing hi hl _ => exact .same (by rw [hi]) (by rw [hl])
  | finish w _ _ _ _ hi _ hl =>
    refine .same (by rw [hi, job_uploads]) ?_
    rw [hl, pushed_snoc]
    exact List.append_nil _
  | @hold h hd o k w he hh hp hf hi hiss hl =>
    -- an operation that is no push stages nothing
    have quiet : stagedBy id (.hold o) (o.perform host.ipc w s.inner).1 = none →
        pushed s'.log id = pushed s.log id := by
      intro hq
      rw [hl, pushed_snoc, hq]
      exact List.append_nil _
    cases o with
    | checkStatement _ | startUpload _ _ | finishUpload _ | cancelConnection =>
      exact .same (by rw [hi]; rfl) (quiet rfl)
    | cancelStatement sid =>
      refine .same ?_ (quiet rfl)
      rw [hi]
      simp only [Hold.perform]
      split <;> rfl
    | takeUploadsOf sid =>
      have hn := quiet rfl
      cases hl' : s'.inner.bindUploads.lookup id with
      | none => exact .removed hl' hn
      | some entry =>
        refine .same ?_ hn
        rw [hi] at hl'
        rw [hi, hl', (lookup_of_retain hl').1]
    | insertUpload entry =>
      by_cases hid : id = w.fresh
      · subst hid
        refine .inserted hf (by simp [hiss]) hh hp ?_ (quiet rfl) ?_
        · rw [hi]
          exact AList.lookup_insert _
        · refine ⟨_, by rw [hl]; exact List.mem_append_right _ (List.mem_singleton.mpr rfl), ?_⟩
          exact if_pos rfl
      · refine .same ?_ (quiet rfl)
        rw [hi]
        exact AList.lookup_insert_ne hid
    | takeUpload id' =>
      have hn := quiet rfl
      simp only [Hold.perform] at hi
      cases hl' : s.inner.bindUploads.lookup id' with
      | none =>
        rw [hl'] at hi
        exact .same (by rw [hi]) hn
      | some entry =>
        rw [hl'] at hi
        by_cases hid : id = id'
        · subst hid
          refine .removed ?_ hn
          rw [hi]
          exact AList.lookup_erase _ _
        · refine .same ?_ hn
          rw [hi]
          exact AList.lookup_erase_ne hid
    | pushUpload id' b =>
      simp only [Hold.perform] at hi hl quiet
      by_cases hid : id = id'
      · subst hid
        cases hl' : s.inner.bindUploads.lookup id with
        | none =>
          rw [BindSchema.pushUploadHold_none _ _ _ _ _ hl'] at hi quiet
          exact .same (by rw [hi]) (quiet rfl)
        | some entry =>
          rw [BindSchema.pushUploadHold_some _ _ _ _ _ hl'] at hi hl
          refine .pushed w he hh hp hl' ?_ ?_
          · rw [hi]
            exact AList.lookup_insert _
          · rw [hl, pushed_snoc]
      · refine .same ?_ (quiet ?_)
        · rw [hi]
          cases hl' : s.inner.bindUploads.lookup id' with
          | none => rw [BindSchema.pushUploadHold_none _ _ _ _ _ hl']
          | some entry =>
            rw [BindSchema.pushUploadHold_some _ _ _ _ _ hl']
            exact AList.lookup_insert_ne hid
        · cases (pushUploadHold host.ipc w id' b s.inner).1 with
          | error e => rfl
          | ok u => exact if_neg fun h => hid h.symm

theorem started_mono (hm : Move host srv v s e s') {entry : BindUploadEntry} (h : Started s.log id entry) :
    Started s'.log id entry := by
  obtain ⟨ev, hev, hs⟩ := h
  refine ⟨ev, ?_, hs⟩
  cases hm.logged with
  | nothing _ hl _ => exact hl ▸ hev
  | hold _ _ _ _ _ _ _ hl | finish _ _ _ _ _ _ _ hl =>
    rw [hl]
    exact List.mem_append_left _ hev

/-- The upload was started before, or just now under a new id. -/
theorem started_of (hm : Move host srv v s e s') {entry : BindUploadEntry} (h : Started s'.log id entry) :
    Started s.log id entry ∨ (id ∉ s.issued ∧ id ∈ s'.issued ∧ s'.inner.bindUploads.lookup id = some entry) := by
  obtain ⟨ev, hev, hs⟩ := h
  cases hm.logged with
  | nothing _ hl _ => exact .inl ⟨ev, hl ▸ hev, hs⟩
  | finish _ _ _ _ _ _ _ hl =>
    rw [hl] at hev
    rcases List.mem_append.mp hev with hev | hev
    · exact .inl ⟨ev, hev, hs⟩
    · rw [List.mem_singleton.mp hev] at hs
      cases hs
  | @hold _ _ o _ w _ _ _ hf hi hiss hl =>
    rw [hl] at hev
    rcases List.mem_append.mp hev with hev | hev
    · exact .inl ⟨ev, hev, hs⟩
    · rw [List.mem_singleton.mp hev] at hs
      cases o with
      | insertUpload entry' =>
        simp only [Hold.perform, startedBy] at hs
        split at hs
        · rename_i hid
          subst hid
          cases hs
          refine .inr ⟨hf, by simp [hiss], ?_⟩
          rw [hi]
          exact AList.lookup_insert _
        · cases hs
      | _ => cases hs

end Uploads

end Grainlift.Server.BindDelivery
