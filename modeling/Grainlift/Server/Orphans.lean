/-
  Grainlift.Server.Orphans — handles made for an RPC that failed.

  NEW_STATEMENT, EXECUTE and the methods that turn a reader into a result make a handle in
  a job of the worker; if the response then does not fit, the handler closes it again. Each
  handler makes at most one handle and, when it fails, has tried to close it: that is the
  discipline `owner`, read off the handlers.

  What goes wrong is in the worker's timing. A job that makes a handle may finish after its
  caller's wait expired, or the wait may expire before the reply is sent; and the call that
  closes the handle may be refused by a full queue, or its flag stored before its job
  began. In runs where none of this happens (`Timely`) a failed RPC leaves nothing registered
  once the session is quiet (`no_orphans`); `orphaned_statement` is NEW_STATEMENT timing out
  while its job runs.
-/

import Grainlift.Server.Concurrent

namespace Grainlift.Server.Orphans

open Grainlift.Lib Grainlift.Protocol Concurrent Function

/-! ## Handles -/

inductive Handle where
  | statement (id : String)
  | result (id : String)
  deriving DecidableEq

def Handle.id : Handle → String
  | .statement id => id
  | .result id => id

def Registered (s : Inner) : Handle → Prop
  | .statement id => id ∈ s.statements
  | .result id => s.results.lookup id ≠ none

/-- The handle an operation made. -/
def made : (op : Op) → Ans op → Option Handle
  | .job .newStatement, .ok id => some (.statement id)
  | .job (.insertResult _ _), .ok inserted => some (.result inserted.1)
  | _, _ => none

/-- The handle an operation closes. -/
def closes : Op → Option Handle
  | .job (.removeStatement id) => some (.statement id)
  | .job (.closeResult id) => some (.result id)
  | _ => none

theorem made_error (op : Op) (e : AdbcError) : made op (.error e) = none := by
  match op with
  | .hold _ => rfl
  | .job .newStatement | .job (.insertResult _ _) | .job (.connection _) | .job (.statement _ _)
  | .job (.removeStatement _) |
    .job (.invalidate _) | .job (.resultSchema _) | .job (.nextResult _ _) | .job (.closeResult _) => rfl

/-- The job will make a handle: the quota has room and the driver makes its part. -/
def Makes (host : Host) (w : World) (s : Inner) : Job → Prop
  | .newStatement => s.statements.card < host.limits.maxStatementsPerSession ∧ w.driver.unit = .ok ()
  | .insertResult _ _ => s.results.size < host.limits.maxResultsPerSession
  | _ => False

section Perform

variable {host : Host} {w : World} {s : Inner} {x : Handle}

theorem makes_of_made {j : Job} (h : made (.job j) (j.perform host.limits w s).1 = some x) : Makes host w s j := by
  match j with
  | .newStatement =>
    simp only [Job.perform, newStatementJob] at h
    split at h
    · rw [made_error] at h
      cases h
    · rename_i hq
      cases hd : w.driver.unit with
      | error e =>
        rw [hd] at h
        cases h
      | ok u => exact ⟨Nat.lt_of_not_le hq, hd⟩
  | .insertResult owner reader =>
    simp only [Job.perform, insertResultJob] at h
    split at h
    · rw [made_error] at h
      cases h
    · rename_i hq
      exact Nat.lt_of_not_le hq
  | .connection _ | .statement _ _ | .removeStatement _ | .invalidate _ | .resultSchema _ | .nextResult _ _
  | .closeResult _ =>
    cases h

/-- A new handle has the new id. -/
theorem made_fresh {j : Job} (h : made (.job j) (j.perform host.limits w s).1 = some x) : x.id = w.fresh := by
  have hm := makes_of_made h
  match j with
  | .newStatement =>
    simp only [Job.perform, newStatementJob, Nat.not_le.mpr hm.1, if_false, hm.2] at h
    cases h
    rfl
  | .insertResult owner reader =>
    simp only [Job.perform, insertResultJob, Nat.not_le.mpr hm, if_false] at h
    cases h
    rfl
  | .connection _ | .statement _ _ | .removeStatement _ | .invalidate _ | .resultSchema _ | .nextResult _ _
  | .closeResult _ =>
    cases h

theorem Quiet.registered {s' : Inner} (hq : Quiet s s') (hx : Registered s' x) : Registered s x := by
  cases x with
  | statement id => exact hq.statements hx
  | result id =>
    obtain ⟨e', he'⟩ := Option.ne_none_iff_exists'.mp hx
    obtain ⟨e, he, -⟩ := hq.results id e' he'
    exact Option.ne_none_iff_exists'.mpr ⟨e, he⟩

/-- Registered after a job: it was before, or has the new id. -/
theorem job_registered {j : Job} (hx : Registered (j.perform host.limits w s).2 x) :
    Registered s x ∨ x.id = w.fresh := by
  have he := job_effect host.limits w j s
  generalize (j.perform host.limits w s).2 = s' at he hx
  cases he with
  | quiet hq => exact .inl (Quiet.registered hq hx)
  | statement =>
    cases x with
    | statement id => exact (Finset.mem_insert.mp hx).elim .inr .inl
    | result id => exact .inl hx
  | result owner reader _ =>
    cases x with
    | statement id => exact .inl hx
    | result id =>
      by_cases e : id = w.fresh
      · exact .inr e
      · refine .inl fun hn => hx ?_
        show (s.results.insert w.fresh _).lookup id = none
        rw [AList.lookup_insert_ne e]
        exact hn
  | executed sid _ =>
    cases x with
    | statement id => exact .inl hx
    | result id => exact .inl hx

theorem hold_registered {o : Hold} (hx : Registered (o.perform host.ipc w s).2 x) : Registered s x := by
  have he := hold_effect host.limits host.ipc w o s
  generalize (o.perform host.ipc w s).2 = s' at he hx
  cases he with
  | quiet hq => exact Quiet.registered hq hx
  | upload entry =>
    cases x with
    | statement id => exact hx
    | result id => exact hx

theorem closed_after {j : Job} (hj : closes (.job j) = some x) : ¬ Registered (j.perform host.limits w s).2 x := by
  match j with
  | .removeStatement id =>
    cases hj
    simp only [Job.perform]
    split
    · exact Finset.notMem_erase id s.statements
    · rename_i h
      exact h
  | .closeResult id =>
    cases hj
    simp only [Job.perform]
    cases hl : s.results.lookup id with
    | none => exact fun h => h hl
    | some e => exact fun h => h (AList.lookup_erase id s.results)
  | .connection _ | .newStatement | .statement _ _ | .invalidate _ | .insertResult _ _ | .resultSchema _
  | .nextResult _ _ =>
    cases hj

end Perform

/-! ## What a handler holds -/

inductive Stage where
  | nothing
  | holds (x : Handle)
  | released (x : Handle)
  deriving DecidableEq

def permits (g : Stage) : Op → Prop
  | .job .newStatement | .job (.insertResult _ _) => g = .nothing
  | _ => True

def Stage.next (g : Stage) (op : Op) (a : Ans op) : Stage :=
  match made op a with
  | some x => .holds x
  | none =>
    match g with
    | .holds x => if closes op = some x then .released x else .holds x
    | g => g

/-- At most one handle, and closed again (or tried to) before failing. -/
def owner : Discipline Ans Stage := ⟨permits, Stage.next⟩

@[simp] theorem owner_allows : owner.allows = permits := rfl
@[simp] theorem owner_next : owner.next = Stage.next := rfl

def Ends (g : Stage) : Except RpcError Reply → Prop
  | .ok _ => True
  | .error _ => ∀ x, g ≠ .holds x

section Follows

variable {srv : Service} {ctx : CallContext} {g : Stage} {x : Handle}

@[simp] theorem ends_ok (r : Reply) : Ends g (.ok r) := trivial

@[simp] theorem ends_nothing (r : Except RpcError Reply) : Ends .nothing r := by
  cases r with
  | ok r => trivial
  | error e => exact fun x h => by cases h

@[simp] theorem ends_released (r : Except RpcError Reply) : Ends (.released x) r := by
  cases r with
  | ok r => trivial
  | error e => exact fun x h => by cases h

abbrev Minds (g : Stage) (p : Do RpcError Reply) : Prop := owner.Follows g p Ends

theorem next_same {op : Op} {a : Ans op} (hm : made op a = none) (hc : closes op = none) : g.next op a = g := by
  cases g <;> simp [Stage.next, hm, hc]

theorem passes {sets : Prop} {op : Op} (h : Plain sets op ∨ Binding op) : permits g op ∧ ∀ a, g.next op a = g := by
  match op with
  | .job (.connection _) | .job (.resultSchema _) | .job (.nextResult _ _) =>
    exact ⟨trivial, fun _ => next_same rfl rfl⟩
  | .hold _ | .job (.statement _ _) => exact ⟨trivial, fun _ => next_same rfl rfl⟩
  | .job .newStatement | .job (.removeStatement _) | .job (.invalidate _) | .job (.insertResult _ _) |
    .job (.closeResult _) => exact h.elim False.elim False.elim

theorem resultResponse_minds (resultId : String) (schema : Schema) (limit : Nat) :
    Minds (.holds (.result resultId)) (resultResponse srv resultId schema limit) := by
  unfold resultResponse
  split <;> simp [closeResult, permits, Stage.next, made, closes]

theorem handleResponse_minds (value : Response) (limit : Nat) (id : String) :
    Minds (.holds (.statement id)) (handleResponse srv value limit (closeStatement id).ignore) := by
  unfold handleResponse
  split <;> simp [closeStatement, invalidateStatementResults, permits, Stage.next, made, closes]

theorem shape_minds {sets : Prop} {t : Option BindTurn} {p : Do RpcError Reply} (h : Shape srv ctx sets t p) :
    Minds .nothing p := by
  cases h with
  | plain hp => exact .of_uses hp (fun _ h => passes (.inl h)) fun _ => ends_nothing _
  | newStatement v => simp [newStatementHandler, newStatement, handleResponse_minds, permits, Stage.next, made]
  | insert hx =>
    simp only [thenInsert, Discipline.follows_seq, Discipline.follows_mapErr]
    refine .of_uses hx (fun _ h => passes (.inl h)) ?_
    intro r
    cases r with
    | error e => exact ends_nothing (.error (.adbc e))
    | ok reader =>
      simp [insertReaderResponse, insertResult, insertOwnedResult, resultResponse_minds, permits, Stage.next, made]
  | execute sid =>
    simp [executeOn, invalidateStatementResults, withStatement, insertStatementResult, insertOwnedResult,
      resultResponse_minds, permits, Stage.next, made]
  | executeOther sid op respond hop =>
    have hrest : Minds .nothing ((withStatement sid op).mapErr .adbc >>= fun x => liftM (respond x) : Do RpcError Reply) :=
      .of_uses (thenStatement_plain hop fun x => lift_plain (respond x))
        (fun _ h => passes (.inl h)) fun _ => ends_nothing _
    simpa [executeOther, invalidateStatementResults, permits, Stage.next, made] using hrest
  | closeStatement sid => simp [thenOk, closeStatement, invalidateStatementResults, permits, Stage.next, made]
  | closeResult id => simp [thenOk, closeResult, permits, Stage.next, made]
  | bind v sid mode schema => simp [bindOn, startBindUpload, permits, Stage.next, made]
  | exchange cursor input =>
    exact .of_uses (exchange_binding cursor input) (fun op h => @passes _ sets op (.inr h)) fun _ => ends_nothing _
  | exchangeCancel cursor =>
    exact .of_uses (exchangeCancel_binding cursor) (fun op h => @passes _ sets op (.inr h)) fun _ => ends_nothing _
  | produceCancel cursor => simp [produceCancelTurn, closeResult, permits]

end Follows

/-! ## Runs in time -/

def stage (hd : Handler) : Stage := owner.after .nothing hd.trail

/-- The call closes the handle its handler made. -/
def OwnClose (hd : Handler) (j : Job) (x : Handle) : Prop := stage hd = .holds x ∧ closes (.job j) = some x

/-- The worker's timing costs no handle. -/
def Timely (host : Host) (s : St) : Ev → Prop
  /- A job that makes a handle finishes while its caller waits. -/
  | .finish w => ∀ c t, s.worker.thread = .running c → s.worker.op c = some t → Makes host w s.inner t.job →
      s.worker.caller c = .waiting
  /- No wait expires while a reply with a new handle is on its way. -/
  | .expire h =>
    ∀ hd c j k a, InCall s h hd c j k → s.worker.thread = .answering c ⟨⟨.job j, a⟩, k a⟩ → made (.job j) a = none
  /- A call that closes a handle of its own handler finds room in the queue. -/
  | .submit h =>
    ∀ hd j k x, s.handlers[h]? = some hd → hd.prog = .call (.job j) k → OwnClose hd j x → Registered s.inner x →
      s.worker.queue.length < Worker.queueBound
  /- Its flag is not stored before its job began. -/
  | .store h => ∀ hd c j k x, InCall s h hd c j k → OwnClose hd j x → Registered s.inner x → ¬ Unstarted s.worker c
  | _ => True

/-! ## Who is to close a handle -/

/-- Someone knows of the handle: a reply names it to a handler that waits for it, its
    handler holds it, or the job that closes it is running. -/
inductive Owned (s : St) (h : Nat) (x : Handle) : Prop
  | replying {hd : Handler} {c : Nat} {j : Job} {k : Ans (.job j) → Do RpcError Reply} {a : Ans (.job j)} :
      InCall s h hd c j k → s.worker.caller c = .waiting → Answered s.worker c ⟨⟨.job j, a⟩, k a⟩ →
      made (.job j) a = some x → Owned s h x
  | held {hd : Handler} : s.handlers[h]? = some hd → stage hd = .holds x → Owned s h x
  | closing {hd : Handler} {c : Nat} {t : Task} : s.handlers[h]? = some hd → stage hd = .released x →
      s.worker.thread = .running c → s.worker.op c = some t → closes (.job t.job) = some x → Owned s h x

/-- Every handler follows the discipline. -/
def Mindful (s : St) : Prop := ∀ (h : Nat) (hd : Handler), s.handlers[h]? = some hd → Minds (stage hd) hd.prog

structure Inv (s : St) : Prop where
  owned : ∀ ev ∈ s.log, ∀ x, made ev.op ev.answer = some x → Registered s.inner x → Owned s ev.handler x
  closed : ∀ h hd c j k d x, InCall s h hd c j k → OwnClose hd j x → Answered s.worker c d → ¬ Registered s.inner x
  logged : ∀ ev ∈ s.log, ∀ x, made ev.op ev.answer = some x → x.id ∈ s.issued
  replied : ∀ c d x, Answered s.worker c d → made d.note.1 d.note.2 = some x → x.id ∈ s.issued
  held : ∀ (h : Nat) (hd : Handler) x, s.handlers[h]? = some hd → stage hd = .holds x → x.id ∈ s.issued

section Step

variable {host : Host} {srv : Service} {v : SessionView} {s s' : St} {e : Ev}

theorem stage_snoc (hd : Handler) (op : Op) (a : Ans op) (p : Do RpcError Reply) :
    stage ⟨hd.trail ++ [⟨op, a⟩], p, none⟩ = (stage hd).next op a := by
  simp [stage]

/-- Ids do not come back: what is registered after a move was before, unless its id is new. -/
theorem registered_of (hm : Move host srv v s e s') {x : Handle} (hx : Registered s'.inner x) (hi : x.id ∈ s.issued) :
    Registered s.inner x := by
  cases hm with
  | hold _ _ _ _ => exact hold_registered hx
  | finish _ _ hf =>
    refine (job_registered hx).resolve_right ?_
    intro h
    rw [h] at hi
    exact hf hi
  | start _ | submit _ _ _ _ | refuse _ _ _ _ | dequeue _ _ | skip _ _ | run _ _ | reply _ | recv _ _ _
  | expire _ _ _ | store _ _ =>
    exact hx

/-- A handle in the log was there before, or its job was just performed. -/
theorem logged_of (hm : Move host srv v s e s') {ev : Event} (hev : ev ∈ s'.log) {x : Handle}
    (hx : made ev.op ev.answer = some x) :
    ev ∈ s.log ∨ ∃ c t w, e = .finish w ∧ s.worker.thread = .running c ∧ s.worker.op c = some t ∧
      ev.handler = t.handler ∧ made (.job t.job) (t.job.perform host.limits w s.inner).1 = some x := by
  cases hm with
  | hold _ _ _ _ =>
    rcases List.mem_append.mp hev with hev | hev
    · exact .inl hev
    · cases List.mem_singleton.mp hev
      cases hx
  | @finish c t w ht ho _ =>
    rcases List.mem_append.mp hev with hev | hev
    · exact .inl hev
    · cases List.mem_singleton.mp hev
      exact .inr ⟨c, t, w, rfl, ht, ho, rfl, hx⟩
  | start _ | submit _ _ _ _ | refuse _ _ _ _ | dequeue _ _ | skip _ _ | run _ _ | reply _ | recv _ _ _
  | expire _ _ _ | store _ _ =>
    exact .inl hev

theorem nothing_of_made {g : Stage} {op : Op} {a : Ans op} {x : Handle} (hm : made op a = some x) (hp : permits g op) :
    g = .nothing := by
  match op, a with
  | .job .newStatement, _ | .job (.insertResult _ _), _ => exact hp
  | .hold _, _ | .job (.connection _), _ | .job (.statement _ _), _ | .job (.removeStatement _), _
  | .job (.invalidate _), _ |
    .job (.resultSchema _), _ | .job (.nextResult _ _), _ | .job (.closeResult _), _ => cases hm

/-- A handler that has a handle makes no other. -/
theorem made_none {hd : Handler} (hf : Minds (stage hd) hd.prog) {op : Op} {k : Ans op → Do RpcError Reply}
    (hp : hd.prog = .call op k) (hs : stage hd ≠ .nothing) (a : Ans op) : made op a = none := by
  rw [hp] at hf
  cases hm : made op a with
  | none => rfl
  | some x => exact absurd (nothing_of_made hm hf.1) hs

/-- What was held is held, unless the operation was to close it. -/
theorem next_holds {x : Handle} {op : Op} {a : Ans op} (hm : made op a = none) :
    (Stage.holds x).next op a = if closes op = some x then .released x else .holds x := by
  simp [Stage.next, hm]

theorem next_made {g : Stage} {x : Handle} {op : Op} {a : Ans op} (hm : made op a = some x) :
    g.next op a = .holds x := by
  simp [Stage.next, hm]

theorem next_released {x : Handle} {op : Op} {a : Ans op} (hm : made op a = none) :
    (Stage.released x).next op a = .released x := by
  simp [Stage.next, hm]

/-- The handles of the handlers that did not move. -/
theorem owned_other (hw : Wf s) (hg : Timely host s e) (hm : Move host srv v s e s') {h : Nat} {x : Handle}
    (hne : e.mover ≠ some h) (ho : Owned s h x) (hreg : Registered s'.inner x) : Owned s' h x := by
  cases ho with
  | @replying hd c j k a hin hk ha hmade =>
    rcases hm.caller_keep hw hne hin with hc | ⟨rfl, -⟩
    · exact .replying (hm.inCall_keep hw hne hin) (hc.trans hk) (hm.answered_keep hw hin.isOpen ha) hmade
    · cases hm with
      | expire hin' _ hempty =>
        cases hin'.handler.symm.trans hin.handler
        cases hin'.call.symm.trans hin.call
        have hthread := ha.resolve_right (by simp [hempty])
        rw [hg hd c j k a hin hthread] at hmade
        cases hmade
  | held hh hs => exact .held (hm.handler_keep hne hh) hs
  | closing hh hs hrun hop hcl =>
    rcases hm.running_keep hrun with hrun' | ⟨w, rfl⟩
    · exact .closing (hm.handler_keep hne hh) hs hrun' (hm.op_keep hw hop) hcl
    · cases hm with
      | finish ht ho _ =>
        cases ht.symm.trans hrun
        cases ho.symm.trans hop
        exact absurd hreg (closed_after hcl)

/-- An answer that is no reply of the job: the handle is still to be closed, unless this
    was the call to close it. -/
theorem owned_refused {h : Nat} {hd : Handler} {op : Op} {k : Ans op → Do RpcError Reply}
    (hh : s.handlers[h]? = some hd)
    (hf : Minds (stage hd) hd.prog) (hp : hd.prog = .call op k) {a : Ans op} {x : Handle}
    {worker : Worker.St Task Done}
    {inner : Inner} {issued : List String} {log : List Event}
    (hop : ∀ {c t}, s.worker.op c = some t → worker.op c = some t) (hthread : worker.thread = s.worker.thread)
    (hclose : stage hd = .holds x → closes op = some x →
      ∃ c t, s.worker.thread = .running c ∧ s.worker.op c = some t ∧ closes (.job t.job) = some x)
    (hstage : stage hd = .holds x ∨ (stage hd = .released x ∧
      ∃ c t, s.worker.thread = .running c ∧ s.worker.op c = some t ∧ closes (.job t.job) = some x)) :
    Owned ⟨inner, s.handlers.set h ⟨hd.trail ++ [⟨op, a⟩], k a, none⟩, worker, issued, s.started, log⟩ h x := by
  have hset : ∀ y, (s.handlers.set h y)[h]? = some y := fun _ => getElem?_set_of_some hh
  rcases hstage with hs | ⟨hs, c, t, hrun, ht, hcl⟩
  · have hn := made_none hf hp (by rw [hs]; nofun) a
    by_cases hc : closes op = some x
    · obtain ⟨c, t, hrun, ht, hcl⟩ := hclose hs hc
      exact .closing (hset _) (by rw [stage_snoc, hs, next_holds hn, if_pos hc]) (hthread.trans hrun) (hop ht) hcl
    · exact .held (hset _) (by rw [stage_snoc, hs, next_holds hn, if_neg hc])
  · have hn := made_none hf hp (by rw [hs]; nofun) a
    exact .closing (hset _) (by rw [stage_snoc, hs, next_released hn]) (hthread.trans hrun) (hop ht) hcl

/-- A handle is in a reply its handler waits for, or the handler knows of it. -/
theorem owned_cases {h : Nat} {hd : Handler} {x : Handle} (hh : s.handlers[h]? = some hd) (ho : Owned s h x) :
    (∃ c j k a, InCall s h hd c j k ∧ s.worker.caller c = .waiting ∧ Answered s.worker c ⟨⟨.job j, a⟩, k a⟩ ∧
      made (.job j) a = some x) ∨
    stage hd = .holds x ∨ (stage hd = .released x ∧
      ∃ c t, s.worker.thread = .running c ∧ s.worker.op c = some t ∧ closes (.job t.job) = some x) := by
  cases ho with
  | replying hin hk ha hmade =>
    cases hh.symm.trans hin.handler
    exact .inl ⟨_, _, _, _, hin, hk, ha, hmade⟩
  | held hh' hs =>
    cases hh.symm.trans hh'
    exact .inr (.inl hs)
  | closing hh' hs hrun hop hcl =>
    cases hh.symm.trans hh'
    exact .inr (.inr ⟨hs, _, _, hrun, hop, hcl⟩)

/-- The handles of the handler that moved. -/
theorem owned_mover (hw : Wf s) (hf : Mindful s) (hi : Inv s) (hg : Timely host s e)
    (hm : Move host srv v s e s') {h : Nat} {x : Handle}
    (hmv : e.mover = some h) (ho : Owned s h x) (hreg : Registered s.inner x) : Owned s' h x := by
  -- outside a call there is no reply to wait for
  have idle : ∀ {hd : Handler}, s.handlers[h]? = some hd → hd.call = none → stage hd = .holds x ∨
    (stage hd = .released x ∧
      ∃ c t, s.worker.thread = .running c ∧ s.worker.op c = some t ∧ closes (.job t.job) = some x) := by
    intro hd hh hc
    rcases owned_cases hh ho with ⟨c, j, k, a, hin, -⟩ | hs
    · cases hc.symm.trans hin.call
    · exact hs
  cases hm with
  | hold hh hc hp _ =>
    cases hmv
    exact owned_refused hh (hf _ _ hh) hp id rfl (fun _ h => by cases h) (idle hh hc)
  | @submit _ hd _ _ hh hc _ _ =>
    cases hmv
    rcases idle hh hc with hs | ⟨hs, c, t, hrun, ht, hcl⟩
    · exact .held (getElem?_set_of_some hh) hs
    · exact .closing (getElem?_set_of_some hh) hs hrun (hw.op_kept ht) hcl
  | refuse hh hc hp hq =>
    cases hmv
    refine owned_refused hh (hf _ _ hh) hp (fun ht => hw.op_kept ht) rfl ?_ (idle hh hc)
    intro hs hcl
    exact absurd (hg _ _ _ x hh hp ⟨hs, hcl⟩ hreg) hq
  | @recv _ hd c j k a hin hk hmail =>
    cases hmv
    rcases owned_cases hin.handler ho with ⟨c', j', k', a', hin', -, ha, hmade⟩ | hs
    · cases hin.call.symm.trans hin'.call
      cases hin.task.symm.trans hin'.task
      cases hw.one_reply ha hmail
      exact .held (getElem?_set_of_some hin.handler) (by rw [stage_snoc, next_made hmade])
    · refine owned_refused hin.handler (hf _ _ hin.handler) hin.prog id rfl ?_ hs
      intro hs hcl
      exact absurd hreg (hi.closed _ _ _ _ _ _ x hin ⟨hs, hcl⟩ (.inr hmail))
  | @store _ hd c j k hin hk =>
    cases hmv
    rcases owned_cases hin.handler ho with ⟨c', j', k', a', hin', hk', -⟩ | hs
    · cases hin.call.symm.trans hin'.call
      cases hk.symm.trans hk'
    · refine owned_refused hin.handler (hf _ _ hin.handler) hin.prog id rfl ?_ hs
      intro hs hcl
      rcases hw.place c hin.isOpen with hun | hrun | ⟨d, ha⟩
      · exact absurd hun (hg _ _ _ _ x hin ⟨hs, hcl⟩ hreg)
      · exact ⟨c, _, hrun, hin.task, hcl⟩
      · exact absurd hreg (hi.closed _ _ _ _ _ _ x hin ⟨hs, hcl⟩ ha)
  | start _ | dequeue _ _ | skip _ _ | run _ _ | finish _ _ _ | reply _ | expire _ _ _ => cases hmv

/-- A new handle is owned: its caller waits for the reply that names it. -/
theorem owned_new (hw : Wf s) (hg : Timely host s e) (hm : Move host srv v s e s') {c : Nat} {t : Task}
    {w : World} {x : Handle}
    (he : e = .finish w) (ht : s.worker.thread = .running c) (ho : s.worker.op c = some t)
    (hx : made (.job t.job) (t.job.perform host.limits w s.inner).1 = some x) : Owned s' t.handler x := by
  subst he
  have hk := hg c t ht ho (makes_of_made hx)
  obtain ⟨h, hd, j, k, hin⟩ := hw.callers c (.inl hk)
  cases hin.task.symm.trans ho
  have hin' := hm.inCall_keep hw (by simp [Ev.mover]) hin
  cases hm with
  | finish ht' ho' _ =>
    cases ht'.symm.trans ht
    cases ho'.symm.trans ho
    exact .replying hin' hk (.inl rfl) hx

theorem owned_step (hw : Wf s) (hf : Mindful s) (hi : Inv s) (hg : Timely host s e)
    (hm : Move host srv v s e s') {ev : Event}
    (hev : ev ∈ s'.log) {x : Handle} (hx : made ev.op ev.answer = some x) (hreg : Registered s'.inner x) :
    Owned s' ev.handler x := by
  rcases logged_of hm hev hx with hold | ⟨c, t, w, he, ht, ho, hh, hmade⟩
  · have hreg' := registered_of hm hreg (hi.logged ev hold x hx)
    have hown := hi.owned ev hold x hx hreg'
    by_cases hmv : e.mover = some ev.handler
    · exact owned_mover hw hf hi hg hm hmv hown hreg'
    · exact owned_other hw hg hm hmv hown hreg
  · rw [hh]
    exact owned_new hw hg hm he ht ho hmade

theorem replied_step (hi : Inv s) (hm : Move host srv v s e s') {c : Nat} {d : Done} {x : Handle}
    (ha : Answered s'.worker c d) (hx : made d.note.1 d.note.2 = some x) : x.id ∈ s'.issued := by
  rcases hm.answered_of ha with ha | ⟨w, t, rfl, -, -, rfl⟩
  · exact hm.issued_keep (hi.replied c d x ha hx)
  · cases hm with
    | finish ht' ho' _ =>
      have hid := made_fresh hx
      rw [hid]
      exact List.mem_cons_self

theorem logged_step (hi : Inv s) (hm : Move host srv v s e s') {ev : Event} (hev : ev ∈ s'.log) {x : Handle}
    (hx : made ev.op ev.answer = some x) : x.id ∈ s'.issued := by
  rcases logged_of hm hev hx with hold | ⟨c, t, w, rfl, -, -, -, hmade⟩
  · exact hm.issued_keep (hi.logged ev hold x hx)
  · cases hm with
    | finish _ _ _ =>
      rw [made_fresh hmade]
      exact List.mem_cons_self

/-- The stage a mover is in now: as before, or holding what a reply just named. -/
theorem held_step (hi : Inv s) (hm : Move host srv v s e s') {h : Nat} {hd : Handler} {x : Handle}
    (hh : s'.handlers[h]? = some hd) (hs : stage hd = .holds x) : x.id ∈ s'.issued := by
  apply hm.issued_keep
  -- a handler that took an answer which named no handle
  have took : ∀ {i : Nat} {y : Handler} {op : Op} {a : Ans op} {p : Do RpcError Reply}, s.handlers[i]? = some y →
      (s.handlers.set i ⟨y.trail ++ [⟨op, a⟩], p, none⟩)[h]? = some hd → (made op a = some x → x.id ∈ s.issued) →
      x.id ∈ s.issued := by
    intro i y op a p hy hh' hmade
    rcases getElem?_set_cases hh' with ⟨-, rfl⟩ | ⟨-, hh'⟩
    · rw [stage_snoc] at hs
      cases hn : made op a with
      | some z =>
        rw [next_made hn] at hs
        cases hs
        exact hmade hn
      | none =>
        cases hy' : stage y with
        | nothing => simp [hy', Stage.next, hn] at hs
        | released z =>
          rw [hy', next_released hn] at hs
          cases hs
        | holds z =>
          rw [hy', next_holds hn] at hs
          split at hs
          · cases hs
          · cases hs
            exact hi.held i y x hy hy'
    · exact hi.held h hd x hh' hs
  cases hm with
  | start _ =>
    rcases getElem?_snoc_cases hh with hh | ⟨-, rfl⟩
    · exact hi.held h hd x hh hs
    · cases hs
  | hold hy _ _ _ => exact took hy hh fun h => by cases h
  | @submit i y _ _ hy _ _ _ =>
    rcases getElem?_set_cases hh with ⟨-, rfl⟩ | ⟨-, hh⟩
    · exact hi.held i y x hy hs
    · exact hi.held h hd x hh hs
  | refuse hy _ _ _ => exact took hy hh fun h => by rw [made_error] at h; cases h
  | recv hin _ hmail => exact took hin.handler hh fun hx => hi.replied _ _ x (.inr hmail) hx
  | store hin _ => exact took hin.handler hh fun h => by rw [made_error] at h; cases h
  | dequeue _ _ | skip _ _ | run _ _ | finish _ _ _ | reply _ | expire _ _ _ => exact hi.held h hd x hh hs

theorem closed_step (hw : Wf s) (hi : Inv s) (hm : Move host srv v s e s') {h : Nat} {hd : Handler} {c : Nat} {j : Job}
    {k : Ans (.job j) → Do RpcError Reply} {d : Done} {x : Handle} (hin : InCall s' h hd c j k)
    (hown : OwnClose hd j x) (ha : Answered s'.worker c d) : ¬ Registered s'.inner x := by
  by_cases hmv : e.mover = some h
  · exact absurd ha (hm.mover_unanswered hw hmv hin)
  · have hin' := hm.inCall_of hw hmv hin
    have hid := hi.held h hd x hin'.handler hown.1
    rcases hm.answered_of ha with ha | ⟨w, t, rfl, ht, ho, -⟩
    · exact fun hreg => hi.closed h hd c j k d x hin' hown ha (registered_of hm hreg hid)
    · cases hin'.task.symm.trans ho
      cases hm with
      | finish ht' ho' _ =>
        cases ht'.symm.trans ht
        cases ho'.symm.trans ho
        exact closed_after hown.2

theorem move_inv (hw : Wf s) (hf : Mindful s) (hg : Timely host s e) (hi : Inv s)
    (hm : Move host srv v s e s') : Inv s' :=
  ⟨fun _ hev _ hx hreg => owned_step hw hf hi hg hm hev hx hreg,
    fun _ _ _ _ _ _ _ hin hown ha => closed_step hw hi hm hin hown ha,
    fun _ hev _ hx => logged_step hi hm hev hx,
    fun _ _ _ ha hx => replied_step hi hm ha hx,
    fun _ _ _ hh hs => held_step hi hm hh hs⟩

theorem opened_inv (policy : ClientOptionPolicy) : Inv (opened policy) := by
  refine ⟨by simp [opened], ?_, by simp [opened], ?_, by simp [opened]⟩
  · intro h hd c j k d x hin
    have := hin.handler
    simp [opened] at this
  · simp [opened, Worker.init, Answered]

end Step

/-- What the RPC of a handler made. -/
def MadeFor (s : St) (h : Nat) (x : Handle) : Prop := ∃ ev ∈ s.log, ev.handler = h ∧ made ev.op ev.answer = some x

/-- When nothing is going on any more, nothing is registered that an RPC made and then failed.
    The condition is on the worker's timing: no reply with a new handle comes too late, and a
    handler that takes its handle back finds room in the queue. -/
theorem no_orphans (host : Host) (srv : Service) (v : SessionView) (s : St)
    (hr : (machine host srv v).ReachIn (Timely host) s) (hq : Quiescent s) (h : Nat) (hd : Handler) (e : RpcError)
    (hh : s.handlers[h]? = some hd) (he : hd.prog = .done (.error e)) (x : Handle) (hx : MadeFor s h x) :
    ¬ Registered s.inner x := by
  have hmind : ∀ {s}, (machine host srv v).ReachIn (Timely host) s → Mindful s :=
    fun hr => handlers_follow shape_minds hr
  have hinv : Inv s := invariant_of_moves hmind opened_inv (fun hw hf hg hi hm => move_inv hw hf hg hi hm) hr
  intro hreg
  obtain ⟨ev, hev, rfl, hmade⟩ := hx
  rcases owned_cases hh (hinv.owned ev hev x hmade hreg) with ⟨c, j, k, a, hin, -⟩ | hs | ⟨-, c, t, hrun, -⟩
  · cases he.symm.trans hin.prog
  · have hends := hmind hr _ hd hh
    rw [he] at hends
    exact hends x hs
  · cases hq.2.2.symm.trans hrun


/-! ## A response that does not fit, and a wait that expires -/

/-- One in which no response fits. -/
def tightService : Service :=
  { smallService with codec := { smallCodec with encodeBatchIpc := fun _ _ => .error (invalid "too large") } }

/-- NEW_STATEMENT, whose response does not fit: made, removed, its results and uploads dropped. -/
def reclaimed : List Ev := asked .newStatement [] ::
    (called 0 "s" ++ called 0 "a" ++ called 0 "b" ++ [.hold 0 (answers "u")])

def tightMachine : Machine St Ev := machine Solo.smallHost tightService Solo.smallView

theorem no_orphans_reclaimed :
    tightMachine.ReachIn (Timely Solo.smallHost) (tightMachine.run openedS reclaimed) ∧
    MadeFor (tightMachine.run openedS reclaimed) 0 (.statement "s") ∧
    ¬ Registered (tightMachine.run openedS reclaimed).inner (.statement "s") := by
  have hr : tightMachine.ReachIn (Timely Solo.smallHost) (tightMachine.run openedS reclaimed) := by
    have room : (0 : Nat) < Worker.queueBound := by decide
    have waits : ∀ {s : St} {w : World} {c : Nat}, s.worker.thread = .running c → s.worker.caller c = .waiting →
        Timely Solo.smallHost s (.finish w) := by
      intro s w c ht hk c' t ht' _ _
      cases ht.symm.trans ht'
      exact hk
    refine (Machine.ReachIn.init (M := tightMachine) ⟨_, rfl⟩).run ⟨trivial, ?_⟩
    refine ⟨fun _ _ _ _ _ _ _ _ => room, trivial, trivial, waits rfl rfl, trivial, trivial, ?_⟩
    refine ⟨fun _ _ _ _ _ _ _ _ => room, trivial, trivial, waits rfl rfl, trivial, trivial, ?_⟩
    exact ⟨fun _ _ _ _ _ _ _ _ => room, trivial, trivial, waits rfl rfl, trivial, trivial, trivial, trivial⟩
  have hmade : MadeFor (tightMachine.run openedS reclaimed) 0 (.statement "s") := ⟨_, List.mem_cons_self, rfl, rfl⟩
  refine ⟨hr, hmade, no_orphans Solo.smallHost tightService Solo.smallView _ hr ⟨?_, rfl, rfl⟩ 0 _ _ rfl rfl _ hmade⟩
  exact done_of_all rfl

/-- NEW_STATEMENT's wait expires while its job runs. -/
def expired : List Ev :=
  [asked .newStatement [], .submit 0, .dequeue, .load, .expire 0, .finish (answers "s"), .reply, .store 0]

theorem orphaned_statement :
    smallMachine.Reach (smallMachine.run openedS expired) ∧
    Quiescent (smallMachine.run openedS expired) ∧
    (∃ hd, (smallMachine.run openedS expired).handlers[0]? = some hd ∧
      hd.prog = .done (.error (.adbc (timedOut Solo.smallHost)))) ∧
    MadeFor (smallMachine.run openedS expired) 0 (.statement "s") ∧
    Registered (smallMachine.run openedS expired).inner (.statement "s") := by
  have h0 : smallMachine.init openedS := ⟨_, rfl⟩
  refine ⟨Machine.Reach.run h0 _, ⟨?_, rfl, rfl⟩, ⟨_, rfl, rfl⟩, ⟨_, List.mem_cons_self, rfl, rfl⟩, ?_⟩
  · exact done_of_all rfl
  · show "s" ∈ ({"s"} : Finset String)
    simp

end Grainlift.Server.Orphans
