/-
  Grainlift.Server.ClosedStatements — what a closed statement leaves behind.

  `close_statement` removes the statement in one job, its results in a second and its
  uploads under a lock on the handler's own thread. Results and uploads of a statement are
  registered by other handlers, which checked the statement before and do not check it
  again.

  While a close is on its way, the statement is gone and its results and uploads are still
  to go; the discipline `closer` says which handler is to do it and how far it is. In runs
  where nothing is registered for a statement that is gone and no close is cut short while
  something is left to drop (`Whole`), every result and upload of a quiet session has its
  statement (`closed_owns_nothing`). A statement closed while an EXECUTE of it is on its way
  keeps a result (`result_of_closed_statement`).
-/

import Grainlift.Server.Concurrent

namespace Grainlift.Server.ClosedStatements

open Grainlift.Lib Grainlift.Protocol Concurrent Function

/-! ## How far a close is -/

inductive Closing where
  | idle
  /-- The statement is removed; its results are next. -/
  | results (sid : String)
  /-- Its uploads are next. -/
  | uploads (sid : String)
  deriving DecidableEq

def permits : Closing → Op → Prop
  | .idle, _ => True
  | .results sid, op => op = .job (.invalidate sid)
  | .uploads sid, op => op = .hold (.takeUploadsOf sid)

def Closing.next : Closing → (op : Op) → Ans op → Closing
  | .idle, .job (.removeStatement sid), .ok _ => .results sid
  | .idle, _, _ => .idle
  | .results sid, _, .ok _ => .uploads sid
  | .results _, _, .error _ => .idle
  | .uploads _, _, _ => .idle

/-- A handler that removed a statement goes on to its results and then to its uploads; it
    stops in between only if a call fails. -/
def closer : Discipline Ans Closing := ⟨permits, Closing.next⟩

@[simp] theorem closer_allows : closer.allows = permits := rfl
@[simp] theorem closer_next : closer.next = Closing.next := rfl

section Follows

variable {srv : Service} {ctx : CallContext}

/-- At the end no close is on its way. -/
abbrev Finishes (g : Closing) (p : Do RpcError Reply) : Prop := closer.Follows g p fun g _ => g = .idle

/-- Operations that are no removal. -/
def NoRemoval : Op → Prop
  | .job (.removeStatement _) => False
  | _ => True

theorem next_idle {op : Op} (h : NoRemoval op) (a : Ans op) : Closing.idle.next op a = .idle := by
  match op with
  | .hold _ => rfl
  | .job (.connection _) | .job .newStatement | .job (.statement _ _) | .job (.invalidate _)
  | .job (.insertResult _ _) | .job (.resultSchema _) | .job (.nextResult _ _) | .job (.closeResult _) => rfl

theorem finishes_of_uses {A : Op → Prop} {p : Do RpcError Reply} (hp : Prog.Uses A p)
    (hA : ∀ op, A op → NoRemoval op) :
    Finishes .idle p :=
  .of_uses hp (fun op h => ⟨trivial, next_idle (hA op h)⟩) fun _ => rfl

theorem plain_noRemoval {sets : Prop} (op : Op) (h : Plain sets op) : NoRemoval op := by
  match op with
  | .job (.removeStatement _) => exact h
  | .hold _ | .job (.connection _) | .job .newStatement | .job (.statement _ _) | .job (.invalidate _) |
    .job (.insertResult _ _) | .job (.resultSchema _) | .job (.nextResult _ _) | .job (.closeResult _) => trivial

theorem binding_noRemoval (op : Op) (h : Binding op) : NoRemoval op := by
  match op with
  | .job (.removeStatement _) => exact h
  | .hold _ | .job (.connection _) | .job .newStatement | .job (.statement _ _) | .job (.invalidate _) |
    .job (.insertResult _ _) | .job (.resultSchema _) | .job (.nextResult _ _) | .job (.closeResult _) => trivial

theorem resultResponse_finishes (resultId : String) (schema : Schema) (limit : Nat) :
    Finishes .idle (resultResponse srv resultId schema limit) := by
  unfold resultResponse
  split <;> simp [closeResult, permits, Closing.next]

theorem handleResponse_finishes (value : Response) (limit : Nat) (id : String) :
    Finishes .idle (handleResponse srv value limit (closeStatement id).ignore) := by
  unfold handleResponse
  split <;> simp [closeStatement, invalidateStatementResults, permits, Closing.next]

theorem shape_finishes {sets : Prop} {t : Option BindTurn} {p : Do RpcError Reply} (h : Shape srv ctx sets t p) :
    Finishes .idle p := by
  cases h with
  | plain hp => exact finishes_of_uses hp plain_noRemoval
  | newStatement v => simp [newStatementHandler, newStatement, handleResponse_finishes, permits, Closing.next]
  | insert hx =>
    simp only [thenInsert, Discipline.follows_seq, Discipline.follows_mapErr]
    refine .of_uses hx (fun op h => ⟨trivial, next_idle (plain_noRemoval op h)⟩) ?_
    intro r
    cases r with
    | error e => rfl
    | ok reader =>
      simp [insertReaderResponse, insertResult, insertOwnedResult, resultResponse_finishes, permits, Closing.next]
  | execute sid =>
    simp [executeOn, invalidateStatementResults, withStatement, insertStatementResult, insertOwnedResult,
      resultResponse_finishes, permits, Closing.next]
  | executeOther sid op respond hop =>
    have hrest : Finishes .idle ((withStatement sid op).mapErr .adbc >>= fun x => liftM (respond x) : Do RpcError Reply) :=
      finishes_of_uses (thenStatement_plain hop fun x => lift_plain (respond x)) plain_noRemoval
    simpa [executeOther, invalidateStatementResults, permits, Closing.next] using hrest
  | closeStatement sid => simp [thenOk, closeStatement, invalidateStatementResults, permits, Closing.next]
  | closeResult id => simp [thenOk, closeResult, permits, Closing.next]
  | bind v sid mode schema => simp [bindOn, startBindUpload, permits, Closing.next]
  | exchange cursor input => exact finishes_of_uses (exchange_binding cursor input) binding_noRemoval
  | exchangeCancel cursor => exact finishes_of_uses (exchangeCancel_binding cursor) binding_noRemoval
  | produceCancel cursor => simp [produceCancelTurn, closeResult, permits, Closing.next]

end Follows

/-! ## Whole closes -/

def closing (hd : Handler) : Closing := closer.after .idle hd.trail

def NoResults (s : Inner) (sid : String) : Prop := ∀ id e, s.results.lookup id = some e → e.ownerStatementId ≠ some sid

def NoUploads (s : Inner) (sid : String) : Prop := ∀ id u, s.bindUploads.lookup id = some u → u.statementId ≠ sid

/-- Nothing of the statement is registered. -/
def Bare (s : Inner) (sid : String) : Prop := NoResults s sid ∧ NoUploads s sid

/-- The job registers a result only for a registered statement, and removes a statement
    only while its caller waits, or when nothing of it is left to drop. -/
def WholeJob (host : Host) (s : St) (c : Nat) : Job → Prop
  | .insertResult (some sid) _ => s.inner.results.size < host.limits.maxResultsPerSession → sid ∈ s.inner.statements
  | .removeStatement sid => s.worker.caller c = .waiting ∨ Bare s.inner sid
  | _ => True

/-- Nothing is registered for a statement that is gone, and a close is cut short only when
    there is nothing left for it to drop. -/
def Whole (host : Host) (s : St) : Ev → Prop
  | .finish _ => ∀ c t, s.worker.thread = .running c → s.worker.op c = some t → WholeJob host s c t.job
  /- An upload is registered only for a registered statement. -/
  | .hold h _ => ∀ hd entry k, s.handlers[h]? = some hd → hd.prog = .call (.hold (.insertUpload entry)) k →
      entry.statementId ∈ s.inner.statements
  /- No wait expires while the reply that the statement is removed is on its way, or in the
     call that drops its results while it has uploads. -/
  | .expire h => ∀ hd c sid,
      (∀ k, InCall s h hd c (.removeStatement sid) k →
        s.worker.thread = .answering c ⟨⟨.job (.removeStatement sid), .ok ()⟩, k (.ok ())⟩ → Bare s.inner sid) ∧
      (∀ k, InCall s h hd c (.invalidate sid) k → closing hd = .results sid → NoUploads s.inner sid)
  /- The call that drops the results finds room in the queue, -/
  | .submit h =>
    ∀ hd sid k, s.handlers[h]? = some hd → hd.prog = .call (.job (.invalidate sid)) k → closing hd = .results sid →
      s.worker.queue.length < Worker.queueBound ∨ Bare s.inner sid
  /- and its flag is not stored before its job began. -/
  | .store h => ∀ hd c sid k, InCall s h hd c (.invalidate sid) k → closing hd = .results sid →
      NoResults s.inner sid ∨ ¬ Unstarted s.worker c
  | _ => True

/-! ## Who is to drop what a removed statement left -/

/-- The reply that the statement is removed is on its way to a handler that waits for it. -/
inductive Removing (s : St) (sid : String) : Prop
  | mk {h : Nat} {hd : Handler} {c : Nat} {k : Ans (.job (.removeStatement sid)) → Do RpcError Reply} :
      InCall s h hd c (.removeStatement sid) k → s.worker.caller c = .waiting →
      Answered s.worker c ⟨⟨.job (.removeStatement sid), .ok ()⟩, k (.ok ())⟩ → Removing s sid

inductive Sweeps (s : St) (sid : String) : Prop
  | removing : Removing s sid → Sweeps s sid
  | closing {h : Nat} {hd : Handler} : s.handlers[h]? = some hd → closing hd = .results sid → Sweeps s sid
  | sweeping {c : Nat} {t : Task} : s.worker.thread = .running c → s.worker.op c = some t →
      t.job = .invalidate sid → Sweeps s sid

inductive Drops (s : St) (sid : String) : Prop
  | removing : Removing s sid → Drops s sid
  | closing {h : Nat} {hd : Handler} : s.handlers[h]? = some hd → closing hd = .results sid →
      (∀ c, hd.call = some c → s.worker.caller c = .waiting) → Drops s sid
  | dropping {h : Nat} {hd : Handler} : s.handlers[h]? = some hd → closing hd = .uploads sid → Drops s sid

/-- Every handler follows the discipline. -/
def Closes (s : St) : Prop := ∀ (h : Nat) (hd : Handler), s.handlers[h]? = some hd → Finishes (closing hd) hd.prog

structure Inv (s : St) : Prop where
  ids : ∀ sid ∈ s.inner.statements, sid ∈ s.issued
  results : ∀ sid, ¬ NoResults s.inner sid → sid ∈ s.inner.statements ∨ Sweeps s sid
  uploads : ∀ sid, ¬ NoUploads s.inner sid → sid ∈ s.inner.statements ∨ Drops s sid
  removed : ∀ c sid p, Answered s.worker c ⟨⟨.job (.removeStatement sid), .ok ()⟩, p⟩ → sid ∈ s.issued ∧
    sid ∉ s.inner.statements
  gone : ∀ (h : Nat) (hd : Handler) sid, s.handlers[h]? = some hd → closing hd = .results sid →
    sid ∈ s.issued ∧ sid ∉ s.inner.statements
  swept : ∀ h hd c sid (k : Ans (.job (.invalidate sid)) → Do RpcError Reply) a, InCall s h hd c (.invalidate sid) k →
    closing hd = .results sid →
    Answered s.worker c ⟨⟨.job (.invalidate sid), a⟩, k a⟩ → a = .ok () ∧ NoResults s.inner sid

section Step

variable {host : Host} {srv : Service} {v : SessionView} {s s' : St} {e : Ev} {sid : String}

theorem quiet_noResults {i i' : Inner} (hq : Quiet i i') (h : NoResults i sid) : NoResults i' sid := by
  intro id e' he'
  obtain ⟨e, he, hs⟩ := hq.results id e' he'
  rw [hs.owner]
  exact h id e he

theorem quiet_noUploads {i i' : Inner} (hq : Quiet i i') (h : NoUploads i sid) : NoUploads i' sid := by
  intro id u' hu'
  obtain ⟨u, hu, hs⟩ := hq.uploads id u' hu'
  rw [hs]
  exact h id u hu

/-- A result is registered only for a statement that is. -/
theorem noResults_keep (hg : Whole host s e) (hm : Move host srv v s e s') (h : NoResults s.inner sid) :
    NoResults s'.inner sid ∨ sid ∈ s'.inner.statements := by
  cases hm with
  | @hold _ _ o _ w _ _ _ _ =>
    have he := hold_effect host.limits host.ipc w o s.inner
    show NoResults (o.perform host.ipc w s.inner).2 sid ∨ sid ∈ (o.perform host.ipc w s.inner).2.statements
    generalize (o.perform host.ipc w s.inner).2 = i at he
    cases he with
    | quiet hq => exact .inl (quiet_noResults hq h)
    | upload entry => exact .inl h
  | @finish c t w ht ho _ =>
    have hjob := hg c t ht ho
    have he := job_effect host.limits w t.job s.inner
    show NoResults (t.job.perform host.limits w s.inner).2 sid ∨
      sid ∈ (t.job.perform host.limits w s.inner).2.statements
    generalize t.job = j at hjob he
    generalize (j.perform host.limits w s.inner).2 = i at he
    cases he with
    | quiet hq => exact .inl (quiet_noResults hq h)
    | statement => exact .inl h
    | executed _ _ => exact .inl h
    | result owner reader hroom =>
      by_cases hown : owner = some sid
      · subst hown
        exact .inr (hjob hroom)
      · left
        intro id e he
        by_cases hid : id = w.fresh
        · subst hid
          cases (AList.lookup_insert s.inner.results).symm.trans he
          exact hown
        · exact h id e ((AList.lookup_insert_ne hid).symm.trans he)
  | start _ | submit _ _ _ _ | refuse _ _ _ _ | dequeue _ _ | skip _ _ | run _ _ | reply _ | recv _ _ _
  | expire _ _ _ | store _ _ =>
    exact .inl h

theorem noUploads_keep (hg : Whole host s e) (hm : Move host srv v s e s') (h : NoUploads s.inner sid) :
    NoUploads s'.inner sid ∨ sid ∈ s'.inner.statements := by
  cases hm with
  | @hold _ _ o _ w hh _ hp _ =>
    have he := hold_effect host.limits host.ipc w o s.inner
    show NoUploads (o.perform host.ipc w s.inner).2 sid ∨ sid ∈ (o.perform host.ipc w s.inner).2.statements
    have hup : ∀ entry, o = .insertUpload entry → entry.statementId ∈ s.inner.statements := by
      intro entry heq
      subst heq
      exact hg _ entry _ hh hp
    generalize (o.perform host.ipc w s.inner).2 = i at he
    cases he with
    | quiet hq => exact .inl (quiet_noUploads hq h)
    | upload entry =>
      by_cases hown : entry.statementId = sid
      · subst hown
        exact .inr (hup entry rfl)
      · left
        intro id u hu
        by_cases hid : id = w.fresh
        · subst hid
          cases (AList.lookup_insert s.inner.bindUploads).symm.trans hu
          exact hown
        · exact h id u ((AList.lookup_insert_ne hid).symm.trans hu)
  | @finish c t w ht ho _ =>
    have he := job_effect host.limits w t.job s.inner
    show NoUploads (t.job.perform host.limits w s.inner).2 sid ∨
      sid ∈ (t.job.perform host.limits w s.inner).2.statements
    generalize t.job = j at he
    generalize (j.perform host.limits w s.inner).2 = i at he
    cases he with
    | quiet hq => exact .inl (quiet_noUploads hq h)
    | statement => exact .inl h
    | executed _ _ => exact .inl h
    | result _ _ _ => exact .inl h
  | start _ | submit _ _ _ _ | refuse _ _ _ _ | dequeue _ _ | skip _ _ | run _ _ | reply _ | recv _ _ _
  | expire _ _ _ | store _ _ =>
    exact .inl h

/-- Statements come with a new id. -/
theorem statements_of (hm : Move host srv v s e s') (h : sid ∈ s'.inner.statements) :
    sid ∈ s.inner.statements ∨ (sid ∉ s.issued ∧ sid ∈ s'.issued) := by
  cases hm with
  | @hold _ _ o _ w _ _ _ _ =>
    have he := hold_effect host.limits host.ipc w o s.inner
    change sid ∈ (o.perform host.ipc w s.inner).2.statements at h
    generalize (o.perform host.ipc w s.inner).2 = i at he h
    cases he with
    | quiet hq => exact .inl (hq.statements h)
    | upload entry => exact .inl h
  | @finish c t w ht ho hf =>
    have he := job_effect host.limits w t.job s.inner
    change sid ∈ (t.job.perform host.limits w s.inner).2.statements at h
    show sid ∈ s.inner.statements ∨ (sid ∉ s.issued ∧ sid ∈ w.fresh :: s.issued)
    generalize t.job = j at he h
    generalize (j.perform host.limits w s.inner).2 = i at he h
    cases he with
    | quiet hq => exact .inl (hq.statements h)
    | statement =>
      rcases Finset.mem_insert.mp h with rfl | h
      · exact .inr ⟨hf, List.mem_cons_self⟩
      · exact .inl h
    | executed _ _ => exact .inl h
    | result _ _ _ => exact .inl h
  | start _ | submit _ _ _ _ | refuse _ _ _ _ | dequeue _ _ | skip _ _ | run _ _ | reply _ | recv _ _ _
  | expire _ _ _ | store _ _ =>
    exact .inl h

theorem hold_statements (ipc : Ipc) (w : World) (o : Hold) (i : Inner) :
    (o.perform ipc w i).2.statements = i.statements := by
  cases o with
  | pushUpload id batch =>
    simp only [Hold.perform, pushUploadHold]
    split <;> rfl
  | takeUpload id | cancelStatement id =>
    simp only [Hold.perform]
    split <;> rfl
  | checkStatement _ | startUpload _ _ | insertUpload _ | takeUploadsOf _ | finishUpload _ | cancelConnection => rfl

theorem job_statements (limits : SessionLimits) (w : World) {i : Inner} (j : Job) (h : sid ∈ i.statements) :
    sid ∈ (j.perform limits w i).2.statements ∨ j = .removeStatement sid := by
  cases j with
  | newStatement =>
    simp only [Job.perform, newStatementJob]
    split
    · exact .inl h
    · cases w.driver.unit with
      | error e => exact .inl h
      | ok u => exact .inl (Finset.mem_insert_of_mem h)
  | removeStatement id =>
    by_cases e : id = sid
    · exact .inr (congrArg Job.removeStatement e)
    · simp only [Job.perform]
      split
      · exact .inl (Finset.mem_erase.mpr ⟨fun h => e h.symm, h⟩)
      · exact .inl h
  | connection op | insertResult _ _ | resultSchema _ | closeResult _ =>
    simp only [Job.perform, insertResultJob]
    split <;> exact .inl h
  | statement id op =>
    simp only [Job.perform]
    split
    · simp only
      split <;> exact .inl h
    · exact .inl h
  | nextResult id sequence =>
    simp only [Job.perform, nextResultJob]
    split
    · exact .inl h
    · simp only
      split <;> exact .inl h
  | invalidate _ => exact .inl h

/-- A statement goes by a removal only. -/
theorem statements_keep (hm : Move host srv v s e s') (h : sid ∈ s.inner.statements) :
    sid ∈ s'.inner.statements ∨ ∃ c t w, e = .finish w ∧ s.worker.thread = .running c ∧ s.worker.op c = some t ∧
      t.job = .removeStatement sid := by
  cases hm with
  | @hold _ _ o _ w _ _ _ _ =>
    left
    show sid ∈ (o.perform host.ipc w s.inner).2.statements
    rwa [hold_statements]
  | @finish c t w ht ho hf =>
    rcases job_statements host.limits w t.job h with h | hj
    · exact .inl h
    · exact .inr ⟨c, t, w, rfl, ht, ho, hj⟩
  | start _ | submit _ _ _ _ | refuse _ _ _ _ | dequeue _ _ | skip _ _ | run _ _ | reply _ | recv _ _ _
  | expire _ _ _ | store _ _ =>
    exact .inl h

/-! ## One step -/

theorem closing_snoc (hd : Handler) (op : Op) (a : Ans op) (p : Do RpcError Reply) :
    closing ⟨hd.trail ++ [⟨op, a⟩], p, none⟩ = (closing hd).next op a := by
  simp [closing]

/-- What a handler does next, by how far its close is. -/
theorem next_permitted {hd : Handler} {op : Op} {k : Ans op → Do RpcError Reply} (hf : Finishes (closing hd) hd.prog)
    (hp : hd.prog = .call op k) : permits (closing hd) op := by
  rw [hp] at hf
  exact hf.1

/-- In the middle of a close it is the operation of its stage. -/
theorem closing_op {h : Nat} {hd : Handler} {c : Closing} {op : Op} {k : Ans op → Do RpcError Reply} (hf : Closes s)
    (hh : s.handlers[h]? = some hd) (hc : closing hd = c) (hp : hd.prog = .call op k) : permits c op := by
  rw [← hc]
  exact next_permitted (hf h hd hh) hp

theorem idle_of_removal {hd : Handler} {k : Ans (.job (.removeStatement sid)) → Do RpcError Reply}
    (hf : Finishes (closing hd) hd.prog) (hp : hd.prog = .call (.job (.removeStatement sid)) k) :
    closing hd = .idle := by
  have := next_permitted hf hp
  cases hc : closing hd with
  | idle => rfl
  | results sid' =>
    rw [hc] at this
    cases this
  | uploads sid' =>
    rw [hc] at this
    cases this

theorem removing_keep (hw : Wf s) (hf : Closes s) (hg : Whole host s e) (hm : Move host srv v s e s')
    (hr : Removing s sid) :
    Removing s' sid ∨ (∃ (h : Nat) (hd : Handler), s'.handlers[h]? = some hd ∧ closing hd = .results sid ∧
      hd.call = none) ∨ Bare s.inner sid := by
  obtain @⟨h, hd, c, k, hin, hk, ha⟩ := hr
  by_cases hmv : e.mover = some h
  · cases hm with
    | hold hh hc _ _ | submit hh hc _ _ | refuse hh hc _ _ =>
      cases hmv
      cases hh.symm.trans hin.handler
      cases hc.symm.trans hin.call
    | recv hin' _ hmail =>
      cases hmv
      cases hin'.handler.symm.trans hin.handler
      cases hin'.call.symm.trans hin.call
      cases hin'.task.symm.trans hin.task
      cases hw.one_reply ha hmail
      refine .inr (.inl ⟨h, _, getElem?_set_of_some hin.handler, ?_, rfl⟩)
      rw [closing_snoc, idle_of_removal (hf h hd hin.handler) hin.prog]
      rfl
    | store hin' hk' =>
      cases hmv
      cases hin'.handler.symm.trans hin.handler
      cases hin'.call.symm.trans hin.call
      cases hk.symm.trans hk'
    | start _ | dequeue _ _ | skip _ _ | run _ _ | finish _ _ _ | reply _ | expire _ _ _ => cases hmv
  · rcases hm.caller_keep hw hmv hin with hc | ⟨rfl, -⟩
    · exact .inl ⟨hm.inCall_keep hw hmv hin, hc.trans hk, hm.answered_keep hw hin.isOpen ha⟩
    · cases hm with
      | expire hin' _ hempty =>
        cases hin'.handler.symm.trans hin.handler
        cases hin'.call.symm.trans hin.call
        exact .inr (.inr ((hg hd c sid).1 k hin (ha.resolve_right (by simp [hempty]))))

/-- After the job that drops them, the statement has no results. -/
theorem noResults_after (limits : SessionLimits) (w : World) (i : Inner) :
    NoResults ((Job.invalidate sid).perform limits w i).2 sid := by
  intro id e he
  simpa [notOwnedBy] using (lookup_of_retain he).2

theorem noUploads_after (ipc : Ipc) (w : World) (i : Inner) :
    NoUploads ((Hold.takeUploadsOf sid).perform ipc w i).2 sid := by
  intro id u hu
  simpa [ofStatement] using (lookup_of_retain hu).2

theorem sweeps_keep (hw : Wf s) (hf : Closes s) (hg : Whole host s e) (hi : Inv s) (hm : Move host srv v s e s')
    (hs : Sweeps s sid) (h0 : ¬ NoResults s.inner sid) (h1 : ¬ NoResults s'.inner sid) : Sweeps s' sid := by
  cases hs with
  | removing hr =>
    rcases removing_keep hw hf hg hm hr with hr | ⟨h, hd, hh, hc, -⟩ | hb
    · exact .removing hr
    · exact .closing hh hc
    · exact absurd hb.1 h0
  | @closing h hd hh hc =>
    by_cases hmv : e.mover = some h
    · cases hm with
      | hold hh' _ hp _ =>
        cases hmv
        cases hh'.symm.trans hh
        cases closing_op hf hh hc hp
      | submit hh' _ _ _ =>
        cases hmv
        cases hh'.symm.trans hh
        exact .closing (getElem?_set_of_some hh) hc
      | refuse hh' _ hp hq =>
        cases hmv
        cases hh'.symm.trans hh
        cases closing_op hf hh hc hp
        exact absurd (((hg hd sid _ hh hp hc).resolve_left hq).1) h0
      | recv hin _ hmail =>
        cases hmv
        cases hin.handler.symm.trans hh
        cases closing_op hf hh hc hin.prog
        exact absurd (hi.swept h hd _ sid _ _ hin hc (.inr hmail)).2 h0
      | store hin hk =>
        cases hmv
        cases hin.handler.symm.trans hh
        cases closing_op hf hh hc hin.prog
        rcases hw.place _ hin.isOpen with hun | hrun | ⟨d, ha⟩
        · exact absurd hun ((hg hd _ sid _ hin hc).resolve_left h0)
        · exact .sweeping hrun hin.task rfl
        · obtain ⟨t, a, ht, rfl⟩ := hw.answers _ d ha
          cases hin.task.symm.trans ht
          exact absurd (hi.swept h hd _ sid _ _ hin hc ha).2 h0
      | start _ | dequeue _ _ | skip _ _ | run _ _ | finish _ _ _ | reply _ | expire _ _ _ => cases hmv
    · exact .closing (hm.handler_keep hmv hh) hc
  | @sweeping c t hrun ht hj =>
    rcases hm.running_keep hrun with hrun' | ⟨w, rfl⟩
    · exact .sweeping hrun' (hm.op_keep hw ht) hj
    · cases hm with
      | finish ht' ho' _ =>
        cases ht'.symm.trans hrun
        cases ho'.symm.trans ht
        refine absurd ?_ h1
        show NoResults (t.job.perform host.limits w s.inner).2 sid
        rw [hj]
        exact noResults_after _ _ _

theorem drops_keep (hw : Wf s) (hf : Closes s) (hg : Whole host s e) (hi : Inv s) (hm : Move host srv v s e s')
    (hs : Drops s sid) (h0 : ¬ NoUploads s.inner sid) (h1 : ¬ NoUploads s'.inner sid) : Drops s' sid := by
  cases hs with
  | removing hr =>
    rcases removing_keep hw hf hg hm hr with hr | ⟨h, hd, hh, hc, hcall⟩ | hb
    · exact .removing hr
    · exact .closing hh hc fun c h => by cases hcall.symm.trans h
    · exact absurd hb.2 h0
  | @closing h hd hh hc hwait =>
    by_cases hmv : e.mover = some h
    · cases hm with
      | hold hh' _ hp _ =>
        cases hmv
        cases hh'.symm.trans hh
        cases closing_op hf hh hc hp
      | submit hh' _ _ _ =>
        cases hmv
        cases hh'.symm.trans hh
        refine .closing (getElem?_set_of_some hh) hc fun c h => ?_
        cases h
        exact update_self ..
      | refuse hh' _ hp hq =>
        cases hmv
        cases hh'.symm.trans hh
        cases closing_op hf hh hc hp
        exact absurd (((hg hd sid _ hh hp hc).resolve_left hq).2) h0
      | recv hin _ hmail =>
        cases hmv
        cases hin.handler.symm.trans hh
        cases closing_op hf hh hc hin.prog
        obtain ⟨rfl, -⟩ := hi.swept h hd _ sid _ _ hin hc (.inr hmail)
        exact .dropping (getElem?_set_of_some hh) (by rw [closing_snoc, hc]; rfl)
      | store hin hk =>
        cases hmv
        cases hin.handler.symm.trans hh
        cases hk.symm.trans (hwait _ hin.call)
      | start _ | dequeue _ _ | skip _ _ | run _ _ | finish _ _ _ | reply _ | expire _ _ _ => cases hmv
    · by_cases hex : e = .expire h
      · subst hex
        cases hm with
        | expire hin _ _ =>
          cases hin.handler.symm.trans hh
          cases closing_op hf hh hc hin.prog
          exact absurd ((hg hd _ sid).2 _ hin hc) h0
      · refine .closing (hm.handler_keep hmv hh) hc ?_
        intro c hcall
        obtain ⟨j, k, hin⟩ := hw.calls h hd c hh hcall
        rcases hm.caller_keep hw hmv hin with hk | ⟨rfl, -⟩
        · exact hk.trans (hwait c hcall)
        · exact absurd rfl hex
  | @dropping h hd hh hc =>
    by_cases hmv : e.mover = some h
    · cases hm with
      | @hold _ _ _ _ w hh' _ hp _ =>
        cases hmv
        cases hh'.symm.trans hh
        cases closing_op hf hh hc hp
        exact absurd (noUploads_after host.ipc w s.inner) h1
      | submit hh' _ hp _ | refuse hh' _ hp _ =>
        cases hmv
        cases hh'.symm.trans hh
        cases closing_op hf hh hc hp
      | recv hin _ _ | store hin _ =>
        cases hmv
        cases hin.handler.symm.trans hh
        cases closing_op hf hh hc hin.prog
      | start _ | dequeue _ _ | skip _ _ | run _ _ | finish _ _ _ | reply _ | expire _ _ _ => cases hmv
    · exact .dropping (hm.handler_keep hmv hh) hc

/-- A removed statement is on its way out: its caller waits for the reply. -/
theorem removing_new (hw : Wf s) (hm : Move host srv v s e s') {c : Nat} {t : Task} {w : World} (he : e = .finish w)
    (ht : s.worker.thread = .running c) (ho : s.worker.op c = some t) (hj : t.job = .removeStatement sid)
    (hk : s.worker.caller c = .waiting) (hmem : sid ∈ s.inner.statements) : Removing s' sid := by
  subst he
  obtain ⟨h, hd, j, k, hin⟩ := hw.callers c (.inl hk)
  cases hin.task.symm.trans ho
  cases hj
  have hin' := hm.inCall_keep hw (by simp [Ev.mover]) hin
  cases hm with
  | finish ht' ho' _ =>
    cases ht'.symm.trans ht
    cases ho'.symm.trans ho
    refine ⟨hin', hk, .inl ?_⟩
    simp [Job.perform, hmem]

theorem results_step (hw : Wf s) (hf : Closes s) (hg : Whole host s e) (hi : Inv s) (hm : Move host srv v s e s')
    (h1 : ¬ NoResults s'.inner sid) : sid ∈ s'.inner.statements ∨ Sweeps s' sid := by
  by_cases h0 : NoResults s.inner sid
  · exact .inl ((noResults_keep hg hm h0).resolve_left h1)
  · rcases hi.results sid h0 with hmem | hs
    · rcases statements_keep hm hmem with hmem' | ⟨c, t, w, rfl, ht, ho, hj⟩
      · exact .inl hmem'
      · have hjob := hg c t ht ho
        rw [hj] at hjob
        exact .inr (.removing (removing_new hw hm rfl ht ho hj (hjob.resolve_right fun hb => h0 hb.1) hmem))
    · exact .inr (sweeps_keep hw hf hg hi hm hs h0 h1)

theorem uploads_step (hw : Wf s) (hf : Closes s) (hg : Whole host s e) (hi : Inv s) (hm : Move host srv v s e s')
    (h1 : ¬ NoUploads s'.inner sid) : sid ∈ s'.inner.statements ∨ Drops s' sid := by
  by_cases h0 : NoUploads s.inner sid
  · exact .inl ((noUploads_keep hg hm h0).resolve_left h1)
  · rcases hi.uploads sid h0 with hmem | hs
    · rcases statements_keep hm hmem with hmem' | ⟨c, t, w, rfl, ht, ho, hj⟩
      · exact .inl hmem'
      · have hjob := hg c t ht ho
        rw [hj] at hjob
        exact .inr (.removing (removing_new hw hm rfl ht ho hj (hjob.resolve_right fun hb => h0 hb.2) hmem))
    · exact .inr (drops_keep hw hf hg hi hm hs h0 h1)

/-- A statement that is gone does not come back. -/
theorem gone_keep (hm : Move host srv v s e s') (h : sid ∈ s.issued ∧ sid ∉ s.inner.statements) :
    sid ∈ s'.issued ∧ sid ∉ s'.inner.statements := by
  refine ⟨hm.issued_keep h.1, ?_⟩
  intro hmem
  rcases statements_of hm hmem with hmem' | ⟨hn, -⟩
  · exact h.2 hmem'
  · exact hn h.1

/-- A job answers that it removed a statement that was there. -/
theorem removed_perform {limits : SessionLimits} {w : World} {i : Inner} {j : Job} {a : Ans (.job j)}
    {p : Do RpcError Reply} {d : Done} (hd : d = ⟨⟨.job j, a⟩, p⟩) (ha : a = (j.perform limits w i).1)
    (hr : d.note = ⟨.job (.removeStatement sid), .ok ()⟩) : j = .removeStatement sid ∧ sid ∈ i.statements := by
  subst hd
  cases hr
  refine ⟨rfl, ?_⟩
  by_cases hmem : sid ∈ i.statements
  · exact hmem
  · simp [Job.perform, hmem] at ha

theorem removed_step (hi : Inv s) (hm : Move host srv v s e s') {c : Nat} {p : Do RpcError Reply}
    (ha : Answered s'.worker c ⟨⟨.job (.removeStatement sid), .ok ()⟩, p⟩) :
    sid ∈ s'.issued ∧ sid ∉ s'.inner.statements := by
  rcases hm.answered_of ha with ha | ⟨w, t, rfl, ht, ho, hd⟩
  · exact gone_keep hm (hi.removed c sid p ha)
  · obtain ⟨hj, hmem⟩ := removed_perform hd rfl rfl
    cases hm with
    | finish ht' ho' _ =>
      cases ht'.symm.trans ht
      cases ho'.symm.trans ho
      refine ⟨List.mem_cons_of_mem _ (hi.ids sid hmem), ?_⟩
      show sid ∉ (t.job.perform host.limits w s.inner).2.statements
      rw [hj]
      simp [Job.perform, hmem]

/-- A close begins with the answer that the statement is removed. -/
theorem next_results {g : Closing} {op : Op} {a : Ans op} (h : g.next op a = .results sid) :
    g = .idle ∧ (⟨op, a⟩ : (op : Op) × Ans op) = ⟨.job (.removeStatement sid), .ok ()⟩ := by
  match g, op, a with
  | .idle, .job (.removeStatement _), .ok () =>
    cases h
    exact ⟨rfl, rfl⟩
  | .idle, .job (.removeStatement _), .error _ => cases h
  | .idle, .hold _, _ | .idle, .job (.connection _), _ | .idle, .job .newStatement, _
  | .idle, .job (.statement _ _), _ |
    .idle, .job (.invalidate _), _ | .idle, .job (.insertResult _ _), _ | .idle, .job (.resultSchema _), _ |
    .idle, .job (.nextResult _ _), _ | .idle, .job (.closeResult _), _ => cases h
  | .results _, _, .ok _ => cases h
  | .results _, _, .error _ => cases h
  | .uploads _, _, _ => cases h

theorem gone_step (hi : Inv s) (hm : Move host srv v s e s') {h : Nat} {hd : Handler} (hh : s'.handlers[h]? = some hd)
    (hc : closing hd = .results sid) : sid ∈ s'.issued ∧ sid ∉ s'.inner.statements := by
  apply gone_keep hm
  -- a handler that took an answer
  have took : ∀ {i : Nat} {y : Handler} {op : Op} {a : Ans op} {p : Do RpcError Reply},
      (s.handlers.set i ⟨y.trail ++ [⟨op, a⟩], p, none⟩)[h]? = some hd →
      ((⟨op, a⟩ : (op : Op) × Ans op) = ⟨.job (.removeStatement sid), .ok ()⟩ → sid ∈ s.issued ∧
        sid ∉ s.inner.statements) →
      sid ∈ s.issued ∧ sid ∉ s.inner.statements := by
    intro i y op a p hh' hrem
    rcases getElem?_set_cases hh' with ⟨-, rfl⟩ | ⟨-, hh'⟩
    · rw [closing_snoc] at hc
      exact hrem (next_results hc).2
    · exact hi.gone h hd sid hh' hc
  cases hm with
  | start _ =>
    rcases getElem?_snoc_cases hh with hh | ⟨-, rfl⟩
    · exact hi.gone h hd sid hh hc
    · cases hc
  | hold _ _ _ _ => exact took hh fun h => by cases h
  | @submit i y _ _ hy _ _ _ =>
    rcases getElem?_set_cases hh with ⟨-, rfl⟩ | ⟨-, hh⟩
    · exact hi.gone i y sid hy hc
    · exact hi.gone h hd sid hh hc
  | refuse _ _ _ _ => exact took hh fun h => by cases h
  | recv hin _ hmail =>
    apply took hh
    intro hx
    cases hx
    exact hi.removed _ sid _ (.inr hmail)
  | store _ _ => exact took hh fun h => by cases h
  | dequeue _ _ | skip _ _ | run _ _ | finish _ _ _ | reply _ | expire _ _ _ => exact hi.gone h hd sid hh hc

theorem swept_step (hw : Wf s) (hg : Whole host s e) (hi : Inv s) (hm : Move host srv v s e s') {h : Nat}
    {hd : Handler} {c : Nat}
    {k : Ans (.job (.invalidate sid)) → Do RpcError Reply} {a : Ans (.job (.invalidate sid))}
    (hin : InCall s' h hd c (.invalidate sid) k) (hc : closing hd = .results sid)
    (ha : Answered s'.worker c ⟨⟨.job (.invalidate sid), a⟩, k a⟩) : a = .ok () ∧ NoResults s'.inner sid := by
  by_cases hmv : e.mover = some h
  · exact absurd ha (hm.mover_unanswered hw hmv hin)
  · have hin' := hm.inCall_of hw hmv hin
    rcases hm.answered_of ha with ha | ⟨w, t, rfl, ht, ho, hd'⟩
    · obtain ⟨rfl, h0⟩ := hi.swept h hd c sid k a hin' hc ha
      have hgone := gone_keep hm (hi.gone h hd sid hin'.handler hc)
      exact ⟨rfl, (noResults_keep hg hm h0).resolve_right hgone.2⟩
    · cases hin'.task.symm.trans ho
      cases hd'
      cases hm with
      | finish ht' ho' _ =>
        cases ht'.symm.trans ht
        cases ho'.symm.trans ho
        exact ⟨rfl, noResults_after host.limits w s.inner⟩

theorem move_inv (hw : Wf s) (hf : Closes s) (hg : Whole host s e) (hi : Inv s) (hm : Move host srv v s e s') :
    Inv s' where
  ids sid hmem := by
    rcases statements_of hm hmem with hmem' | ⟨-, hnew⟩
    · exact hm.issued_keep (hi.ids sid hmem')
    · exact hnew
  results _ h1 := results_step hw hf hg hi hm h1
  uploads _ h1 := uploads_step hw hf hg hi hm h1
  removed _ _ _ ha := removed_step hi hm ha
  gone _ _ _ hh hc := gone_step hi hm hh hc
  swept _ _ _ _ _ _ hin hc ha := swept_step hw hg hi hm hin hc ha

theorem opened_inv (policy : ClientOptionPolicy) : Inv (opened policy) := by
  refine ⟨by simp [opened, Inner.opened], ?_, ?_, ?_, by simp [opened],
    ?_⟩
  · intro sid h
    exact absurd (fun id e he => by simp [opened, Inner.opened] at he) h
  · intro sid h
    exact absurd (fun id e he => by simp [opened, Inner.opened] at he) h
  · simp [opened, Worker.init, Answered]
  · intro h hd c sid k a hin
    have := hin.handler
    simp [opened] at this

end Step

/-- Every result and every upload of the session has its statement. -/
structure Attached (s : Inner) : Prop where
  results : ∀ id e sid, s.results.lookup id = some e → e.ownerStatementId = some sid → sid ∈ s.statements
  uploads : ∀ id u, s.bindUploads.lookup id = some u → u.statementId ∈ s.statements

/-- When nothing is going on any more, every result and every upload has its statement. The
    condition is on each step: nothing is registered for a statement that is gone, and no close
    is cut short while there is something left for it to drop. -/
theorem closed_owns_nothing (host : Host) (srv : Service) (v : SessionView) (s : St)
    (hr : (machine host srv v).ReachIn (Whole host) s) (hq : Quiescent s) : Attached s.inner := by
  have hclose : ∀ {s}, (machine host srv v).ReachIn (Whole host) s → Closes s :=
    fun hr => handlers_follow shape_finishes hr
  have hinv : Inv s := invariant_of_moves hclose opened_inv (fun hw hf hg hi hm => move_inv hw hf hg hi hm) hr
  have hidle : ∀ {h : Nat} {hd : Handler}, s.handlers[h]? = some hd → closing hd = .idle := by
    intro h hd hh
    obtain ⟨r, hp⟩ := hq.1 h hd hh
    have := hclose hr h hd hh
    rw [hp] at this
    exact this
  have hnone : ∀ {sid}, ¬ Removing s sid := by
    intro sid h
    obtain ⟨hin, -, -⟩ := h
    obtain ⟨r, hp⟩ := hq.1 _ _ hin.handler
    cases hp.symm.trans hin.prog
  refine ⟨fun id e sid he ho => (hinv.results sid fun h => h id e he ho).resolve_right ?_,
    fun id u hu => (hinv.uploads u.statementId fun h => h id u hu rfl).resolve_right ?_⟩
  · intro hs
    cases hs with
    | removing hr => exact hnone hr
    | closing hh hc => cases (hidle hh).symm.trans hc
    | sweeping ht _ _ => cases hq.2.2.symm.trans ht
  · intro hs
    cases hs with
    | removing hr => exact hnone hr
    | closing hh hc _ => cases (hidle hh).symm.trans hc
    | dropping hh hc => cases (hidle hh).symm.trans hc


/-! ## A close and an EXECUTE -/

/-- EXECUTE, then CLOSE_STATEMENT. -/
def oneAfterTheOther : List Ev :=
  asked .newStatement [] :: (called 0 "s" ++ asked .execute [("statement_id", "s")] ::
    (called 1 "a" ++ called 1 "b" ++ called 1 "c" ++ called 1 "r" ++ asked .closeStatement [("statement_id", "s")] ::
      (called 2 "d" ++ called 2 "e" ++ [.hold 2 (answers "u")])))

set_option maxRecDepth 4000 in
theorem closed_owns_nothing_after_execute :
    smallMachine.ReachIn (Whole Solo.smallHost) (smallMachine.run openedS oneAfterTheOther) ∧
    Attached (smallMachine.run openedS oneAfterTheOther).inner := by
  have room : ∀ {i sid}, (0 : Nat) < Worker.queueBound ∨ Bare i sid := .inl (by decide)
  have performs : ∀ {s : St} {w : World} {c : Nat} {t : Task}, s.worker.thread = .running c → s.worker.op c = some t →
      WholeJob Solo.smallHost s c t.job → Whole Solo.smallHost s (.finish w) := by
    intro s w c t ht ho hj c' t' ht' ho'
    cases ht.symm.trans ht'
    cases ho.symm.trans ho'
    exact hj
  have hr : smallMachine.ReachIn (Whole Solo.smallHost) (smallMachine.run openedS oneAfterTheOther) := by
    refine (Machine.ReachIn.init (M := smallMachine) ⟨_, rfl⟩).run ⟨trivial, ?_⟩
    refine ⟨fun _ _ _ _ _ _ => room, trivial, trivial, performs rfl rfl trivial, trivial, trivial, trivial, ?_⟩
    refine ⟨fun _ _ _ _ _ _ => room, trivial, trivial, performs rfl rfl trivial, trivial, trivial, ?_⟩
    refine ⟨fun _ _ _ _ _ _ => room, trivial, trivial, performs rfl rfl trivial, trivial, trivial, ?_⟩
    refine ⟨fun _ _ _ _ _ _ => room, trivial, trivial, performs rfl rfl trivial, trivial, trivial, ?_⟩
    refine ⟨fun _ _ _ _ _ _ => room, trivial, trivial, performs rfl rfl fun _ => Finset.mem_insert_self "s" ∅,
      trivial, trivial, trivial, ?_⟩
    refine ⟨fun _ _ _ _ _ _ => room, trivial, trivial, performs rfl rfl (.inl rfl), trivial, trivial, ?_⟩
    refine ⟨fun _ _ _ _ _ _ => room, trivial, trivial, performs rfl rfl trivial, trivial, trivial, ?_, trivial⟩
    intro hd entry k hh hp
    cases hh
    cases hp
  exact ⟨hr, closed_owns_nothing Solo.smallHost smallService Solo.smallView _ hr ⟨done_of_all rfl, rfl, rfl⟩⟩

/-- CLOSE_STATEMENT between the execution of an EXECUTE and its registration. -/
def closedInBetween : List Ev :=
  asked .newStatement [] :: (called 0 "s" ++ asked .execute [("statement_id", "s")] ::
    (called 1 "a" ++ called 1 "b" ++ asked .closeStatement [("statement_id", "s")] ::
      (called 2 "d" ++ called 2 "e" ++ .hold 2 (answers "u") :: (called 1 "c" ++ called 1 "r"))))

set_option maxRecDepth 4000 in
theorem result_of_closed_statement :
    smallMachine.Reach (smallMachine.run openedS closedInBetween) ∧
    Quiescent (smallMachine.run openedS closedInBetween) ∧
    (smallMachine.run openedS closedInBetween).inner.results.lookup "r" = some (.fresh (some "s") emptyReader) ∧
    (smallMachine.run openedS closedInBetween).inner.statements = ∅ ∧
    ¬ Attached (smallMachine.run openedS closedInBetween).inner := by
  have h0 : smallMachine.init openedS := ⟨_, rfl⟩
  have hl : (smallMachine.run openedS closedInBetween).inner.results.lookup "r" =
      some (.fresh (some "s") emptyReader) := rfl
  have hs : (smallMachine.run openedS closedInBetween).inner.statements = ∅ := rfl
  refine ⟨Machine.Reach.run h0 _, ⟨done_of_all rfl, rfl, rfl⟩, hl, hs, ?_⟩
  intro h
  have hmem := h.results "r" _ "s" hl rfl
  rw [hs] at hmem
  exact Finset.notMem_empty "s" hmem

end Grainlift.Server.ClosedStatements
