/-
  Grainlift.Server.History — what the log of a concurrent run says.

  `Logged` is what one step adds to the history and `Moved` what it does to one handler:
  nothing, a submission, or one answer (`Answer`). Proved for every run: a job's event is
  that of the worker call it was performed in, no call is performed twice, and the
  driver's calls are those of the events, in order.
-/

import Grainlift.Server.Concurrent

namespace Grainlift.Server.Concurrent

open Grainlift.Lib Grainlift.Protocol Function

section

variable {host : Host} {srv : Service} {v : SessionView} {s s' : St} {e : Ev}

/-- What a step performed on the session. -/
inductive Logged (host : Host) (s : St) (e : Ev) (s' : St) : Prop
  | nothing : s'.inner = s.inner → s'.log = s.log → s'.issued = s.issued → Logged host s e s'
  | hold {h : Nat} {hd : Handler} {o : Hold} {k : Ans (.hold o) → Do RpcError Reply} (w : World) :
      e = .hold h w → s.handlers[h]? = some hd → hd.prog = .call (.hold o) k → w.fresh ∉ s.issued →
      s'.inner = (o.perform host.ipc w s.inner).2 → s'.issued = w.fresh :: s.issued →
      s'.log = s.log ++ [⟨h, none, .hold o, (o.perform host.ipc w s.inner).1,
        (o.perform host.ipc w s.inner).2.calls.drop s.inner.calls.length⟩] → Logged host s e s'
  | finish {c : Nat} {t : Task} (w : World) :
      e = .finish w → s.worker.thread = .running c → s.worker.op c = some t → w.fresh ∉ s.issued →
      s'.inner = (t.job.perform host.limits w s.inner).2 → s'.issued = w.fresh :: s.issued →
      s'.log = s.log ++ [⟨t.handler, some c, .job t.job, (t.job.perform host.limits w s.inner).1,
        (t.job.perform host.limits w s.inner).2.calls.drop s.inner.calls.length⟩] → Logged host s e s'

theorem Move.logged (hm : Move host srv v s e s') : Logged host s e s' := by
  cases hm with
  | hold hh _ hp hf => exact .hold _ rfl hh hp hf rfl rfl rfl
  | finish ht ho hf => exact .finish _ rfl ht ho hf rfl rfl rfl
  | start _ | submit _ _ _ _ | refuse _ _ _ _ | dequeue _ _ | skip _ _ | run _ _ | reply _ | recv _ _ _
  | expire _ _ _ | store _ _ =>
    exact .nothing rfl rfl rfl

/-- An operation of the handler `h` was answered: it performed a hold, or a job's answer
    reached it. -/
inductive Answer (host : Host) (s : St) (e : Ev) (s' : St) (h : Nat) : (op : Op) → Ans op → Prop
  | hold {o : Hold} (w : World) : e = .hold h w → w.fresh ∉ s.issued → s'.inner = (o.perform host.ipc w s.inner).2 →
      Answer host s e s' h (.hold o) (o.perform host.ipc w s.inner).1
  | job {j : Job} {a : Ans (.job j)} : s'.inner = s.inner → Answer host s e s' h (.job j) a

/-- What a step did to the handler `i`, which is `x` after it. -/
inductive Moved (host : Host) (s : St) (e : Ev) (s' : St) (i : Nat) (x : Handler) : Prop
  | same : s.handlers[i]? = some x → Moved host s e s' i x
  | started : i = s.handlers.length → x.trail = [] → s'.inner = s.inner → s'.log = s.log → Moved host s e s' i x
  | submitted {y : Handler} {j : Job} {k : Ans (.job j) → Do RpcError Reply} :
      s.handlers[i]? = some y → y.call = none → y.prog = .call (.job j) k → x = { y with call := some s.worker.next } →
      Moved host s e s' i x
  | answered {y : Handler} {op : Op} {k : Ans op → Do RpcError Reply} {a : Ans op} :
      s.handlers[i]? = some y → y.prog = .call op k → x = ⟨y.trail ++ [⟨op, a⟩], k a, none⟩ →
      Answer host s e s' i op a → Moved host s e s' i x

theorem Move.moved (hm : Move host srv v s e s') {i : Nat} {x : Handler} (hx : s'.handlers[i]? = some x) :
    Moved host s e s' i x := by
  cases hm with
  | start _ =>
    rcases getElem?_snoc_cases hx with hx | ⟨rfl, rfl⟩
    · exact .same hx
    · exact .started rfl rfl rfl rfl
  | hold hh _ hp hf =>
    rcases getElem?_set_cases hx with ⟨rfl, rfl⟩ | ⟨-, hx⟩
    · exact .answered hh hp rfl (.hold _ rfl hf rfl)
    · exact .same hx
  | submit hh hc hp _ =>
    rcases getElem?_set_cases hx with ⟨rfl, rfl⟩ | ⟨-, hx⟩
    · exact .submitted hh hc hp rfl
    · exact .same hx
  | refuse hh _ hp _ =>
    rcases getElem?_set_cases hx with ⟨rfl, rfl⟩ | ⟨-, hx⟩
    · exact .answered hh hp rfl (.job rfl)
    · exact .same hx
  | recv hin _ _ =>
    rcases getElem?_set_cases hx with ⟨rfl, rfl⟩ | ⟨-, hx⟩
    · exact .answered hin.handler hin.prog rfl (.job rfl)
    · exact .same hx
  | store hin _ =>
    rcases getElem?_set_cases hx with ⟨rfl, rfl⟩ | ⟨-, hx⟩
    · exact .answered hin.handler hin.prog rfl (.job rfl)
    · exact .same hx
  | dequeue _ _ | skip _ _ | run _ _ | finish _ _ _ | reply _ | expire _ _ _ => exact .same hx

theorem Move.started_keep (hm : Move host srv v s e s') {i : Nat} {c : CallContext × Invocation}
    (hc : s.started[i]? = some c) :
    s'.started[i]? = some c := by
  cases hm with
  | start _ => exact getElem?_snoc_of_some hc
  | _ => exact hc

/-- A handler stays one. -/
theorem Move.handler_some (hm : Move host srv v s e s') {i : Nat} {y : Handler} (hy : s.handlers[i]? = some y) :
    ∃ x, s'.handlers[i]? = some x := by
  have hlt := (List.getElem?_eq_some_iff.mp hy).1
  have hlen : s.handlers.length ≤ s'.handlers.length := by
    cases hm with
    | start _ => simp
    | hold _ _ _ _ | submit _ _ _ _ | refuse _ _ _ _ | recv _ _ _ | store _ _ => simp
    | dequeue _ _ | skip _ _ | run _ _ | finish _ _ _ | reply _ | expire _ _ _ => exact Nat.le_refl _
  exact ⟨_, List.getElem?_eq_getElem (by omega)⟩

/-- A task was there before, or is that of the call just made. -/
theorem Move.op_of (hm : Move host srv v s e s') {c : Nat} {t : Task} (ht : s'.worker.op c = some t) :
    s.worker.op c = some t ∨ (c = s.worker.next ∧ ∃ hd, s.handlers[t.handler]? = some hd ∧ hd.call = none ∧
      hd.prog = .call (.job t.job) t.next ∧ (s'.handlers[t.handler]? = some { hd with call := some c } ∨
        ∃ a, s'.handlers[t.handler]? = some ⟨hd.trail ++ [⟨.job t.job, a⟩], t.next a, none⟩)) := by
  cases hm with
  | submit hh hc hp _ =>
    by_cases he : c = s.worker.next
    · subst he
      simp only [update_self, Option.some.injEq] at ht
      subst ht
      exact .inr ⟨rfl, _, hh, hc, hp, .inl (getElem?_set_of_some hh)⟩
    · exact .inl ((update_of_ne he ..).symm.trans ht)
  | refuse hh hc hp _ =>
    by_cases he : c = s.worker.next
    · subst he
      simp only [update_self, Option.some.injEq] at ht
      subst ht
      exact .inr ⟨rfl, _, hh, hc, hp, .inr ⟨_, getElem?_set_of_some hh⟩⟩
    · exact .inl ((update_of_ne he ..).symm.trans ht)
  | start _ | hold _ _ _ _ | dequeue _ _ | skip _ _ | run _ _ | finish _ _ _ | reply _ | recv _ _ _
  | expire _ _ _ | store _ _ =>
    exact .inl ht

/-! ## Jobs in the log -/

/-- A job's event is that of the worker call it was performed in. -/
def JobsCalled (s : St) : Prop :=
  ∀ ev ∈ s.log, ∀ j, ev.op = .job j → ∃ c t, ev.call = some c ∧ s.worker.op c = some t ∧
    t.handler = ev.handler ∧ t.job = j

theorem reach_jobsCalled {G : St → Ev → Prop} (h : (machine host srv v).ReachIn G s) : JobsCalled s := by
  refine invariant_of_moves (P := JobsCalled) (Q := fun _ => True) (fun _ => trivial)
    (fun _ ev hev => by cases hev) ?_ h
  intro s s' e hw _ _ ih hm ev hev j hj
  have old : ev ∈ s.log → ∃ c t, ev.call = some c ∧ s'.worker.op c = some t ∧ t.handler = ev.handler ∧ t.job = j := by
    intro hev
    obtain ⟨c, t, hc, ho, ht, hj⟩ := ih ev hev j hj
    exact ⟨c, t, hc, hm.op_keep hw ho, ht, hj⟩
  cases hm.logged with
  | nothing _ hl _ => exact old (hl ▸ hev)
  | hold _ _ _ _ _ _ _ hl =>
    rw [hl] at hev
    rcases List.mem_append.mp hev with hev | hev
    · exact old hev
    · rw [List.mem_singleton.mp hev] at hj
      cases hj
  | @finish c t _ _ _ ho _ _ _ hl =>
    rw [hl] at hev
    rcases List.mem_append.mp hev with hev | hev
    · exact old hev
    · rw [List.mem_singleton.mp hev] at hj ⊢
      cases hj
      exact ⟨c, t, rfl, hm.op_keep hw ho, rfl, rfl⟩

/-- The calls of the log are those the worker completed. -/
theorem reach_log_calls {G : St → Ev → Prop} (h : (machine host srv v).ReachIn G s) :
    s.log.filterMap Event.call = Worker.completed s.worker.notes := by
  refine invariant_of_moves (P := fun s => s.log.filterMap Event.call = Worker.completed s.worker.notes)
    (Q := fun _ => True) (fun _ => trivial) (fun _ => rfl) ?_ h
  intro s s' e _ _ _ ih hm
  cases hm with
  | hold _ _ _ _ => simp [St.performed, ih]
  | run _ _ => simp [ih]
  | finish _ _ _ => simp [St.performed, ih]
  | start _ | submit _ _ _ _ | refuse _ _ _ _ | dequeue _ _ | skip _ _ | reply _ | recv _ _ _ | expire _ _ _ | store _ _ =>
    exact ih

/-- No worker call is performed twice. -/
theorem log_call_unique {G : St → Ev → Prop} (h : (machine host srv v).ReachIn G s) {i j c : Nat} {ev ev' : Event}
    (hi : s.log[i]? = some ev) (hj : s.log[j]? = some ev') (hc : ev.call = some c) (hc' : ev'.call = some c) :
    i = j := by
  have hinv := (reach_wf h).worker
  obtain ⟨o, hser⟩ := hinv.executing.serial
  have hbegun : (Worker.completed s.worker.notes ++ o.toList).Nodup := by
    rw [← hser.begun_eq]
    exact hinv.begun_sublist.nodup hinv.sentOnce
  have hnodup : (s.log.filterMap Event.call).Nodup := by
    rw [reach_log_calls h]
    exact hbegun.of_append_left
  have hpair := List.pairwise_iff_getElem.mp (List.pairwise_filterMap.mp hnodup)
  obtain ⟨hi', rfl⟩ := List.getElem?_eq_some_iff.mp hi
  obtain ⟨hj', rfl⟩ := List.getElem?_eq_some_iff.mp hj
  rcases Nat.lt_trichotomy i j with hlt | heq | hgt
  · exact absurd rfl (hpair i j hi' hj' hlt c hc c hc')
  · exact heq
  · exact absurd rfl (hpair j i hj' hi' hgt c hc' c hc)

/-! ## Driver calls in the log -/

theorem job_calls (limits : SessionLimits) (w : World) (j : Job) (s : Inner) :
    ∃ new, (j.perform limits w s).2.calls = s.calls ++ new := by
  have quiet : ∃ new, s.calls = s.calls ++ new := ⟨[], (List.append_nil _).symm⟩
  have called : ∀ c, ∃ new, (s.called c).calls = s.calls ++ new := fun c => ⟨[c], rfl⟩
  cases j with
  | connection op =>
    simp only [Job.perform]
    split
    · exact called _
    · exact quiet
  | newStatement =>
    simp only [Job.perform, newStatementJob]
    split
    · exact quiet
    · cases w.driver.unit <;> exact called _
  | statement id op =>
    simp only [Job.perform]
    split
    · split
      · exact called _
      · exact quiet
    · exact quiet
  | removeStatement id =>
    simp only [Job.perform]
    split <;> exact quiet
  | invalidate sid => exact quiet
  | insertResult owner reader =>
    simp only [Job.perform, insertResultJob]
    split <;> exact quiet
  | resultSchema id =>
    simp only [Job.perform]
    split <;> exact quiet
  | nextResult id sequence =>
    simp only [Job.perform, nextResultJob]
    split
    · exact quiet
    · simp only
      split
      · exact quiet
      · exact called _
  | closeResult id =>
    simp only [Job.perform]
    split <;> exact quiet

theorem hold_calls (ipc : Ipc) (w : World) (o : Hold) (s : Inner) :
    ∃ new, (o.perform ipc w s).2.calls = s.calls ++ new := by
  have quiet : ∃ new, s.calls = s.calls ++ new := ⟨[], (List.append_nil _).symm⟩
  have called : ∀ c, ∃ new, (s.called c).calls = s.calls ++ new := fun c => ⟨[c], rfl⟩
  cases o with
  | checkStatement _ | startUpload _ _ | insertUpload _ | takeUploadsOf _ | finishUpload _ => exact quiet
  | pushUpload id b =>
    simp only [Hold.perform, pushUploadHold]
    split <;> exact quiet
  | takeUpload id =>
    simp only [Hold.perform]
    split <;> exact quiet
  | cancelConnection => exact called _
  | cancelStatement id =>
    simp only [Hold.perform]
    split
    · exact called _
    · exact quiet

/-- The driver's calls are those of the events, in order. -/
theorem reach_calls {G : St → Ev → Prop} (h : (machine host srv v).ReachIn G s) :
    s.inner.calls = s.log.flatMap Event.calls := by
  refine invariant_of_moves (P := fun s => s.inner.calls = s.log.flatMap Event.calls) (Q := fun _ => True)
    (fun _ => trivial) (fun _ => rfl) ?_ h
  intro s s' e _ _ _ ih hm
  have new : ∀ {inner : Inner} {h : Nat} {c : Option Nat} {op : Op} {a : Ans op},
    (∃ new, inner.calls = s.inner.calls ++ new) →
      inner.calls = (s.log ++ [(⟨h, c, op, a, inner.calls.drop s.inner.calls.length⟩ : Event)]).flatMap Event.calls := by
    intro inner h c op a hn
    obtain ⟨new, hn⟩ := hn
    simp [hn, ← ih]
  cases hm.logged with
  | nothing hi hl _ => rw [hi, hl, ih]
  | hold w _ _ _ _ hi _ hl =>
    rw [hi, hl]
    exact new (hold_calls _ _ _ _)
  | finish w _ _ _ _ hi _ hl =>
    rw [hi, hl]
    exact new (job_calls _ _ _ _)

end

end Grainlift.Server.Concurrent
