/-
  Grainlift.Server.Trails — what the handlers of a concurrent run know of it.

  An event of the history was performed: its answer and its driver calls are those of its
  operation on some state of the session, at some moment of the world (`reach_performed`).
  What a handler was answered happened: it is an event of the history, or an error
  (`reach_noting`), since a handler that gave up on a job is told nothing of it. A handler
  that returned stays as it is (`returned_path`). The operations performed for a handler are
  some of those it asked for, each once and in its order (`reach_worked`).
-/

import Grainlift.Server.History

namespace Grainlift.Server.Concurrent

open Grainlift.Lib Grainlift.Protocol Function

section

variable {host : Host} {srv : Service} {v : SessionView} {s s' : St} {e : Ev} {G : St → Ev → Prop}

/-! ## Handlers that returned -/

theorem Move.returned_keep (hm : Move host srv v s e s') {h : Nat} {hd : Handler} {r : Except RpcError Reply}
    (hh : s.handlers[h]? = some hd) (hp : hd.prog = .done r) : s'.handlers[h]? = some hd := by
  obtain ⟨x, hx⟩ := hm.handler_some hh
  rw [hx]
  cases hm.moved hx with
  | same hy => exact hy.symm.trans hh
  | started hl _ _ _ =>
    have := (List.getElem?_eq_some_iff.mp hh).1
    omega
  | submitted hy _ hc _ =>
    cases hy.symm.trans hh
    cases hc.symm.trans hp
  | answered hy hc _ _ =>
    cases hy.symm.trans hh
    cases hc.symm.trans hp

theorem returned_path (hr : (machine host srv v).ReachIn G s) (p : (machine host srv v).Path G s s') {h : Nat}
    {hd : Handler} {r : Except RpcError Reply} (hh : s.handlers[h]? = some hd) (hp : hd.prog = .done r) :
    s'.handlers[h]? = some hd :=
  path_of_moves (P := fun s => s.handlers[h]? = some hd) (Q := fun _ => True) (fun _ => trivial) hr p hh
    fun _ _ _ hh hm => hm.returned_keep hh hp

theorem serving_path (hr : (machine host srv v).ReachIn G s) (p : (machine host srv v).Path G s s') {h : Nat}
    {c : CallContext × Invocation} (hc : s.started[h]? = some c) : s'.started[h]? = some c :=
  path_of_moves (P := fun s => s.started[h]? = some c) (Q := fun _ => True) (fun _ => trivial) hr p hc
    fun _ _ _ hc hm => hm.started_keep hc

theorem Move.length_le (hm : Move host srv v s e s') : s.handlers.length ≤ s'.handlers.length := by
  cases hm with
  | start _ => simp
  | hold _ _ _ _ | submit _ _ _ _ | refuse _ _ _ _ | recv _ _ _ | store _ _ => simp
  | dequeue _ _ | skip _ _ | run _ _ | finish _ _ _ | reply _ | expire _ _ _ => exact Nat.le_refl _

theorem length_path (hr : (machine host srv v).ReachIn G s) (p : (machine host srv v).Path G s s') :
    s.handlers.length ≤ s'.handlers.length :=
  path_of_moves (P := fun t => s.handlers.length ≤ t.handlers.length) (Q := fun _ => True) (fun _ => trivial)
    hr p (Nat.le_refl _) fun _ _ _ hle hm => Nat.le_trans hle hm.length_le

/-! ## Events -/

/-- A job and an event are those of a handler that was started. -/
structure Owned (s : St) : Prop where
  events : ∀ ev ∈ s.log, ev.handler < s.handlers.length
  tasks : ∀ c t, s.worker.op c = some t → t.handler < s.handlers.length

theorem reach_owned (hr : (machine host srv v).ReachIn G s) : Owned s := by
  refine invariant_of_moves (P := Owned) (Q := fun _ => True) (fun _ => trivial)
    (fun policy => ⟨fun ev hev => (nomatch hev), fun c t ht => (nomatch ht)⟩) ?_ hr
  intro s s' e _ _ _ hi hm
  obtain ⟨hlog, hops⟩ := hi
  have hlen := hm.length_le
  refine ⟨?_, ?_⟩
  · intro ev hev
    cases hm.logged with
    | nothing _ hl _ =>
      have := hlog ev (hl ▸ hev)
      omega
    | hold w _ hh _ _ _ _ hl =>
      rw [hl] at hev
      rcases List.mem_append.mp hev with hev | hev
      · have := hlog ev hev
        omega
      · rw [List.mem_singleton.mp hev]
        exact Nat.lt_of_lt_of_le (List.getElem?_eq_some_iff.mp hh).1 hlen
    | finish w _ _ ho _ _ _ hl =>
      rw [hl] at hev
      rcases List.mem_append.mp hev with hev | hev
      · have := hlog ev hev
        omega
      · rw [List.mem_singleton.mp hev]
        exact Nat.lt_of_lt_of_le (hops _ _ ho) hlen
  · intro c t ht
    rcases hm.op_of ht with ht | ⟨-, hd, hh, -⟩
    · have := hops c t ht
      omega
    · have := (List.getElem?_eq_some_iff.mp hh).1
      omega

/-- The history only grows. -/
theorem Move.log_prefix (hm : Move host srv v s e s') : s.log <+: s'.log := by
  cases hm.logged with
  | nothing _ hl _ => rw [hl]
  | hold _ _ _ _ _ _ _ hl | finish _ _ _ _ _ _ _ hl =>
    rw [hl]
    exact List.prefix_append _ _

theorem log_path (hr : (machine host srv v).ReachIn G s) (p : (machine host srv v).Path G s s') : s.log <+: s'.log :=
  path_of_moves (P := fun t => s.log <+: t.log) (Q := fun _ => True) (fun _ => trivial) hr p (List.prefix_refl _)
    fun _ _ _ hle hm => hle.trans hm.log_prefix

/-- The event is what its operation did to some state. -/
def Performed (host : Host) (ev : Event) : Prop :=
  ∃ w i, ev.answer = (ev.op.perform host.limits host.ipc w i).1 ∧
    ev.calls = (ev.op.perform host.limits host.ipc w i).2.calls.drop i.calls.length

theorem reach_performed (h : (machine host srv v).ReachIn G s) : ∀ ev ∈ s.log, Performed host ev := by
  refine invariant_of_moves (P := fun s => ∀ ev ∈ s.log, Performed host ev) (Q := fun _ => True) (fun _ => trivial)
    (fun _ ev hev => by cases hev) ?_ h
  intro s s' e _ _ _ ih hm ev hev
  cases hm.logged with
  | nothing _ hl _ => exact ih ev (hl ▸ hev)
  | hold w _ _ _ _ _ _ hl | finish w _ _ _ _ _ _ hl =>
    rw [hl] at hev
    rcases List.mem_append.mp hev with hev | hev
    · exact ih ev hev
    · rw [List.mem_singleton.mp hev]
      exact ⟨w, s.inner, rfl, rfl⟩

/-- An operation that has this answer is an event of the handler. -/
def Noted (s : St) (h : Nat) (n : (op : Op) × Ans op) : Prop :=
  ∃ ev ∈ s.log, ev.handler = h ∧ (⟨ev.op, ev.answer⟩ : (op : Op) × Ans op) = n

theorem Noted.keep {h : Nat} {n : (op : Op) × Ans op} (hn : Noted s h n) (hm : Move host srv v s e s') :
    Noted s' h n := by
  obtain ⟨ev, hev, hh, hn⟩ := hn
  refine ⟨ev, ?_, hh, hn⟩
  cases hm.logged with
  | nothing _ hl _ => exact hl ▸ hev
  | hold _ _ _ _ _ _ _ hl | finish _ _ _ _ _ _ _ hl =>
    rw [hl]
    exact List.mem_append_left _ hev

/-- An event of a handler that was not there is a new one. -/
theorem Noted.grows (hr : (machine host srv v).ReachIn G s) (p : (machine host srv v).Path G s s') {h : Nat}
    {n : (op : Op) × Ans op} (hh : s.handlers.length ≤ h) (hn : Noted s' h n) : s.log.length < s'.log.length := by
  obtain ⟨ev, hev, rfl, -⟩ := hn
  refine Nat.lt_of_le_of_ne (log_path hr p).length_le fun heq => ?_
  rw [← (log_path hr p).eq_of_length heq] at hev
  have := (reach_owned hr).events ev hev
  omega

/-- What handlers were answered, and what is on its way to them. -/
structure Noting (s : St) : Prop where
  trails : ∀ (h : Nat) (hd : Handler) n, s.handlers[h]? = some hd → n ∈ hd.trail → Noted s h n ∨ ∃ e, n.2 = .error e
  replies : ∀ c d, Answered s.worker c d → ∃ t, s.worker.op c = some t ∧ Noted s t.handler d.note

theorem noting_move (hw : Wf s) (hi : Noting s) (hm : Move host srv v s e s') : Noting s' := by
  have old : ∀ {h : Nat} {hd : Handler} {n : (op : Op) × Ans op}, s.handlers[h]? = some hd → n ∈ hd.trail →
      Noted s' h n ∨ ∃ e, n.2 = .error e :=
    fun hh hn => (hi.trails _ _ _ hh hn).imp_left fun h => h.keep hm
  constructor
  · intro i x n hx hn
    cases hm with
    | start _ =>
      rcases getElem?_snoc_cases hx with hx | ⟨-, rfl⟩
      · exact old hx hn
      · cases hn
    | @hold h hd o k w hh _ _ _ =>
      rcases getElem?_set_cases hx with ⟨rfl, rfl⟩ | ⟨-, hx⟩
      · rcases List.mem_append.mp hn with hn | hn
        · exact old hh hn
        · rw [List.mem_singleton.mp hn]
          exact .inl ⟨_, List.mem_append_right _ (List.mem_singleton.mpr rfl), rfl, rfl⟩
      · exact old hx hn
    | submit hh _ _ _ =>
      rcases getElem?_set_cases hx with ⟨rfl, rfl⟩ | ⟨-, hx⟩
      · exact old hh hn
      · exact old hx hn
    | refuse hh _ _ _ =>
      rcases getElem?_set_cases hx with ⟨rfl, rfl⟩ | ⟨-, hx⟩
      · rcases List.mem_append.mp hn with hn | hn
        · exact old hh hn
        · rw [List.mem_singleton.mp hn]
          exact .inr ⟨_, rfl⟩
      · exact old hx hn
    | store hin _ =>
      rcases getElem?_set_cases hx with ⟨rfl, rfl⟩ | ⟨-, hx⟩
      · rcases List.mem_append.mp hn with hn | hn
        · exact old hin.handler hn
        · rw [List.mem_singleton.mp hn]
          exact .inr ⟨_, rfl⟩
      · exact old hx hn
    | recv hin _ hmail =>
      rcases getElem?_set_cases hx with ⟨rfl, rfl⟩ | ⟨-, hx⟩
      · rcases List.mem_append.mp hn with hn | hn
        · exact old hin.handler hn
        · rw [List.mem_singleton.mp hn]
          obtain ⟨t, ho, hnote⟩ := hi.replies _ _ (.inr hmail)
          cases hin.task.symm.trans ho
          exact .inl hnote
      · exact old hx hn
    | dequeue _ _ | skip _ _ | run _ _ | finish _ _ _ | reply _ | expire _ _ _ => exact old hx hn
  · intro c d ha
    rcases hm.answered_of ha with ha | ⟨w, t, rfl, hrun, ho, rfl⟩
    · obtain ⟨t, ho, hn⟩ := hi.replies c d ha
      exact ⟨t, hm.op_keep hw ho, hn.keep hm⟩
    · refine ⟨t, hm.op_keep hw ho, ?_⟩
      cases hm with
      | finish hrun' ho' _ =>
        cases hrun.symm.trans hrun'
        cases ho.symm.trans ho'
        exact ⟨_, List.mem_append_right _ (List.mem_singleton.mpr rfl), rfl, rfl⟩

theorem reach_noting (h : (machine host srv v).ReachIn G s) : Noting s := by
  refine invariant_of_moves (P := Noting) (Q := fun _ => True) (fun _ => trivial) ?_
    (fun hw _ _ hi hm => noting_move hw hi hm) h
  intro policy
  refine ⟨fun h hd n hh => (nomatch hh), ?_⟩
  intro c d ha
  rcases ha with ha | ha
  · cases ha
  · cases ha

/-! ## Jobs that were given up on -/

/-- An operation was answered by an error. -/
def Faulted (trail : List ((op : Op) × Ans op)) : Prop := ∃ n ∈ trail, ∃ e, n.2 = .error e

/-- A job that may still be performed is one its handler waits for, or has taken for failed. -/
def Pending (s : St) : Prop :=
  ∀ c, (Unstarted s.worker c ∨ s.worker.thread = .running c) → Open s.worker c ∨
    ∃ t hd, s.worker.op c = some t ∧ s.handlers[t.handler]? = some hd ∧ Faulted hd.trail

/-- A job that may still be performed has no reply. -/
theorem Wf.unanswered (hw : Wf s) {c : Nat} (hc : Unstarted s.worker c ∨ s.worker.thread = .running c) :
    s.worker.mail c = .empty := by
  rcases hc with (hq | ht) | ht
  · exact (hw.worker.pending c (List.mem_append_right _ hq)).1
  · exact (hw.worker.pending c (List.mem_append_left _ (by simp [Worker.inHand, ht]))).1
  · exact hw.clean c (.inl ht)

/-- An old job stays given up on. -/
theorem Faulted.keep {t : Task} {hd : Handler} (hh : s.handlers[t.handler]? = some hd) (hf : Faulted hd.trail)
    (hm : Move host srv v s e s') : ∃ hd', s'.handlers[t.handler]? = some hd' ∧ Faulted hd'.trail := by
  have hmore : ∀ n, Faulted (hd.trail ++ [n]) := fun n => by
    obtain ⟨m, hmem, he⟩ := hf
    exact ⟨m, List.mem_append_left _ hmem, he⟩
  obtain ⟨x, hx⟩ := hm.handler_some hh
  refine ⟨x, hx, ?_⟩
  cases hm.moved hx with
  | same hy =>
    cases hy.symm.trans hh
    exact hf
  | started hl _ _ _ =>
    have := (List.getElem?_eq_some_iff.mp hh).1
    omega
  | submitted hy _ _ heq =>
    cases hy.symm.trans hh
    rw [heq]
    exact hf
  | answered hy _ heq _ =>
    cases hy.symm.trans hh
    rw [heq]
    exact hmore _

theorem pending_move (hw : Wf s) (hi : Pending s) (hm : Move host srv v s e s') : Pending s' := by
  have old : ∀ c, (Unstarted s.worker c ∨ s.worker.thread = .running c) →
      (Open s.worker c → Open s'.worker c) → Open s'.worker c ∨
        ∃ t hd, s'.worker.op c = some t ∧ s'.handlers[t.handler]? = some hd ∧ Faulted hd.trail := by
    intro c hc hopen
    rcases hi c hc with ho | ⟨t, hd, ho, hh, hf⟩
    · exact .inl (hopen ho)
    · obtain ⟨hd', hh', hf'⟩ := hf.keep hh hm
      exact .inr ⟨t, hd', hm.op_keep hw ho, hh', hf'⟩
  have known : ∀ c, (Unstarted s.worker c ∨ s.worker.thread = .running c) → c ≠ s.worker.next := by
    rintro c hc rfl
    obtain ⟨t, ht⟩ := hw.known _ hc
    rw [hw.fresh _ (Nat.le_refl _)] at ht
    cases ht
  cases hm with
  | start _ | hold _ _ _ _ => exact fun c hc => old c hc id
  | @submit h hd j k hh _ _ _ =>
    intro c hc
    by_cases he : c = s.worker.next
    · exact .inl (.inl (by rw [he]; exact update_self ..))
    · refine old c ?_ fun ho => by simpa [Open, update_of_ne he] using ho
      rcases hc with (hq | ht) | ht
      · rcases List.mem_append.mp hq with hq | hq
        · exact .inl (.inl hq)
        · exact absurd (List.mem_singleton.mp hq) he
      · exact .inl (.inr ht)
      · exact .inr ht
  | refuse _ _ _ _ =>
    intro c hc
    exact old c hc fun ho => by simpa [Open, update_of_ne (known c hc)] using ho
  | @dequeue c q ht hq =>
    intro c' hc
    refine old c' ?_ id
    rcases hc with (hq' | ht') | ht'
    · exact .inl (.inl (by rw [hq]; exact List.mem_cons_of_mem _ hq'))
    · cases ht'
      exact .inl (.inl (by rw [hq]; exact List.mem_cons_self))
    · cases ht'
  | @skip c ht _ =>
    intro c' hc
    refine old c' ?_ id
    rcases hc with (hq' | ht') | ht'
    · exact .inl (.inl hq')
    · cases ht'
    · cases ht'
  | @run c ht _ =>
    intro c' hc
    refine old c' ?_ id
    rcases hc with (hq' | ht') | ht'
    · exact .inl (.inl hq')
    · cases ht'
    · cases ht'
      exact .inl (.inr ht)
  | @finish c t w ht ho _ =>
    intro c' hc
    refine old c' ?_ id
    rcases hc with (hq' | ht') | ht'
    · exact .inl (.inl hq')
    · cases ht'
    · cases ht'
  | @reply c d ht =>
    intro c' hc
    refine old c' ?_ id
    rcases hc with (hq' | ht') | ht'
    · exact .inl (.inl hq')
    · cases ht'
    · cases ht'
  | @recv h hd c j k a hin _ hmail =>
    intro c' hc
    refine old c' hc fun ho => ?_
    have hne : c' ≠ c := by
      rintro rfl
      rw [hw.unanswered hc] at hmail
      cases hmail
    simpa [Open, update_of_ne hne] using ho
  | @expire h hd c j k hin hwait _ =>
    intro c' hc
    refine old c' hc fun ho => ?_
    by_cases he : c' = c
    · rw [he]
      exact .inr (update_self ..)
    · simpa [Open, update_of_ne he] using ho
  | @store h hd c j k hin _ =>
    intro c' hc
    by_cases he : c' = c
    · subst he
      have hlt := (List.getElem?_eq_some_iff.mp hin.handler).1
      exact .inr ⟨⟨h, j, k⟩, _, hin.task, List.getElem?_set_self hlt, _,
        List.mem_append_right _ (List.mem_singleton.mpr rfl), _, rfl⟩
    · exact old c' hc fun ho => by simpa [Open, update_of_ne he] using ho

theorem reach_pending (hr : (machine host srv v).ReachIn G s) : Pending s :=
  invariant_of_moves (P := Pending) (Q := fun _ => True) (fun _ => trivial)
    (fun policy c hc => by
      rcases hc with (hq | ht) | ht
      · cases hq
      · cases ht
      · cases ht)
    (fun hw _ _ hi hm => pending_move hw hi hm) hr

/-! ## Operations performed for a handler -/

/-- The worker calls whose jobs have yet to be performed, or to be skipped. -/
def unperformed (queue : List Nat) : Worker.Thread Done → List Nat
  | .taken c | .running c => c :: queue
  | _ => queue

def jobFor (op : Nat → Option Task) (h c : Nat) : Option Op :=
  (op c).bind fun t => if t.handler = h then some (.job t.job) else none

/-- The operations performed for the handler, in their order. -/
def eventsOf (s : St) (h : Nat) : List Op := (s.log.filter fun ev => ev.handler == h).map Event.op

def jobsOf (s : St) (h : Nat) : List Op :=
  (unperformed s.worker.queue s.worker.thread).filterMap (jobFor s.worker.op h)

/-- The operations the handler asked for, in their order. -/
def Handler.asked (hd : Handler) : List Op :=
  hd.trail.map Sigma.fst ++
    match hd.call, hd.prog with
    | some _, .call op _ => [op]
    | _, _ => []

/-- Nothing but jobs was asked for after a failure. -/
def Orderly (trail : List ((op : Op) × Ans op)) : Prop :=
  ∀ before o a rest, trail = before ++ ⟨.hold o, a⟩ :: rest → ¬ Faulted before

theorem Orderly.init {trail : List ((op : Op) × Ans op)} {n : (op : Op) × Ans op} (h : Orderly (trail ++ [n])) :
    Orderly trail := by
  intro before o a rest htrail
  refine h before o a (rest ++ [n]) ?_
  rw [htrail, List.append_assoc]
  rfl

/-- No operation is performed twice, or without being asked for; and they are performed in
    the order they were asked for, but that a job its handler gave up on may come after what
    the handler did itself. -/
def Worked (s : St) : Prop :=
  ∀ (h : Nat) (hd : Handler), s.handlers[h]? = some hd → Orderly hd.trail →
    (eventsOf s h ++ jobsOf s h).Sublist hd.asked

theorem mem_unperformed {c : Nat} (h : c ∈ unperformed s.worker.queue s.worker.thread) :
    Unstarted s.worker c ∨ s.worker.thread = .running c := by
  unfold unperformed at h
  split at h
  · rename_i ht
    rcases List.mem_cons.mp h with rfl | h
    · exact .inl (.inr ht)
    · exact .inl (.inl h)
  · rename_i ht
    rcases List.mem_cons.mp h with rfl | h
    · exact .inr ht
    · exact .inl (.inl h)
  · exact .inl (.inl h)

theorem unperformed_snoc (queue : List Nat) (thread : Worker.Thread Done) (c : Nat) :
    unperformed (queue ++ [c]) thread = unperformed queue thread ++ [c] := by
  cases thread <;> rfl

/-- The jobs in line are old ones, and stay those of their handlers. -/
theorem jobs_update (hw : Wf s) (t : Task) (h : Nat) :
    (unperformed s.worker.queue s.worker.thread).filterMap
      (jobFor (update s.worker.op s.worker.next (some t)) h) = jobsOf s h := by
  refine List.filterMap_congr fun c hc => ?_
  obtain ⟨t', ht⟩ := hw.known c (mem_unperformed hc)
  unfold jobFor
  rw [hw.op_kept ht, ht]

/-- Nothing is done for a handler that was not started. -/
theorem unstarted_idle {h : Nat} (ho : Owned s) (hh : s.handlers.length ≤ h) : eventsOf s h = [] ∧ jobsOf s h = [] := by
  refine ⟨?_, List.filterMap_eq_nil_iff.mpr ?_⟩
  · refine List.map_eq_nil_iff.mpr (List.filter_eq_nil_iff.mpr fun ev hev => ?_)
    have := ho.events ev hev
    simp
    omega
  · intro c _
    unfold jobFor
    cases hc : s.worker.op c with
    | none => rfl
    | some t =>
      have := ho.tasks c t hc
      exact if_neg (by omega)

/-- A handler that is in no call, and was told of no failure, has no job in line. -/
theorem no_jobs (hw : Wf s) (hp : Pending s) {h : Nat} {hd : Handler} (hh : s.handlers[h]? = some hd)
    (hc : hd.call = none) (hf : ¬ Faulted hd.trail) : jobsOf s h = [] := by
  refine List.filterMap_eq_nil_iff.mpr fun c hmem => ?_
  have hline := mem_unperformed hmem
  obtain ⟨t, ht⟩ := hw.known c hline
  unfold jobFor
  rw [ht]
  refine if_neg ?_
  rintro rfl
  rcases hp c hline with ho | ⟨t', hd', ht', hh', hf'⟩
  · obtain ⟨h', hd', j, k, hin⟩ := hw.callers c ho
    cases hin.task.symm.trans ht
    cases hin.handler.symm.trans hh
    cases hin.call.symm.trans hc
  · cases ht'.symm.trans ht
    cases hh'.symm.trans hh
    exact hf hf'

theorem eventsOf_performed (s : St) (h : Nat) (call : Option Nat) (op : Op) (r : Ans op × Inner) (fresh : String)
    (i : Nat) : eventsOf (s.performed h call op r fresh) i = eventsOf s i ++ if h = i then [op] else [] := by
  by_cases he : h = i
  · simp [eventsOf, St.performed, List.filter_append, he]
  · simp [eventsOf, St.performed, List.filter_append, he]

theorem asked_idle {hd : Handler} (hc : hd.call = none) : hd.asked = hd.trail.map Sigma.fst := by
  unfold Handler.asked
  rw [hc]
  exact List.append_nil _

theorem asked_waiting {hd : Handler} {c : Nat} {op : Op} {k : Ans op → Do RpcError Reply} (hc : hd.call = some c)
    (hp : hd.prog = .call op k) : hd.asked = hd.trail.map Sigma.fst ++ [op] := by
  unfold Handler.asked
  rw [hc, hp]

theorem worked_move (hw : Wf s) (ho : Owned s) (hp : Pending s) (hi : Worked s) (hm : Move host srv v s e s') :
    Worked s' := by
  intro i x hx horderly
  cases hm with
  | start _ =>
    rcases getElem?_snoc_cases hx with hx | ⟨rfl, rfl⟩
    · exact hi i x hx horderly
    · obtain ⟨hev, hjobs⟩ := unstarted_idle ho (Nat.le_refl _)
      show (eventsOf s _ ++ jobsOf s _).Sublist _
      rw [hev, hjobs]
      exact List.nil_sublist _
  | @hold h hd o k w hh hc hprog _ =>
    show (eventsOf (s.performed h none (.hold o) (o.perform host.ipc w s.inner) w.fresh) i ++ jobsOf s i).Sublist _
    rw [eventsOf_performed]
    rcases getElem?_set_cases hx with ⟨rfl, rfl⟩ | ⟨hne, hx⟩
    · -- it has no job left that could come after this
      have hjobs := no_jobs hw hp hh hc (horderly hd.trail o _ [] rfl)
      have hle := hi _ hd hh horderly.init
      rw [hjobs, List.append_nil, asked_idle hc] at hle
      rw [hjobs, List.append_nil, if_pos rfl, asked_idle rfl, List.map_append]
      exact hle.append_right _
    · rw [if_neg (Ne.symm hne), List.append_nil]
      exact hi i x hx horderly
  | @submit h hd j k hh hc hprog _ =>
    show (eventsOf s i ++ (unperformed (s.worker.queue ++ [s.worker.next]) s.worker.thread).filterMap
      (jobFor (update s.worker.op s.worker.next (some ⟨h, j, k⟩)) i)).Sublist _
    rw [unperformed_snoc, List.filterMap_append, jobs_update hw]
    rcases getElem?_set_cases hx with ⟨rfl, rfl⟩ | ⟨hne, hx⟩
    · have hle := hi _ hd hh horderly
      rw [asked_idle hc] at hle
      have hjob : [s.worker.next].filterMap (jobFor (update s.worker.op s.worker.next (some ⟨i, j, k⟩)) i) =
          [.job j] := by simp [jobFor]
      have hasked : ({ hd with call := some s.worker.next } : Handler).asked = hd.trail.map Sigma.fst ++ [.job j] :=
        asked_waiting rfl hprog
      rw [hjob, hasked, ← List.append_assoc]
      exact hle.append_right _
    · have hjob : [s.worker.next].filterMap (jobFor (update s.worker.op s.worker.next (some ⟨h, j, k⟩)) i) = [] := by
        simp [jobFor, Ne.symm hne]
      rw [hjob, List.append_nil]
      exact hi i x hx horderly
  | @refuse h hd j k hh hc hprog _ =>
    show (eventsOf s i ++ (unperformed s.worker.queue s.worker.thread).filterMap
      (jobFor (update s.worker.op s.worker.next (some ⟨h, j, k⟩)) i)).Sublist _
    rw [jobs_update hw]
    rcases getElem?_set_cases hx with ⟨rfl, rfl⟩ | ⟨-, hx⟩
    · have hle := hi _ hd hh horderly.init
      rw [asked_idle hc] at hle
      rw [asked_idle rfl, List.map_append]
      exact hle.trans (List.sublist_append_left _ _)
    · exact hi i x hx horderly
  | @dequeue c q ht hq =>
    have hle := hi i x hx horderly
    simp only [jobsOf, ht, hq, unperformed] at hle ⊢
    exact hle
  | @skip c ht _ =>
    have hle := hi i x hx horderly
    simp only [jobsOf, ht, unperformed] at hle ⊢
    exact ((List.sublist_cons_self c _).filterMap _ |>.append_left _).trans hle
  | @run c ht _ =>
    have hle := hi i x hx horderly
    simp only [jobsOf, ht, unperformed] at hle ⊢
    exact hle
  | @finish c t w ht hop _ =>
    -- the job becomes an event
    have hle := hi i x hx horderly
    show (eventsOf (s.performed t.handler (some c) (.job t.job) (t.job.perform host.limits w s.inner) w.fresh) i ++
      s.worker.queue.filterMap (jobFor s.worker.op i)).Sublist _
    have hjobs : jobsOf s i =
        (if t.handler = i then [.job t.job] else []) ++ s.worker.queue.filterMap (jobFor s.worker.op i) := by
      simp only [jobsOf, ht, unperformed, List.filterMap_cons]
      by_cases he : t.handler = i
      · simp [jobFor, hop, he]
      · simp [jobFor, hop, he]
    rw [hjobs, ← List.append_assoc] at hle
    rw [eventsOf_performed]
    exact hle
  | @reply c d ht =>
    have hle := hi i x hx horderly
    simp only [jobsOf, ht, unperformed] at hle ⊢
    exact hle
  | @recv h hd c j k a hin _ _ =>
    rcases getElem?_set_cases hx with ⟨rfl, rfl⟩ | ⟨-, hx⟩
    · have hle := hi _ hd hin.handler horderly.init
      rw [asked_waiting hin.call hin.prog] at hle
      rw [asked_idle rfl, List.map_append]
      exact hle
    · exact hi i x hx horderly
  | expire _ _ _ => exact hi i x hx horderly
  | @store h hd c j k hin _ =>
    rcases getElem?_set_cases hx with ⟨rfl, rfl⟩ | ⟨-, hx⟩
    · have hle := hi _ hd hin.handler horderly.init
      rw [asked_waiting hin.call hin.prog] at hle
      rw [asked_idle rfl, List.map_append]
      exact hle
    · exact hi i x hx horderly

theorem reach_worked (hr : (machine host srv v).ReachIn G s) : Worked s :=
  invariant_of_moves (P := Worked) (Q := fun s => Owned s ∧ Pending s) (fun hr => ⟨reach_owned hr, reach_pending hr⟩)
    (fun _ _ _ hh => (nomatch hh)) (fun hw hq _ hi hm => worked_move hw hq.1 hq.2 hi hm) hr

end

end Grainlift.Server.Concurrent
