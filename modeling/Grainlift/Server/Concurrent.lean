/-
  Grainlift.Server.Concurrent — handlers that interleave on one session, with its worker
  at full grain.

  Any number of handlers run on the session. A handler performs a `Hold` itself; a `Job`
  it submits to the session's worker (`Worker`, here with these tasks) and then waits: it
  takes the reply, or its wait expires and it stores the flag and goes on with Timeout,
  while its job may be queued, in hand or running, and may still run. The thread performs
  a job in one step, `finish`. A full queue refuses the job at once.

  Drivers do not panic and the session is not dropped in these runs. UUIDs are fresh: an
  operation whose id was issued before is no step. `log` is the history: every operation
  performed on the session, for whom, with what it answered and the driver calls it made.

  `Move` says what one step can do; `Wf` is what holds in every reachable state: the
  worker's own invariant, and where each handler's call is.
-/

import Grainlift.Lib.Machine
import Grainlift.Server.Effects
import Grainlift.Server.Handlers
import Grainlift.Server.Worker

namespace Grainlift.Server.Concurrent

open Grainlift.Lib Grainlift.Protocol Function

/-- A job in the worker's channel, with its handler and what that does with the answer. -/
structure Task where
  handler : Nat
  job : Job
  next : Ans (.job job) → Do RpcError Reply

/-- A job's answer, and its handler's program from there. -/
structure Done where
  note : (op : Op) × Ans op
  prog : Do RpcError Reply

structure Handler where
  /-- The operations that were answered to it. -/
  trail : List ((op : Op) × Ans op)
  prog : Do RpcError Reply
  /-- The worker call it waits in. -/
  call : Option Nat

/-- An operation performed on the session, by a handler or in its worker call. -/
structure Event where
  handler : Nat
  call : Option Nat
  op : Op
  answer : Ans op
  calls : List BackendCall

structure St where
  inner : Inner
  handlers : List Handler
  worker : Worker.St Task Done
  issued : List String
  /-- What each handler serves. -/
  started : List (CallContext × Invocation)
  log : List Event

inductive Ev where
  | start (ctx : CallContext) (invocation : Invocation)
  | hold (h : Nat) (w : World)
  | submit (h : Nat)
  | dequeue
  | load
  | finish (w : World)
  | reply
  | recv (h : Nat)
  | expire (h : Nat)
  | store (h : Nat)

/-- The operation is answered by an error of the call itself. -/
def Handler.fails (hd : Handler) (e : AdbcError) : Handler :=
  match hd.prog with
  | .done _ => hd
  | .call op k => ⟨hd.trail ++ [⟨op, .error e⟩], k (.error e), none⟩

/-- Performed: the session and the log after it. -/
def St.performed (s : St) (h : Nat) (call : Option Nat) (op : Op) (r : Ans op × Inner) (fresh : String) : St :=
  { s with
    inner := r.2
    issued := fresh :: s.issued
    log := s.log ++ [⟨h, call, op, r.1, r.2.calls.drop s.inner.calls.length⟩] }

section Machine

variable (host : Host) (srv : Service) (v : SessionView)

def next (s : St) : Ev → Option St
  | .start ctx invocation => do
    let p ← programOn srv v ctx invocation
    return { s with handlers := s.handlers ++ [⟨[], p, none⟩], started := s.started ++ [(ctx, invocation)] }
  | .hold h w => do
    let hd ← s.handlers[h]?
    match hd.prog with
    | .call (.hold o) k =>
      if w.fresh ∈ s.issued then none
      else
        let r := o.perform host.ipc w s.inner
        return { s.performed h none (.hold o) r w.fresh with
          handlers := s.handlers.set h ⟨hd.trail ++ [⟨.hold o, r.1⟩], k r.1, none⟩ }
    | _ => none
  | .submit h => do
    let hd ← s.handlers[h]?
    match hd.call, hd.prog with
    | none, .call (.job j) k =>
      let c := s.worker.next
      let worker := Worker.step (Worker.step s.worker (.call ⟨h, j, k⟩)) (.trySend c)
      match worker.caller c with
      | .waiting => return { s with worker := worker, handlers := s.handlers.set h { hd with call := some c } }
      | _ => return { s with worker := worker, handlers := s.handlers.set h (hd.fails queueFull) }
    | _, _ => none
  | .dequeue => return { s with worker := Worker.step s.worker .dequeue }
  | .load => return { s with worker := Worker.step s.worker .load }
  | .finish w =>
    match s.worker.thread with
    | .running c => do
      let t ← s.worker.op c
      if w.fresh ∈ s.issued then none
      else
        let r := t.job.perform host.limits w s.inner
        return { s.performed t.handler (some c) (.job t.job) r w.fresh with
          worker := Worker.step s.worker (.finish ⟨⟨.job t.job, r.1⟩, t.next r.1⟩) }
    | _ => none
  | .reply => return { s with worker := Worker.step s.worker .reply }
  | .recv h => do
    let hd ← s.handlers[h]?
    let c ← hd.call
    match s.worker.caller c, s.worker.mail c with
    | .waiting, .reply d => return { s with
        worker := Worker.step s.worker (.recv c)
        handlers := s.handlers.set h ⟨hd.trail ++ [d.note], d.prog, none⟩ }
    | .waiting, .closed => return { s with
        worker := Worker.step s.worker (.recv c)
        handlers := s.handlers.set h (hd.fails workerStopped) }
    | _, _ => none
  | .expire h => do
    let hd ← s.handlers[h]?
    let c ← hd.call
    return { s with worker := Worker.step s.worker (.expire c) }
  | .store h => do
    let hd ← s.handlers[h]?
    let c ← hd.call
    match s.worker.caller c with
    | .expired => return { s with
        worker := Worker.step s.worker (.store c)
        handlers := s.handlers.set h (hd.fails (timedOut host)) }
    | _ => none

def step (s : St) (e : Ev) : St := (next host srv v s e).getD s

def opened (policy : ClientOptionPolicy) : St := ⟨Inner.opened policy, [], Worker.init, [], [], []⟩

def machine : Machine St Ev where
  init s := ∃ policy, s = opened policy
  step := step host srv v

/-- No handler is in progress and the worker has nothing to do. -/
def Quiescent (s : St) : Prop :=
  (∀ (h : Nat) (hd : Handler), s.handlers[h]? = some hd → ∃ r, hd.prog = .done r) ∧ s.worker.queue = [] ∧
    s.worker.thread = .idle

end Machine

/-! ## Where a call is -/

/-- In a call: its caller waits, or its wait expired and the flag is not stored yet. -/
def Open (w : Worker.St Task Done) (c : Nat) : Prop := w.caller c = .waiting ∨ w.caller c = .expired

/-- Its job was performed, and the reply is on its way or there. -/
def Answered (w : Worker.St Task Done) (c : Nat) (d : Done) : Prop := w.thread = .answering c d ∨ w.mail c = .reply d

/-- Its job was not started. -/
def Unstarted (w : Worker.St Task Done) (c : Nat) : Prop := c ∈ w.queue ∨ w.thread = .taken c

/-- The handler waits in the call `c` of the job `j`. -/
structure InCall (s : St) (h : Nat) (hd : Handler) (c : Nat) (j : Job) (k : Ans (.job j) → Do RpcError Reply) :
    Prop where
  handler : s.handlers[h]? = some hd
  call : hd.call = some c
  prog : hd.prog = .call (.job j) k
  task : s.worker.op c = some ⟨h, j, k⟩
  isOpen : Open s.worker c

structure Wf (s : St) : Prop where
  worker : Worker.Inv s.worker
  fresh : ∀ c, s.worker.next ≤ c → s.worker.op c = none
  alive : s.worker.thread ≠ .dead ∧ s.worker.dropped = false
  calls : ∀ (h : Nat) (hd : Handler) c, s.handlers[h]? = some hd → hd.call = some c → ∃ j k, InCall s h hd c j k
  callers : ∀ c, Open s.worker c → ∃ h hd j k, InCall s h hd c j k
  answers : ∀ c d, Answered s.worker c d → ∃ t a, s.worker.op c = some t ∧ d = ⟨⟨.job t.job, a⟩, t.next a⟩
  clean : ∀ c, (s.worker.thread = .running c ∨ ∃ d, s.worker.thread = .answering c d) → s.worker.mail c = .empty
  place : ∀ c, Open s.worker c → Unstarted s.worker c ∨ s.worker.thread = .running c ∨ ∃ d, Answered s.worker c d
  known : ∀ c, (Unstarted s.worker c ∨ s.worker.thread = .running c) → ∃ t, s.worker.op c = some t
  stored : ∀ c, (s.worker.abandoned c = true ∨ s.worker.mail c = .closed) → s.worker.caller c = .returned .timeout

/-! ## What a step can do -/

section Move

variable (host : Host) (srv : Service) (v : SessionView)

inductive Move (s : St) : Ev → St → Prop
  | start {ctx : CallContext} {invocation : Invocation} {p : Do RpcError Reply} :
      programOn srv v ctx invocation = some p →
      Move s (.start ctx invocation)
        { s with handlers := s.handlers ++ [⟨[], p, none⟩], started := s.started ++ [(ctx, invocation)] }
  | hold {h : Nat} {hd : Handler} {o : Hold} {k : Ans (.hold o) → Do RpcError Reply} {w : World} :
      s.handlers[h]? = some hd → hd.call = none → hd.prog = .call (.hold o) k → w.fresh ∉ s.issued →
      Move s (.hold h w)
        { s.performed h none (.hold o) (o.perform host.ipc w s.inner) w.fresh with
          handlers := s.handlers.set h
            ⟨hd.trail ++ [⟨.hold o, (o.perform host.ipc w s.inner).1⟩], k (o.perform host.ipc w s.inner).1, none⟩ }
  | submit {h : Nat} {hd : Handler} {j : Job} {k : Ans (.job j) → Do RpcError Reply} :
      s.handlers[h]? = some hd → hd.call = none → hd.prog = .call (.job j) k →
      s.worker.queue.length < Worker.queueBound →
      Move s (.submit h)
        { s with
          worker := { s.worker with
            next := s.worker.next + 1
            op := update s.worker.op s.worker.next (some ⟨h, j, k⟩)
            caller := update s.worker.caller s.worker.next .waiting
            queue := s.worker.queue ++ [s.worker.next]
            sent := s.worker.sent ++ [s.worker.next] }
          handlers := s.handlers.set h { hd with call := some s.worker.next } }
  | refuse {h : Nat} {hd : Handler} {j : Job} {k : Ans (.job j) → Do RpcError Reply} :
      s.handlers[h]? = some hd → hd.call = none → hd.prog = .call (.job j) k →
      ¬ s.worker.queue.length < Worker.queueBound →
      Move s (.submit h)
        { s with
          worker := { s.worker with
            next := s.worker.next + 1
            op := update s.worker.op s.worker.next (some ⟨h, j, k⟩)
            caller := update s.worker.caller s.worker.next (.returned .full) }
          handlers := s.handlers.set h ⟨hd.trail ++ [⟨.job j, .error queueFull⟩], k (.error queueFull), none⟩ }
  | dequeue {c : Nat} {q : List Nat} : s.worker.thread = .idle → s.worker.queue = c :: q →
      Move s .dequeue { s with worker := { s.worker with thread := .taken c, queue := q } }
  | skip {c : Nat} : s.worker.thread = .taken c → s.worker.abandoned c = true →
      Move s .load { s with worker := { s.worker with thread := .idle, mail := update s.worker.mail c .closed } }
  | run {c : Nat} : s.worker.thread = .taken c → s.worker.abandoned c = false →
      Move s .load { s with worker := { s.worker with thread := .running c, notes := s.worker.notes ++ [.began c] } }
  | finish {c : Nat} {t : Task} {w : World} :
      s.worker.thread = .running c → s.worker.op c = some t → w.fresh ∉ s.issued → Move s (.finish w)
        { s.performed t.handler (some c) (.job t.job) (t.job.perform host.limits w s.inner) w.fresh with
          worker := { s.worker with
            thread := .answering c
              ⟨⟨.job t.job, (t.job.perform host.limits w s.inner).1⟩, t.next (t.job.perform host.limits w s.inner).1⟩
            notes := s.worker.notes ++ [.ended c
              ⟨⟨.job t.job, (t.job.perform host.limits w s.inner).1⟩, t.next (t.job.perform host.limits w s.inner).1⟩] } }
  | reply {c : Nat} {d : Done} : s.worker.thread = .answering c d →
      Move s .reply { s with worker := { s.worker with thread := .idle, mail := update s.worker.mail c (.reply d) } }
  | recv {h : Nat} {hd : Handler} {c : Nat} {j : Job} {k : Ans (.job j) → Do RpcError Reply} {a : Ans (.job j)} :
      InCall s h hd c j k → s.worker.caller c = .waiting → s.worker.mail c = .reply ⟨⟨.job j, a⟩, k a⟩ →
      Move s (.recv h)
        { s with
          worker := { s.worker with
            caller := update s.worker.caller c (.returned (.result ⟨⟨.job j, a⟩, k a⟩)) }
          handlers := s.handlers.set h ⟨hd.trail ++ [⟨.job j, a⟩], k a, none⟩ }
  | expire {h : Nat} {hd : Handler} {c : Nat} {j : Job} {k : Ans (.job j) → Do RpcError Reply} :
      InCall s h hd c j k → s.worker.caller c = .waiting → s.worker.mail c = .empty →
      Move s (.expire h) { s with worker := { s.worker with caller := update s.worker.caller c .expired } }
  | store {h : Nat} {hd : Handler} {c : Nat} {j : Job} {k : Ans (.job j) → Do RpcError Reply} :
      InCall s h hd c j k → s.worker.caller c = .expired →
      Move s (.store h)
        { s with
          worker := { s.worker with
            abandoned := update s.worker.abandoned c true
            caller := update s.worker.caller c (.returned .timeout) }
          handlers := s.handlers.set h
            ⟨hd.trail ++ [⟨.job j, .error (timedOut host)⟩], k (.error (timedOut host)), none⟩ }

variable {host srv v} {s : St}

theorem hold_move (hw : Wf s) (h : Nat) (w : World) :
    step host srv v s (.hold h w) = s ∨ Move host srv v s (.hold h w) (step host srv v s (.hold h w)) := by
  simp only [step, next]
  cases hh : s.handlers[h]? with
  | none => exact .inl rfl
  | some hd =>
    simp only [Option.bind_eq_bind, Option.bind_some]
    split
    · rename_i o k hp
      split
      · exact .inl rfl
      · rename_i hf
        have hc : hd.call = none := by
          cases hc : hd.call with
          | none => rfl
          | some c =>
            obtain ⟨j, k', hin⟩ := hw.calls h hd c hh hc
            rw [hin.prog] at hp
            cases hp
        exact .inr (.hold hh hc hp hf)
    · exact .inl rfl

theorem submit_move (hw : Wf s) (h : Nat) :
    step host srv v s (.submit h) = s ∨ Move host srv v s (.submit h) (step host srv v s (.submit h)) := by
  simp only [step, next]
  cases hh : s.handlers[h]? with
  | none => exact .inl rfl
  | some hd =>
    simp only [Option.bind_eq_bind, Option.bind_some]
    split
    · rename_i j k hc hp
      have hcall : Worker.step s.worker (.call ⟨h, j, k⟩) = { s.worker with
          next := s.worker.next + 1
          op := update s.worker.op s.worker.next (some ⟨h, j, k⟩)
          caller := update s.worker.caller s.worker.next .submitting } := by simp [Worker.step, hw.alive.2]
      rw [hcall]
      by_cases hq : s.worker.queue.length < Worker.queueBound
      · have hsend : Move host srv v s (.submit h) _ := .submit hh hc hp hq
        right
        cases ht : s.worker.thread with
        | dead => exact absurd ht hw.alive.1
        | _ => simpa [Worker.step, hq, ht] using hsend
      · have hsend : Move host srv v s (.submit h) _ := .refuse hh hc hp hq
        right
        cases ht : s.worker.thread with
        | dead => exact absurd ht hw.alive.1
        | _ => simpa [Worker.step, hq, ht, Handler.fails, hp] using hsend
    · exact .inl rfl

theorem thread_move (e : Ev) (he : e = .dequeue ∨ e = .load ∨ e = .reply) :
    step host srv v s e = s ∨ Move host srv v s e (step host srv v s e) := by
  rcases he with rfl | rfl | rfl
  · cases ht : s.worker.thread with
    | idle =>
      cases hq : s.worker.queue with
      | nil => exact .inl (by simp [step, next, Worker.step, ht, hq])
      | cons c q => exact .inr (by simpa [step, next, Worker.step, ht, hq] using Move.dequeue ht hq)
    | _ => exact .inl (by simp [step, next, Worker.step, ht])
  · cases ht : s.worker.thread with
    | taken c =>
      cases ha : s.worker.abandoned c with
      | true => exact .inr (by simpa [step, next, Worker.step, ht, ha] using Move.skip ht ha)
      | false => exact .inr (by simpa [step, next, Worker.step, ht, ha] using Move.run ht ha)
    | _ => exact .inl (by simp [step, next, Worker.step, ht])
  · cases ht : s.worker.thread with
    | answering c d => exact .inr (by simpa [step, next, Worker.step, ht] using Move.reply ht)
    | _ => exact .inl (by simp [step, next, Worker.step, ht])

theorem finish_move (w : World) :
    step host srv v s (.finish w) = s ∨ Move host srv v s (.finish w) (step host srv v s (.finish w)) := by
  cases ht : s.worker.thread with
  | running c =>
    cases ho : s.worker.op c with
    | none => exact .inl (by simp [step, next, ht, ho])
    | some t =>
      by_cases hf : w.fresh ∈ s.issued
      · exact .inl (by simp [step, next, ht, ho, hf])
      · exact .inr (by simpa [step, next, ht, ho, hf, Worker.step] using Move.finish ht ho hf)
  | _ => exact .inl (by simp [step, next, ht])

theorem call_move (hw : Wf s) {h : Nat} (e : Ev) (he : e = .recv h ∨ e = .expire h ∨ e = .store h) :
    step host srv v s e = s ∨ Move host srv v s e (step host srv v s e) := by
  cases hh : s.handlers[h]? with
  | none => rcases he with rfl | rfl | rfl <;> exact .inl (by simp [step, next, hh])
  | some hd =>
  cases hc : hd.call with
  | none => rcases he with rfl | rfl | rfl <;> exact .inl (by simp [step, next, hh, hc])
  | some c =>
  obtain ⟨j, k, hin⟩ := hw.calls h hd c hh hc
  rcases he with rfl | rfl | rfl
  · rcases hin.isOpen with hk | hk
    · cases hm : s.worker.mail c with
      | empty => exact .inl (by simp [step, next, hh, hc, hk, hm])
      | closed =>
        have := hw.stored c (.inr hm)
        rw [hk] at this
        cases this
      | reply d =>
        obtain ⟨t, a, ho, rfl⟩ := hw.answers c d (.inr hm)
        rw [hin.task] at ho
        cases ho
        exact .inr (by simpa [step, next, hh, hc, hk, hm, Worker.step] using Move.recv hin hk hm)
    · exact .inl (by simp [step, next, hh, hc, hk])
  · rcases hin.isOpen with hk | hk
    · cases hm : s.worker.mail c with
      | empty => exact .inr (by simpa [step, next, hh, hc, hk, hm, Worker.step] using Move.expire hin hk hm)
      | _ => exact .inl (by simp [step, next, hh, hc, hk, hm, Worker.step])
    · exact .inl (by simp [step, next, hh, hc, hk, Worker.step])
  · rcases hin.isOpen with hk | hk
    · exact .inl (by simp [step, next, hh, hc, hk])
    · exact .inr (by simpa [step, next, hh, hc, hk, Worker.step, Handler.fails, hin.prog] using Move.store hin hk)

/-- A step is a move, or nothing. -/
theorem step_move (hw : Wf s) (e : Ev) : step host srv v s e = s ∨ Move host srv v s e (step host srv v s e) := by
  cases e with
  | start ctx invocation =>
    cases hp : programOn srv v ctx invocation with
    | none => exact .inl (by simp [step, next, hp])
    | some p => exact .inr (by simpa [step, next, hp] using Move.start hp)
  | hold h w => exact hold_move hw h w
  | submit h => exact submit_move hw h
  | dequeue => exact thread_move _ (.inl rfl)
  | load => exact thread_move _ (.inr (.inl rfl))
  | finish w => exact finish_move w
  | reply => exact thread_move _ (.inr (.inr rfl))
  | recv h => exact call_move hw _ (.inl rfl)
  | expire h => exact call_move hw _ (.inr (.inl rfl))
  | store h => exact call_move hw _ (.inr (.inr rfl))

end Move

/-! ## Every reachable state is well formed -/

section WellFormed

variable {host : Host} {srv : Service} {v : SessionView} {s s' : St}

/-- The session's worker is a worker: what a move does to it, it can do by itself. -/
theorem move_worker (hw : Wf s) {e : Ev} (hm : Move host srv v s e s') :
    (Worker.machine Task Done).Path (fun _ _ => True) s.worker s'.worker := by
  have one : ∀ {w w' : Worker.St Task Done} (e : Worker.Ev Task Done), Worker.step w e = w' →
      (Worker.machine Task Done).Path (fun _ _ => True) w w' := by
    intro w w' e heq
    subst heq
    exact .step e (.refl w) trivial
  cases hm with
  | start _ => exact .refl _
  | hold _ _ _ _ => exact .refl _
  | @submit h hd j k _ _ _ hq =>
    refine (one (.call ⟨h, j, k⟩) rfl).trans (one (.trySend s.worker.next) ?_)
    cases ht : s.worker.thread with
    | dead => exact absurd ht hw.alive.1
    | _ => simp [Worker.step, hw.alive.2, hq, ht]
  | @refuse h hd j k _ _ _ hq =>
    refine (one (.call ⟨h, j, k⟩) rfl).trans (one (.trySend s.worker.next) ?_)
    cases ht : s.worker.thread with
    | dead => exact absurd ht hw.alive.1
    | _ => simp [Worker.step, hw.alive.2, hq, ht]
  | dequeue ht hq => exact one .dequeue (by simp [Worker.step, ht, hq])
  | skip ht ha => exact one .load (by simp [Worker.step, ht, ha])
  | run ht ha => exact one .load (by simp [Worker.step, ht, ha])
  | @finish c t w ht _ _ =>
    let r := t.job.perform host.limits w s.inner
    exact one (.finish ⟨⟨.job t.job, r.1⟩, t.next r.1⟩) (by simp [Worker.step, ht, r])
  | reply ht => exact one .reply (by simp [Worker.step, ht])
  | @recv _ _ c _ _ _ _ hk hm => exact one (.recv c) (by simp [Worker.step, hk, hm])
  | @expire _ _ c _ _ _ hk hm => exact one (.expire c) (by simp [Worker.step, hk, hm])
  | @store _ _ c _ _ _ hk => exact one (.store c) (by simp [Worker.step, hk])

theorem move_worker_inv (hw : Wf s) {e : Ev} (hm : Move host srv v s e s') : Worker.Inv s'.worker :=
  (move_worker hw hm).invariant (P := Worker.Inv) (fun _ e _ h => Worker.step_inv h e) hw.worker

theorem InCall.unique {h h' : Nat} {hd hd' : Handler} {c : Nat} {j j' : Job} {k : Ans (.job j) → Do RpcError Reply}
    {k' : Ans (.job j') → Do RpcError Reply} (hin : InCall s h hd c j k) (hin' : InCall s h' hd' c j' k') :
    h = h' := by
  have := hin.task.symm.trans hin'.task
  cases this
  rfl

/-- A handler outside any call is not the one in this call. -/
theorem InCall.other {h i : Nat} {hd x y : Handler} {c : Nat} {j : Job} {k : Ans (.job j) → Do RpcError Reply}
    (hin : InCall s i x c j k)
    (hh : s.handlers[h]? = some hd) (hc : hd.call = none) : (s.handlers.set h y)[i]? = some x := by
  have hne : h ≠ i := by
    intro heq
    subst heq
    cases hh.symm.trans hin.handler
    cases hc.symm.trans hin.call
  rw [List.getElem?_set_ne hne]
  exact hin.handler

/-- The call goes on while its handler, its task and its caller's state are as they were. -/
theorem InCall.keep {h : Nat} {hd : Handler} {c : Nat} {j : Job} {k : Ans (.job j) → Do RpcError Reply}
    (hin : InCall s h hd c j k)
    (hh : s'.handlers[h]? = some hd) (ht : s'.worker.op c = s.worker.op c) (ho : Open s'.worker c) :
    InCall s' h hd c j k :=
  ⟨hh, hin.call, hin.prog, ht.trans hin.task, ho⟩

theorem Wf.in_line (hw : Wf s) {c : Nat} (h : Unstarted s.worker c) : s.worker.mail c = .empty := by
  refine (hw.worker.pending c ?_).1
  rcases h with h | h
  · exact List.mem_append_right _ h
  · exact List.mem_append_left _ (by simp [Worker.inHand, h])

/-- There is one reply to a call. -/
theorem Wf.one_reply (hw : Wf s) {c : Nat} {d d' : Done} (ha : Answered s.worker c d)
    (hm : s.worker.mail c = .reply d') : d = d' := by
  rcases ha with ha | ha
  · rw [hw.clean c (.inr ⟨d, ha⟩)] at hm
    cases hm
  · cases ha.symm.trans hm
    rfl

theorem start_wf (hw : Wf s) (p : Do RpcError Reply) {started : List (CallContext × Invocation)} :
    Wf { s with handlers := s.handlers ++ [⟨[], p, none⟩], started := started } := by
  refine { hw with calls := ?_, callers := ?_ }
  · intro h hd c hh hc
    rcases getElem?_snoc_cases hh with hh' | ⟨-, rfl⟩
    · obtain ⟨j, k, hin⟩ := hw.calls h hd c hh' hc
      exact ⟨j, k, hin.keep hh rfl hin.isOpen⟩
    · cases hc
  · intro c ho
    obtain ⟨h, hd, j, k, hin⟩ := hw.callers c ho
    exact ⟨h, hd, j, k, hin.keep (getElem?_snoc_of_some hin.handler) rfl ho⟩

/-- A handler outside any call does something that leaves the worker alone. -/
theorem hold_wf (hw : Wf s) {h : Nat} {hd : Handler} (hh : s.handlers[h]? = some hd) (hc : hd.call = none)
    {trail : List ((op : Op) × Ans op)} {prog : Do RpcError Reply} {inner : Inner} {issued : List String}
    {log : List Event} :
    Wf ⟨inner, s.handlers.set h ⟨trail, prog, none⟩, s.worker, issued, s.started, log⟩ := by
  refine { hw with calls := ?_, callers := ?_ }
  · intro i x c hx hcx
    rcases getElem?_set_cases hx with ⟨-, rfl⟩ | ⟨-, hx'⟩
    · cases hcx
    · obtain ⟨j, k, hin⟩ := hw.calls i x c hx' hcx
      exact ⟨j, k, hin.keep hx rfl hin.isOpen⟩
  · intro c ho
    obtain ⟨i, x, j, k, hin⟩ := hw.callers c ho
    exact ⟨i, x, j, k, hin.keep (hin.other hh hc) rfl ho⟩

/-- The thread moved, perhaps with the channel and a reply; the handlers did not. -/
theorem thread_wf (hw : Wf s) {worker : Worker.St Task Done} {inner : Inner} {issued : List String} {log : List Event}
    (hinv : Worker.Inv worker) (hop : worker.op = s.worker.op) (hcaller : worker.caller = s.worker.caller)
    (hnext : worker.next = s.worker.next) (halive : worker.thread ≠ .dead ∧ worker.dropped = false)
    (hanswers : ∀ c d, Answered worker c d → ∃ t a, s.worker.op c = some t ∧ d = ⟨⟨.job t.job, a⟩, t.next a⟩)
    (hclean : ∀ c, (worker.thread = .running c ∨ ∃ d, worker.thread = .answering c d) → worker.mail c = .empty)
    (hplace : ∀ c, Open s.worker c → Unstarted worker c ∨ worker.thread = .running c ∨ ∃ d, Answered worker c d)
    (hknown : ∀ c, (Unstarted worker c ∨ worker.thread = .running c) → ∃ t, s.worker.op c = some t)
    (hstored : ∀ c, (worker.abandoned c = true ∨ worker.mail c = .closed) → s.worker.caller c = .returned .timeout) :
    Wf ⟨inner, s.handlers, worker, issued, s.started, log⟩ := by
  have hopen : ∀ c, Open worker c ↔ Open s.worker c := fun c => by simp [Open, hcaller]
  refine ⟨hinv, ?_, halive, ?_, ?_, ?_, hclean, fun c ho => hplace c ((hopen c).mp ho), ?_, ?_⟩
  · intro c hc
    rw [hop]
    exact hw.fresh c (hnext ▸ hc)
  · intro h hd c hh hc
    obtain ⟨j, k, hin⟩ := hw.calls h hd c hh hc
    exact ⟨j, k, hin.keep hh (congrFun hop c) ((hopen c).mpr hin.isOpen)⟩
  · intro c ho
    obtain ⟨h, hd, j, k, hin⟩ := hw.callers c ((hopen c).mp ho)
    exact ⟨h, hd, j, k, hin.keep hin.handler (congrFun hop c) ho⟩
  · intro c d ha
    rw [hop]
    exact hanswers c d ha
  · intro c hk
    rw [hop]
    exact hknown c hk
  · intro c hs
    rw [hcaller]
    exact hstored c hs

theorem dequeue_wf (hw : Wf s) {c : Nat} {q : List Nat} (ht : s.worker.thread = .idle) (hq : s.worker.queue = c :: q)
    (hinv : Worker.Inv { s.worker with thread := .taken c, queue := q }) :
    Wf { s with worker := { s.worker with thread := .taken c, queue := q } } := by
  have hun : ∀ d, Unstarted { s.worker with thread := .taken c, queue := q } d ↔ Unstarted s.worker d := by
    intro d
    simp only [Unstarted, ht, hq, List.mem_cons, Worker.Thread.taken.injEq, reduceCtorEq, or_false]
    exact ⟨fun h => h.elim .inr fun h => .inl h.symm, fun h => h.elim (fun h => .inr h.symm) .inl⟩
  refine thread_wf hw hinv rfl rfl rfl ⟨by simp, hw.alive.2⟩ ?_ (by simp) ?_ ?_ hw.stored
  · intro d x ha
    exact hw.answers d x (.inr (ha.resolve_left (by simp)))
  · intro d ho
    rcases hw.place d ho with hp | hp | ⟨x, hp⟩
    · exact .inl ((hun d).mpr hp)
    · rw [ht] at hp
      cases hp
    · exact .inr (.inr ⟨x, .inr (hp.resolve_left (by simp [ht]))⟩)
  · intro d hk
    exact hw.known d (.inl ((hun d).mp (hk.resolve_right (by simp))))

theorem skip_wf (hw : Wf s) {c : Nat} (ht : s.worker.thread = .taken c) (ha : s.worker.abandoned c = true)
    (hinv : Worker.Inv { s.worker with thread := .idle, mail := update s.worker.mail c .closed }) :
    Wf { s with worker := { s.worker with thread := .idle, mail := update s.worker.mail c .closed } } := by
  have hgone := hw.stored c (.inl ha)
  have hmail : ∀ {d x}, update s.worker.mail c .closed d = .reply x → s.worker.mail d = .reply x := by
    intro d x hm
    by_cases e : d = c
    · subst e
      simp at hm
    · rwa [update_of_ne e] at hm
  refine thread_wf hw hinv rfl rfl rfl ⟨by simp, hw.alive.2⟩ ?_ (by simp) ?_ ?_ ?_
  · intro d x hd
    exact hw.answers d x (.inr (hmail (hd.resolve_left (by simp))))
  · intro d ho
    have hne : d ≠ c := by
      intro heq
      subst heq
      simp [Open, hgone] at ho
    rcases hw.place d ho with (hp | hp) | hp | ⟨x, hp⟩
    · exact .inl (.inl hp)
    · rw [ht] at hp
      cases hp
      exact absurd rfl hne
    · rw [ht] at hp
      cases hp
    · exact .inr (.inr ⟨x, .inr (by simpa [update_of_ne hne] using hp.resolve_left (by simp [ht]))⟩)
  · intro d hk
    rcases hk with (hk | hk) | hk
    · exact hw.known d (.inl (.inl hk))
    · cases hk
    · cases hk
  · intro d hd
    by_cases e : d = c
    · subst e
      exact hgone
    · exact hw.stored d (by simpa [update_of_ne e] using hd)

theorem run_wf (hw : Wf s) {c : Nat} (ht : s.worker.thread = .taken c)
    (hinv : Worker.Inv { s.worker with thread := .running c, notes := s.worker.notes ++ [.began c] }) :
    Wf { s with worker := { s.worker with thread := .running c, notes := s.worker.notes ++ [.began c] } } := by
  refine thread_wf hw hinv rfl rfl rfl ⟨by simp, hw.alive.2⟩ ?_ ?_ ?_ ?_ hw.stored
  · intro d x hd
    exact hw.answers d x (.inr (hd.resolve_left (by simp)))
  · intro d hd
    obtain rfl : c = d := by simpa using hd
    exact hw.in_line (.inr ht)
  · intro d ho
    rcases hw.place d ho with (hp | hp) | hp | ⟨x, hp⟩
    · exact .inl (.inl hp)
    · rw [ht] at hp
      cases hp
      exact .inr (.inl rfl)
    · rw [ht] at hp
      cases hp
    · exact .inr (.inr ⟨x, .inr (hp.resolve_left (by simp [ht]))⟩)
  · intro d hk
    rcases hk with (hk | hk) | hk
    · exact hw.known d (.inl (.inl hk))
    · cases hk
    · cases hk
      exact hw.known c (.inl (.inr ht))

theorem finish_wf (hw : Wf s) {c : Nat} {t : Task} (ht : s.worker.thread = .running c) (ho : s.worker.op c = some t)
    {a : Ans (.job t.job)} {notes : List (Worker.Note Done)} {inner : Inner} {issued : List String} {log : List Event}
    (hinv : Worker.Inv { s.worker with thread := .answering c ⟨⟨.job t.job, a⟩, t.next a⟩, notes := notes }) :
    Wf ⟨inner, s.handlers, { s.worker with thread := .answering c ⟨⟨.job t.job, a⟩, t.next a⟩, notes := notes },
      issued, s.started, log⟩ := by
  refine thread_wf hw hinv rfl rfl rfl ⟨by simp, hw.alive.2⟩ ?_ ?_ ?_ ?_ hw.stored
  · intro d x hd
    rcases hd with hd | hd
    · cases hd
      exact ⟨t, a, ho, rfl⟩
    · exact hw.answers d x (.inr hd)
  · intro d hd
    obtain rfl : c = d := by simpa using hd
    exact hw.clean c (.inl ht)
  · intro d hop
    rcases hw.place d hop with (hp | hp) | hp | ⟨x, hp⟩
    · exact .inl (.inl hp)
    · rw [ht] at hp
      cases hp
    · rw [ht] at hp
      cases hp
      exact .inr (.inr ⟨_, .inl rfl⟩)
    · exact .inr (.inr ⟨x, .inr (hp.resolve_left (by simp [ht]))⟩)
  · intro d hk
    rcases hk with (hk | hk) | hk
    · exact hw.known d (.inl (.inl hk))
    · cases hk
    · cases hk

theorem reply_wf (hw : Wf s) {c : Nat} {d : Done} (ht : s.worker.thread = .answering c d)
    (hinv : Worker.Inv { s.worker with thread := .idle, mail := update s.worker.mail c (.reply d) }) :
    Wf { s with worker := { s.worker with thread := .idle, mail := update s.worker.mail c (.reply d) } } := by
  refine thread_wf hw hinv rfl rfl rfl ⟨by simp, hw.alive.2⟩ ?_ (by simp) ?_ ?_ ?_
  · intro i x hi
    have hi : update s.worker.mail c (.reply d) i = .reply x := hi.resolve_left (by simp)
    by_cases e : i = c
    · subst e
      rw [update_self] at hi
      cases hi
      exact hw.answers i d (.inl ht)
    · exact hw.answers i x (.inr (by rwa [update_of_ne e] at hi))
  · intro i ho
    rcases hw.place i ho with (hp | hp) | hp | ⟨x, hp⟩
    · exact .inl (.inl hp)
    · rw [ht] at hp
      cases hp
    · rw [ht] at hp
      cases hp
    · by_cases e : i = c
      · subst e
        exact .inr (.inr ⟨d, .inr (by simp)⟩)
      · refine .inr (.inr ⟨x, .inr ?_⟩)
        rcases hp with hp | hp
        · rw [ht] at hp
          cases hp
          exact absurd rfl e
        · simpa [update_of_ne e] using hp
  · intro i hk
    rcases hk with (hk | hk) | hk
    · exact hw.known i (.inl (.inl hk))
    · cases hk
    · cases hk
  · intro i hi
    refine hw.stored i (hi.imp_right fun (hi : update s.worker.mail c (.reply d) i = .closed) => ?_)
    by_cases e : i = c
    · subst e
      simp at hi
    · rwa [update_of_ne e] at hi

/-- A call that is not open any more: its handler went on, the other calls are as they were. -/
theorem returned_wf (hw : Wf s) {h : Nat} {hd : Handler} {c : Nat} {j : Job} {k : Ans (.job j) → Do RpcError Reply}
    (hin : InCall s h hd c j k) {caller : Worker.Caller Done} {abandoned : Nat → Bool}
    {trail : List ((op : Op) × Ans op)} {prog : Do RpcError Reply} (hc : caller ≠ .waiting ∧ caller ≠ .expired)
    (hs : ∀ i, (abandoned i = true ∨ s.worker.mail i = .closed) → update s.worker.caller c caller i = .returned .timeout)
    (hinv : Worker.Inv { s.worker with caller := update s.worker.caller c caller, abandoned := abandoned }) :
    Wf { s with
      worker := { s.worker with caller := update s.worker.caller c caller, abandoned := abandoned }
      handlers := s.handlers.set h ⟨trail, prog, none⟩ } := by
  have hopen : ∀ {i}, Open { s.worker with caller := update s.worker.caller c caller, abandoned := abandoned } i →
      i ≠ c ∧ Open s.worker i := by
    intro i ho
    have hne : i ≠ c := by
      intro heq
      subst heq
      simp [Open, hc.1, hc.2] at ho
    exact ⟨hne, by simpa [Open, update_of_ne hne] using ho⟩
  refine ⟨hinv, hw.fresh, hw.alive, ?_, ?_, hw.answers, hw.clean,
    fun i ho => hw.place i (hopen ho).2, hw.known, hs⟩
  · intro i x d hx hd
    rcases getElem?_set_cases hx with ⟨-, rfl⟩ | ⟨hne, hx'⟩
    · cases hd
    · obtain ⟨j', k', hin'⟩ := hw.calls i x d hx' hd
      have hdc : d ≠ c := by
        intro heq
        subst heq
        exact hne (hin'.unique hin)
      exact ⟨j', k', hin'.keep hx rfl (by simpa [Open, update_of_ne hdc] using hin'.isOpen)⟩
  · intro i ho
    obtain ⟨hne, ho'⟩ := hopen ho
    obtain ⟨i', x, j', k', hin'⟩ := hw.callers i ho'
    have hih : h ≠ i' := by
      intro heq
      subst heq
      cases hin.handler.symm.trans hin'.handler
      cases hin.call.symm.trans hin'.call
      exact hne rfl
    exact ⟨i', x, j', k', hin'.keep ((List.getElem?_set_ne hih).trans hin'.handler) rfl ho⟩

theorem expire_wf (hw : Wf s) {c : Nat} (hk : s.worker.caller c = .waiting)
    (hinv : Worker.Inv { s.worker with caller := update s.worker.caller c .expired }) :
    Wf { s with worker := { s.worker with caller := update s.worker.caller c .expired } } := by
  have hopen : ∀ i, Open { s.worker with caller := update s.worker.caller c .expired } i ↔ Open s.worker i := by
    intro i
    by_cases e : i = c
    · subst e
      simp [Open, hk]
    · simp [Open, update_of_ne e]
  refine ⟨hinv, hw.fresh, hw.alive, ?_, ?_, hw.answers, hw.clean,
    fun i ho => hw.place i ((hopen i).mp ho), hw.known, ?_⟩
  · intro h hd d hh hd'
    obtain ⟨j, k, hin⟩ := hw.calls h hd d hh hd'
    exact ⟨j, k, hin.keep hh rfl ((hopen d).mpr hin.isOpen)⟩
  · intro i ho
    obtain ⟨h, hd, j, k, hin⟩ := hw.callers i ((hopen i).mp ho)
    exact ⟨h, hd, j, k, hin.keep hin.handler rfl ho⟩
  · intro i hs
    have hst := hw.stored i hs
    have hne : i ≠ c := by
      intro heq
      subst heq
      rw [hk] at hst
      cases hst
    simpa [update_of_ne hne] using hst

/-- A new call has a new number. -/
theorem Wf.op_kept (hw : Wf s) {c : Nat} {t new : Task} (ho : s.worker.op c = some t) :
    update s.worker.op s.worker.next (some new) c = some t := by
  have hne : c ≠ s.worker.next := by
    intro heq
    subst heq
    rw [hw.fresh _ (Nat.le_refl _)] at ho
    cases ho
  rwa [update_of_ne hne]

theorem Wf.op_fresh (hw : Wf s) {c : Nat} {new : Task} (hle : s.worker.next + 1 ≤ c) :
    update s.worker.op s.worker.next (some new) c = none := by
  rw [update_of_ne (by omega)]
  exact hw.fresh c (by omega)

theorem Wf.open_ne (hw : Wf s) {c : Nat} (ho : Open s.worker c) : c ≠ s.worker.next := by
  intro heq
  subst heq
  simp [Open, hw.worker.fresh s.worker.next (Nat.le_refl _)] at ho

theorem Wf.stored_kept (hw : Wf s) {c : Nat} {caller : Worker.Caller Done}
    (hs : s.worker.abandoned c = true ∨ s.worker.mail c = .closed) :
    update s.worker.caller s.worker.next caller c = .returned .timeout := by
  have hst := hw.stored c hs
  have hne : c ≠ s.worker.next := by
    intro heq
    subst heq
    rw [hw.worker.fresh _ (Nat.le_refl _)] at hst
    cases hst
  rwa [update_of_ne hne]

theorem submit_wf (hw : Wf s) {h : Nat} {hd : Handler} {j : Job} {k : Ans (.job j) → Do RpcError Reply}
    (hh : s.handlers[h]? = some hd) (hc : hd.call = none) (hp : hd.prog = .call (.job j) k)
    (hinv : Worker.Inv { s.worker with
      next := s.worker.next + 1
      op := update s.worker.op s.worker.next (some ⟨h, j, k⟩)
      caller := update s.worker.caller s.worker.next .waiting
      queue := s.worker.queue ++ [s.worker.next]
      sent := s.worker.sent ++ [s.worker.next] }) :
    Wf { s with
      worker := { s.worker with
        next := s.worker.next + 1
        op := update s.worker.op s.worker.next (some ⟨h, j, k⟩)
        caller := update s.worker.caller s.worker.next .waiting
        queue := s.worker.queue ++ [s.worker.next]
        sent := s.worker.sent ++ [s.worker.next] }
      handlers := s.handlers.set h { hd with call := some s.worker.next } } := by
  refine ⟨hinv, fun c hle => hw.op_fresh hle, hw.alive, ?_, ?_,
    ?_, hw.clean, ?_, ?_, fun c hs => hw.stored_kept hs⟩
  · intro i x c hx hcx
    rcases getElem?_set_cases hx with ⟨rfl, rfl⟩ | ⟨-, hx'⟩
    · cases hcx
      exact ⟨j, k, hx, rfl, hp, update_self .., .inl (update_self ..)⟩
    · obtain ⟨j', k', hin⟩ := hw.calls i x c hx' hcx
      have hne := hw.open_ne hin.isOpen
      exact ⟨j', k', hin.keep hx (update_of_ne hne ..) (by simpa [Open, update_of_ne hne] using hin.isOpen)⟩
  · intro c ho
    by_cases e : c = s.worker.next
    · subst e
      exact ⟨h, _, j, k, getElem?_set_of_some hh, rfl, hp, update_self .., ho⟩
    · obtain ⟨i, x, j', k', hin⟩ := hw.callers c (by simpa [Open, update_of_ne e] using ho)
      exact ⟨i, x, j', k', hin.keep (hin.other hh hc) (update_of_ne e ..) ho⟩
  · intro c d ha
    obtain ⟨t, a, ho, rfl⟩ := hw.answers c d ha
    exact ⟨t, a, hw.op_kept ho, rfl⟩
  · intro c ho
    by_cases e : c = s.worker.next
    · subst e
      exact .inl (.inl (List.mem_append_right _ (List.mem_singleton.mpr rfl)))
    · rcases hw.place c (by simpa [Open, update_of_ne e] using ho) with (hp | hp) | hp
      · exact .inl (.inl (List.mem_append_left _ hp))
      · exact .inl (.inr hp)
      · exact .inr hp
  · intro c hk
    rcases hk with (hk | hk) | hk
    · rcases List.mem_append.mp hk with hk | hk
      · obtain ⟨t, ht⟩ := hw.known c (.inl (.inl hk))
        exact ⟨t, hw.op_kept ht⟩
      · obtain rfl := List.mem_singleton.mp hk
        exact ⟨_, update_self ..⟩
    · obtain ⟨t, ht⟩ := hw.known c (.inl (.inr hk))
      exact ⟨t, hw.op_kept ht⟩
    · obtain ⟨t, ht⟩ := hw.known c (.inr hk)
      exact ⟨t, hw.op_kept ht⟩

theorem refuse_wf (hw : Wf s) {h : Nat} {hd : Handler} {t : Task} (hh : s.handlers[h]? = some hd) (hc : hd.call = none)
    {trail : List ((op : Op) × Ans op)} {prog : Do RpcError Reply}
    (hinv : Worker.Inv { s.worker with
      next := s.worker.next + 1
      op := update s.worker.op s.worker.next (some t)
      caller := update s.worker.caller s.worker.next (.returned .full) }) :
    Wf { s with
      worker := { s.worker with
        next := s.worker.next + 1
        op := update s.worker.op s.worker.next (some t)
        caller := update s.worker.caller s.worker.next (.returned .full) }
      handlers := s.handlers.set h ⟨trail, prog, none⟩ } := by
  have hopen : ∀ {c}, update s.worker.caller s.worker.next (.returned .full) c = .waiting ∨
      update s.worker.caller s.worker.next (.returned .full) c = .expired → c ≠ s.worker.next ∧ Open s.worker c := by
    intro c ho
    have hne : c ≠ s.worker.next := by
      intro heq
      subst heq
      simp at ho
    exact ⟨hne, by simpa [Open, update_of_ne hne] using ho⟩
  refine ⟨hinv, fun c hle => hw.op_fresh hle, hw.alive, ?_, ?_,
    ?_, hw.clean, fun c ho => hw.place c (hopen ho).2, ?_, fun c hs => hw.stored_kept hs⟩
  · intro i x c hx hcx
    rcases getElem?_set_cases hx with ⟨-, rfl⟩ | ⟨-, hx'⟩
    · cases hcx
    · obtain ⟨j', k', hin⟩ := hw.calls i x c hx' hcx
      have hne := hw.open_ne hin.isOpen
      exact ⟨j', k', hin.keep hx (update_of_ne hne ..) (by simpa [Open, update_of_ne hne] using hin.isOpen)⟩
  · intro c ho
    obtain ⟨hne, ho'⟩ := hopen ho
    obtain ⟨i, x, j', k', hin⟩ := hw.callers c ho'
    exact ⟨i, x, j', k', hin.keep (hin.other hh hc) (update_of_ne hne ..) ho⟩
  · intro c d ha
    obtain ⟨t', a, ho, rfl⟩ := hw.answers c d ha
    exact ⟨t', a, hw.op_kept ho, rfl⟩
  · intro c hk
    obtain ⟨t', ht⟩ := hw.known c hk
    exact ⟨t', hw.op_kept ht⟩

theorem move_wf (hw : Wf s) {e : Ev} (hm : Move host srv v s e s') : Wf s' := by
  have hinv := move_worker_inv hw hm
  cases hm with
  | start _ => exact start_wf hw _
  | hold hh hc _ _ => exact hold_wf hw hh hc
  | submit hh hc hp _ => exact submit_wf hw hh hc hp hinv
  | refuse hh hc _ _ => exact refuse_wf hw hh hc hinv
  | dequeue ht hq => exact dequeue_wf hw ht hq hinv
  | skip ht ha => exact skip_wf hw ht ha hinv
  | run ht _ => exact run_wf hw ht hinv
  | finish ht ho _ => exact finish_wf hw ht ho hinv
  | reply ht => exact reply_wf hw ht hinv
  | @recv _ _ c _ _ _ hin hk _ =>
    refine returned_wf hw hin (by simp) ?_ hinv
    intro i hs
    have hst := hw.stored i hs
    have hne : i ≠ c := by
      intro heq
      subst heq
      rw [hk] at hst
      cases hst
    rwa [update_of_ne hne]
  | expire _ hk _ => exact expire_wf hw hk hinv
  | @store _ _ c _ _ hin hk =>
    refine returned_wf hw hin (by simp) ?_ hinv
    intro i hs
    by_cases e : i = c
    · subst e
      exact update_self ..
    · rw [update_of_ne e]
      exact hw.stored i (by simpa [update_of_ne e] using hs)

theorem opened_wf (policy : ClientOptionPolicy) : Wf (opened policy) := by
  refine ⟨Worker.init_inv, fun _ _ => rfl, ⟨by simp [opened, Worker.init], rfl⟩, ?_, ?_, ?_, ?_, ?_, ?_, ?_⟩ <;>
    simp [opened, Worker.init, Open, Answered, Unstarted]

theorem step_wf (hw : Wf s) (e : Ev) : Wf (step host srv v s e) := by
  rcases step_move hw e with hs | hm
  · rwa [hs]
  · exact move_wf hw hm

theorem reach_wf {G : St → Ev → Prop} (h : (machine host srv v).ReachIn G s) : Wf s := by
  refine h.invariant (P := Wf) ?_ fun s e _ hw => step_wf hw e
  intro s h'
  obtain ⟨policy, rfl⟩ := h'
  exact opened_wf policy

/-- An invariant of guarded runs, from what the moves preserve; `Q` is one already known. -/
theorem invariant_of_moves {G : St → Ev → Prop} {P Q : St → Prop} (hQ : ∀ {s}, (machine host srv v).ReachIn G s → Q s)
    (h0 : ∀ policy, P (opened policy)) (hmove : ∀ {s s' e}, Wf s → Q s → G s e → P s → Move host srv v s e s' → P s')
    (h : (machine host srv v).ReachIn G s) : P s := by
  refine h.invariant_under (I := fun s => Wf s ∧ Q s) (fun _ hr => ⟨reach_wf hr, hQ hr⟩) ?_ ?_
  · intro s h'
    obtain ⟨policy, rfl⟩ := h'
    exact h0 policy
  · intro s e hg hI _ hp
    show P (step host srv v s e)
    rcases step_move hI.1 e with hs | hm
    · rw [hs]
      exact hp
    · exact hmove hI.1 hI.2 hg hp hm

/-- The same along a run from a reachable state on. -/
theorem path_of_moves {G : St → Ev → Prop} {P Q : St → Prop} (hQ : ∀ {s}, (machine host srv v).ReachIn G s → Q s)
    (hr : (machine host srv v).ReachIn G s) (p : (machine host srv v).Path G s s') (h0 : P s)
    (hmove : ∀ {s s' e}, Wf s → Q s → G s e → P s → Move host srv v s e s' → P s') : P s' := by
  induction p with
  | refl => exact h0
  | @step t e p hg ih =>
    have ht := hr.extend p
    show P (step host srv v t e)
    rcases step_move (reach_wf ht) e with hs | hm
    · rw [hs]
      exact ih
    · exact hmove (reach_wf ht) (hQ ht) hg ih hm

/-- The worker of every reachable state is one the worker machine reaches. -/
theorem worker_reach (h : (machine host srv v).Reach s) : (Worker.machine Task Done).Reach s.worker := by
  refine invariant_of_moves (P := fun s => (Worker.machine Task Done).Reach s.worker) (Q := fun _ => True)
    (fun _ => trivial) (fun _ => .init rfl) ?_ h
  intro s s' e hw _ _ hr hm
  exact hr.extend (move_worker hw hm)

/-! ### What a move leaves alone -/

/-- The handler whose turn it is. -/
def Ev.mover : Ev → Option Nat
  | .hold h _ | .submit h | .recv h | .store h => some h
  | _ => none

theorem Move.handler_keep {e : Ev} (hm : Move host srv v s e s') {i : Nat} {x : Handler} (hne : e.mover ≠ some i)
    (hx : s.handlers[i]? = some x) : s'.handlers[i]? = some x := by
  have set : ∀ {h : Nat} {y : Handler}, some h ≠ some i → (s.handlers.set h y)[i]? = some x := by
    intro h y hne
    rw [List.getElem?_set_ne fun h => hne (congrArg some h)]
    exact hx
  cases hm with
  | start _ => exact getElem?_snoc_of_some hx
  | hold _ _ _ _ | submit _ _ _ _ | refuse _ _ _ _ | recv _ _ _ | store _ _ => exact set hne
  | dequeue _ _ | skip _ _ | run _ _ | finish _ _ _ | reply _ | expire _ _ _ => exact hx

/-- Another handler was there before, or is new. -/
theorem Move.handler_of {e : Ev} (hm : Move host srv v s e s') {i : Nat} {x : Handler} (hne : e.mover ≠ some i)
    (hx : s'.handlers[i]? = some x) : s.handlers[i]? = some x ∨ (x.trail = [] ∧ x.call = none) := by
  have set : ∀ {h : Nat} {y : Handler}, some h ≠ some i → (s.handlers.set h y)[i]? = some x →
      s.handlers[i]? = some x := by
    intro h y hne hx
    rwa [List.getElem?_set_ne fun h => hne (congrArg some h)] at hx
  cases hm with
  | start _ =>
    rcases getElem?_snoc_cases hx with hx | ⟨-, rfl⟩
    · exact .inl hx
    · exact .inr ⟨rfl, rfl⟩
  | hold _ _ _ _ | submit _ _ _ _ | refuse _ _ _ _ | recv _ _ _ | store _ _ => exact .inl (set hne hx)
  | dequeue _ _ | skip _ _ | run _ _ | finish _ _ _ | reply _ | expire _ _ _ => exact .inl hx

theorem Move.issued_keep {e : Ev} (hm : Move host srv v s e s') {id : String} (hi : id ∈ s.issued) :
    id ∈ s'.issued := by
  cases hm with
  | hold _ _ _ _ | finish _ _ _ => exact List.mem_cons_of_mem _ hi
  | start _ | submit _ _ _ _ | refuse _ _ _ _ | dequeue _ _ | skip _ _ | run _ _ | reply _ | recv _ _ _
  | expire _ _ _ | store _ _ =>
    exact hi

/-- The mover is in a call only if it just submitted it. -/
theorem Move.inCall_mover {e : Ev} (hm : Move host srv v s e s') {h : Nat} {x : Handler} {c : Nat} {j : Job}
    {k : Ans (.job j) → Do RpcError Reply} (hmv : e.mover = some h) (hin : InCall s' h x c j k) : c = s.worker.next ∧
      s'.worker.thread = s.worker.thread ∧ s'.worker.mail = s.worker.mail := by
  have hset : ∀ {y : Handler}, s'.handlers[h]? = some y → y.call ≠ none := by
    intro y hy hc
    cases hy.symm.trans hin.handler
    cases hc.symm.trans hin.call
  cases hm with
  | hold hh _ _ _ | refuse hh _ _ _ =>
    cases hmv
    exact absurd rfl (hset (getElem?_set_of_some hh))
  | recv hin' _ _ | store hin' _ =>
    cases hmv
    exact absurd rfl (hset (getElem?_set_of_some hin'.handler))
  | submit hh _ _ _ =>
    cases hmv
    cases (getElem?_set_of_some hh).symm.trans hin.handler
    cases hin.call
    exact ⟨rfl, rfl, rfl⟩
  | start _ | dequeue _ _ | skip _ _ | run _ _ | finish _ _ _ | reply _ | expire _ _ _ => cases hmv

/-- A call the mover is in was not answered. -/
theorem Move.mover_unanswered (hw : Wf s) {e : Ev} (hm : Move host srv v s e s') {h : Nat} {x : Handler}
    {c : Nat} {j : Job}
    {k : Ans (.job j) → Do RpcError Reply} {d : Done} (hmv : e.mover = some h) (hin : InCall s' h x c j k) :
    ¬ Answered s'.worker c d := by
  obtain ⟨rfl, ht, hmail⟩ := hm.inCall_mover hmv hin
  intro ha
  have ha : Answered s.worker s.worker.next d := by simpa [Answered, ht, hmail] using ha
  obtain ⟨t, -, hop, -⟩ := hw.answers _ d ha
  rw [hw.fresh _ (Nat.le_refl _)] at hop
  cases hop

theorem Move.op_keep (hw : Wf s) {e : Ev} (hm : Move host srv v s e s') {c : Nat} {t : Task}
    (ht : s.worker.op c = some t) :
    s'.worker.op c = some t := by
  cases hm with
  | submit _ _ _ _ | refuse _ _ _ _ => exact hw.op_kept ht
  | _ => exact ht

/-- The caller of another handler's call is where it was, or its wait just expired. -/
theorem Move.caller_keep (hw : Wf s) {e : Ev} (hm : Move host srv v s e s') {i : Nat} {x : Handler} {c : Nat} {j : Job}
    {k : Ans (.job j) → Do RpcError Reply} (hne : e.mover ≠ some i) (hin : InCall s i x c j k) :
    s'.worker.caller c = s.worker.caller c ∨ (e = .expire i ∧ s'.worker.caller c = .expired) := by
  have other : ∀ {h : Nat} {hd : Handler} {d : Nat} {j' : Job} {k' : Ans (.job j') →
    Do RpcError Reply} {y : Worker.Caller Done},
      InCall s h hd d j' k' → some h ≠ some i → update s.worker.caller d y c = s.worker.caller c := by
    intro h hd d j' k' y hin' hne
    refine update_of_ne ?_ ..
    intro heq
    subst heq
    exact hne (congrArg some (hin'.unique hin))
  cases hm with
  | submit _ _ _ _ | refuse _ _ _ _ => exact .inl (update_of_ne (hw.open_ne hin.isOpen) ..)
  | recv hin' _ _ => exact .inl (other hin' hne)
  | store hin' _ => exact .inl (other hin' hne)
  | @expire h _ d _ _ hin' _ _ =>
    by_cases e : h = i
    · subst e
      cases hin'.handler.symm.trans hin.handler
      cases hin'.call.symm.trans hin.call
      exact .inr ⟨rfl, update_self ..⟩
    · exact .inl (other hin' fun h => e (Option.some.inj h))
  | start _ | hold _ _ _ _ | dequeue _ _ | skip _ _ | run _ _ | finish _ _ _ | reply _ => exact .inl rfl

theorem Move.inCall_keep (hw : Wf s) {e : Ev} (hm : Move host srv v s e s') {i : Nat} {x : Handler} {c : Nat} {j : Job}
    {k : Ans (.job j) → Do RpcError Reply} (hne : e.mover ≠ some i) (hin : InCall s i x c j k) :
    InCall s' i x c j k := by
  refine ⟨hm.handler_keep hne hin.handler, hin.call, hin.prog, hm.op_keep hw hin.task, ?_⟩
  rcases hm.caller_keep hw hne hin with hc | ⟨-, hc⟩
  · simpa [Open, hc] using hin.isOpen
  · exact .inr hc

theorem Move.inCall_of (hw : Wf s) {e : Ev} (hm : Move host srv v s e s') {i : Nat} {x : Handler} {c : Nat} {j : Job}
    {k : Ans (.job j) → Do RpcError Reply} (hne : e.mover ≠ some i) (hin : InCall s' i x c j k) :
    InCall s i x c j k := by
  rcases hm.handler_of hne hin.handler with hx | ⟨-, hc⟩
  · obtain ⟨j', k', hin'⟩ := hw.calls i x c hx hin.call
    have := hin'.prog.symm.trans hin.prog
    cases this
    exact hin'
  · cases hc.symm.trans hin.call

/-- A reply stays until it is taken. -/
theorem Move.answered_keep (hw : Wf s) {e : Ev} (hm : Move host srv v s e s') {c : Nat} {d : Done}
    (ho : Open s.worker c) (ha : Answered s.worker c d) : Answered s'.worker c d := by
  cases hm with
  | dequeue ht _ => exact .inr (ha.resolve_left (by simp [ht]))
  | @skip c' ht hab =>
    have hne : c ≠ c' := by
      intro heq
      subst heq
      simp [Open, hw.stored c (.inl hab)] at ho
    exact .inr ((update_of_ne hne ..).trans (ha.resolve_left (by simp [ht])))
  | run ht _ => exact .inr (ha.resolve_left (by simp [ht]))
  | finish ht _ _ => exact .inr (ha.resolve_left (by simp [ht]))
  | @reply c' d' ht =>
    rcases ha with ha | ha
    · cases ht.symm.trans ha
      exact .inr (update_self ..)
    · have hne : c ≠ c' := by
        intro heq
        subst heq
        rw [hw.clean c (.inr ⟨d', ht⟩)] at ha
        cases ha
      exact .inr ((update_of_ne hne ..).trans ha)
  | start _ | hold _ _ _ _ | submit _ _ _ _ | refuse _ _ _ _ | recv _ _ _ | expire _ _ _ | store _ _ => exact ha

/-- A reply was there before, or its job was just performed. -/
theorem Move.answered_of {e : Ev} (hm : Move host srv v s e s') {c : Nat} {d : Done} (ha : Answered s'.worker c d) :
    Answered s.worker c d ∨ ∃ w t, e = .finish w ∧ s.worker.thread = .running c ∧ s.worker.op c = some t ∧
      d = ⟨⟨.job t.job, (t.job.perform host.limits w s.inner).1⟩, t.next (t.job.perform host.limits w s.inner).1⟩ := by
  cases hm with
  | dequeue ht _ => exact .inl (.inr (ha.resolve_left (by simp)))
  | @skip c' ht _ =>
    have ha : update s.worker.mail c' .closed c = .reply d := ha.resolve_left (by simp)
    by_cases e : c = c'
    · subst e
      simp at ha
    · exact .inl (.inr (by rwa [update_of_ne e] at ha))
  | run ht _ => exact .inl (.inr (ha.resolve_left (by simp)))
  | @finish c' t w ht ho _ =>
    rcases ha with ha | ha
    · cases ha
      exact .inr ⟨w, t, rfl, ht, ho, rfl⟩
    · exact .inl (.inr ha)
  | @reply c' d' ht =>
    have ha : update s.worker.mail c' (.reply d') c = .reply d := ha.resolve_left (by simp)
    by_cases e : c = c'
    · subst e
      rw [update_self] at ha
      cases ha
      exact .inl (.inl ht)
    · exact .inl (.inr (by rwa [update_of_ne e] at ha))
  | start _ | hold _ _ _ _ | submit _ _ _ _ | refuse _ _ _ _ | recv _ _ _ | expire _ _ _ | store _ _ => exact .inl ha

/-- A running job goes on running until it is performed. -/
theorem Move.running_keep {e : Ev} (hm : Move host srv v s e s') {c : Nat} (ht : s.worker.thread = .running c) :
    s'.worker.thread = .running c ∨ ∃ w, e = .finish w := by
  cases hm with
  | dequeue h _ | skip h _ | run h _ | reply h => cases h.symm.trans ht
  | finish _ _ _ => exact .inr ⟨_, rfl⟩
  | start _ | hold _ _ _ _ | submit _ _ _ _ | refuse _ _ _ _ | recv _ _ _ | expire _ _ _ | store _ _ => exact .inl ht

/-- A handler is somewhere in the program of what it serves. -/
def Serves (srv : Service) (v : SessionView) (s : St) : Prop :=
  s.started.length = s.handlers.length ∧
  ∀ (h : Nat) (hd : Handler), s.handlers[h]? = some hd → ∃ c p, s.started[h]? = some c ∧
    programOn srv v c.1 c.2 = some p ∧ Discipline.Ran p hd.trail hd.prog

theorem reach_serves {G : St → Ev → Prop} (h : (machine host srv v).ReachIn G s) : Serves srv v s := by
  refine invariant_of_moves (P := Serves srv v) (Q := fun _ => True) (fun _ => trivial)
    (fun _ => ⟨rfl, by simp [opened]⟩) ?_ h
  intro s s' e _ _ _ ih hm
  -- the handler that moved took one answer
  have took : ∀ {h : Nat} {hd : Handler} {op : Op} {k : Ans op → Do RpcError Reply} (a : Ans op),
    s.handlers[h]? = some hd →
      hd.prog = .call op k → s.started.length = (s.handlers.set h ⟨hd.trail ++ [⟨op, a⟩], k a, none⟩).length ∧
      ∀ (i : Nat) (x : Handler), (s.handlers.set h ⟨hd.trail ++ [⟨op, a⟩], k a, none⟩)[i]? = some x →
        ∃ c p, s.started[i]? = some c ∧ programOn srv v c.1 c.2 = some p ∧ Discipline.Ran p x.trail x.prog := by
    intro h hd op k a hh hp
    refine ⟨by simpa using ih.1, ?_⟩
    intro i x hx
    rcases getElem?_set_cases hx with ⟨rfl, rfl⟩ | ⟨-, hx⟩
    · obtain ⟨c, p, hc, hpr, hran⟩ := ih.2 i hd hh
      rw [hp] at hran
      exact ⟨c, p, hc, hpr, hran.answer a⟩
    · exact ih.2 i x hx
  cases hm with
  | @start ctx invocation p hp =>
    refine ⟨by simp [ih.1], ?_⟩
    intro i x hx
    rcases getElem?_snoc_cases hx with hx | ⟨rfl, rfl⟩
    · obtain ⟨c, p, hc, hpr, hran⟩ := ih.2 i x hx
      exact ⟨c, p, getElem?_snoc_of_some hc, hpr, hran⟩
    · exact ⟨(ctx, invocation), p, by simp [← ih.1], hp, .start⟩
  | hold hh _ hp _ => exact took _ hh hp
  | @submit h hd _ _ hh _ _ _ =>
    refine ⟨by simpa using ih.1, ?_⟩
    intro i x hx
    rcases getElem?_set_cases hx with ⟨rfl, rfl⟩ | ⟨-, hx⟩
    · exact ih.2 i hd hh
    · exact ih.2 i x hx
  | refuse hh _ hp _ => exact took _ hh hp
  | recv hin _ _ => exact took _ hin.handler hin.prog
  | store hin _ => exact took _ hin.handler hin.prog
  | dequeue _ _ | skip _ _ | run _ _ | finish _ _ _ | reply _ | expire _ _ _ => exact ih

/-- A discipline the handlers' programs follow, they follow however they interleave. -/
theorem handlers_follow {Γ : Type} {D : Discipline Ans Γ} {g : Γ} {post : Γ → Except RpcError Reply → Prop}
    (hD : ∀ {ctx sets t p}, Shape srv ctx sets t p → D.Follows g p post) {G : St → Ev → Prop}
    (h : (machine host srv v).ReachIn G s) :
    ∀ (i : Nat) (hd : Handler), s.handlers[i]? = some hd → D.Follows (D.after g hd.trail) hd.prog post := by
  intro i hd hh
  obtain ⟨c, p, -, hp, hran⟩ := (reach_serves h).2 i hd hh
  exact (hD (shape hp)).ran hran

end WellFormed

/-! ## Small runs

  What the concrete runs of the later modules are made of. -/

def answers (fresh : String) : World := ⟨willing, .fine, fresh⟩

def asked (method : Method) (columns : List (String × String)) : Ev :=
  .start anonymous (.request method (flatRequest (("session_id", "c") :: columns)))

/-- The handler's next worker call, from its submission to its reply. -/
def called (h : Nat) (fresh : String) : List Ev :=
  [.submit h, .dequeue, .load, .finish (answers fresh), .reply, .recv h]

def openedS : St := opened (.new false [] [])

def smallMachine : Machine St Ev := machine Solo.smallHost smallService Solo.smallView

def Handler.isDone (hd : Handler) : Bool :=
  match hd.prog with
  | .done _ => true
  | .call _ _ => false

theorem done_of_all {l : List Handler} (h : l.all Handler.isDone = true) :
    ∀ (i : Nat) (hd : Handler), l[i]? = some hd → ∃ r, hd.prog = .done r := by
  intro i hd hh
  have hd' := List.all_eq_true.mp h hd (List.mem_of_getElem? hh)
  cases hp : hd.prog with
  | done r => exact ⟨r, rfl⟩
  | call op k => simp [Handler.isDone, hp] at hd'

end Grainlift.Server.Concurrent
