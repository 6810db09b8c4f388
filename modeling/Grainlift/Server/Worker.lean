/-
  Grainlift.Server.Worker — the per-session actor (`SessionWorker`, session.rs).

  Each `call` sends one job down a bounded channel (32 jobs) and waits on a reply
  channel of its own. The worker thread takes jobs in order; a job loads its call's
  abandoned flag, and if that is clear runs the operation and sends its result. The
  caller's `recv_timeout` may expire at any moment before a reply is there; the caller
  then stores the flag and returns Timeout. Expiry and store are two steps, and so are
  dequeue, load, execution and reply, so every interleaving of them is a run here.

  An operation may panic: the thread unwinds, its channel and every queued job are
  dropped, and the reply channels of those calls close. The `Session` value is dropped
  once no `call` is left on it; the thread then drains what is queued and exits.

  `sent` and `notes` are the history: which jobs were enqueued, in order, and which
  operations began and ended.

  Proved, over every reachable state and every way to go on from it (`actor_semantics`):
  (1) operations run one at a time (`Serial`) and in enqueue order;
  (2) each runs at most once, and a call that returns a result returns its own
      operation's, which ran exactly once;
  (3) a call refused at submission never runs its operation;
  (4) an operation whose flag was stored before it began never runs, so after its caller
      returned Timeout only the operation the thread is executing can still run;
  (5) nor, once the session was dropped, can any other.
-/

import Grainlift.Lib.Machine
import Mathlib.Logic.Function.Basic

namespace Grainlift.Server.Worker

open Grainlift.Lib Function

variable {Op Res : Type}

/-- What `call` returned. `lost` is the reply channel closing while it waited. -/
inductive Outcome (Res : Type) where
  | full
  | stopped
  | result (v : Res)
  | timeout
  | lost

inductive Caller (Res : Type) where
  | absent
  | submitting
  | waiting
  /-- `recv_timeout` said Timeout; the flag is not stored yet. -/
  | expired
  | returned (o : Outcome Res)

/-- A call's reply channel. -/
inductive Mail (Res : Type) where
  | empty
  | reply (v : Res)
  | closed

inductive Thread (Res : Type) where
  | idle
  /-- Dequeued, its flag not loaded yet. -/
  | taken (c : Nat)
  | running (c : Nat)
  | answering (c : Nat) (v : Res)
  | dead

inductive Note (Res : Type) where
  | began (c : Nat)
  | ended (c : Nat) (v : Res)

structure St (Op Res : Type) where
  next : Nat
  op : Nat → Option Op
  caller : Nat → Caller Res
  abandoned : Nat → Bool
  mail : Nat → Mail Res
  queue : List Nat
  thread : Thread Res
  dropped : Bool
  sent : List Nat
  notes : List (Note Res)

def init : St Op Res := ⟨0, fun _ => none, fun _ => .absent, fun _ => false, fun _ => .empty, [], .idle, false, [], []⟩

/-- `mpsc::sync_channel(32)`. -/
def queueBound : Nat := 32

inductive Ev (Op Res : Type) where
  | call (op : Op)
  | trySend (c : Nat)
  | dequeue
  | load
  | finish (v : Res)
  | reply
  | panic
  | exit
  | recv (c : Nat)
  | expire (c : Nat)
  | store (c : Nat)
  | drop

def Caller.hasReturned : Caller Res → Bool
  | .returned _ => true
  | _ => false

def step (s : St Op Res) : Ev Op Res → St Op Res
  | .call op =>
    if s.dropped then s
    else { s with next := s.next + 1, op := update s.op s.next (some op), caller := update s.caller s.next .submitting }
  | .trySend c =>
    match s.caller c, s.thread with
    | .submitting, .dead => { s with caller := update s.caller c (.returned .stopped) }
    | .submitting, _ =>
      if s.queue.length < queueBound then
        { s with queue := s.queue ++ [c], sent := s.sent ++ [c], caller := update s.caller c .waiting }
      else { s with caller := update s.caller c (.returned .full) }
    | _, _ => s
  | .dequeue =>
    match s.thread, s.queue with
    | .idle, c :: q => { s with thread := .taken c, queue := q }
    | _, _ => s
  | .load =>
    match s.thread with
    | .taken c =>
      if s.abandoned c then { s with thread := .idle, mail := update s.mail c .closed }
      else { s with thread := .running c, notes := s.notes ++ [.began c] }
    | _ => s
  | .finish v =>
    match s.thread with
    | .running c => { s with thread := .answering c v, notes := s.notes ++ [.ended c v] }
    | _ => s
  | .reply =>
    match s.thread with
    | .answering c v => { s with thread := .idle, mail := update s.mail c (.reply v) }
    | _ => s
  | .panic =>
    match s.thread with
    | .running c =>
      { s with thread := .dead, queue := [], mail := fun d => if d = c ∨ d ∈ s.queue then .closed else s.mail d }
    | _ => s
  | .exit =>
    match s.thread, s.queue with
    | .idle, [] => if s.dropped then { s with thread := .dead } else s
    | _, _ => s
  | .recv c =>
    match s.caller c, s.mail c with
    | .waiting, .reply v => { s with caller := update s.caller c (.returned (.result v)) }
    | .waiting, .closed => { s with caller := update s.caller c (.returned .lost) }
    | _, _ => s
  | .expire c =>
    match s.caller c, s.mail c with
    | .waiting, .empty => { s with caller := update s.caller c .expired }
    | _, _ => s
  | .store c =>
    match s.caller c with
    | .expired => { s with abandoned := update s.abandoned c true, caller := update s.caller c (.returned .timeout) }
    | _ => s
  | .drop => if (List.range s.next).all fun c => (s.caller c).hasReturned then { s with dropped := true } else s

def machine (Op Res : Type) : Machine (St Op Res) (Ev Op Res) where
  init := (· = init)
  step := step

/-! ## Histories -/

/-- The operations that began, in order. -/
def begun (l : List (Note Res)) : List Nat :=
  l.filterMap fun n => match n with | .began c => some c | .ended _ _ => none

def completed (l : List (Note Res)) : List Nat :=
  l.filterMap fun n => match n with | .began _ => none | .ended c _ => some c

/-- One at a time: each operation that began ended before the next began, except the
    last, which is executing (`some`). -/
inductive Serial : Option Nat → List (Note Res) → Prop
  | nil : Serial none []
  | began {l : List (Note Res)} (c : Nat) : Serial none l → Serial (some c) (l ++ [.began c])
  | ended {l : List (Note Res)} (c : Nat) (v : Res) : Serial (some c) l → Serial none (l ++ [.ended c v])

@[simp] theorem begun_began (l : List (Note Res)) (c : Nat) : begun (l ++ [.began c]) = begun l ++ [c] := by
  simp [begun, List.filterMap_append]

@[simp] theorem begun_ended (l : List (Note Res)) (c : Nat) (v : Res) : begun (l ++ [.ended c v]) = begun l := by
  simp [begun, List.filterMap_append]

@[simp] theorem completed_began (l : List (Note Res)) (c : Nat) : completed (l ++ [.began c]) = completed l := by
  simp [completed, List.filterMap_append]

@[simp] theorem completed_ended (l : List (Note Res)) (c : Nat) (v : Res) :
    completed (l ++ [.ended c v]) = completed l ++ [c] := by
  simp [completed, List.filterMap_append]

theorem Serial.begun_eq {o : Option Nat} {l : List (Note Res)} (h : Serial o l) :
    begun l = completed l ++ o.toList := by
  induction h with
  | nil => rfl
  | began c _ ih => simp [ih]
  | ended c v _ ih => simp [ih]

theorem mem_completed {l : List (Note Res)} {c : Nat} {v : Res} (h : .ended c v ∈ l) : c ∈ completed l :=
  List.mem_filterMap.mpr ⟨_, h, rfl⟩

theorem Serial.begun_of_ended {o : Option Nat} {l : List (Note Res)} (h : Serial o l) {c : Nat} {v : Res}
    (hm : .ended c v ∈ l) : c ∈ begun l := by
  rw [h.begun_eq]; exact List.mem_append_left _ (mem_completed hm)

/-- No operation ends twice: its result is one. -/
theorem ended_unique {l : List (Note Res)} (hn : (completed l).Nodup) {c : Nat} {v w : Res} (hv : .ended c v ∈ l)
    (hw : .ended c w ∈ l) : v = w := by
  induction l with
  | nil => cases hv
  | cons n l ih =>
    have hsplit : completed (n :: l) = (match n with | .began _ => [] | .ended d _ => [d]) ++ completed l := by
      cases n <;> simp [completed]
    rw [hsplit] at hn
    have hl : (completed l).Nodup := (List.nodup_append.mp hn).2.1
    rcases List.mem_cons.mp hv with rfl | hv'
    · rcases List.mem_cons.mp hw with hw' | hw'
      · cases hw'; rfl
      · simp at hn; exact absurd (mem_completed hw') hn.1
    · rcases List.mem_cons.mp hw with rfl | hw'
      · simp at hn; exact absurd (mem_completed hv') hn.1
      · exact ih hl hv' hw'

/-! ## Invariants -/

/-- The job a dequeue took and the flag load has not decided yet. -/
def inHand (s : St Op Res) : List Nat :=
  match s.thread with
  | .taken c => [c]
  | _ => []

/-- The caller's job reached the channel. -/
def Caller.submitted : Caller Res → Bool
  | .absent | .submitting | .returned .full | .returned .stopped => false
  | _ => true

/-- Waiting for a reply, or gone with Timeout. -/
def Caller.unanswered : Caller Res → Bool
  | .waiting | .expired | .returned .timeout => true
  | _ => false

/-- The operation the thread executes, as the history must show it. -/
def Executing : Thread Res → List (Note Res) → Prop
  | .running c, l => Serial (some c) l
  | .dead, l => ∃ o, Serial o l
  | .answering c v, l => Serial none l ∧ .ended c v ∈ l
  | _, l => Serial none l

structure Inv (s : St Op Res) : Prop where
  fresh : ∀ c, s.next ≤ c → s.caller c = .absent
  sentIff : ∀ c, c ∈ s.sent ↔ (s.caller c).submitted = true
  sentOnce : s.sent.Nodup
  /-- What was sent is past, in hand or queued, in that order; only the past began. -/
  line : ∃ past, s.sent = past ++ (inHand s ++ s.queue) ∧ (begun s.notes).Sublist past
  executing : Executing s.thread s.notes
  unsent : ∀ c, c ∉ s.sent → s.mail c = .empty
  mailed : ∀ c v, s.mail c = .reply v → .ended c v ∈ s.notes
  answered : ∀ c v, s.caller c = .returned (.result v) → .ended c v ∈ s.notes
  pending : ∀ c, c ∈ inHand s ++ s.queue → s.mail c = .empty ∧ (s.caller c).unanswered = true
  timedOut : ∀ c, s.caller c = .returned .timeout → s.abandoned c = true
  gone : s.dropped = true → ∀ c, s.caller c = .absent ∨ (s.caller c).hasReturned = true

theorem Executing.serial {th : Thread Res} {l : List (Note Res)} (h : Executing th l) : ∃ o, Serial o l := by
  cases th with
  | running c => exact ⟨_, h⟩
  | dead => exact h
  | answering c v => exact ⟨_, h.1⟩
  | idle | taken => exact ⟨_, h⟩

theorem Inv.begun_sublist {s : St Op Res} (h : Inv s) : (begun s.notes).Sublist s.sent := by
  obtain ⟨past, hs, hb⟩ := h.line
  rw [hs]
  exact hb.trans (List.sublist_append_left _ _)

/-- What is in hand or queued has not begun. -/
theorem Inv.not_begun {s : St Op Res} (h : Inv s) {c : Nat} (hc : c ∈ inHand s ++ s.queue) : c ∉ begun s.notes := by
  obtain ⟨past, hs, hb⟩ := h.line
  intro hm
  have hn := h.sentOnce
  rw [hs] at hn
  exact (List.nodup_append.mp hn).2.2 c (hb.subset hm) c hc rfl

theorem Inv.running_begun {s : St Op Res} (h : Inv s) {c : Nat} (ht : s.thread = .running c) : c ∈ begun s.notes := by
  have he := h.executing
  rw [ht] at he
  rw [Serial.begun_eq he]
  simp

theorem Inv.answering_begun {s : St Op Res} (h : Inv s) {c : Nat} {v : Res} (ht : s.thread = .answering c v) :
    c ∈ begun s.notes := by
  have he := h.executing
  rw [ht] at he
  exact Serial.begun_of_ended he.1 he.2

theorem init_inv : Inv (init : St Op Res) := by
  constructor
  case line => exact ⟨[], rfl, List.Sublist.refl _⟩
  case executing => exact .nil
  case gone => intro h; cases h
  all_goals simp [init, Caller.submitted, inHand]

theorem Inv.called {s : St Op Res} (h : Inv s) {c : Nat} (hc : s.caller c ≠ .absent) : c < s.next := by
  rcases Nat.lt_or_ge c s.next with hlt | hge
  · exact hlt
  · exact absurd (h.fresh c hge) hc

/-- A caller's move: only its own entry (and with it its flag) changes, the thread and
    the channel do not. -/
theorem move_inv {s : St Op Res} (h : Inv s) {c : Nat} {k : Caller Res} {flags : Nat → Bool}
    (hc : s.caller c ≠ .absent) (hsub : k.submitted = (s.caller c).submitted)
    (hun : (s.caller c).unanswered = true → s.mail c = .empty → k.unanswered = true)
    (hres : ∀ v, k = .returned (.result v) → s.mail c = .reply v)
    (hflags : ∀ d, s.abandoned d = true → flags d = true) (hto : k = .returned .timeout → flags c = true)
    (hgone : s.dropped = true → k.hasReturned = true) :
    Inv { s with caller := update s.caller c k, abandoned := flags } := by
  refine ⟨?_, ?_, h.sentOnce, h.line, h.executing, h.unsent, h.mailed, ?_, ?_, ?_, ?_⟩
  · intro d hd
    have hd' : s.next ≤ d := hd
    have hne : d ≠ c := by have := h.called hc; omega
    simpa [update_of_ne hne] using h.fresh d hd'
  · intro d
    by_cases e : d = c
    · subst e; simpa [hsub] using h.sentIff d
    · simpa [update_of_ne e] using h.sentIff d
  · intro d v hv
    by_cases e : d = c
    · subst e
      simp only [update_self] at hv
      exact h.mailed d v (hres v hv)
    · simp only [update_of_ne e] at hv
      exact h.answered d v hv
  · intro d hd
    obtain ⟨hm, hu⟩ := h.pending d hd
    refine ⟨hm, ?_⟩
    by_cases e : d = c
    · subst e; simpa using hun hu hm
    · simpa [update_of_ne e] using hu
  · intro d hd
    by_cases e : d = c
    · subst e; simp only [update_self] at hd; exact hto hd
    · simp only [update_of_ne e] at hd; exact hflags d (h.timedOut d hd)
  · intro hg d
    by_cases e : d = c
    · subst e; exact .inr (by simpa using hgone hg)
    · simpa [update_of_ne e] using h.gone hg d

theorem Inv.not_dropped {s : St Op Res} (h : Inv s) {c : Nat} (ha : s.caller c ≠ .absent)
    (hr : (s.caller c).hasReturned = false) : s.dropped = false := by
  cases hd : s.dropped with
  | false => rfl
  | true =>
    rcases h.gone hd c with h' | h'
    · exact absurd h' ha
    · rw [hr] at h'; cases h'

theorem call_inv {s : St Op Res} (h : Inv s) (op : Op) : Inv (step s (.call op)) := by
  simp only [step]
  split
  · exact h
  rename_i hnd
  have habs := h.fresh s.next (Nat.le_refl _)
  refine ⟨?_, ?_, h.sentOnce, h.line, h.executing, h.unsent, h.mailed, ?_, ?_, ?_, fun hg d => absurd hg hnd⟩
  · intro d hd
    have hd' : s.next + 1 ≤ d := hd
    have hne : d ≠ s.next := by omega
    simpa [update_of_ne hne] using h.fresh d (by omega)
  · intro d
    by_cases e : d = s.next
    · subst e; simpa [habs, Caller.submitted] using h.sentIff s.next
    · simpa [update_of_ne e] using h.sentIff d
  · intro d v hv
    by_cases e : d = s.next
    · subst e; simp at hv
    · simp only [update_of_ne e] at hv; exact h.answered d v hv
  · intro d hd
    obtain ⟨hm, hu⟩ := h.pending d hd
    have e : d ≠ s.next := by
      intro heq
      subst heq
      rw [habs] at hu
      cases hu
    exact ⟨hm, by simpa [update_of_ne e] using hu⟩
  · intro d hd
    by_cases e : d = s.next
    · subst e; simp at hd
    · simp only [update_of_ne e] at hd; exact h.timedOut d hd

/-- A job that reaches the channel goes to its end. -/
theorem enqueue_inv {s : St Op Res} (h : Inv s) {c : Nat} (hc : s.caller c = .submitting) :
    Inv { s with queue := s.queue ++ [c], sent := s.sent ++ [c], caller := update s.caller c .waiting } := by
  have hns : c ∉ s.sent := fun hm => by
    have := (h.sentIff c).mp hm
    rw [hc] at this
    cases this
  refine ⟨?_, ?_, ?_, ?_, h.executing,
    fun d hd => h.unsent d fun hm => hd (List.mem_append_left _ hm), h.mailed, ?_, ?_,
    ?_, ?_⟩
  · intro d hd
    have hd' : s.next ≤ d := hd
    have hne : d ≠ c := by have := h.called (c := c) (by simp [hc]); omega
    simpa [update_of_ne hne] using h.fresh d hd'
  · intro d
    by_cases e : d = c
    · subst e; simp [Caller.submitted]
    · simpa [update_of_ne e, e] using h.sentIff d
  · refine List.nodup_append.mpr ⟨h.sentOnce, by simp, ?_⟩
    intro a ha b hb
    obtain rfl := List.mem_singleton.mp hb
    intro heq
    subst heq
    exact hns ha
  · obtain ⟨past, hs, hb⟩ := h.line
    exact ⟨past, by simp only [hs, List.append_assoc]; rfl, hb⟩
  · intro d v hv
    by_cases e : d = c
    · subst e; simp at hv
    · simp only [update_of_ne e] at hv; exact h.answered d v hv
  · intro d hd
    have hd' : d ∈ inHand s ++ s.queue ∨ d = c := by
      rw [← List.mem_singleton, ← List.mem_append, List.append_assoc]; exact hd
    by_cases e : d = c
    · subst e
      exact ⟨h.unsent d hns, by simp [Caller.unanswered]⟩
    · obtain ⟨hm, hu⟩ := h.pending d (hd'.resolve_right e)
      exact ⟨hm, by simpa [update_of_ne e] using hu⟩
  · intro d hd
    by_cases e : d = c
    · subst e; simp at hd
    · simp only [update_of_ne e] at hd; exact h.timedOut d hd
  · intro hg d
    have := h.not_dropped (c := c) (by simp [hc]) (by simp [hc, Caller.hasReturned])
    have hg' : s.dropped = true := hg
    rw [this] at hg'
    cases hg'

theorem trySend_inv {s : St Op Res} (h : Inv s) (c : Nat) : Inv (step s (.trySend c)) := by
  simp only [step]
  split
  · rename_i hc _
    exact move_inv h (by simp [hc]) (by simp [hc, Caller.submitted]) (by simp [hc, Caller.unanswered]) (by simp)
      (fun _ h => h) (by simp) fun _ => rfl
  · rename_i hc _
    split
    · exact enqueue_inv h hc
    · exact move_inv h (by simp [hc]) (by simp [hc, Caller.submitted]) (by simp [hc, Caller.unanswered]) (by simp)
        (fun _ h => h) (by simp) fun _ => rfl
  · exact h

theorem dequeue_inv {s : St Op Res} (h : Inv s) : Inv (step s .dequeue) := by
  simp only [step]
  split
  · rename_i c q ht hq
    have hin : inHand s ++ s.queue = [c] ++ q := by simp [inHand, ht, hq]
    refine ⟨h.fresh, h.sentIff, h.sentOnce, ?_, ?_, h.unsent, h.mailed, h.answered, ?_, h.timedOut, h.gone⟩
    · obtain ⟨past, hs, hb⟩ := h.line
      exact ⟨past, by rw [hs, hin]; rfl, hb⟩
    · have := h.executing
      rw [ht] at this
      exact this
    · intro d hd
      exact h.pending d (by rw [hin]; exact hd)
  · exact h

theorem load_inv {s : St Op Res} (h : Inv s) : Inv (step s .load) := by
  simp only [step]
  split
  · rename_i c ht
    have hin : inHand s = [c] := by simp [inHand, ht]
    have hser : Serial none s.notes := by have := h.executing; rw [ht] at this; exact this
    obtain ⟨past, hs, hb⟩ := h.line
    rw [hin] at hs
    have hsent : c ∈ s.sent := by rw [hs]; simp
    have hne : ∀ d ∈ s.queue, d ≠ c := by
      have hn := h.sentOnce
      rw [hs] at hn
      have := (List.nodup_append.mp hn).2.1
      rw [List.singleton_append, List.nodup_cons] at this
      intro d hd heq
      subst heq
      exact this.1 hd
    split
    · -- abandoned: the job is dropped and its reply channel closes
      refine ⟨h.fresh, h.sentIff, h.sentOnce, ⟨past ++ [c], ?_, hb.trans (List.sublist_append_left _ _)⟩, hser,
        ?_, ?_, h.answered, ?_, h.timedOut, h.gone⟩
      · rw [hs, List.append_assoc]; rfl
      · intro d hd
        have e : d ≠ c := by
          intro heq
          subst heq
          exact hd hsent
        simpa [update_of_ne e] using h.unsent d hd
      · intro d v hv
        by_cases e : d = c
        · subst e; simp at hv
        · simp only [update_of_ne e] at hv; exact h.mailed d v hv
      · intro d hd
        have hd' : d ∈ s.queue := hd
        simpa [update_of_ne (hne d hd')] using h.pending d (List.mem_append_right _ hd')
    · refine ⟨h.fresh, h.sentIff, h.sentOnce, ⟨past ++ [c], ?_, ?_⟩, .began c hser, h.unsent, ?_,
        ?_, ?_, h.timedOut, h.gone⟩
      · rw [hs, List.append_assoc]; rfl
      · rw [begun_began]; exact hb.append_right [c]
      · intro d v hv
        exact List.mem_append_left _ (h.mailed d v hv)
      · intro d v hv
        exact List.mem_append_left _ (h.answered d v hv)
      · intro d hd
        exact h.pending d (List.mem_append_right _ hd)
  · exact h

theorem finish_inv {s : St Op Res} (h : Inv s) (v : Res) : Inv (step s (.finish v)) := by
  simp only [step]
  split
  · rename_i c ht
    have hser : Serial (some c) s.notes := by have := h.executing; rw [ht] at this; exact this
    have hin : inHand s = [] := by simp [inHand, ht]
    refine ⟨h.fresh, h.sentIff, h.sentOnce, ?_, ⟨.ended c v hser, by simp⟩, h.unsent, ?_,
      ?_, ?_, h.timedOut, h.gone⟩
    · obtain ⟨past, hs, hb⟩ := h.line
      exact ⟨past, by rw [hs, hin]; rfl, by simpa using hb⟩
    · intro d w hw
      exact List.mem_append_left _ (h.mailed d w hw)
    · intro d w hw
      exact List.mem_append_left _ (h.answered d w hw)
    · intro d hd
      exact h.pending d (by rw [hin]; exact hd)
  · exact h

theorem reply_inv {s : St Op Res} (h : Inv s) : Inv (step s .reply) := by
  simp only [step]
  split
  · rename_i c v ht
    have hex : Serial none s.notes ∧ .ended c v ∈ s.notes := by have := h.executing; rw [ht] at this; exact this
    have hin : inHand s = [] := by simp [inHand, ht]
    have hb := h.answering_begun ht
    refine ⟨h.fresh, h.sentIff, h.sentOnce, ?_, hex.1, ?_, ?_, h.answered, ?_, h.timedOut, h.gone⟩
    · obtain ⟨past, hs, hsub⟩ := h.line
      exact ⟨past, by rw [hs, hin]; rfl, hsub⟩
    · intro d hd
      have e : d ≠ c := by
        intro heq
        subst heq
        exact hd (h.begun_sublist.subset hb)
      simpa [update_of_ne e] using h.unsent d hd
    · intro d w hw
      by_cases e : d = c
      · subst e; simp at hw; subst hw; exact hex.2
      · simp only [update_of_ne e] at hw; exact h.mailed d w hw
    · intro d hd
      have hd' : d ∈ inHand s ++ s.queue := by rw [hin]; exact hd
      have e : d ≠ c := by
        intro heq
        subst heq
        exact h.not_begun hd' hb
      simpa [update_of_ne e] using h.pending d hd'
  · exact h

theorem panic_inv {s : St Op Res} (h : Inv s) : Inv (step s .panic) := by
  simp only [step]
  split
  · rename_i c ht
    have hser : Serial (some c) s.notes := by have := h.executing; rw [ht] at this; exact this
    obtain ⟨past, hs, hb⟩ := h.line
    have hin : inHand s = [] := by simp [inHand, ht]
    refine ⟨h.fresh, h.sentIff, h.sentOnce, ⟨s.sent, by simp [inHand], h.begun_sublist⟩, ⟨_, hser⟩, ?_,
      ?_, h.answered, ?_, h.timedOut, h.gone⟩
    · intro d hd
      have hc : d ≠ c := by
        intro heq
        subst heq
        exact hd (h.begun_sublist.subset (h.running_begun ht))
      have hq : d ∉ s.queue := fun hm => hd (by rw [hs]; simp [hm])
      simpa [hc, hq] using h.unsent d hd
    · intro d w hw
      by_cases e : d = c ∨ d ∈ s.queue
      · simp [e] at hw
      · simp only [e, if_false] at hw; exact h.mailed d w hw
    · intro d hd
      simp [inHand] at hd
  · exact h

theorem exit_inv {s : St Op Res} (h : Inv s) : Inv (step s .exit) := by
  simp only [step]
  split
  · rename_i ht hq
    split
    · have hser : Serial none s.notes := by have := h.executing; rw [ht] at this; exact this
      refine ⟨h.fresh, h.sentIff, h.sentOnce, ?_, ⟨_, hser⟩, h.unsent, h.mailed, h.answered, ?_,
        h.timedOut, h.gone⟩
      · obtain ⟨past, hs, hb⟩ := h.line
        exact ⟨past, by simpa [inHand, ht] using hs, hb⟩
      · intro d hd
        simp [inHand, hq] at hd
    · exact h
  · exact h

theorem recv_inv {s : St Op Res} (h : Inv s) (c : Nat) : Inv (step s (.recv c)) := by
  simp only [step]
  split
  · rename_i v hc hm
    exact move_inv h (by simp [hc]) (by simp [hc, Caller.submitted]) (by simp [hm]) (by simp [hm]) (fun _ h => h)
      (by simp) fun _ => rfl
  · rename_i hc hm
    exact move_inv h (by simp [hc]) (by simp [hc, Caller.submitted]) (by simp [hm]) (by simp) (fun _ h => h)
      (by simp) fun _ => rfl
  · exact h

theorem expire_inv {s : St Op Res} (h : Inv s) (c : Nat) : Inv (step s (.expire c)) := by
  simp only [step]
  split
  · rename_i hc _
    have hnd := h.not_dropped (c := c) (by simp [hc]) (by simp [hc, Caller.hasReturned])
    exact move_inv h (by simp [hc]) (by simp [hc, Caller.submitted]) (fun _ _ => rfl) (by simp) (fun _ h => h)
      (by simp) (by simp [hnd])
  · exact h

theorem store_inv {s : St Op Res} (h : Inv s) (c : Nat) : Inv (step s (.store c)) := by
  simp only [step]
  split
  · rename_i hc
    refine move_inv h (by simp [hc]) (by simp [hc, Caller.submitted]) (fun _ _ => rfl) (by simp) ?_
      (by simp) fun _ => rfl
    intro d hd
    by_cases e : d = c
    · subst e; simp
    · simpa [update_of_ne e] using hd
  · exact h

theorem drop_inv {s : St Op Res} (h : Inv s) : Inv (step s .drop) := by
  simp only [step]
  split
  · rename_i hall
    refine ⟨h.fresh, h.sentIff, h.sentOnce, h.line, h.executing, h.unsent, h.mailed, h.answered, h.pending, h.timedOut,
      ?_⟩
    intro _ c
    rcases Nat.lt_or_ge c s.next with hlt | hge
    · exact .inr (List.all_eq_true.mp hall c (List.mem_range.mpr hlt))
    · exact .inl (h.fresh c hge)
  · exact h

theorem step_inv {s : St Op Res} (h : Inv s) (e : Ev Op Res) : Inv (step s e) := by
  cases e with
  | call op => exact call_inv h op
  | trySend c => exact trySend_inv h c
  | dequeue => exact dequeue_inv h
  | load => exact load_inv h
  | finish v => exact finish_inv h v
  | reply => exact reply_inv h
  | panic => exact panic_inv h
  | exit => exact exit_inv h
  | recv c => exact recv_inv h c
  | expire c => exact expire_inv h c
  | store c => exact store_inv h c
  | drop => exact drop_inv h

theorem inv {s : St Op Res} (h : (machine Op Res).Reach s) : Inv s :=
  Machine.ReachIn.invariant (P := Inv) (fun _ h0 => by cases h0; exact init_inv) (fun _ e _ hs => step_inv hs e) h

/-! ## Going on from a state -/

def Note.call : Note Res → Nat
  | .began c => c
  | .ended c _ => c

/-- The operation of call `c` began or ended between `s` and `t`. -/
def RunsAfter (c : Nat) (s t : St Op Res) : Prop := ∃ new, t.notes = s.notes ++ new ∧ ∃ n ∈ new, n.call = c

/-- Nothing of call `c` happened since the history was `l`, and its operation is not
    executing. -/
structure Quiet (c : Nat) (l : List (Note Res)) (u : St Op Res) : Prop where
  idle : u.thread ≠ .running c
  silent : ∃ new, u.notes = l ++ new ∧ ∀ n ∈ new, n.call ≠ c

theorem Quiet.not_runsAfter {c : Nat} {s t : St Op Res} (h : Quiet c s.notes t) : ¬ RunsAfter c s t := by
  intro h'
  obtain ⟨new, hn, n, hm, hc⟩ := h'
  obtain ⟨new', hn', hs⟩ := h.silent
  rw [hn] at hn'
  rw [List.append_cancel_left hn'] at hm
  exact hs n hm hc

/-- Only a flag load that finds the flag clear can start the operation of a quiet call. -/
theorem step_quiet {c : Nat} {l : List (Note Res)} {u : St Op Res} (h : Quiet c l u) (e : Ev Op Res)
    (hload : e = .load → u.thread = .taken c → u.abandoned c = true) : Quiet c l (step u e) := by
  obtain ⟨hi, new, hn, hs⟩ := h
  have keep : ∀ {v : St Op Res}, v.thread ≠ .running c → v.notes = u.notes → Quiet c l v :=
    fun ht hv => ⟨ht, new, by rw [hv, hn], hs⟩
  have add : ∀ {v : St Op Res} (n : Note Res), v.thread ≠ .running c → v.notes = u.notes ++ [n] → n.call ≠ c →
      Quiet c l v := by
    intro v n ht hv hne
    refine ⟨ht, new ++ [n], by rw [hv, hn, List.append_assoc], ?_⟩
    intro m hm
    rcases List.mem_append.mp hm with hm | hm
    · exact hs m hm
    · rw [List.mem_singleton.mp hm]; exact hne
  cases e with
  | load =>
    simp only [step]
    split
    · rename_i d ht
      split
      · exact keep (by simp) rfl
      · rename_i hab
        have hne : d ≠ c := by
          intro heq
          subst heq
          exact hab (hload rfl ht)
        exact add (.began d) (by simpa using hne) rfl hne
    · exact keep hi rfl
  | finish v =>
    simp only [step]
    split
    · rename_i d ht
      have hne : d ≠ c := by
        intro heq
        subst heq
        exact hi ht
      exact add (.ended d v) (by simp) rfl hne
    · exact keep hi rfl
  | call op | recv d | expire d | store d | drop => simp only [step]; split <;> exact keep hi rfl
  | trySend d =>
    simp only [step]
    split
    · exact keep hi rfl
    · split <;> exact keep hi rfl
    · exact keep hi rfl
  | dequeue | reply | panic =>
    simp only [step]
    split
    · exact keep (by simp) rfl
    · exact keep hi rfl
  | exit =>
    simp only [step]
    split
    · split
      · exact keep (by simp) rfl
      · exact keep hi rfl
    · exact keep hi rfl

theorem step_abandoned {u : St Op Res} {c : Nat} (h : u.abandoned c = true) (e : Ev Op Res) :
    (step u e).abandoned c = true := by
  cases e with
  | store d =>
    simp only [step]
    split
    · by_cases e : c = d
      · subst e; simp
      · simpa [update_of_ne e] using h
    · exact h
  | call | trySend | dequeue | load | finish | reply | panic | exit | recv | expire | drop =>
    simp only [step]
    repeat' split
    all_goals exact h

theorem step_returned {u : St Op Res} (hi : Inv u) {c : Nat} {o : Outcome Res} (h : u.caller c = .returned o)
    (e : Ev Op Res) : (step u e).caller c = .returned o := by
  have hother : ∀ d k, u.caller d ≠ .returned o → update u.caller d k c = .returned o := by
    intro d k hd
    have : c ≠ d := by
      intro heq
      subst heq
      exact hd h
    rw [update_of_ne this]; exact h
  cases e with
  | call op =>
    simp only [step]
    split
    · exact h
    · exact hother _ _ (by rw [hi.fresh _ (Nat.le_refl _)]; simp)
  | trySend d =>
    simp only [step]
    split
    · rename_i hd _; exact hother _ _ (by simp [hd])
    · rename_i hd _; split <;> exact hother _ _ (by simp [hd])
    · exact h
  | recv d =>
    simp only [step]
    split
    · rename_i hd _; exact hother _ _ (by simp [hd])
    · rename_i hd _; exact hother _ _ (by simp [hd])
    · exact h
  | expire d =>
    simp only [step]
    split
    · rename_i hd _; exact hother _ _ (by simp [hd])
    · exact h
  | store d =>
    simp only [step]
    split
    · rename_i hd; exact hother _ _ (by simp [hd])
    · exact h
  | dequeue | load | finish | reply | panic | exit | drop =>
    simp only [step]
    repeat' split
    all_goals exact h

/-- Dropped, with every job still to be decided abandoned. -/
structure Drained (u : St Op Res) : Prop where
  inv : Inv u
  dropped : u.dropped = true
  abandoned : ∀ c ∈ inHand u ++ u.queue, u.abandoned c = true

/-- Every caller of a dropped session is gone, so what is queued was given up. -/
theorem Inv.drained {u : St Op Res} (h : Inv u) (hd : u.dropped = true) : Drained u := by
  refine ⟨h, hd, ?_⟩
  intro c hc
  have hu := (h.pending c hc).2
  rcases h.gone hd c with ha | hr
  · rw [ha] at hu; cases hu
  · apply h.timedOut c
    cases hk : u.caller c with
    | returned o =>
      rw [hk] at hu
      cases o with
      | timeout => rfl
      | full | stopped | result | lost => cases hu
    | absent | submitting | waiting | expired => rw [hk] at hr; cases hr

theorem step_dropped {u : St Op Res} (h : u.dropped = true) (e : Ev Op Res) : (step u e).dropped = true := by
  cases e <;> simp only [step] <;> (repeat' split) <;> first | exact h | rfl

theorem path_notes {s t : St Op Res} {G : St Op Res → Ev Op Res → Prop} (p : (machine Op Res).Path G s t) :
    ∃ new, t.notes = s.notes ++ new := by
  refine p.invariant (P := fun u => ∃ new, u.notes = s.notes ++ new) ?_ ⟨[], by simp⟩
  intro u e _ hu
  obtain ⟨new, hn⟩ := hu
  have grow : ∃ more, (step u e).notes = u.notes ++ more := by
    cases e <;> simp only [step] <;> (repeat' split) <;> first | exact ⟨_, rfl⟩ | exact ⟨[], by simp⟩
  obtain ⟨more, hm⟩ := grow
  exact ⟨new ++ more, by show (step u e).notes = _; rw [hm, hn, List.append_assoc]⟩

theorem quiet_after {c : Nat} {s t : St Op Res} (p : (machine Op Res).Path (fun _ _ => True) s t)
    (hi : s.thread ≠ .running c) (hab : s.abandoned c = true) : Quiet c s.notes t := by
  have := p.invariant (P := fun u => u.abandoned c = true ∧ Quiet c s.notes u)
    (fun u e _ hu => ⟨step_abandoned hu.1 e, step_quiet hu.2 e fun _ _ => hu.1⟩)
    ⟨hab, hi, [], by simp, by simp⟩
  exact this.2

theorem quiet_when_dropped {c : Nat} {s t : St Op Res} (p : (machine Op Res).Path (fun _ _ => True) s t)
    (hs : Inv s) (hd : s.dropped = true) (hi : s.thread ≠ .running c) : Quiet c s.notes t := by
  have := p.invariant (P := fun u => Drained u ∧ Quiet c s.notes u)
    (fun u e _ hu => ⟨(step_inv hu.1.inv e).drained (step_dropped hu.1.dropped e), step_quiet hu.2 e fun _ ht =>
      hu.1.abandoned c (List.mem_append_left _ (by simp [inHand, ht]))⟩)
    ⟨hs.drained hd, hi, [], by simp, by simp⟩
  exact this.2

theorem begun_runsAfter {c : Nat} {s t : St Op Res} (p : (machine Op Res).Path (fun _ _ => True) s t)
    (hs : c ∉ begun s.notes) (ht : c ∈ begun t.notes) : RunsAfter c s t := by
  obtain ⟨new, hn⟩ := path_notes p
  have hsplit : begun t.notes = begun s.notes ++ begun new := by rw [hn]; exact List.filterMap_append
  rw [hsplit] at ht
  have hnew := (List.mem_append.mp ht).resolve_left hs
  obtain ⟨n, hm, hc⟩ := List.mem_filterMap.mp hnew
  refine ⟨new, hn, n, hm, ?_⟩
  cases n with
  | began d => simpa [Note.call] using hc
  | ended d v => simp at hc

/-! ## The actor's contract -/

/-- What holds of a reachable state `s` and of every state `t` a run goes on to. -/
structure Contract (s t : St Op Res) : Prop where
  oneAtATime : ∃ o, Serial o s.notes
  enqueueOrder : (begun s.notes).Sublist s.sent
  atMostOnce : (begun s.notes).Nodup
  ownResult : ∀ c v, s.caller c = .returned (.result v) →
    (begun s.notes).count c = 1 ∧ .ended c v ∈ s.notes ∧ ∀ w, .ended c w ∈ s.notes → w = v
  refusedNeverRuns : ∀ c, s.caller c = .returned .full ∨ s.caller c = .returned .stopped → c ∉ begun t.notes
  abandonedNeverRuns : ∀ c, s.abandoned c = true → c ∉ begun s.notes → c ∉ begun t.notes
  /-- Only the operation already executing can still run after its caller's Timeout. -/
  afterTimeout : ∀ c, s.caller c = .returned .timeout → RunsAfter c s t → s.thread = .running c
  afterDrop : s.dropped = true → ∀ c, RunsAfter c s t → s.thread = .running c

/-- From any reachable state on the worker is an actor: operations run one at a time, in the
    order they were queued, each at most once and its result for its own caller only; one that
    was refused never runs, and after its caller's timeout, or the session's drop, only the
    one already executing does. -/
theorem actor_semantics {s t : St Op Res} (hs : (machine Op Res).Reach s)
    (p : (machine Op Res).Path (fun _ _ => True) s t) : Contract s t := by
  have h := inv hs
  have ht : Inv t := p.invariant (P := Inv) (fun _ e _ hu => step_inv hu e) h
  have hnodup : (begun s.notes).Nodup := h.begun_sublist.nodup h.sentOnce
  obtain ⟨o, hser⟩ := h.executing.serial
  constructor
  case oneAtATime => exact ⟨o, hser⟩
  case enqueueOrder => exact h.begun_sublist
  case atMostOnce => exact hnodup
  case ownResult =>
    intro c v hv
    have hend := h.answered c v hv
    have hdone : (completed s.notes).Nodup := by
      rw [hser.begun_eq] at hnodup
      exact (List.nodup_append.mp hnodup).1
    exact ⟨by rw [hnodup.count, if_pos (hser.begun_of_ended hend)], hend, fun w hw => ended_unique hdone hw hend⟩
  case refusedNeverRuns =>
    intro c hc hb
    have stays : ∀ o, s.caller c = .returned o → t.caller c = .returned o := fun o ho =>
      (p.invariant (P := fun u => Inv u ∧ u.caller c = .returned o)
        (fun _ e _ hu => ⟨step_inv hu.1 e, step_returned hu.1 hu.2 e⟩) ⟨h, ho⟩).2
    have hsub := (ht.sentIff c).mp (ht.begun_sublist.subset hb)
    rcases hc with hc | hc <;> rw [stays _ hc] at hsub <;> cases hsub
  case abandonedNeverRuns =>
    intro c hab hnb hb
    have hidle : s.thread ≠ .running c := fun hr => hnb (h.running_begun hr)
    exact (quiet_after p hidle hab).not_runsAfter (begun_runsAfter p hnb hb)
  case afterTimeout =>
    intro c hc hr
    by_contra hidle
    exact (quiet_after p hidle (h.timedOut c hc)).not_runsAfter hr
  case afterDrop =>
    intro hd c hr
    by_contra hidle
    exact (quiet_when_dropped p h hd hidle).not_runsAfter hr

/-- Two calls: the first is executing when its caller times out, the second is given up
    in the queue; then the session is dropped, the first still ends and the second never
    begins. -/
def droppedRun : List (Ev Nat Nat) :=
  [.call 10, .call 11, .trySend 0, .trySend 1, .dequeue, .load, .expire 0, .store 0, .expire 1, .store 1, .drop]

theorem actor_semantics_dropped_run :
    Contract ((machine Nat Nat).run init droppedRun)
      ((machine Nat Nat).run ((machine Nat Nat).run init droppedRun) [.finish 5, .reply, .dequeue, .load]) :=
  actor_semantics (Machine.Reach.run rfl droppedRun) (Machine.Path.run _ _)

example : begun ((machine Nat Nat).run ((machine Nat Nat).run init droppedRun)
    [.finish 5, .reply, .dequeue, .load]).notes = [0] := by decide

end Grainlift.Server.Worker
