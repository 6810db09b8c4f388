/-
  Grainlift.Server.OpenQuota — how many `backend.open` calls can run at once
  (`SessionManager::open`, session.rs), over the opens of Grainlift.Server.Admission.

  A reservation belongs to the caller that waits, the `backend.open` it pays for runs on a
  thread of its own. docs/security.md says that opening calls reserve quota before they
  start a driver connection, so that concurrent opens cannot exceed the bounds. The caller
  waits no longer than `operation_timeout`, and `open` then releases the reservation
  though the thread still runs: the next open is admitted beside it
  (`over_quota_after_timeout`).

  Proved (`open_quota`): in every run whose releases find their own `backend.open` no
  longer running, the calls running and the registered sessions together stay within
  `max_sessions`, and for each principal within `max_sessions_per_principal`.
-/

import Grainlift.Server.Admission

namespace Grainlift.Server.OpenQuota

open Grainlift.Lib Grainlift.Protocol SessionRegistry Admission

variable {ρ : Type} {cfg : Config} {s : St ρ} {o o' : Open ρ} {m : Move ρ}

/-- Its `backend.open` has started and not returned. -/
def running (o : Open ρ) : Bool :=
  match o.backend with
  | .running => true
  | _ => false

def runningFor (p : String) (o : Open ρ) : Bool := o.principal == p && running o

/-- The calls running and the registered sessions, in total and for each principal. -/
def WithinQuota (cfg : Config) (s : St ρ) : Prop :=
  s.opens.countP running + s.registry.sessions.size ≤ cfg.limits.maxSessions ∧
  ∀ p, s.opens.countP (runningFor p) + s.registry.sessions.count (ownedBy p) ≤ cfg.limits.maxSessionsPerPrincipal

/-- An open gives its reservation back only once its own `backend.open` has returned. -/
def Outwaits (s : St ρ) : Ev ρ → Prop
  | .move i .release => ∀ o, s.opens[i]? = some o → running o = false
  | _ => True

/-- What runs is paid for, and an open that has its connection runs nothing. -/
structure Paid (o : Open ρ) : Prop where
  holds : running o = true → o.holds = true
  done : (∃ c, o.stage = .opened c) ∨ (∃ session, o.stage = .ready session) → running o = false

theorem Paid.idle (h : running o = false) : Paid o := ⟨fun hr => absurd hr (by simp [h]), fun _ => h⟩

/-- A move to a stage without a connection that keeps what was reserved. -/
theorem Paid.keep (h : Paid o) (hr : running o' = running o) (hh : o.holds = true → o'.holds = true)
    (hst : ¬ ((∃ c, o'.stage = .opened c) ∨ ∃ session, o'.stage = .ready session)) : Paid o' :=
  ⟨fun hrun => hh (h.holds (hr ▸ hrun)), fun hc => absurd hc hst⟩

theorem advance_paid {closing : Bool} {now : Nat} (h : Advance closing now o m o') (hso : o.Sound) (hp : Paid o)
    (hg : m = .release → running o = false) : Paid o' := by
  cases h with
  | stay => exact hp
  | refused | checked | reaped | denied | spawnFailed | receivedError | expired =>
    exact hp.keep rfl (fun h => h) (by simp)
  | reserved hst =>
    refine hp.keep rfl ?_ (by simp)
    intro h
    simp only [Open.holds, decide_eq_true_eq] at h ⊢
    omega
  | spawned hst =>
    simp only [Open.Sound, hst] at hso
    refine ⟨?_, by simp⟩
    intro _
    simp only [Open.holds, decide_eq_true_eq]
    omega
  | backendReturned | backendPanicked => exact .idle rfl
  | received c _ hb => exact .idle (by simp [running, hb])
  | started c hst => exact .idle (hp.done (.inl ⟨c, hst⟩))
  | startFailed _ _ c hst => exact .idle (hp.done (.inl ⟨c, hst⟩))
  | released e hst => exact .idle (hg rfl)
  | inserted _ session hst => exact .idle (hp.done (.inr ⟨session, hst⟩))
  | insertRefused _ session _ hst => exact .idle (hp.done (.inr ⟨session, hst⟩))

theorem step_paid (hi : Admission.Inv cfg s) (h : ∀ o ∈ s.opens, Paid o) (e : Ev ρ) (hg : Outwaits s e) :
    ∀ o ∈ (step cfg s e).opens, Paid o := by
  rcases step_opens cfg s e with he | ⟨_, _, stage, -, hst, he⟩ | ⟨j, m, o1, o2, rfl, hj, he, ha⟩
  · rwa [he]
  · rw [he]
    intro o ho
    rcases List.mem_append.mp ho with hm | hm
    · exact h o hm
    · obtain rfl := List.mem_singleton.mp hm
      exact .idle rfl
  · rw [he]
    intro o ho
    rcases List.mem_or_eq_of_mem_set ho with hm | rfl
    · exact h o hm
    · refine advance_paid ha (hi.soundAt hj) (h o1 (List.mem_of_getElem? hj)) ?_
      intro heq
      subst heq
      exact hg o1 hj

theorem reach_paid (h : (machine cfg ρ).ReachIn Outwaits s) : ∀ o ∈ s.opens, Paid o :=
  h.invariant_under (I := Admission.Inv cfg) (P := fun s => ∀ o ∈ s.opens, Paid o) (fun _ hs => inv hs.reach)
    (fun _ h0 => by cases h0; intro o ho; cases ho) fun _ e hg hi _ hp => step_paid hi hp e hg

/-- Backend opens that run and sessions together stay within the quota, in every run whose
    opens do not release before their own `backend.open` has returned. -/
theorem open_quota (cfg : Config) (s : St ρ) (h : (machine cfg ρ).ReachIn Outwaits s) : WithinQuota cfg s := by
  have hb := (inv h.reach).books
  have hpaid := reach_paid h
  refine ⟨?_, ?_⟩
  · have hle : s.opens.countP running ≤ s.opens.countP Open.holds :=
      List.countP_mono_left fun o ho hr => (hpaid o ho).holds hr
    have := hb.bound
    rw [hb.total] at this
    omega
  · intro p
    have hle : s.opens.countP (runningFor p) ≤ s.opens.countP (Open.holdsFor p) :=
      List.countP_mono_left fun o ho hr => by
        simp only [runningFor, Open.holdsFor, Bool.and_eq_true] at hr ⊢
        exact ⟨hr.1, (hpaid o ho).holds hr.2⟩
    have := hb.boundFor p
    rw [hb.byPrincipal] at this
    omega

def oneSession : Config := { twoSessions with limits := ⟨1, 1, 1, 1⟩ }

/-- The first open fails and its driver call returned before the release; the second runs. -/
def secondAfterReturn : List (Ev Unit) :=
  [.open "alice" "main", .move 0 .checkClosing, .move 0 .reap, .move 0 .reserve, .move 0 (.spawn none),
    .move 0 .expire, .move 0 (.backendReturns (.ok ())), .move 0 .release,
    .open "alice" "main", .move 1 .checkClosing, .move 1 .reap, .move 1 .reserve, .move 1 (.spawn none)]

theorem open_quota_after_return :
    ((machine oneSession Unit).run Admission.init secondAfterReturn).opens.countP running = 1 ∧
    WithinQuota oneSession ((machine oneSession Unit).run Admission.init secondAfterReturn) := by
  refine ⟨by decide, open_quota oneSession _ (Machine.ReachIn.run (.init rfl) ?_)⟩
  simp only [secondAfterReturn, Machine.Admits, Outwaits, true_and, and_true]
  intro o ho
  cases ho
  rfl

/-- The caller gave up on a slow `backend.open` and released; the next open starts another
    beside it. -/
def afterTimeout : St Unit := (machine oneSession Unit).run Admission.init
  [.open "alice" "main", .move 0 .checkClosing, .move 0 .reap, .move 0 .reserve, .move 0 (.spawn none),
    .move 0 .expire, .move 0 .release,
    .open "alice" "main", .move 1 .checkClosing, .move 1 .reap, .move 1 .reserve, .move 1 (.spawn none)]

theorem over_quota_after_timeout : (machine oneSession Unit).Reach afterTimeout ∧ oneSession.limits.maxSessions = 1 ∧
    afterTimeout.opens.countP running = 2 ∧ ¬ WithinQuota oneSession afterTimeout :=
  ⟨.run rfl _, rfl, by decide, fun h => absurd h.1 (by decide)⟩

end Grainlift.Server.OpenQuota
