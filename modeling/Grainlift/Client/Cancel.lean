/-
  Grainlift.Client.Cancel — the threads of an application on one `RemoteConnection`
  (`RemoteTransport::call`, `bind_batches`, the two cancel handles;
  adbc-driver-grainlift/src/lib.rs).

  Over HTTP each call builds a client of its own. The byte transports share one client
  behind a mutex, and its guard lives to the end of the statement that waits for the reply:
  the whole of a unary call, all turns of a bind exchange. A cancel handle's request is a
  unary call like any other. Reading a result takes no shared client: over a byte transport
  the reader has a connection of its own.

  docs/adbc-protocol-review.md asks thread-safety of cancellation though ordinary calls need
  not be concurrent.

  Proved (`cancel_enabled_iff`): whenever a thread waits for the reply of a unary call or of
  a bind turn, the step that sends another thread's cancel is enabled, and can be taken
  before that reply, exactly over HTTP.
-/

import Grainlift.Lib.Machine
import Mathlib.Logic.Function.Basic

namespace Grainlift.Client.Cancel

open Grainlift.Lib Function

inductive Transport where
  | http
  | tcp
  | tls
  | iroh
  deriving DecidableEq

inductive Method where
  | cancelStatement
  | cancelConnection
  /-- Any other method, by its name. -/
  | other (name : String)
  deriving DecidableEq

inductive Call where
  | unary (m : Method)
  | bind (m : Method)
  | readResult
  deriving DecidableEq

/-- The call goes through the client the threads share. -/
def Transport.shares : Transport → Call → Bool
  | .http, _ => false
  | _, .readResult => false
  | _, _ => true

inductive Phase where
  | idle
  /-- About to take a client and send. -/
  | ready (c : Call)
  | waiting (c : Call)
  /-- A turn was acknowledged and the next one is not sent yet. -/
  | between (c : Call)
  deriving DecidableEq

structure St where
  threads : Nat → Phase
  /-- Who holds the guard of the shared client. -/
  holder : Option Nat
  sent : List (Nat × Call)

inductive Ev where
  | start (i : Nat) (c : Call)
  | send (i : Nat)
  /-- The server's reply; `last` ends a bind exchange. -/
  | reply (i : Nat) (last : Bool)
  /-- The call ends in an error of its own: a timeout, a batch that cannot be sent. -/
  | fail (i : Nat)

section Machine

variable (t : Transport)

/-- Sent, and the client taken if it is the shared one. -/
def St.sends (s : St) (i : Nat) (c : Call) : St where
  threads := update s.threads i (.waiting c)
  holder := if t.shares c then some i else s.holder
  sent := s.sent ++ [(i, c)]

/-- The call returned and its guard is dropped. -/
def St.returns (s : St) (i : Nat) (c : Call) : St :=
  { s with threads := update s.threads i .idle, holder := if t.shares c then none else s.holder }

def next (s : St) : Ev → Option St
  | .start i c =>
    match s.threads i with
    | .idle => some { s with threads := update s.threads i (.ready c) }
    | _ => none
  | .send i =>
    match s.threads i with
    | .ready c => if t.shares c && s.holder.isSome then none else some (s.sends t i c)
    | .between c => some (s.sends t i c)
    | _ => none
  | .reply i last =>
    match s.threads i with
    | .waiting (.bind m) =>
      if last then some (s.returns t i (.bind m))
        else some { s with threads := update s.threads i (.between (.bind m)) }
    | .waiting c => some (s.returns t i c)
    | _ => none
  | .fail i =>
    match s.threads i with
    | .ready _ => some { s with threads := update s.threads i .idle }
    | .waiting c => some (s.returns t i c)
    | .between c => some (s.returns t i c)
    | .idle => none

def step (s : St) (e : Ev) : St := (next t s e).getD s

def machine : Machine St Ev where
  init s := s = ⟨fun _ => .idle, none, []⟩
  step := step t

end Machine

/-! ## Who holds the client -/

variable {t : Transport} {s u : St} {i j : Nat} {c : Call}

/-- In a call, its request sent. -/
def Inside (p : Phase) (c : Call) : Prop := p = .waiting c ∨ p = .between c

/-- A thread inside a call on the shared client holds it. -/
def Held (t : Transport) (s : St) : Prop := ∀ i c, Inside (s.threads i) c → t.shares c = true → s.holder = some i

/-- What a step can do. -/
inductive Moved (t : Transport) (s : St) : Ev → St → Prop
  | start {i : Nat} {c : Call} : s.threads i = .idle →
      Moved t s (.start i c) { s with threads := update s.threads i (.ready c) }
  | send {i : Nat} {c : Call} : s.threads i = .ready c → (t.shares c = true → s.holder = none) →
      Moved t s (.send i) (s.sends t i c)
  | turn {i : Nat} {c : Call} : s.threads i = .between c → Moved t s (.send i) (s.sends t i c)
  | acknowledged {i : Nat} {last : Bool} {c : Call} : s.threads i = .waiting c →
      Moved t s (.reply i last) { s with threads := update s.threads i (.between c) }
  | returned {i : Nat} {last : Bool} {c : Call} :
      s.threads i = .waiting c → Moved t s (.reply i last) (s.returns t i c)
  | gaveUp {i : Nat} {c : Call} : s.threads i = .ready c →
      Moved t s (.fail i) { s with threads := update s.threads i .idle }
  | failed {i : Nat} {c : Call} : Inside (s.threads i) c → Moved t s (.fail i) (s.returns t i c)

theorem step_moved (t : Transport) (s : St) (e : Ev) : step t s e = s ∨ Moved t s e (step t s e) := by
  unfold step
  cases e with
  | start i c =>
    simp only [next]
    cases hp : s.threads i with
    | idle => exact .inr (.start hp)
    | _ => exact .inl rfl
  | send i =>
    simp only [next]
    cases hp : s.threads i with
    | ready c =>
      simp only
      split
      · exact .inl rfl
      · rename_i hfree
        refine .inr (.send hp ?_)
        intro hshared
        simpa [hshared] using hfree
    | between c => exact .inr (.turn hp)
    | _ => exact .inl rfl
  | reply i last =>
    simp only [next]
    cases hp : s.threads i with
    | waiting c =>
      cases c with
      | bind m =>
        cases last with
        | true => exact .inr (.returned hp)
        | false => exact .inr (.acknowledged hp)
      | unary m => exact .inr (.returned hp)
      | readResult => exact .inr (.returned hp)
    | _ => exact .inl rfl
  | fail i =>
    simp only [next]
    cases hp : s.threads i with
    | idle => exact .inl rfl
    | ready c => exact .inr (.gaveUp hp)
    | waiting c => exact .inr (.failed (.inl hp))
    | between c => exact .inr (.failed (.inr hp))

/-- Replacing the phase of a thread that is not inside a call afterwards. -/
theorem held_update (h : Held t s) {p : Phase} (hp : ∀ c, ¬ Inside p c) :
    Held t { s with threads := update s.threads i p } := by
  intro k c hk hs
  by_cases e : k = i
  · subst e
    simp only [update_self] at hk
    exact absurd hk (hp c)
  · simp only [update_of_ne e] at hk
    exact h k c hk hs

theorem not_inside_idle (c : Call) : ¬ Inside .idle c := by
  intro h
  rcases h with h | h <;> cases h

theorem not_inside_ready (d c : Call) : ¬ Inside (.ready d) c := by
  intro h
  rcases h with h | h <;> cases h

/-- A thread that sends holds the client; nobody else inside a call on it can be there. -/
theorem held_sends (h : Held t s) (hfree : t.shares c = true → s.holder = none ∨ s.holder = some i) :
    Held t (s.sends t i c) := by
  intro k d hk hs
  unfold St.sends at hk ⊢
  simp only at hk ⊢
  by_cases e : k = i
  · subst e
    rw [update_self] at hk
    rcases hk with hk | hk
    · cases hk
      rw [if_pos hs]
    · cases hk
  · rw [update_of_ne e] at hk
    have hheld := h k d hk hs
    by_cases hc : t.shares c = true
    · rcases hfree hc with hn | hn
      · rw [hn] at hheld
        cases hheld
      · rw [hn] at hheld
        cases hheld
        exact absurd rfl e
    · rw [if_neg hc]
      exact hheld

theorem held_returns (h : Held t s) (hin : Inside (s.threads i) c) : Held t (s.returns t i c) := by
  intro k d hk hs
  unfold St.returns at hk ⊢
  simp only at hk ⊢
  by_cases e : k = i
  · subst e
    rw [update_self] at hk
    exact absurd hk (not_inside_idle d)
  · rw [update_of_ne e] at hk
    have hheld := h k d hk hs
    by_cases hc : t.shares c = true
    · have hi := h i c hin hc
      rw [hheld] at hi
      cases hi
      exact absurd rfl e
    · rw [if_neg hc]
      exact hheld

theorem moved_held {e : Ev} (h : Held t s) (hm : Moved t s e u) : Held t u := by
  cases hm with
  | start _ => exact held_update h (not_inside_ready _)
  | send _ hfree => exact held_sends h fun hs => .inl (hfree hs)
  | turn hp => exact held_sends h fun hs => .inr (h _ _ (.inr hp) hs)
  | returned hp => exact held_returns h (.inl hp)
  | gaveUp _ => exact held_update h not_inside_idle
  | failed hin => exact held_returns h hin
  | @acknowledged i last c hp =>
    intro k d hk hs
    by_cases e : k = i
    · subst e
      simp only [update_self] at hk
      rcases hk with hk | hk
      · cases hk
      · cases hk
        exact h k c (.inl hp) hs
    · simp only [update_of_ne e] at hk
      exact h k d hk hs

theorem step_held (h : Held t s) (e : Ev) : Held t (step t s e) := by
  rcases step_moved t s e with he | hm
  · rwa [he]
  · exact moved_held h hm

theorem reach_held (h : (machine t).Reach s) : Held t s :=
  h.invariant (P := Held t)
    (fun s0 h0 i c hi => by
      rw [show s0.threads i = .idle by rw [show s0 = _ from h0]] at hi
      exact absurd hi (not_inside_idle c))
    fun _ e _ hs => step_held hs e

/-! ## Before the reply -/

/-- The thread `j` gets neither its reply nor an error. -/
def Unanswered (j : Nat) (_ : St) (e : Ev) : Prop := (∀ last, e ≠ .reply j last) ∧ e ≠ .fail j

/-- While `j` waits on the shared client, no other thread is inside a call on it. -/
structure Blocked (t : Transport) (j : Nat) (c : Call) (s : St) : Prop where
  held : Held t s
  waits : s.threads j = .waiting c

theorem blocked_step (hb : Blocked t j c s) (e : Ev) (hg : Unanswered j s e) : Blocked t j c (step t s e) := by
  refine ⟨step_held hb.held e, ?_⟩
  have hother : ∀ (i : Nat) (p : Phase), s.threads i ≠ .waiting c → update s.threads i p j = .waiting c := by
    intro i p hi
    have hne : j ≠ i := by
      intro heq
      subst heq
      exact hi hb.waits
    rw [update_of_ne hne]
    exact hb.waits
  rcases step_moved t s e with he | hm
  · rw [he]
    exact hb.waits
  · generalize step t s e = u at hm
    cases hm with
    | start hp => exact hother _ _ (by simp [hp])
    | send hp _ => exact hother _ _ (by simp [hp])
    | turn hp => exact hother _ _ (by simp [hp])
    | gaveUp hp => exact hother _ _ (by simp [hp])
    | @acknowledged i last d hp =>
      have hne : j ≠ i := by
        intro heq
        subst heq
        exact hg.1 last rfl
      simp only [update_of_ne hne]
      exact hb.waits
    | @returned i last d hp =>
      have hne : j ≠ i := by
        intro heq
        subst heq
        exact hg.1 last rfl
      simp only [St.returns, update_of_ne hne]
      exact hb.waits
    | @failed i d hin =>
      have hne : j ≠ i := by
        intro heq
        subst heq
        exact hg.2 rfl
      simp only [St.returns, update_of_ne hne]
      exact hb.waits

theorem blocked_path (hb : Blocked t j c s) (p : (machine t).Path (Unanswered j) s u) : Blocked t j c u :=
  p.invariant (P := Blocked t j c) (fun _ e g hs => blocked_step hs e g) hb

/-! ## Sending a cancel -/

/-- `GrainliftCancelHandle` and `GrainliftConnectionCancelHandle`. -/
inductive CancelHandle where
  | statement
  | connection

/-- What `try_cancel` calls. -/
def CancelHandle.method : CancelHandle → Method
  | .statement => .cancelStatement
  | .connection => .cancelConnection

theorem shares_iff {c : Call} (hc : c ≠ .readResult) : t.shares c = true ↔ t ≠ .http := by
  cases t <;> cases c <;> simp_all [Transport.shares]

/-- While a call is waiting for its reply, a cancellation on another thread can be sent, and
    arrive before that reply, if and only if the transport is HTTP: the byte transports wait
    for the client the call holds. -/
theorem cancel_enabled_iff (t : Transport) (s : St) (h : (machine t).Reach s) (j : Nat) (c : Call)
    (hc : c ≠ .readResult) (hj : s.threads j = .waiting c) (i : Nat) (handle : CancelHandle)
    (hi : s.threads i = .ready (.unary handle.method)) :
    ((next t s (.send i)).isSome = true ↔ t = .http) ∧
    ((∃ u, (machine t).Path (Unanswered j) s u ∧ u.threads i = .waiting (.unary handle.method) ∧
      (i, .unary handle.method) ∈ u.sent ∧ u.threads j = .waiting c) ↔ t = .http) := by
  have hheld := reach_held h
  have hij : i ≠ j := by
    intro heq
    subst heq
    rw [hi] at hj
    cases hj
  by_cases ht : t = .http
  · subst ht
    have hsend : next .http s (.send i) = some (s.sends .http i (.unary handle.method)) := by
      simp [next, hi, Transport.shares]
    have hstep : step .http s (.send i) = s.sends .http i (.unary handle.method) := by simp [step, hsend]
    refine ⟨by simp [hsend], ?_⟩
    simp only [iff_true]
    refine ⟨step .http s (.send i), ?_, by simp [hstep, St.sends], by simp [hstep, St.sends], ?_⟩
    · exact Machine.Path.step (Ev.send i) (.refl s) ⟨by simp, by simp⟩
    · simp only [hstep, St.sends, update_of_ne hij.symm]
      exact hj
  · have hshared : t.shares (.unary handle.method) = true := (shares_iff (by simp)).mpr ht
    have hholder := hheld j c (.inl hj) ((shares_iff hc).mpr ht)
    refine ⟨by simp [next, hi, hshared, hholder, ht], ?_⟩
    simp only [ht, iff_false]
    intro h'
    obtain ⟨u, p, hu, -, -⟩ := h'
    have hb := blocked_path ⟨hheld, hj⟩ p
    have h1 := hb.held i (.unary handle.method) (.inl hu) hshared
    have h2 := hb.held j c (.inl hb.waits) ((shares_iff hc).mpr ht)
    rw [h1] at h2
    cases h2
    exact hij rfl

/-- One thread executes a statement and waits; another is about to cancel it. -/
def cancelling (t : Transport) : St := (machine t).run ⟨fun _ => .idle, none, []⟩
  [.start 0 (.unary (.other "execute")), .send 0, .start 1 (.unary .cancelStatement)]

theorem cancel_enabled_http : (machine .http).Reach (cancelling .http) ∧
    (next .http (cancelling .http) (.send 1)).isSome = true :=
  ⟨.run rfl _, (cancel_enabled_iff .http (cancelling .http) (.run rfl _) 0 (.unary (.other "execute")) (by simp) rfl 1
    .statement rfl).1.mpr rfl⟩

/-- Over TCP the cancel waits for the reply of the call it should cancel. -/
theorem cancel_blocked_tcp : (machine .tcp).Reach (cancelling .tcp) ∧
    (cancelling .tcp).threads 0 = .waiting (.unary (.other "execute")) ∧
    (cancelling .tcp).threads 1 = .ready (.unary .cancelStatement) ∧ next .tcp (cancelling .tcp) (.send 1) = none :=
  ⟨.run rfl _, rfl, rfl, rfl⟩

end Grainlift.Client.Cancel
