/-
  Grainlift.Server.Shutdown — `close_all` is terminal (`SessionManager::close_all`,
  session.rs), over the opens of Grainlift.Server.Admission.

  `close_all` stores `closing` before it takes the registry lock and empties the map under
  it; `open` loads `closing` three times, the last time under the lock it inserts with. So
  an open that is anywhere between its first check and its insert when the map is emptied
  still runs on, and every way it can run on ends in an error and in the release of what
  it reserved.

  Proved (`close_all_terminal`): in every state after the critical section of a `close_all`
  the map is empty and stays so, `closing` stays set, every `get` finds nothing, an open
  that had not returned returns nothing but an error, whatever returned has released; and
  no open is stuck: no event takes an open back (`rank_step`), each open that has not
  returned has a move of its own that takes it on (`moves_on`), and when all have returned
  `opening_total` is 0.
-/

import Mathlib.Data.Fintype.EquivFin
import Grainlift.Server.Admission

namespace Grainlift.Server.Shutdown

open Grainlift.Lib Grainlift.Protocol SessionRegistry Admission

variable {ρ : Type} {cfg : Config} {s t : St ρ} {i : Nat} {o o' : Open ρ} {m : Move ρ}

/-! ## How far an open still has to go -/

def stageRank : Stage ρ → Nat
  | .asked => 7
  | .reaping => 6
  | .locking => 5
  | .reserved => 4
  | .waiting => 3
  | .opened _ => 2
  | .ready _ | .failed _ => 1
  | .returned _ => 0

def rank (o : Open ρ) : Nat := stageRank o.stage

/-- Its call has returned to the caller. -/
def Returned (o : Open ρ) : Prop := ∃ r, o.stage = .returned r

def ReturnedError (o : Open ρ) : Prop := ∃ e, o.stage = .returned (.error e)

theorem advance_rank {closing : Bool} {now : Nat} (h : Advance closing now o m o') : rank o' ≤ rank o := by
  unfold rank
  cases h with
  | stay => exact Nat.le_refl _
  | backendReturned r _ => exact Nat.le_refl _
  | backendPanicked _ => exact Nat.le_refl _
  | refused e hst | checked hst | reaped hst | denied e hst | reserved hst | spawned hst | spawnFailed text e hst
  | received c hst | receivedError e hst | expired e hst | started c hst | startFailed text e c hst
  | released e hst | inserted id session hst | insertRefused id session e hst =>
    rw [hst]
    simp [stageRank]

/-- No event takes an open back. -/
theorem rank_step (cfg : Config) (s : St ρ) (e : Ev ρ) (hi : s.opens[i]? = some o) :
    ∃ o', (step cfg s e).opens[i]? = some o' ∧ rank o' ≤ rank o := by
  rcases step_opens cfg s e with h | ⟨_, _, _, -, -, h⟩ | ⟨j, m, o1, o2, -, hj, h, ha⟩
  · exact ⟨o, by rw [h, hi], Nat.le_refl _⟩
  · exact ⟨o, by rw [h]; exact getElem?_snoc_of_some hi, Nat.le_refl _⟩
  · rw [h]
    by_cases e : i = j
    · subst e
      rw [hi] at hj
      cases hj
      exact ⟨o2, getElem?_set_of_some hi, advance_rank ha⟩
    · exact ⟨o, by rwa [List.getElem?_set_ne (Ne.symm e)], Nat.le_refl _⟩

/-! ## No open is stuck -/

/-- An open that waits has a `backend.open` to wait for. -/
def Started (s : St ρ) : Prop := ∀ o ∈ s.opens, o.stage = .waiting → o.backend ≠ .notStarted

theorem advance_started {closing : Bool} {now : Nat} (h : Advance closing now o m o')
    (ho : o.stage = .waiting → o.backend ≠ .notStarted) : o'.stage = .waiting → o'.backend ≠ .notStarted := by
  cases h with
  | stay => exact ho
  | spawned _ => simp
  | backendReturned r _ => simp
  | backendPanicked _ => simp
  | _ => simp

theorem step_started (h : Started s) (e : Ev ρ) : Started (step cfg s e) := by
  unfold Started at h ⊢
  rcases step_opens cfg s e with he | ⟨_, _, stage, -, hst, he⟩ | ⟨j, m, o1, o2, -, hj, he, ha⟩
  · rwa [he]
  · rw [he]
    intro o ho
    rcases List.mem_append.mp ho with hm | hm
    · exact h o hm
    · obtain rfl := List.mem_singleton.mp hm
      rcases hst with rfl | ⟨x, rfl⟩ <;> simp
  · rw [he]
    intro o ho
    rcases List.mem_or_eq_of_mem_set ho with hm | rfl
    · exact h o hm
    · exact advance_started ha (h o1 (List.mem_of_getElem? hj))

theorem reach_started (h : (machine cfg ρ).Reach s) : Started s :=
  h.invariant (P := Started) (fun _ h0 => by cases h0; intro o ho; cases ho) fun _ e _ hs => step_started hs e

/-- Each open that has not returned has a move of its own that takes it on. -/
theorem moves_on (cfg : Config) (h : Started s) (hi : s.opens[i]? = some o) (hn : ¬ Returned o) :
    ∃ m o', (step cfg s (.move i m)).opens = s.opens.set i o' ∧ rank o' < rank o := by
  have hrank : ∀ st, o.stage = st → rank o = stageRank st := fun st e => by unfold rank; rw [e]
  cases hst : o.stage with
  | asked =>
    rw [hrank _ hst]
    by_cases hc : s.closing = true
    · exact ⟨.checkClosing, _, by simp [step, hi, stepOpen, hst, hc, St.set]; rfl, by simp [rank, stageRank]⟩
    · exact ⟨.checkClosing, _, by simp [step, hi, stepOpen, hst, hc, St.set]; rfl, by simp [rank, stageRank]⟩
  | reaping =>
    rw [hrank _ hst]
    exact ⟨.reap, _, by simp [step, hi, stepOpen, hst, St.set]; rfl, by simp [rank, stageRank]⟩
  | locking =>
    rw [hrank _ hst]
    cases hr : s.registry.reserveLocked s.closing cfg.limits o.principal with
    | error e => exact ⟨.reserve, _, by simp [step, hi, stepOpen, hst, hr, St.set]; rfl, by simp [rank, stageRank]⟩
    | ok r => exact ⟨.reserve, _, by simp [step, hi, stepOpen, hst, hr, St.set]; rfl, by simp [rank, stageRank]⟩
  | reserved =>
    rw [hrank _ hst]
    exact ⟨.spawn none, _, by simp [step, hi, stepOpen, hst, St.set]; rfl, by simp [rank, stageRank]⟩
  | waiting =>
    rw [hrank _ hst]
    -- the caller waits no longer than the operation timeout
    cases hb : o.backend with
    | notStarted => exact absurd hb (h o (List.mem_of_getElem? hi) hst)
    | running => exact ⟨.expire, _, by simp [step, hi, stepOpen, hst, hb, St.set]; rfl, by simp [rank, stageRank]⟩
    | panicked => exact ⟨.receive, _, by simp [step, hi, stepOpen, hst, hb, St.set]; rfl, by simp [rank, stageRank]⟩
    | returned r =>
      cases r with
      | error e => exact ⟨.receive, _, by simp [step, hi, stepOpen, hst, hb, St.set]; rfl, by simp [rank, stageRank]⟩
      | ok c => exact ⟨.receive, _, by simp [step, hi, stepOpen, hst, hb, St.set]; rfl, by simp [rank, stageRank]⟩
  | opened c =>
    rw [hrank _ hst]
    exact ⟨.workerStart none, _, by simp [step, hi, stepOpen, hst, St.set]; rfl, by simp [rank, stageRank]⟩
  | ready session =>
    rw [hrank _ hst]
    obtain ⟨id, hid⟩ := Infinite.exists_notMem_finset s.issued.toFinset
    rw [List.mem_toFinset] at hid
    exact ⟨.insert id, _, by simp [step, hi, stepOpen, hst, hid, St.set]; rfl, by simp [rank, stageRank]⟩
  | failed e =>
    rw [hrank _ hst]
    exact ⟨.release, _, by simp [step, hi, stepOpen, hst, St.set]; rfl, by simp [rank, stageRank]⟩
  | returned r => exact absurd ⟨r, hst⟩ hn

theorem rank_sum_set {opens : List (Open ρ)} (hi : opens[i]? = some o) (hr : rank o' < rank o) :
    ((opens.set i o').map rank).sum < (opens.map rank).sum := by
  induction opens generalizing i with
  | nil => cases hi
  | cons a as ih =>
    cases i with
    | zero =>
      simp only [List.getElem?_cons_zero, Option.some.injEq] at hi
      subst hi
      simp only [List.set_cons_zero, List.map_cons, List.sum_cons]
      omega
    | succ i =>
      have := ih (by simpa using hi)
      simp only [List.set_cons_succ, List.map_cons, List.sum_cons]
      omega

/-- The opens alone can bring every one of them home. -/
theorem all_return (cfg : Config) (h : (machine cfg ρ).Reach s) :
    ∃ es : List (Ev ρ), (∀ e ∈ es, ∃ i m, e = .move i m) ∧
      ∀ o ∈ ((machine cfg ρ).run s es).opens, Returned o := by
  -- each round lowers the sum of the ranks
  generalize hn : (s.opens.map rank).sum = n
  induction n using Nat.strongRecOn generalizing s with
  | ind n ih =>
    by_cases hall : ∀ o ∈ s.opens, Returned o
    · exact ⟨[], by simp, hall⟩
    · simp only [not_forall] at hall
      obtain ⟨o, ho, hr⟩ := hall
      obtain ⟨i, hi⟩ := List.getElem?_of_mem ho
      obtain ⟨m, o', he, hlt⟩ := moves_on cfg (reach_started h) hi hr
      have hsum : ((step cfg s (.move i m)).opens.map rank).sum < n := by
        rw [he, ← hn]
        exact rank_sum_set hi hlt
      obtain ⟨es, hes, hdone⟩ := ih _ hsum (h.next (.move i m)) rfl
      refine ⟨.move i m :: es, ?_, hdone⟩
      intro e hm
      rcases List.mem_cons.mp hm with rfl | hm
      · exact ⟨i, m, rfl⟩
      · exact hes e hm

/-! ## After the map is taken -/

/-- A proxy shut down when the opens were `before`. -/
structure Shut (before : List (Open ρ)) (s : St ρ) : Prop where
  empty : s.registry.sessions = ∅
  closing : s.closing = true
  /-- Who returned since returned an error. -/
  answered : ∀ (i : Nat) (o : Open ρ), s.opens[i]? = some o → Returned o →
    (∃ o0, before[i]? = some o0 ∧ Returned o0) ∨ ReturnedError o

variable {before : List (Open ρ)}

theorem advance_answered {now : Nat} (h : Advance true now o m o') (hr : Returned o') :
    ReturnedError o' ∨ Returned o := by
  obtain ⟨r, hr⟩ := hr
  cases h with
  | stay => exact .inr ⟨r, hr⟩
  | backendReturned _ _ => exact .inr ⟨r, hr⟩
  | backendPanicked _ => exact .inr ⟨r, hr⟩
  | refused e _ => exact .inl ⟨e, rfl⟩
  | denied e _ => exact .inl ⟨e, rfl⟩
  | released e _ => exact .inl ⟨e, rfl⟩
  | insertRefused _ _ e _ _ => exact .inl ⟨e, rfl⟩
  | inserted _ _ _ hc => cases hc
  | _ => cases hr

theorem advance_error {closing : Bool} {now : Nat} (h : Advance closing now o m o') (he : ReturnedError o) :
    ReturnedError o' := by
  obtain ⟨x, hx⟩ := he
  cases h with
  | stay => exact ⟨x, hx⟩
  | backendReturned _ _ => exact ⟨x, hx⟩
  | backendPanicked _ => exact ⟨x, hx⟩
  | refused e hst | checked hst | reaped hst | denied e hst | reserved hst | spawned hst | spawnFailed text e hst
  | received c hst | receivedError e hst | expired e hst | started c hst | startFailed text e c hst
  | released e hst | inserted id session hst | insertRefused id session e hst =>
    rw [hst] at hx
    cases hx

theorem getLocked_empty (he : s.registry.sessions = ∅) (now ttl : Nat) (held : String → Bool) (id principal : String) :
    s.registry.getLocked now ttl held id principal = (.error (notFound "session"), s.registry) := by
  unfold getLocked
  rw [he]
  rfl

theorem step_empty (he : s.registry.sessions = ∅) (hc : s.closing = true) (e : Ev ρ) :
    (step cfg s e).registry.sessions = ∅ := by
  rcases step_sessions cfg s e with h | ⟨-, h⟩ | ⟨_, _, _, _, -, -, -, hopen, -⟩ | ⟨principal, id, -, h⟩ |
      ⟨principal, id, -, h⟩ | ⟨-, h⟩
  · rw [h, he]
  · rw [h]
    simp only [reapLocked, he]
    rfl
  · rw [hc] at hopen
    cases hopen
  · rw [h, getLocked_empty he, he]
  · rw [h]
    simp only [closeLocked, he]
    exact he
  · exact h

theorem step_shut (h : Shut before s) (e : Ev ρ) : Shut before (step cfg s e) := by
  refine ⟨step_empty h.empty h.closing e, (step_closing cfg s e).mpr (.inl h.closing), ?_⟩
  rcases step_opens cfg s e with he | ⟨_, _, stage, -, hst, he⟩ | ⟨j, m, o1, o2, -, hj, he, ha⟩
  · rw [he]
    exact h.answered
  · rw [he]
    intro i o hi hr
    rcases getElem?_snoc_cases hi with hi | ⟨-, rfl⟩
    · exact h.answered i o hi hr
    · rcases hst with rfl | ⟨x, rfl⟩
      · obtain ⟨r, hr⟩ := hr
        cases hr
      · exact .inr ⟨x, rfl⟩
  · rw [he]
    intro i o hi hr
    rcases getElem?_set_cases hi with ⟨rfl, rfl⟩ | ⟨-, hi⟩
    · rw [h.closing] at ha
      rcases advance_answered ha hr with herr | hold
      · exact .inr herr
      · rcases h.answered i o1 hj hold with hbefore | herr
        · exact .inl hbefore
        · exact .inr (advance_error ha herr)
    · exact h.answered i o hi hr

theorem closers_closing (h : (machine cfg ρ).Reach s) : s.closers ≠ 0 → s.closing = true :=
  h.invariant (P := fun s => s.closers ≠ 0 → s.closing = true) (fun _ h0 => by cases h0; simp [Admission.init])
    fun s e _ hs => by
      intro hc
      refine (step_closing cfg s e).mpr ?_
      rcases step_closers cfg s e with hle | rfl
      · refine .inl (hs ?_)
        change (step cfg s e).closers ≠ 0 at hc
        omega
      · exact .inr rfl

theorem taken_shut (hc : s.closing = true) (h0 : s.closers ≠ 0) : Shut s.opens (step cfg s .closeAllTake) := by
  simp only [step, if_neg h0]
  exact ⟨rfl, hc, fun i o hi hr => .inl ⟨o, hi, hr⟩⟩

theorem path_shut (h : Shut before s) (p : (machine cfg ρ).Path (fun _ _ => True) s t) : Shut before t :=
  p.invariant (P := Shut before) (fun _ e _ hs => step_shut hs e) h

/-! ## `close_all` is terminal -/

/-- After the critical section of `close_all`, whatever comes then: there are no sessions and
    none can be had, every open that returns later returns an error, and those in flight can
    run to their end, which leaves no reservation. -/
theorem close_all_terminal (cfg : Config) (s t : St ρ) (h : (machine cfg ρ).Reach s) (hc : s.closers ≠ 0)
    (p : (machine cfg ρ).Path (fun _ _ => True) (step cfg s .closeAllTake) t) :
    t.registry.sessions = ∅ ∧ t.closing = true ∧
    (∀ principal id, (t.registry.getLocked t.now cfg.ttl (inFlight t) id principal).1 = .error (notFound "session")) ∧
    (∀ (i : Nat) (o : Open ρ), t.opens[i]? = some o → Returned o →
      (∃ o0, s.opens[i]? = some o0 ∧ Returned o0) ∨ ReturnedError o) ∧
    t.registry.openingTotal = t.opens.countP Open.holds ∧
    (∀ o ∈ t.opens, Returned o → o.releases = o.reservations) ∧
    ((∀ o ∈ t.opens, Returned o) → t.registry.openingTotal = 0) ∧
    (∀ (i : Nat) (o : Open ρ), t.opens[i]? = some o →
      (∀ e, ∃ o', (step cfg t e).opens[i]? = some o' ∧ rank o' ≤ rank o) ∧
      (Returned o ∨ ∃ m o', (step cfg t (.move i m)).opens = t.opens.set i o' ∧ rank o' < rank o)) ∧
    (∃ es : List (Ev ρ), (∀ e ∈ es, ∃ i m, e = .move i m) ∧
      (∀ o ∈ ((machine cfg ρ).run t es).opens, Returned o) ∧
      ((machine cfg ρ).run t es).registry.openingTotal = 0) := by
  have ht : (machine cfg ρ).Reach t := (h.next .closeAllTake).extend p
  have hshut : Shut s.opens t := path_shut (taken_shut (closers_closing h hc) hc) p
  have hzero : ∀ u, (machine cfg ρ).Reach u → (∀ o ∈ u.opens, Returned o) → u.registry.openingTotal = 0 := by
    intro u hu hall
    rw [(inv hu).books.total, List.countP_eq_zero]
    intro o ho
    obtain ⟨r, hr⟩ := hall o ho
    have hso := (inv hu).sound o ho
    simp only [Open.Sound, hr] at hso
    simp only [Open.holds, decide_eq_true_eq]
    omega
  refine ⟨hshut.empty, hshut.closing, fun principal id => by rw [getLocked_empty hshut.empty], hshut.answered,
    (inv ht).books.total, ?_, hzero t ht, ?_, ?_⟩
  · intro o ho hr
    obtain ⟨r, hr⟩ := hr
    have hso := (inv ht).sound o ho
    simp only [Open.Sound, hr] at hso
    exact hso.1
  · intro i o hi
    refine ⟨fun e => rank_step cfg t e hi, ?_⟩
    by_cases hr : Returned o
    · exact .inl hr
    · exact .inr (moves_on cfg (reach_started ht) hi hr)
  · obtain ⟨es, hes, hall⟩ := all_return cfg ht
    exact ⟨es, hes, hall, hzero _ (ht.extend (.run t es)) hall⟩

/-- One open is about to insert, one runs its `backend.open` and one has just passed the
    first check when `close_all` has stored its flag. -/
def closingThree : St Unit := (machine twoSessions Unit).run Admission.init
  [.open "alice" "main", .move 0 .checkClosing, .move 0 .reap, .move 0 .reserve, .move 0 (.spawn none),
    .move 0 (.backendReturns (.ok ())), .move 0 .receive, .move 0 (.workerStart none),
    .open "bob" "main", .move 1 .checkClosing, .move 1 .reap, .move 1 .reserve, .move 1 (.spawn none),
    .open "carol" "main", .move 2 .checkClosing, .closeAllStore]

/-- The first of them takes the lock after the map was emptied. -/
def insertedLate : St Unit :=
  (machine twoSessions Unit).run (step twoSessions closingThree .closeAllTake) [.move 0 (.insert "s0"), .move 2 .reap]

theorem close_all_terminal_late_insert : closingThree.registry.openingTotal = 2 ∧
    insertedLate.registry.sessions = ∅ ∧ insertedLate.registry.openingTotal = 1 ∧
    ∃ es : List (Ev Unit), (∀ e ∈ es, ∃ i m, e = .move i m) ∧
      (∀ o ∈ ((machine twoSessions Unit).run insertedLate es).opens, Returned o) ∧
      ((machine twoSessions Unit).run insertedLate es).registry.openingTotal = 0 := by
  have h := close_all_terminal twoSessions closingThree insertedLate (.run rfl _) (by decide) (.run _ _)
  exact ⟨by decide, h.1, by decide, h.2.2.2.2.2.2.2.2⟩

end Grainlift.Server.Shutdown
