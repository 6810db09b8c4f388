/-
  Grainlift.Server.DriverWaits — who waits for a driver call (session.rs).

  A cancellation, the reaper, a close, a shutdown and a drop should not wait for a driver.
  What such an operation needs may be held by a worker or a thread inside a driver call, or
  by one that waits, through others, for it.

  Three things stand in the way. `new_statement` and `close_statement` call the driver with
  `statements` locked, and so does a cancellation of a statement. And a result that is
  closed or invalidated lets its reader go with `results` locked: the jobs themselves hold
  nothing anyone needs, but `resource_counts` takes that lock with the registry locked.

  Proved (`driver_blocks_iff`): in every reachable state, and for whoever is inside a driver
  call, these are the only ways; without them no such operation waits for the call.
-/

import Grainlift.Server.Deadlock

namespace Grainlift.Server.Locks

open Grainlift.Lib Grainlift.Lib.Mutex Grainlift.Protocol Function Relation

/-! ## Behind a driver call -/

def St.inDriver (s : St) (t : Thread) : Prop := ∃ sid f k, s.left t = some (.call (Step.op (.driver sid f)) k)

/-- Whoever holds the lock is `t`, or waits for it. -/
def Behind (s : St) (l : Lock) (t : Thread) : Prop :=
  ∃ u, s.holder l = some u ∧ ReflTransGen (WaitsFor s.waits s.holder) u t

/-- `t` holds no lock that a prompt operation needs. -/
def Spares (s : St) (t : Thread) : Prop :=
  ∀ o : Operation, o.prompt = true → ∀ l, Needs o.code l → s.holder l ≠ some t

/-- And nobody does who waits for `t`. -/
def Clear (s : St) (t : Thread) : Prop :=
  ∀ o : Operation, o.prompt = true → ∀ l, Needs o.code l → ¬ Behind s l t

/-- In the jobs and the cancellation that call the driver with `statements` locked. -/
def Pins (s : St) : Thread → Prop
  | .worker sid => ∃ r, s.workers sid = some r ∧ Job.pins r.job = true
  | .thread n => ∃ r sid id, s.threads[n]? = some r ∧ r.operation = .hold sid (.cancelStatement id)

/-- In the jobs that let a reader go with `results` locked, while a count waits for that lock. -/
def Counted (s : St) : Thread → Prop
  | .worker sid =>
    (∃ r, s.workers sid = some r ∧ Job.drops r.job = true) ∧
      ∃ n r, s.threads[n]? = some r ∧ r.operation = .resourceCounts ∧ s.waits (.thread n) = some (.results sid)
  | .thread _ => False

section Behind

variable {s : St} {t u : Thread} {l : Lock}

theorem waits_call (h : s.waits t = some l) : ∃ k, s.left t = some (.call (Step.lock l) k) := by
  unfold St.waits at h
  split at h
  · rename_i l' k hleft
    cases h
    exact ⟨k, hleft⟩
  · cases h

theorem erased_eq_call {α : Type} {c : Code α} {o : Step Lock Prim} {k : Mutex.Ans Lock Prim.Ans o → Rest}
    (h : erased c = .call o k) : ∃ k', c = .call o k' := by
  cases c with
  | done a => cases h
  | call o' k' =>
    cases h
    exact ⟨k', rfl⟩

/-- The next step of a worker is one that its job takes with those locks. -/
theorem worker_step (hs : Wf s) {sid : String} {o : Step Lock Prim} {k : Mutex.Ans Lock Prim.Ans o → Rest}
    (h : s.left (.worker sid) = some (.call o k)) :
    ∃ r, s.workers sid = some r ∧ (within (A := Prim.Ans) (around sid r.job)).allows (heldBy s.holder (.worker sid)) o := by
  obtain ⟨r, hr, hcode⟩ := Option.map_eq_some_iff.mp h
  obtain ⟨k', hk⟩ := erased_eq_call hcode
  have hfollows := hs.worker sid r hr
  rw [hk] at hfollows
  exact ⟨r, hr, hfollows.1⟩

theorem thread_step (hs : Wf s) {n : Nat} {o : Step Lock Prim} {k : Mutex.Ans Lock Prim.Ans o → Rest}
    (h : s.left (.thread n) = some (.call o k)) :
    ∃ r, s.threads[n]? = some r ∧ (within (A := Prim.Ans) (beside r.operation)).allows (heldBy s.holder (.thread n)) o ∧
      ∀ l, o = .lock l → Needs r.operation.code l := by
  obtain ⟨r, hr, hcode⟩ := Option.map_eq_some_iff.mp h
  obtain ⟨k', hk⟩ := erased_eq_call hcode
  have hfollows := hs.thread n r hr
  rw [hk] at hfollows
  refine ⟨r, hr, hfollows.1, ?_⟩
  intro l hl
  subst hl
  refine hs.needs n r hr l ?_
  rw [hk]
  intro huses
  exact huses.1 rfl

/-- A lock held in a driver call, if none of the three is on. -/
theorem held_in_call (hs : Wf s) (ht : s.inDriver t) (hp : ¬ Pins s t) (hl : s.holder l = some t) :
    ∃ sid, t = .worker sid ∧
      (l.entry = some sid ∨ l = .results sid ∧ ∃ r, s.workers sid = some r ∧ Job.drops r.job = true) := by
  obtain ⟨sid', f, k, hleft⟩ := ht
  have hmem : l ∈ heldBy s.holder t := hl
  cases t with
  | worker sid =>
    obtain ⟨r, hr, haround⟩ := worker_step hs hleft
    have hpins : ¬ Job.pins r.job = true := fun hj => hp ⟨r, hr, hj⟩
    refine ⟨sid, rfl, ?_⟩
    simp only [within, around, if_neg hpins] at haround
    by_cases hd : Job.drops r.job = true
    · rw [if_pos hd] at haround
      rw [haround] at hmem
      exact .inr ⟨hmem, r, hr, hd⟩
    · rw [if_neg hd] at haround
      exact .inl (haround l hmem)
  | thread n =>
    obtain ⟨r, hr, hbeside, -⟩ := thread_step hs hleft
    have hheld : heldBy s.holder (.thread n) = r.operation.pinned := hbeside
    have hnone : r.operation.pinned = ∅ := by
      unfold Operation.pinned
      split
      · rename_i sid id ho
        exact absurd ⟨r, sid, id, hr, ho⟩ hp
      · rfl
    rw [hheld, hnone] at hmem
    cases hmem

theorem entry_not_prompt {sid : String} (h : l.entry = some sid) : l.prompt = false := by
  cases l <;> first | rfl | cases h

/-- The last wait on the way to a driver call is a count's. -/
theorem waits_for_call (hs : Wf s) (ht : s.inDriver t) (hp : ¬ Pins s t) (hw : WaitsFor s.waits s.holder u t) :
    Counted s t := by
  obtain ⟨l, hwaits, hheld⟩ := hw
  obtain ⟨sid, rfl, hlock⟩ := held_in_call hs ht hp hheld
  obtain ⟨k, hleft⟩ := waits_call hwaits
  cases u with
  | worker sid' =>
    -- a worker takes locks of its own session only, and `t` does not wait
    obtain ⟨r, hr, -, haround⟩ := worker_step hs hleft
    have hsid : sid' = sid := by
      rcases haround with he | rfl | rfl
      · rcases hlock with hlock | ⟨rfl, -⟩
        · rw [he] at hlock
          exact Option.some.inj hlock
        · cases he
      · rcases hlock with hlock | ⟨hlock, -⟩
        · cases hlock
        · cases hlock
      · rcases hlock with hlock | ⟨hlock, -⟩
        · cases hlock
        · cases hlock
          rfl
    subst hsid
    obtain ⟨_, _, _, hcall⟩ := ht
    rw [hleft] at hcall
    cases hcall
  | thread n =>
    obtain ⟨r, hr, ⟨-, hbeside⟩, -⟩ := thread_step hs hleft
    rcases hbeside with hprompt | ⟨ho, -, sid', rfl⟩
    · rcases hlock with he | ⟨rfl, -⟩
      · rw [entry_not_prompt he] at hprompt
        cases hprompt
      · cases hprompt
    · rcases hlock with hlock | ⟨hlock, hdrops⟩
      · cases hlock
      · cases hlock
        exact ⟨hdrops, n, r, hr, ho, hwaits⟩

theorem spares_of_not_pins (hs : Wf s) (ht : s.inDriver t) (hp : ¬ Pins s t) : Spares s t := by
  intro o ho l hl hheld
  have hprompt := prompt_needs ho hl
  obtain ⟨sid, -, he | ⟨rfl, -⟩⟩ := held_in_call hs ht hp hheld
  · rw [entry_not_prompt he] at hprompt
    cases hprompt
  · cases hprompt

theorem clear_of_not (hs : Wf s) (ht : s.inDriver t) (hp : ¬ Pins s t) (hc : ¬ Counted s t) : Clear s t := by
  intro o ho l hl ⟨u, hheld, hwaits⟩
  rcases ReflTransGen.cases_tail hwaits with rfl | ⟨v, -, hlast⟩
  · exact spares_of_not_pins hs ht hp o ho l hl hheld
  · exact hc (waits_for_call hs ht hp hlast)

theorem dropSession_needs (sid : String) : Needs (Operation.dropSession sid).code (.statements sid) := by
  intro h
  exact h.1 rfl

theorem closeAll_needs : Needs Operation.closeAll.code .registry := by
  intro h
  exact h.1 rfl

/-- Whoever calls the driver with `statements` locked holds what a drop needs. -/
theorem pins_not_spares (hs : Wf s) (ht : s.inDriver t) (hp : Pins s t) : ¬ Spares s t := by
  obtain ⟨sid', f, k, hleft⟩ := ht
  intro hspares
  cases t with
  | worker sid =>
    obtain ⟨r, hr, haround⟩ := worker_step hs hleft
    obtain ⟨r', hr', hpins⟩ := hp
    rw [hr] at hr'
    cases hr'
    simp only [within, around, if_pos hpins] at haround
    exact hspares (.dropSession sid) rfl _ (dropSession_needs sid) haround
  | thread n =>
    obtain ⟨r, hr, hbeside, -⟩ := thread_step hs hleft
    obtain ⟨r', sid, id, hr', ho⟩ := hp
    rw [hr] at hr'
    cases hr'
    have hheld : heldBy s.holder (.thread n) = r.operation.pinned := hbeside
    have hmem : Lock.statements sid ∈ heldBy s.holder (.thread n) := by
      rw [hheld, ho]
      rfl
    exact hspares (.dropSession sid) rfl _ (dropSession_needs sid) hmem

/-- A count that waits for a reader to go has the registry locked. -/
theorem counted_behind (hs : Wf s) (ht : s.inDriver t) (hp : ¬ Pins s t) (hc : Counted s t) :
    Behind s .registry t := by
  obtain ⟨sid', f, k, hleft⟩ := ht
  cases t with
  | thread n => exact hc.elim
  | worker sid =>
    obtain ⟨⟨r, hr, hd⟩, n, r', hr', ho, hwaits⟩ := hc
    have hpins : ¬ Job.pins r.job = true := fun hj => hp ⟨r, hr, hj⟩
    obtain ⟨r'', hr'', haround⟩ := worker_step hs hleft
    rw [hr] at hr''
    cases hr''
    simp only [within, around, if_neg hpins, if_pos hd] at haround
    have hresults : Lock.results sid ∈ heldBy s.holder (.worker sid) := by
      rw [haround]
      rfl
    obtain ⟨k', hcount⟩ := waits_call hwaits
    obtain ⟨r'', hr'', ⟨-, hbeside⟩, -⟩ := thread_step hs hcount
    rcases hbeside with hprompt | ⟨-, hregistry, -⟩
    · cases hprompt
    · exact ⟨.thread n, hregistry, .single ⟨_, hwaits, hresults⟩⟩

end Behind

/-- In every reachable state, whoever is inside a driver call holds no lock that a
    cancellation, the reaper, a close, a shutdown or a drop needs, unless it calls the driver
    with `statements` locked; and no such operation waits for it, directly or through
    others, unless besides a count waits for the `results` it has locked. -/
theorem driver_blocks_iff (host : Host) (s : St) (h : (machine host).Reach s) (t : Thread) (ht : s.inDriver t) :
    (Spares s t ↔ ¬ Pins s t) ∧ (Clear s t ↔ ¬ Pins s t ∧ ¬ Counted s t) ∧
    (¬ Pins s t ∧ ¬ Counted s t → ∀ (n : Nat) (r : Serving), s.threads[n]? = some r → r.operation.prompt = true →
      ¬ TransGen (WaitsFor s.waits s.holder) (.thread n) t) := by
  have hs := reach_wf h
  have hspares : Spares s t ↔ ¬ Pins s t :=
    ⟨fun hc hp => pins_not_spares hs ht hp hc, spares_of_not_pins hs ht⟩
  have hclear : ¬ Pins s t ∧ ¬ Counted s t → Clear s t := fun hn => clear_of_not hs ht hn.1 hn.2
  refine ⟨hspares, ⟨?_, hclear⟩, ?_⟩
  · intro hc
    have hp : ¬ Pins s t := hspares.mp fun o ho l hl hheld => hc o ho l hl ⟨t, hheld, .refl⟩
    exact ⟨hp, fun hcounted => hc .closeAll rfl _ closeAll_needs (counted_behind hs ht hp hcounted)⟩
  · intro hn n r hr hprompt hwaits
    obtain ⟨u, ⟨l, hl, hheld⟩, hrest⟩ := TransGen.head'_iff.mp hwaits
    obtain ⟨k, hleft⟩ := waits_call hl
    obtain ⟨r', hr', -, hneeds⟩ := thread_step hs hleft
    rw [hr] at hr'
    cases hr'
    exact hclear hn r.operation hprompt l (hneeds l rfl) ⟨u, hheld, hrest⟩

/-! A commit, and a result closed while the resources are counted. -/

def counting : Env := { calm with sessions := ["c"] }

/-- The worker of `c` lets the reader of its result go, and a count has come to `results`. -/
def closingCounted : List Ev :=
  working (.insertResult none emptyReader) 7 ++ working (.closeResult "id") 3 ++
    .start .resourceCounts :: List.replicate 5 (.thread 0 counting)

theorem driver_blocks_iff_commit :
    (∃ s, (machine Solo.smallHost).Reach s ∧ s.inDriver (.worker "c") ∧ Clear s (.worker "c")) ∧
    ∃ s, (machine Solo.smallHost).Reach s ∧ s.inDriver (.worker "c") ∧ Spares s (.worker "c") ∧ ¬ Clear s (.worker "c") := by
  have hcommit := Machine.Reach.run quietServer_init (working (.connection .commit) 1)
  have hclosing := Machine.Reach.run quietServer_init closingCounted
  refine ⟨⟨_, hcommit, ⟨_, _, _, rfl⟩, ?_⟩, _, hclosing, ⟨_, _, _, rfl⟩, ?_, ?_⟩
  · refine (driver_blocks_iff Solo.smallHost _ hcommit (.worker "c") ⟨_, _, _, rfl⟩).2.1.mpr ⟨?_, ?_⟩
    · rintro ⟨r, hr, hj⟩
      cases hr
      cases hj
    · rintro ⟨⟨r, hr, hj⟩, -⟩
      cases hr
      cases hj
  · refine (driver_blocks_iff Solo.smallHost _ hclosing (.worker "c") ⟨_, _, _, rfl⟩).1.mpr ?_
    rintro ⟨r, hr, hj⟩
    cases hr
    cases hj
  · intro hc
    refine ((driver_blocks_iff Solo.smallHost _ hclosing (.worker "c") ⟨_, _, _, rfl⟩).2.1.mp hc).2 ?_
    exact ⟨⟨_, rfl, rfl⟩, 0, _, rfl, rfl, rfl⟩

/-- The thread waits for a lock that `t` holds. -/
def Waits (s : St) (n : Nat) (t : Thread) : Prop :=
  ∃ (r : Serving) (l : Lock) (k : Unit → Code Unit), s.threads[n]? = some r ∧ r.code = .call (Step.lock l) k ∧
    s.holder l = some t

/-- With the worker in the driver's `new_statement`, a cancellation waits for it. -/
theorem cancel_waits_for_new_statement : ∃ s r k l, (machine Solo.smallHost).Reach s ∧ s.workers "c" = some r ∧
    r.code = .call (Step.op (.driver "c" .newStatement)) k ∧
    (Operation.hold "c" (.cancelStatement "x")).prompt = true ∧
      Needs (Operation.hold "c" (.cancelStatement "x")).code l ∧
    s.holder l = some (.worker "c") ∧ Waits s 0 (.worker "c") := by
  have hreach := Machine.Reach.run quietServer_init
    (working .newStatement 3 ++ [.start (.hold "c" (.cancelStatement "x"))])
  refine ⟨_, _, _, .statements "c", hreach, rfl, rfl, rfl, ?_, rfl, ⟨_, _, _, rfl, rfl, rfl⟩⟩
  intro h
  exact h.1 rfl

end Grainlift.Server.Locks
