/-
  Grainlift.Server.Deadlock — the session's mutexes never stop the server (session.rs).

  Workers and threads are those of Grainlift.Server.Locks, every driver call returns, and
  the scheduler is any. The order: the registry before everything, then the lease and the
  three registries of a session, then a connection, a statement or a result.

  Proved (`drains`): from every reachable state, a schedule that begins nothing new comes
  to an end, whatever it does; where it can go no further every job and every operation has
  finished and every lock is free; and in between, whoever is held up waits, through others,
  for one that can go on.
-/

import Grainlift.Lib.LockOrder
import Grainlift.Server.Locks

namespace Grainlift.Server.Locks

open Grainlift.Lib Grainlift.Lib.Mutex Grainlift.Protocol Function Relation

/-! ## The order -/

def Lock.rank : Lock → Nat
  | .registry => 0
  | .lastUsed _ | .statements _ | .results _ | .bindUploads _ => 1
  | .connection _ | .statement _ _ | .result _ _ => 2

theorem Lock.rank_le (l : Lock) : l.rank ≤ 2 := by
  cases l <;> simp [Lock.rank]

section Order

variable {sid : String} {g : Set Lock} {α β : Type}

abbrev Ordered (g : Set Lock) (c : Code α) : Prop := Climbs Lock.rank g c

theorem ordered_does (o : Prim) : Ordered g (does o) := climbs_ask o

theorem ordered_pure (a : α) : Ordered g (pure a : Code α) := climbs_done _

theorem ordered_fail (e : AdbcError) : Ordered g (.fail e : Code α) := climbs_done _

theorem ordered_ignore {c : Code α} (hc : Ordered g c) : Ordered g (c.ignore : Code Unit) :=
  climbs_bind hc fun _ => climbs_done _

theorem ordered_if {p : Prop} [Decidable p] {c d : Code α} (hc : Ordered g c) (hd : Ordered g d) :
    Ordered g (@ite (Code α) p _ c d) := by
  split
  · exact hc
  · exact hd

/-- The first lock of a thread. -/
theorem ordered_first {l : Lock} {c : Code α} (hc : Ordered {l} c) : Ordered ∅ (locked l c) := by
  refine climbs_guarded (fun m hm => (Set.notMem_empty m hm).elim) ?_
  rwa [insert_empty_eq]

/-- A lock under one of lower rank. -/
theorem ordered_second {l m : Lock} {c : Code α} (hrank : m.rank < l.rank) (hc : Ordered {l, m} c) :
    Ordered {m} (locked l c) := by
  refine climbs_guarded ?_ hc
  intro k hk
  obtain rfl := Set.mem_singleton_iff.mp hk
  exact hrank

theorem retainLoop_ordered (statementId : String) (ids : List String) :
    Ordered {Lock.results sid} (retainLoop sid statementId ids) := by
  induction ids with
  | nil => exact ordered_pure _
  | cons id ids ih =>
    refine climbs_seq (ordered_second (by simp [Lock.rank]) (ordered_does _)) fun owned => ordered_if ?_ ih
    exact climbs_seq (ordered_does _) fun _ => climbs_seq (ordered_does _) fun _ => ih

theorem closure_ordered (limits : SessionLimits) (sid : String) (j : Job) : Ordered ∅ (closure limits sid j) := by
  cases j with
  | connection op => exact ordered_first (ordered_if (ordered_does _) (ordered_fail _))
  | newStatement =>
    refine ordered_first (climbs_seq (ordered_does _) fun n => ordered_if (ordered_fail _) ?_)
    refine climbs_seq (ordered_second (by simp [Lock.rank]) (ordered_does _)) fun _ => ?_
    refine climbs_seq (ordered_does _) fun _ => ?_
    exact climbs_seq (ordered_does _) fun id => climbs_seq (ordered_does _) fun _ => ordered_pure id
  | statement id op =>
    refine climbs_seq (ordered_first (ordered_does _)) fun found => ordered_if ?_ (ordered_fail _)
    exact ordered_first (ordered_if (ordered_does _) (ordered_fail _))
  | removeStatement id =>
    refine ordered_first (climbs_seq (ordered_does _) fun found => ordered_if ?_ (ordered_fail _))
    exact climbs_seq (ordered_does _) fun _ => ordered_does _
  | invalidate statementId =>
    exact ordered_first (climbs_seq (ordered_does _) fun ids => retainLoop_ordered statementId ids)
  | insertResult owner reader =>
    refine climbs_seq (ordered_does _) fun schema => climbs_seq (ordered_does _) fun id => climbs_seq ?_ ?_
    · refine ordered_first (climbs_seq (ordered_does _) fun n => ordered_if (ordered_pure _) ?_)
      exact climbs_seq (ordered_does _) fun _ => ordered_pure _
    · intro kept
      exact ordered_if (ordered_pure _) (climbs_seq (ordered_does _) fun _ => ordered_fail _)
  | resultSchema id =>
    exact climbs_seq (ordered_first (ordered_does _)) fun found =>
      ordered_if (ordered_first (ordered_does _)) (ordered_fail _)
  | nextResult id sequence =>
    refine climbs_seq (ordered_first (ordered_does _)) fun found => ordered_if ?_ (ordered_fail _)
    refine ordered_first (climbs_seq (ordered_does _) fun polls => ordered_if ?_ (ordered_does _))
    exact climbs_seq (ordered_does _) fun _ => ordered_does _
  | closeResult id =>
    refine ordered_first (climbs_seq (ordered_does _) fun found => ordered_if ?_ (ordered_fail _))
    exact climbs_seq (ordered_does _) fun _ => ordered_does _

theorem dropSession_ordered (sid : String) : Ordered ∅ (dropSession sid) :=
  climbs_seq (ordered_first (ordered_does _)) fun _ => ordered_first (ordered_does _)

theorem dropAll_ordered (sids : List String) : Ordered ∅ (dropAll sids) := by
  induction sids with
  | nil => exact ordered_pure _
  | cons sid sids ih => exact climbs_seq (dropSession_ordered sid) fun _ => ih

theorem dropReference_ordered (sid : String) : Ordered ∅ (dropReference sid) :=
  climbs_seq (ordered_does _) fun _ => ordered_if (ordered_pure _) (dropSession_ordered sid)

theorem dropReferences_ordered (sids : List String) : Ordered ∅ (dropReferences sids) := by
  induction sids with
  | nil => exact ordered_pure _
  | cons sid sids ih => exact climbs_seq (dropReference_ordered sid) fun _ => ih

theorem ownEntry_ordered : Ordered g ownEntry := by
  refine climbs_seq (ordered_does _) fun registered => ordered_if ?_ (ordered_fail _)
  exact climbs_seq (ordered_does _) fun owned => ordered_if (ordered_pure _) (ordered_fail _)

theorem expiredAmong_ordered (sids : List String) : Ordered {Lock.registry} (expiredAmong sids) := by
  induction sids with
  | nil => exact ordered_pure _
  | cons sid sids ih =>
    refine climbs_seq (ordered_does _) fun others => ordered_if ih ?_
    refine climbs_seq (ordered_second (by simp [Lock.rank]) (ordered_does _)) fun expired => ?_
    exact climbs_seq ih fun rest => ordered_pure _

theorem reapExpired_ordered : Ordered ∅ reapExpired :=
  climbs_seq (ordered_first (climbs_seq (ordered_does _) fun sids => expiredAmong_ordered sids)) fun removed =>
    dropAll_ordered removed

theorem countAll_ordered (sids : List String) : Ordered {Lock.registry} (countAll sids) := by
  induction sids with
  | nil => exact ordered_pure _
  | cons sid sids ih =>
    refine climbs_seq (ordered_second (by simp [Lock.rank]) (ordered_does _)) fun _ => ?_
    refine climbs_seq (ordered_second (by simp [Lock.rank]) (ordered_does _)) fun _ => ?_
    exact climbs_seq (ordered_second (by simp [Lock.rank]) (ordered_does _)) fun _ => ih

theorem cancelStatements_ordered (sid : String) (ids : List String) : Ordered ∅ (cancelStatements sid ids) := by
  induction ids with
  | nil => exact ordered_pure _
  | cons id ids ih => exact climbs_seq (ordered_ignore (ordered_does _)) fun _ => ih

theorem holds_ordered (sid : String) (h : Hold) : Ordered ∅ (holds sid h) := by
  cases h with
  | startUpload schema maxBytes => exact ordered_does _
  | finishUpload upload => exact ordered_does _
  | cancelConnection => exact ordered_does _
  | cancelStatement id =>
    exact ordered_first (climbs_seq (ordered_does _) fun found => ordered_if (ordered_does _) (ordered_fail _))
  | _ => exact ordered_first (ordered_does _)

theorem operation_ordered (o : Operation) : Ordered ∅ o.code := by
  cases o with
  | hold sid h => exact ordered_ignore (holds_ordered sid h)
  | get sid =>
    refine climbs_seq (ordered_first (climbs_seq ownEntry_ordered fun _ => ?_)) fun expired => ?_
    · refine ordered_second (by simp [Lock.rank]) (climbs_seq (ordered_does _) fun expired => ?_)
      exact climbs_seq (ordered_does _) fun others => ordered_pure _
    · exact ordered_if (climbs_seq (dropSession_ordered sid) fun _ => ordered_fail _) (ordered_pure _)
  | close sid => exact climbs_seq (ordered_first ownEntry_ordered) fun _ => dropReference_ordered sid
  | reapExpired => exact reapExpired_ordered
  | closeAll => exact climbs_seq (ordered_first (ordered_does _)) fun sids => dropReferences_ordered sids
  | reserveOpen =>
    refine climbs_seq (ordered_does _) fun closing => ordered_if (ordered_fail _) ?_
    refine climbs_seq reapExpired_ordered fun _ => ordered_first ?_
    refine climbs_seq (ordered_does _) fun closing => ordered_if (ordered_fail _) ?_
    refine climbs_seq (ordered_does _) fun full => ordered_if (ordered_fail _) ?_
    exact climbs_seq (ordered_does _) fun full => ordered_if (ordered_fail _) (ordered_pure _)
  | register sid =>
    refine climbs_seq (ordered_first (ordered_does _)) fun closing => ordered_if ?_ (ordered_pure _)
    exact climbs_seq (dropSession_ordered sid) fun _ => ordered_fail _
  | releaseReservation => exact ordered_first (ordered_pure _)
  | dropReference sid => exact dropReference_ordered sid
  | dropSession sid => exact dropSession_ordered sid
  | resourceCounts => exact ordered_first (climbs_seq (ordered_does _) fun sids => countAll_ordered sids)
  | cleanup sid ids =>
    refine climbs_seq (ordered_ignore (ordered_does _)) fun _ => ?_
    exact climbs_seq (cancelStatements_ordered sid ids) fun _ => ordered_does _

end Order

/-! ## What is left to do -/

/-- A program without its value. -/
abbrev Rest := Prog (Mutex.Ans Lock Prim.Ans) Unit

/-- What a worker or a thread has left to do. -/
def St.left (s : St) : Thread → Option Rest
  | .worker sid => (s.workers sid).map fun r => erased r.code
  | .thread n => s.threads[n]?.map fun r => erased r.code

/-- The lock that its next step takes. -/
def St.waits (s : St) (t : Thread) : Option Lock :=
  match s.left t with
  | some (.call (.lock l) _) => some l
  | _ => none

/-- It has a step left; a worker at the end of its job has still to give it up. -/
def St.busy (s : St) (t : Thread) : Prop := ∃ p, s.left t = some p ∧ (p = .done () → ∃ sid, t = .worker sid)

/-- One step of the worker or thread. -/
def Thread.goesOn : Thread → Env → Ev
  | .worker sid, e => .worker sid e
  | .thread n, e => .thread n e

section Step

variable {host : Host} {s s' : St}

/-- What a step does to what is left to do. -/
inductive Takes (host : Host) (s : St) : Ev → St → Prop
  | begins {e : Ev} {s' : St} {t : Thread} {p : Rest} :
      (∀ (u : Thread) (env : Env), e ≠ u.goesOn env) → s.left t = none → s'.left = update s.left t (some p) →
      Climbs Lock.rank ∅ p → s'.holder = s.holder → Takes host s e s'
  | goes {t : Thread} {e : Env} {s' : St} {p p' : Rest} :
      s.left t = some p → advance (Prim.perform host.ipc e) t s.holder s.inner p = some (p', s'.holder, s'.inner) →
      s'.left = update s.left t (some p') → Takes host s (t.goesOn e) s'
  | ends {t : Thread} {e : Env} {s' : St} :
      s.left t = some (.done ()) → s'.left = update s.left t none → s'.holder = s.holder → Takes host s (t.goesOn e) s'

theorem left_worker (s : St) (sid : String) (r : Option Running) :
    St.left { s with workers := update s.workers sid r } =
      update s.left (.worker sid) (r.map fun r => erased r.code) := by
  ext t : 1
  cases t with
  | worker sid' =>
    by_cases hsid : sid' = sid
    · subst hsid
      simp [St.left]
    · simp [St.left, hsid]
  | thread n => simp [St.left]

theorem left_set {n : Nat} {r : Serving} (hr : s.threads[n]? = some r) (r' : Serving) :
    St.left { s with threads := s.threads.set n r' } = update s.left (.thread n) (some (erased r'.code)) := by
  have hlt := (List.getElem?_eq_some_iff.mp hr).1
  ext t : 1
  cases t with
  | worker sid => simp [St.left]
  | thread m =>
    by_cases hm : m = n
    · subst hm
      simp [St.left, hlt]
    · have hne : n ≠ m := fun h => hm h.symm
      simp [St.left, hm, List.getElem?_set_ne hne]

theorem left_snoc (s : St) (r : Serving) :
    St.left { s with threads := s.threads ++ [r] } =
      update s.left (.thread s.threads.length) (some (erased r.code)) := by
  ext t : 1
  cases t with
  | worker sid => simp [St.left]
  | thread m =>
    by_cases hm : m = s.threads.length
    · subst hm
      simp [St.left]
    · rcases Nat.lt_or_gt_of_ne hm with hlt | hgt
      · simp [St.left, hm, List.getElem?_append_left hlt]
      · have hnone : (s.threads ++ [r])[m]? = none := by simp; omega
        have hnone' : s.threads[m]? = none := by simp; omega
        simp [St.left, hm, hnone, hnone']

theorem next_takes {e : Ev} (h : next host s e = some s') : Takes host s e s' := by
  cases e with
  | job sid j =>
    simp only [next] at h
    split at h
    · rename_i hw
      cases h
      have hnone : s.left (.worker sid) = none := by simp [St.left, hw]
      have hcode := climbs_erased (closure_ordered host.limits sid j)
      exact .begins (fun u _ => by cases u <;> simp [Thread.goesOn]) hnone (left_worker s sid _) hcode rfl
    · cases h
  | worker sid e =>
    simp only [next, Option.bind_eq_bind, Option.bind_eq_some_iff] at h
    obtain ⟨r, hr, h⟩ := h
    split at h
    · rename_i a hd
      cases h
      have hdone : s.left (.worker sid) = some (.done ()) := by
        simp only [St.left, hr, Option.map_some, hd]
        rfl
      exact .ends (t := .worker sid) (e := e) hdone (left_worker s sid _) rfl
    · rename_i o k hd
      obtain ⟨⟨code, holder, inner⟩, ha, h⟩ := Option.bind_eq_some_iff.mp h
      cases h
      rw [← hd] at ha
      have hleft : s.left (.worker sid) = some (erased r.code) := by simp [St.left, hr]
      exact .goes (t := .worker sid) hleft (advance_erased ha)
        (left_worker { s with holder := holder, inner := inner } sid _)
  | start o =>
    cases h
    have hnone : s.left (.thread s.threads.length) = none := by simp [St.left]
    have hcode := climbs_erased (operation_ordered o)
    exact .begins (fun u _ => by cases u <;> simp [Thread.goesOn]) hnone (left_snoc s _) hcode rfl
  | thread n e =>
    simp only [next, Option.bind_eq_bind, Option.bind_eq_some_iff] at h
    obtain ⟨r, hr, ⟨code, holder, inner⟩, ha, h⟩ := h
    cases h
    have hleft : s.left (.thread n) = some (erased r.code) := by simp [St.left, hr]
    exact .goes (t := .thread n) hleft (advance_erased ha)
      (left_set (s := { s with holder := holder, inner := inner }) hr _)

end Step

/-! ## Every reachable state -/

/-- Locks are held in order, by whoever has something left to do. -/
structure InOrder (s : St) : Prop where
  idle : ∀ t, s.left t = none → heldBy s.holder t = ∅
  busy : ∀ t p, s.left t = some p → (climbing Lock.rank).Follows (heldBy s.holder t) p fun g _ => g = ∅
  /-- Whoever has something left to do is one of finitely many. -/
  finite : ∃ ts : List Thread, ts.Nodup ∧ ∀ t, s.left t ≠ none → t ∈ ts

section InOrder

variable {host : Host} {s s' : St}

theorem init_inOrder (h : (machine host).init s) : InOrder s := by
  obtain ⟨-, hh, hw, ht⟩ := h
  have hleft : ∀ t, s.left t = none := by
    intro t
    cases t <;> simp [St.left, hw, ht]
  refine ⟨?_, ?_, [], List.nodup_nil, ?_⟩
  · intro t _
    ext l
    simp [hh]
  · intro t p hp
    rw [hleft] at hp
    cases hp
  · intro t hp
    exact absurd (hleft t) hp

theorem takes_inOrder (hs : InOrder s) {e : Ev} (h : Takes host s e s') : InOrder s' := by
  obtain ⟨ts, hn, hts⟩ := hs.finite
  cases h with
  | @begins _ _ t p _ hnone hleft hp hholder =>
    refine ⟨?_, ?_, ?_⟩
    · intro u hu
      rw [hholder]
      by_cases hut : u = t
      · subst hut
        exact hs.idle u hnone
      · rw [hleft, update_of_ne hut] at hu
        exact hs.idle u hu
    · intro u q hq
      rw [hholder]
      by_cases hut : u = t
      · subst hut
        rw [hleft, update_self] at hq
        cases hq
        rw [hs.idle u hnone]
        exact hp
      · rw [hleft, update_of_ne hut] at hq
        exact hs.busy u q hq
    · by_cases ht : t ∈ ts
      · refine ⟨ts, hn, ?_⟩
        intro u hu
        by_cases hut : u = t
        · subst hut
          exact ht
        · rw [hleft, update_of_ne hut] at hu
          exact hts u hu
      · refine ⟨t :: ts, List.nodup_cons.mpr ⟨ht, hn⟩, ?_⟩
        intro u hu
        by_cases hut : u = t
        · subst hut
          exact List.mem_cons_self
        · rw [hleft, update_of_ne hut] at hu
          exact List.mem_cons_of_mem _ (hts u hu)
  | @goes t _ _ p p' hp ha hleft =>
    have hsame : ∀ u, u ≠ t → heldBy s'.holder u = heldBy s.holder u := fun u hu => advance_other hu ha
    refine ⟨?_, ?_, ts, hn, ?_⟩
    · intro u hu
      by_cases hut : u = t
      · subst hut
        rw [hleft, update_self] at hu
        cases hu
      · rw [hleft, update_of_ne hut] at hu
        rw [hsame u hut]
        exact hs.idle u hu
    · intro u q hq
      by_cases hut : u = t
      · subst hut
        rw [hleft, update_self] at hq
        cases hq
        exact advance_climbs (hs.busy u p hp) ha
      · rw [hleft, update_of_ne hut] at hq
        rw [hsame u hut]
        exact hs.busy u q hq
    · intro u hu
      by_cases hut : u = t
      · subst hut
        exact hts u (by rw [hp]; exact Option.some_ne_none p)
      · rw [hleft, update_of_ne hut] at hu
        exact hts u hu
  | @ends t _ _ hdone hleft hholder =>
    refine ⟨?_, ?_, ts, hn, ?_⟩
    · intro u hu
      rw [hholder]
      by_cases hut : u = t
      · subst hut
        exact hs.busy u _ hdone
      · rw [hleft, update_of_ne hut] at hu
        exact hs.idle u hu
    · intro u q hq
      rw [hholder]
      by_cases hut : u = t
      · subst hut
        rw [hleft, update_self] at hq
        cases hq
      · rw [hleft, update_of_ne hut] at hq
        exact hs.busy u q hq
    · intro u hu
      by_cases hut : u = t
      · subst hut
        rw [hleft, update_self] at hu
        exact absurd rfl hu
      · rw [hleft, update_of_ne hut] at hu
        exact hts u hu

theorem step_inOrder (hs : InOrder s) (e : Ev) : InOrder (step host s e) := by
  unfold step
  cases hn : next host s e with
  | none => exact hs
  | some s' => exact takes_inOrder hs (next_takes hn)

theorem reach_inOrder (h : (machine host).Reach s) : InOrder s :=
  h.invariant (fun _ h0 => init_inOrder h0) fun _ e _ hs => step_inOrder hs e

end InOrder

/-! ## A schedule that begins nothing -/

/-- One step of whoever has something left to do. -/
def Continues (host : Host) (s s' : St) : Prop := ∃ (t : Thread) (e : Env), next host s (t.goesOn e) = some s'

/-- What those in the list have left to do. -/
def St.rest (s : St) (ts : List Thread) : Multiset Rest := ts.filterMap s.left

section Schedule

variable {host : Host} {s s' : St} {ts : List Thread}

theorem rest_split {f : Thread → Option Rest} {t : Thread} (hn : ts.Nodup)
    (ht : t ∈ ts) (o : Option Rest) :
    (ts.filterMap (update f t o)).Perm (o.toList ++ (ts.erase t).filterMap f) := by
  have hperm := (List.perm_cons_erase ht).filterMap (update f t o)
  have hrest : (ts.erase t).filterMap (update f t o) = (ts.erase t).filterMap f := by
    apply List.filterMap_congr
    intro u hu
    have hut : u ≠ t := (hn.mem_erase_iff.mp hu).1
    rw [update_of_ne hut]
  cases o with
  | none => simpa [hrest] using hperm
  | some p => simpa [hrest] using hperm

theorem rest_self {t : Thread} (hn : ts.Nodup) (ht : t ∈ ts) :
    (ts.filterMap s.left).Perm ((s.left t).toList ++ (ts.erase t).filterMap s.left) := by
  have h := rest_split (f := s.left) hn ht (s.left t)
  rwa [update_eq_self] at h

/-- The state of one thread is another one. -/
theorem rest_update {t : Thread} (hn : ts.Nodup) (ht : t ∈ ts) {o : Option Rest}
    (hleft : s'.left = update s.left t o) :
    s'.rest ts + ((s.left t).toList : List _) = s.rest ts + (o.toList : List _) := by
  have hbefore := Multiset.coe_eq_coe.mpr (rest_self (s := s) hn ht)
  have hafter := Multiset.coe_eq_coe.mpr (rest_split (f := s.left) hn ht o)
  unfold St.rest
  rw [hleft, hafter, hbefore, ← Multiset.coe_add, ← Multiset.coe_add]
  ac_rfl

theorem continues_less (hn : ts.Nodup) (hts : ∀ t, s.left t ≠ none → t ∈ ts) (h : Continues host s s') :
    CutExpand Left (s'.rest ts) (s.rest ts) ∧ ∀ t, s'.left t ≠ none → t ∈ ts := by
  obtain ⟨t, e, h⟩ := h
  have htakes := next_takes h
  have hsame : ∀ t o, t ∈ ts → s'.left = update s.left t o → ∀ u, s'.left u ≠ none → u ∈ ts := by
    intro t o ht hleft u hu
    by_cases hut : u = t
    · subst hut
      exact ht
    · rw [hleft, update_of_ne hut] at hu
      exact hts u hu
  generalize hev : t.goesOn e = ev at htakes
  cases htakes with
  | begins hnew _ _ _ _ => exact absurd hev.symm (hnew t e)
  | @goes t' _ _ p p' hp ha hleft =>
    have ht : t' ∈ ts := hts t' (by rw [hp]; exact Option.some_ne_none p)
    have hrest := rest_update hn ht hleft
    rw [hp] at hrest
    refine ⟨⟨{p'}, p, ?_, hrest⟩, hsame t' _ ht hleft⟩
    intro q hq
    obtain rfl := Multiset.mem_singleton.mp hq
    exact advance_left ha
  | @ends t' _ _ hdone hleft _ =>
    have ht : t' ∈ ts := hts t' (by rw [hdone]; exact Option.some_ne_none _)
    have hrest := rest_update hn ht hleft
    rw [hdone] at hrest
    exact ⟨⟨0, _, fun q hq => absurd hq (Multiset.notMem_zero q), hrest⟩, hsame t' _ ht hleft⟩

theorem continues_ends (h : InOrder s) : Acc (fun s'' s' => Continues host s' s'') s := by
  obtain ⟨ts, hn, hts⟩ := h.finite
  generalize hr : s.rest ts = rest
  have hacc : Acc (CutExpand Left) rest := (WellFounded.cutExpand left_wf).apply rest
  induction hacc generalizing s with
  | intro rest _ ih =>
    subst hr
    refine ⟨s, fun s' hs' => ?_⟩
    obtain ⟨hless, hts'⟩ := continues_less hn hts hs'
    exact ih _ hless (takes_inOrder h (next_takes hs'.choose_spec.choose_spec)) hts' rfl

/-- Whoever has something left to do and waits for no lock can take a step. -/
theorem can_go {t : Thread} {p : Rest} (hp : s.left t = some p)
    (hbusy : p = .done () → ∃ sid, t = .worker sid) (hfree : ∀ l, s.waits t = some l → s.holder l = none) (e : Env) :
    ∃ s', next host s (t.goesOn e) = some s' := by
  cases t with
  | worker sid =>
    cases hr : s.workers sid with
    | none => simp [St.left, hr] at hp
    | some r =>
      cases hc : r.code with
      | done a => exact ⟨_, by simp only [Thread.goesOn, next, hr, Option.bind_eq_bind, Option.bind_some, hc]; rfl⟩
      | call o k =>
        have hfree' : ∀ l, o = .lock l → s.holder l = none := by
          intro l hl
          subst hl
          exact hfree l (by simp [St.waits, St.left, hr, hc])
        obtain ⟨code, holder, inner, ha⟩ :=
          advance_isSome (Prim.perform host.ipc e) (Thread.worker sid) s.inner k hfree'
        exact ⟨_, by simp only [Thread.goesOn, next, hr, Option.bind_eq_bind, Option.bind_some, hc, ha]; rfl⟩
  | thread n =>
    cases hr : s.threads[n]? with
    | none => simp [St.left, hr] at hp
    | some r =>
      cases hc : r.code with
      | done a =>
        have hdone : p = .done () := by
          simp only [St.left, hr, Option.map_some, hc, Option.some.injEq] at hp
          exact hp.symm
        obtain ⟨sid, hsid⟩ := hbusy hdone
        cases hsid
      | call o k =>
        have hfree' : ∀ l, o = .lock l → s.holder l = none := by
          intro l hl
          subst hl
          exact hfree l (by simp [St.waits, St.left, hr, hc])
        obtain ⟨code, holder, inner, ha⟩ :=
          advance_isSome (Prim.perform host.ipc e) (Thread.thread n) s.inner k hfree'
        exact ⟨_, by simp only [Thread.goesOn, next, hr, Option.bind_eq_bind, Option.bind_some, hc, ha]; rfl⟩

end Schedule

/-! ## No deadlock -/

/-- Nobody has anything left to do. -/
def Quiet (s : St) : Prop := (∀ sid, s.workers sid = none) ∧ ∀ r ∈ s.threads, ∃ a, r.code = .done a

section Drains

variable {host : Host} {s s' : St}

theorem erased_done {α : Type} {c : Code α} (h : erased c = .done ()) : ∃ a, c = .done a := by
  cases c with
  | done a => exact ⟨a, rfl⟩
  | call o k => cases h

theorem quiet_of_left (h : ∀ t p, s.left t = some p → p = .done () ∧ ∀ sid, t ≠ .worker sid) : Quiet s := by
  refine ⟨?_, ?_⟩
  · intro sid
    cases hr : s.workers sid with
    | none => rfl
    | some r =>
      have hp : s.left (.worker sid) = some (erased r.code) := by simp [St.left, hr]
      exact absurd rfl ((h _ _ hp).2 sid)
  · intro r hr
    obtain ⟨n, hn⟩ := List.mem_iff_getElem?.mp hr
    have hp : s.left (.thread n) = some (erased r.code) := by simp [St.left, hn]
    exact erased_done (h _ _ hp).1

theorem waits_above (h : InOrder s) (t : Thread) (l m : Lock) (hw : s.waits t = some l) (hm : s.holder m = some t) :
    m.rank < l.rank := by
  cases hp : s.left t with
  | none => simp [St.waits, hp] at hw
  | some p =>
    have hf := h.busy t p hp
    unfold St.waits at hw
    rw [hp] at hw
    split at hw
    · rename_i l' k hcall
      cases hw
      cases hcall
      exact hf.1 m hm
    · cases hw

/-- A thread holds nothing once it has nothing left to do. -/
theorem quiet_free (h : InOrder s) (hq : Quiet s) (l : Lock) : s.holder l = none := by
  cases hl : s.holder l with
  | none => rfl
  | some t =>
    have hheld : l ∈ heldBy s.holder t := hl
    have hempty : heldBy s.holder t = ∅ := by
      cases hp : s.left t with
      | none => exact h.idle t hp
      | some p =>
        have hf := h.busy t p hp
        have hdone : p = .done () := by
          cases t with
          | worker sid => simp [St.left, hq.1 sid] at hp
          | thread n =>
            cases hr : s.threads[n]? with
            | none => simp [St.left, hr] at hp
            | some r =>
              obtain ⟨a, ha⟩ := hq.2 r (List.mem_of_getElem? hr)
              simp only [St.left, hr, Option.map_some, ha, Option.some.injEq] at hp
              exact hp.symm
        subst hdone
        exact hf
    rw [hempty] at hheld
    cases hheld

theorem continues_inOrder (h : InOrder s) (hc : ReflTransGen (Continues host) s s') : InOrder s' := by
  induction hc with
  | refl => exact h
  | tail _ hstep ih =>
    obtain ⟨t, e, hnext⟩ := hstep
    exact takes_inOrder ih (next_takes hnext)

/-- Whoever is held up waits, through others, for one that can go on. -/
theorem waits_for_one (host : Host) (h : InOrder s) {t : Thread} (ht : s.busy t) :
    ∃ u, ReflTransGen (WaitsFor s.waits s.holder) t u ∧ ∀ e, ∃ s', next host s (u.goesOn e) = some s' := by
  obtain ⟨p, hp, hbusy⟩ := ht
  obtain ⟨u, hu, hfree⟩ := waits_end Lock.rank_le (waits_above h) t
  refine ⟨u, hu, fun e => ?_⟩
  -- a thread that holds a lock is not done
  rcases ReflTransGen.cases_tail hu with heq | ⟨v, -, l, -, hheld⟩
  · subst heq
    exact can_go hp hbusy hfree e
  · have hmem : l ∈ heldBy s.holder u := hheld
    cases hq : s.left u with
    | none =>
      rw [h.idle u hq] at hmem
      cases hmem
    | some q =>
      refine can_go hq ?_ hfree e
      intro hdone
      subst hdone
      have hempty : heldBy s.holder u = ∅ := h.busy u _ hq
      rw [hempty] at hmem
      cases hmem

end Drains

/-- No deadlock: whoever has something left to do waits, in the end, for a thread that can go
    on; and if nothing new begins, every schedule comes to its end, with every lock free. -/
theorem drains (host : Host) (s : St) (h : (machine host).Reach s) :
    Acc (fun s'' s' => Continues host s' s'') s ∧
    (∀ s', ReflTransGen (Continues host) s s' → (∀ s'', ¬ Continues host s' s'') →
      Quiet s' ∧ ∀ l, s'.holder l = none) ∧
    ∀ t, s.busy t → ∃ u, ReflTransGen (WaitsFor s.waits s.holder) t u ∧
      ∀ e, ∃ s', next host s (u.goesOn e) = some s' := by
  have hs := reach_inOrder h
  refine ⟨continues_ends hs, ?_, fun t ht => waits_for_one host hs ht⟩
  intro s' hc hstuck
  have hs' := continues_inOrder hs hc
  have hquiet : Quiet s' := by
    apply quiet_of_left
    intro t p hp
    have hbusy : ¬ (p = .done () → ∃ sid, t = .worker sid) := by
      intro hbusy
      obtain ⟨u, -, hgo⟩ := waits_for_one host hs' ⟨p, hp, hbusy⟩
      obtain ⟨s'', hs''⟩ := hgo ⟨⟨willing, .fine, ""⟩, fun _ => false, []⟩
      exact hstuck s'' ⟨u, _, hs''⟩
    rw [Classical.not_imp] at hbusy
    exact ⟨hbusy.1, fun sid hsid => hbusy.2 ⟨sid, hsid⟩⟩
  exact ⟨hquiet, quiet_free hs' hquiet⟩

/-- A worker in the driver's `new_statement`, and a cancellation that waits for it. -/
theorem drains_new_statement : ∃ s, (machine Solo.smallHost).Reach s ∧
    WaitsFor s.waits s.holder (.thread 0) (.worker "c") ∧ Acc (fun s'' s' => Continues Solo.smallHost s' s'') s := by
  have hreach := Machine.Reach.run quietServer_init
    (working .newStatement 3 ++ [.start (.hold "c" (.cancelStatement "x"))])
  exact ⟨_, hreach, ⟨.statements "c", rfl, rfl⟩, (drains Solo.smallHost _ hreach).1⟩

end Grainlift.Server.Locks
