/-
  Grainlift.Server.ResultRuns — the results of a session in a concurrent run
  (`insert_owned_result`, `next_result`, `close_result`, session.rs).

  A result is registered under a fresh id with the driver's reader. Any callers poll it,
  by numbers of their own, until it is closed or its statement invalidates it; an id that
  left the registry does not come back.

  `Cursor` follows one entry through the calls made on it. Here the calls are those of a
  run: wherever they came from, a registered entry is at a position its reader's items
  lead to (`At`), and what `next_result` ever answered at a number is the reader's item
  of that number (`reach_results`).
-/

import Grainlift.Server.Cursor
import Grainlift.Server.Trails

namespace Grainlift.Server.ResultRuns

open Grainlift.Lib Grainlift.Protocol Concurrent
open Cursor (End Leads asResult)

/-! ## An entry over a driver's reader -/

section Entry

variable {owner : Option String} {reader : Reader} {n : Nat} {fin : End} {e : ResultEntry} {k : Int64}

/-- What the reader has yet to give, from where it was when it came. -/
def ahead (reader : Reader) (i : Nat) : Option (Except AdbcError RecordBatch) := reader.items (reader.polled + i)

/-- An entry over what is left of the reader, as one over the reader. -/
def onto (reader : Reader) (e : ResultEntry) : ResultEntry :=
  { e with reader := ⟨e.reader.schema, reader.items, reader.polled + e.reader.polled⟩ }

theorem next_onto (h : e.reader.items = ahead reader) (k : Int64) :
    (onto reader e).next k = ((e.next k).1, onto reader (e.next k).2) := by
  have hpoll : (onto reader e).poll k = ((e.poll k).1, onto reader (e.poll k).2) := by
    have hitem : reader.items (reader.polled + e.reader.polled) = e.reader.items e.reader.polled := by rw [h, ahead]
    unfold ResultEntry.poll Reader.next
    simp only [onto, hitem]
    cases e.reader.items e.reader.polled with
    | none => rfl
    | some item => cases item <;> rfl
  have hreplayed : (onto reader e).replayed k = e.replayed k := rfl
  have hlatched : (onto reader e).latched k = e.latched k := rfl
  have hnext : (onto reader e).nextSequence = e.nextSequence := rfl
  have hfinished : (onto reader e).finished = e.finished := rfl
  unfold ResultEntry.next
  rw [hreplayed, hlatched, hnext, hfinished]
  cases e.replayed k with
  | some batch => rfl
  | none =>
    cases e.latched k with
    | some err => rfl
    | none =>
      show (if k ≠ e.nextSequence then _ else _) = _
      by_cases hk : k ≠ e.nextSequence
      · simp only [if_pos hk]
      · simp only [if_neg hk]
        by_cases hf : e.finished = true
        · simp only [if_pos hf]
        · simp only [if_neg hf]
          exact hpoll

/-- The entry of the driver's `reader` is at position `n`. -/
def At (owner : Option String) (reader : Reader) (n : Nat) (e : ResultEntry) : Prop :=
  ∃ fin, e = onto reader (Cursor.shape owner reader.schema (ahead reader) n fin) ∧ Leads (ahead reader) n fin

theorem at_fresh (owner : Option String) (reader : Reader) : At owner reader 0 (.fresh owner reader) :=
  ⟨.more, rfl, fun _ hi => absurd hi (Nat.not_lt_zero _), fun _ he => (nomatch he), fun he => (nomatch he)⟩

theorem next_at (h : At owner reader n e) (k : Int64) : ∃ m, n ≤ m ∧ m ≤ n + 1 ∧ At owner reader m (e.next k).2 := by
  obtain ⟨fin, rfl, hl⟩ := h
  rw [next_onto rfl]
  rcases Cursor.next_shape owner reader.schema (ahead reader) n fin k with hs | ⟨rfl, rfl⟩
  · rw [hs]
    exact ⟨n, Nat.le_refl n, Nat.le_succ n, fin, rfl, hl⟩
  · rw [Cursor.next_poll]
    refine ⟨_, ?_, ?_, _, rfl, Cursor.pulled_leads _ hl⟩
    · unfold Cursor.pulled
      split <;> omega
    · unfold Cursor.pulled
      split <;> omega

/-- What is answered at a number is the reader's item of that number. -/
theorem answer_at (h : At owner reader n e) {a : Option RecordBatch} (ha : (e.next k).1 = .ok a) :
    ∃ m, m ≤ n ∧ k = Int64.ofNat m ∧ asResult (ahead reader m) = .ok a := by
  obtain ⟨fin, rfl, hl⟩ := h
  rw [next_onto rfl] at ha
  by_cases hk : k = Int64.ofNat n
  · subst hk
    refine ⟨n, Nat.le_refl n, rfl, ?_⟩
    cases fin with
    | more =>
      rw [Cursor.next_poll] at ha
      exact ha
    | failed er =>
      rw [Cursor.next_failed] at ha
      cases ha
    | ended =>
      rw [Cursor.next_ended] at ha
      rw [hl.ended rfl]
      exact ha
  · by_cases hr : ∃ b, fin ≠ .ended ∧ Cursor.lastOf (ahead reader) n = some (k, b)
    · obtain ⟨b, hf, hlast⟩ := hr
      rw [Cursor.next_replay owner reader.schema (ahead reader) hf hlast] at ha
      obtain ⟨m, rfl, hkm, hb⟩ := Cursor.lastOf_some _ hlast
      refine ⟨m, Nat.le_succ m, hkm, ?_⟩
      rw [hb]
      exact ha
    · rw [Cursor.next_refused owner reader.schema (ahead reader) hk fun b hb => hr ⟨b, hb⟩] at ha
      cases ha

end Entry

/-! ## Operations on one result -/

section Perform

variable {limits : SessionLimits} {ipc : Ipc} {w : World} {i : Inner} {id : String}

theorem hold_results (o : Hold) : (o.perform ipc w i).2.results = i.results := by
  cases o with
  | checkStatement _ | startUpload _ _ | insertUpload _ | takeUploadsOf _ | finishUpload _ | cancelConnection => rfl
  | pushUpload id b =>
    simp only [Hold.perform, pushUploadHold]
    split <;> rfl
  | takeUpload id =>
    simp only [Hold.perform]
    split <;> rfl
  | cancelStatement id =>
    simp only [Hold.perform]
    split <;> rfl

variable (limits w i id) in
/-- What a job does to the result `id`. -/
inductive Touched : Job → Prop
  | same {j : Job} : (j.perform limits w i).2.results.lookup id = i.results.lookup id → Touched j
  | removed {j : Job} : (j.perform limits w i).2.results.lookup id = none → Touched j
  | inserted (owner : Option String) (reader : Reader) : w.fresh = id →
      ((Job.insertResult owner reader).perform limits w i).1 = .ok (id, reader.schema) →
      ((Job.insertResult owner reader).perform limits w i).2.results.lookup id = some (.fresh owner reader) →
      Touched (.insertResult owner reader)
  | polled (sequence : Int64) {e : ResultEntry} : i.results.lookup id = some e →
      ((Job.nextResult id sequence).perform limits w i).2.results.lookup id = some (e.next sequence).2 →
      Touched (.nextResult id sequence)

theorem job_touched (j : Job) : Touched limits w i id j := by
  cases j with
  | connection op =>
    refine .same ?_
    simp only [Job.perform]
    split <;> rfl
  | newStatement =>
    refine .same ?_
    simp only [Job.perform, newStatementJob]
    split
    · rfl
    · split <;> rfl
  | statement sid op =>
    refine .same ?_
    simp only [Job.perform]
    split
    · simp only
      split <;> rfl
    · rfl
  | removeStatement sid =>
    refine .same ?_
    simp only [Job.perform]
    split <;> rfl
  | invalidate sid =>
    cases hl : (i.results.retain (notOwnedBy sid)).lookup id with
    | none => exact .removed hl
    | some e => exact .same (hl.trans (lookup_of_retain hl).1.symm)
  | insertResult owner reader =>
    by_cases hq : limits.maxResultsPerSession ≤ i.results.size
    · refine .same ?_
      simp only [Job.perform, insertResultJob, if_pos hq]
    · by_cases hid : w.fresh = id
      · subst hid
        refine .inserted owner reader rfl ?_ ?_
        · simp only [Job.perform, insertResultJob, if_neg hq]
        · simp only [Job.perform, insertResultJob, if_neg hq]
          exact AList.lookup_insert _
      · refine .same ?_
        simp only [Job.perform, insertResultJob, if_neg hq]
        exact AList.lookup_insert_ne fun h => hid h.symm
  | resultSchema rid =>
    refine .same ?_
    simp only [Job.perform]
    split <;> rfl
  | nextResult rid sequence =>
    by_cases hid : rid = id
    · subst hid
      cases hl : i.results.lookup rid with
      | none =>
        refine .same ?_
        simp only [Job.perform, nextResultJob, hl]
      | some e =>
        refine .polled sequence hl ?_
        simp only [Job.perform, nextResultJob, hl]
        split
        · exact AList.lookup_insert _
        · exact AList.lookup_insert _
    · refine .same ?_
      simp only [Job.perform, nextResultJob]
      cases hl : i.results.lookup rid with
      | none => rfl
      | some e =>
        simp only
        split
        · exact AList.lookup_insert_ne fun h => hid h.symm
        · exact AList.lookup_insert_ne fun h => hid h.symm
  | closeResult rid =>
    cases hl : i.results.lookup rid with
    | none => exact .same (by simp [Job.perform, hl])
    | some e =>
      by_cases hid : id = rid
      · subst hid
        exact .removed (by simp [Job.perform, hl])
      · exact .same (by simp [Job.perform, hl, hid])

theorem insertResult_ok {owner : Option String} {reader : Reader} {schema : Schema}
    (h : ((Job.insertResult owner reader).perform limits w i).1 = .ok (id, schema)) :
    w.fresh = id ∧ reader.schema = schema := by
  simp only [Job.perform, insertResultJob] at h
  split at h
  · cases h
  · cases h
    exact ⟨rfl, rfl⟩

theorem nextResult_ok {sequence : Int64} {a : Option RecordBatch}
    (h : ((Job.nextResult id sequence).perform limits w i).1 = .ok a) :
    ∃ e, i.results.lookup id = some e ∧ (e.next sequence).1 = .ok a := by
  simp only [Job.perform, nextResultJob] at h
  cases hl : i.results.lookup id with
  | none =>
    rw [hl] at h
    cases h
  | some e =>
    rw [hl] at h
    exact ⟨e, rfl, h⟩

end Perform

/-! ## The results of a run -/

section Run

variable {host : Host} {srv : Service} {v : SessionView} {s s' : St} {e : Ev} {id : String} {G : St → Ev → Prop}

/-- `insert_owned_result` registered the result, with the driver's reader. -/
def Registered (s : St) (id : String) (owner : Option String) (reader : Reader) : Prop :=
  ∃ ev ∈ s.log, (⟨ev.op, ev.answer⟩ : (op : Op) × Ans op) = ⟨.job (.insertResult owner reader), .ok (id, reader.schema)⟩

/-- `next_result` was answered `a` at the number. -/
def Polled (s : St) (id : String) (sequence : Int64) (a : Option RecordBatch) : Prop :=
  ∃ ev ∈ s.log, (⟨ev.op, ev.answer⟩ : (op : Op) × Ans op) = ⟨.job (.nextResult id sequence), .ok a⟩

structure Results (id : String) (s : St) : Prop where
  issued : ∀ owner reader, Registered s id owner reader → id ∈ s.issued
  single : ∀ owner owner' reader reader', Registered s id owner reader → Registered s id owner' reader' →
    reader = reader'
  /-- A position is a number of polls, each of them an event. -/
  entry : ∀ e, s.inner.results.lookup id = some e → ∃ owner reader n, Registered s id owner reader ∧
    At owner reader n e ∧ n ≤ s.log.length
  answers : ∀ sequence a, Polled s id sequence a → ∃ owner reader n, Registered s id owner reader ∧
    n ≤ s.log.length ∧ sequence = Int64.ofNat n ∧ asResult (ahead reader n) = .ok a

theorem Registered.keep {owner : Option String} {reader : Reader} (h : Registered s id owner reader)
    (hm : Move host srv v s e s') : Registered s' id owner reader := by
  obtain ⟨ev, hev, hn⟩ := h
  exact ⟨ev, hm.log_prefix.subset hev, hn⟩

/-- A result registered by this step has an id of its own. -/
theorem registered_of (hm : Move host srv v s e s') {owner : Option String} {reader : Reader}
    (h : Registered s' id owner reader) : Registered s id owner reader ∨
      (id ∉ s.issued ∧ id ∈ s'.issued ∧ ∃ h c calls,
        s'.log = s.log ++ [⟨h, c, .job (.insertResult owner reader), .ok (id, reader.schema), calls⟩]) := by
  obtain ⟨ev, hev, hn⟩ := h
  cases hm.logged with
  | nothing _ hl _ => exact .inl ⟨ev, hl ▸ hev, hn⟩
  | hold _ _ _ _ _ _ _ hl =>
    rw [hl] at hev
    rcases List.mem_append.mp hev with hev | hev
    · exact .inl ⟨ev, hev, hn⟩
    · rw [List.mem_singleton.mp hev] at hn
      cases hn
  | @finish c t w _ _ _ hf _ hi hl =>
    rw [hl] at hev
    rcases List.mem_append.mp hev with hev | hev
    · exact .inl ⟨ev, hev, hn⟩
    · rw [List.mem_singleton.mp hev] at hn
      obtain ⟨handler, job, k⟩ := t
      obtain ⟨hop, hans⟩ := Sigma.mk.inj hn
      cases hop
      have hans := eq_of_heq hans
      simp only at hans hl
      rw [hans] at hl
      obtain ⟨rfl, -⟩ := insertResult_ok hans
      exact .inr ⟨hf, hi ▸ List.mem_cons_self, _, _, _, hl⟩

/-- A number was answered before, or by this step. -/
theorem polled_of (hm : Move host srv v s e s') {sequence : Int64} {a : Option RecordBatch}
    (h : Polled s' id sequence a) : Polled s id sequence a ∨
      ∃ entry, s.inner.results.lookup id = some entry ∧ (entry.next sequence).1 = .ok a := by
  obtain ⟨ev, hev, hn⟩ := h
  cases hm.logged with
  | nothing _ hl _ => exact .inl ⟨ev, hl ▸ hev, hn⟩
  | hold _ _ _ _ _ _ _ hl =>
    rw [hl] at hev
    rcases List.mem_append.mp hev with hev | hev
    · exact .inl ⟨ev, hev, hn⟩
    · rw [List.mem_singleton.mp hev] at hn
      cases hn
  | @finish c t w _ _ _ hf _ hi hl =>
    rw [hl] at hev
    rcases List.mem_append.mp hev with hev | hev
    · exact .inl ⟨ev, hev, hn⟩
    · rw [List.mem_singleton.mp hev] at hn
      obtain ⟨handler, job, k⟩ := t
      obtain ⟨hop, hans⟩ := Sigma.mk.inj hn
      cases hop
      exact .inr (nextResult_ok (eq_of_heq hans))

/-- The entry of a result: as it was, new, or polled once more. -/
theorem entry_of (hm : Move host srv v s e s') {entry : ResultEntry} (h : s'.inner.results.lookup id = some entry) :
    s.inner.results.lookup id = some entry ∨
    (∃ owner reader, Registered s' id owner reader ∧ entry = .fresh owner reader) ∨
    (∃ sequence e0, s.inner.results.lookup id = some e0 ∧ entry = (e0.next sequence).2 ∧
      s'.log.length = s.log.length + 1) := by
  cases hm.logged with
  | nothing hi _ _ => exact .inl (hi ▸ h)
  | hold _ _ _ _ _ hi _ _ =>
    rw [hi, hold_results] at h
    exact .inl h
  | @finish c t w _ _ _ _ hi _ hl =>
    obtain ⟨handler, job, k⟩ := t
    have htouched : Touched host.limits w s.inner id job := job_touched job
    rw [hi] at h
    cases htouched with
    | same hs => exact .inl (hs.symm.trans h)
    | removed hs => cases hs.symm.trans h
    | inserted owner reader hid hans hs =>
      simp only [hans] at hl
      generalize List.drop _ _ = calls at hl
      have hr : Registered s' id owner reader := by
        refine ⟨⟨handler, some c, .job (.insertResult owner reader), .ok (id, reader.schema), calls⟩, ?_, rfl⟩
        rw [hl]
        exact List.mem_append_right _ (List.mem_singleton.mpr rfl)
      exact .inr (.inl ⟨owner, reader, hr, Option.some.inj (h.symm.trans hs)⟩)
    | polled sequence hl0 hs =>
      right
      right
      refine ⟨sequence, _, hl0, Option.some.inj (h.symm.trans hs), ?_⟩
      rw [hl, List.length_append]
      rfl

theorem results_move (hi : Results id s) (hm : Move host srv v s e s') : Results id s' := by
  have hlen := hm.log_prefix.length_le
  refine ⟨?_, ?_, ?_, ?_⟩
  · intro owner reader h
    rcases registered_of hm h with h | ⟨-, h, -⟩
    · exact hm.issued_keep (hi.issued owner reader h)
    · exact h
  · intro owner owner' reader reader' h h'
    rcases registered_of hm h with h | ⟨hf, -, _, _, _, hl⟩
    · rcases registered_of hm h' with h' | ⟨hf', -⟩
      · exact hi.single owner owner' reader reader' h h'
      · exact absurd (hi.issued owner reader h) hf'
    · rcases registered_of hm h' with h' | ⟨-, -, _, _, _, hl'⟩
      · exact absurd (hi.issued owner' reader' h') hf
      · have heq := List.append_cancel_left (hl.symm.trans hl')
        cases heq
        rfl
  · intro entry h
    rcases entry_of hm h with h | ⟨owner, reader, hr, rfl⟩ | ⟨sequence, e0, h0, rfl, hl⟩
    · obtain ⟨owner, reader, n, hr, hat, hn⟩ := hi.entry entry h
      exact ⟨owner, reader, n, hr.keep hm, hat, Nat.le_trans hn hlen⟩
    · exact ⟨owner, reader, 0, hr, at_fresh owner reader, Nat.zero_le _⟩
    · obtain ⟨owner, reader, n, hr, hat, hn⟩ := hi.entry e0 h0
      obtain ⟨m, -, hm', hat'⟩ := next_at hat sequence
      exact ⟨owner, reader, m, hr.keep hm, hat', by omega⟩
  · intro sequence a h
    rcases polled_of hm h with h | ⟨e0, h, ha⟩
    · obtain ⟨owner, reader, n, hr, hn, hrest⟩ := hi.answers sequence a h
      exact ⟨owner, reader, n, hr.keep hm, Nat.le_trans hn hlen, hrest⟩
    · obtain ⟨owner, reader, n, hr, hat, hn⟩ := hi.entry e0 h
      obtain ⟨m, hle, hrest⟩ := answer_at hat ha
      exact ⟨owner, reader, m, hr.keep hm, by omega, hrest⟩

theorem Registered.path (hr : (machine host srv v).ReachIn G s) (p : (machine host srv v).Path G s s')
    {owner : Option String} {reader : Reader} (h : Registered s id owner reader) : Registered s' id owner reader :=
  path_of_moves (P := fun s => Registered s id owner reader) (Q := fun _ => True) (fun _ => trivial) hr p h
    fun _ _ _ h hm => h.keep hm

theorem reach_results (hr : (machine host srv v).ReachIn G s) (id : String) : Results id s := by
  refine invariant_of_moves (P := Results id) (Q := fun _ => True) (fun _ => trivial) ?_
    (fun _ _ _ hi hm => results_move hi hm) hr
  intro policy
  refine ⟨?_, ?_, fun e h => (nomatch h), ?_⟩
  · intro owner reader h
    obtain ⟨ev, hev, -⟩ := h
    cases hev
  · intro owner owner' reader reader' h
    obtain ⟨ev, hev, -⟩ := h
    cases hev
  · intro sequence a h
    obtain ⟨ev, hev, -⟩ := h
    cases hev

end Run

end Grainlift.Server.ResultRuns
