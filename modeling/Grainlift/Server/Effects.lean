/-
  Grainlift.Server.Effects — what any one operation can do to a session, once and for all.

  Of all the operations only four add anything: a statement, a result, an upload, or a
  downstream execute. Everything else is `Quiet`: registries only shrink or change in
  place, and no statement was executed. The invariants of the interleaved runs are proved
  from this split (`perform_effect`) and never by unfolding the operations again.
-/

import Grainlift.Server.Solo

namespace Grainlift.Server

open Grainlift.Lib Grainlift.Protocol

/-! ## Results in place -/

/-- The same cursor, perhaps further on: same owner, same reader. -/
structure SameResult (e e' : ResultEntry) : Prop where
  owner : e'.ownerStatementId = e.ownerStatementId
  items : e'.reader.items = e.reader.items
  schema : e'.reader.schema = e.reader.schema

theorem SameResult.refl (e : ResultEntry) : SameResult e e := ⟨rfl, rfl, rfl⟩

theorem poll_same (e : ResultEntry) (sequence : Int64) : SameResult e (e.poll sequence).2 := by
  unfold ResultEntry.poll Reader.next
  split
  all_goals
    rename_i heq
    obtain ⟨-, rfl⟩ := Prod.mk.inj heq
    exact ⟨rfl, rfl, rfl⟩

theorem next_same (e : ResultEntry) (sequence : Int64) : SameResult e (e.next sequence).2 := by
  unfold ResultEntry.next
  split
  · exact .refl e
  · exact .refl e
  · split
    · exact .refl e
    split
    · exact .refl e
    · exact poll_same e sequence

/-! ## Executes -/

/-- The driver's answer to a call, if it is an execute of the statement. -/
def executeAnswer (sid : String) : BackendCall → Option (Except AdbcError Reader)
  | .statement id .execute answer => if id = sid then some answer else none
  | _ => none

/-- What the statement's most recent downstream execute answered. -/
def lastExecute (calls : List BackendCall) (sid : String) : Option (Except AdbcError Reader) :=
  calls.foldl (fun last c => (executeAnswer sid c).or last) none

@[simp] theorem lastExecute_snoc (calls : List BackendCall) (c : BackendCall) (sid : String) :
    lastExecute (calls ++ [c]) sid = (executeAnswer sid c).or (lastExecute calls sid) := by
  simp [lastExecute]

/-! ## The split -/

structure Quiet (s s' : Inner) : Prop where
  statements : s'.statements ⊆ s.statements
  results : ∀ id e', s'.results.lookup id = some e' → ∃ e, s.results.lookup id = some e ∧ SameResult e e'
  uploads : ∀ id u', s'.bindUploads.lookup id = some u' → ∃ u, s.bindUploads.lookup id = some u ∧
    u'.statementId = u.statementId
  executes : ∀ sid, lastExecute s'.calls sid = lastExecute s.calls sid

theorem Quiet.refl (s : Inner) : Quiet s s :=
  ⟨Finset.Subset.refl _, fun _ e h => ⟨e, h, .refl e⟩, fun _ u h => ⟨u, h, rfl⟩, fun _ => rfl⟩

theorem Quiet.called {s : Inner} {c : BackendCall} (hc : ∀ sid, executeAnswer sid c = none) : Quiet s (s.called c) :=
  ⟨Finset.Subset.refl _, fun _ e h => ⟨e, h, .refl e⟩, fun _ u h => ⟨u, h, rfl⟩,
    fun sid => by simp [Inner.called, hc sid]⟩

inductive Effect (limits : SessionLimits) (w : World) (s : Inner) : Op → Inner → Prop
  | quiet {op : Op} {s' : Inner} : Quiet s s' → Effect limits w s op s'
  | statement : Effect limits w s (.job .newStatement)
      { s.called (.newStatement (.ok ())) with statements := insert w.fresh s.statements }
  | result (owner : Option String) (reader : Reader) : s.results.size < limits.maxResultsPerSession →
      Effect limits w s (.job (.insertResult owner reader))
      { s with results := s.results.insert w.fresh (.fresh owner reader) }
  | executed (sid : String) : sid ∈ s.statements → Effect limits w s (.job (.statement sid .execute))
      (s.called (.statement sid .execute w.driver.reader))
  | upload (entry : BindUploadEntry) : Effect limits w s (.hold (.insertUpload entry))
      { s with bindUploads := s.bindUploads.insert w.fresh entry }

/-- Tables that only shrink. -/
theorem lookup_of_erase {V : Type} {t : Table String V} {k id : String} {v : V} (h : (t.erase k).lookup id = some v) :
    t.lookup id = some v := by
  by_cases e : id = k
  · subst e
    simp at h
  · rwa [AList.lookup_erase_ne e] at h

theorem lookup_of_retain {V : Type} {t : Table String V} {p : String → V → Bool} {id : String} {v : V}
    (h : (t.retain p).lookup id = some v) : t.lookup id = some v ∧ p id v = true := by
  rw [Table.lookup_retain, Option.filter_eq_some_iff] at h
  exact h

/-- Replacing an entry that is there. -/
theorem lookup_of_replace {V : Type} {t : Table String V} {k id : String} {v v' w : V} (hk : t.lookup k = some v)
    (h : (t.insert k v').lookup id = some w) : ∃ u, t.lookup id = some u ∧ (w = u ∨ (id = k ∧ u = v ∧ w = v')) := by
  by_cases e : id = k
  · subst e
    rw [AList.lookup_insert] at h
    cases h
    exact ⟨v, hk, .inr ⟨rfl, rfl, rfl⟩⟩
  · rw [AList.lookup_insert_ne e] at h
    exact ⟨w, h, .inl rfl⟩

theorem Quiet.statementsErased (s : Inner) (id : String) : Quiet s { s with statements := s.statements.erase id } :=
  { Quiet.refl s with statements := Finset.erase_subset _ _ }

theorem Quiet.resultsErased (s : Inner) (id : String) : Quiet s { s with results := s.results.erase id } :=
  { Quiet.refl s with results := fun _ e h => ⟨e, lookup_of_erase h, .refl e⟩ }

theorem Quiet.resultsRetained (s : Inner) (p : String → ResultEntry → Bool) :
    Quiet s { s with results := s.results.retain p } :=
  { Quiet.refl s with results := fun _ e h => ⟨e, (lookup_of_retain h).1, .refl e⟩ }

theorem Quiet.uploadsErased (s : Inner) (id : String) : Quiet s { s with bindUploads := s.bindUploads.erase id } :=
  { Quiet.refl s with uploads := fun _ u h => ⟨u, lookup_of_erase h, rfl⟩ }

theorem Quiet.uploadsRetained (s : Inner) (p : String → BindUploadEntry → Bool) :
    Quiet s { s with bindUploads := s.bindUploads.retain p } :=
  { Quiet.refl s with uploads := fun _ u h => ⟨u, (lookup_of_retain h).1, rfl⟩ }

theorem nextResult_quiet (id : String) (sequence : Int64) (s : Inner) : Quiet s (nextResultJob id sequence s).2 := by
  unfold nextResultJob
  cases hl : s.results.lookup id with
  | none => exact .refl s
  | some entry =>
    have hsame := next_same entry sequence
    have hq : Quiet s { s with results := s.results.insert id (entry.next sequence).2 } :=
      { Quiet.refl s with
        results := fun id' e' h => by
          obtain ⟨u, hu, rfl | ⟨-, rfl, rfl⟩⟩ := lookup_of_replace hl h
          · exact ⟨_, hu, .refl _⟩
          · exact ⟨_, hu, hsame⟩ }
    simp only
    split
    · exact hq
    · exact { hq with executes := fun sid => by simp [Inner.called, executeAnswer] }

theorem pushUpload_quiet (ipc : Ipc) (w : World) (id : String) (b : RecordBatch) (s : Inner) :
    Quiet s (pushUploadHold ipc w id b s).2 := by
  unfold pushUploadHold
  cases hl : s.bindUploads.lookup id with
  | none => exact .refl s
  | some entry =>
    exact { Quiet.refl s with
      uploads := fun id' u' h => by
        obtain ⟨u, hu, rfl | ⟨-, rfl, rfl⟩⟩ := lookup_of_replace hl h
        · exact ⟨_, hu, rfl⟩
        · exact ⟨_, hu, rfl⟩ }

theorem job_effect (limits : SessionLimits) (w : World) (j : Job) (s : Inner) :
    Effect limits w s (.job j) (j.perform limits w s).2 := by
  cases j with
  | connection op =>
    simp only [Job.perform]
    split
    · exact .quiet (.called fun _ => rfl)
    · exact .quiet (.refl s)
  | newStatement =>
    simp only [Job.perform, newStatementJob]
    split
    · exact .quiet (.refl s)
    · cases hd : w.driver.unit with
      | error e => exact .quiet (.called fun _ => rfl)
      | ok u => exact .statement
  | statement id op =>
    simp only [Job.perform]
    split
    case isFalse => exact .quiet (.refl s)
    case isTrue hm =>
    cases op with
    | execute => exact .executed id hm
    | getOption key valueType =>
      simp only
      split
      · exact .quiet (.called fun _ => rfl)
      · exact .quiet (.refl s)
    | _ => exact .quiet (.called fun _ => rfl)
  | removeStatement id =>
    simp only [Job.perform]
    split
    · exact .quiet (.statementsErased s id)
    · exact .quiet (.refl s)
  | invalidate sid => exact .quiet (.resultsRetained s _)
  | insertResult owner reader =>
    simp only [Job.perform, insertResultJob]
    split
    · exact .quiet (.refl s)
    · rename_i hq
      exact .result owner reader (Nat.lt_of_not_le hq)
  | resultSchema id =>
    simp only [Job.perform]
    split <;> exact .quiet (.refl s)
  | nextResult id sequence => exact .quiet (nextResult_quiet id sequence s)
  | closeResult id =>
    simp only [Job.perform]
    split
    · exact .quiet (.refl s)
    · exact .quiet (.resultsErased s id)

theorem hold_effect (limits : SessionLimits) (ipc : Ipc) (w : World) (h : Hold) (s : Inner) :
    Effect limits w s (.hold h) (h.perform ipc w s).2 := by
  cases h with
  | checkStatement id => exact .quiet (.refl s)
  | startUpload schema maxBytes => exact .quiet (.refl s)
  | insertUpload entry => exact .upload entry
  | pushUpload id batch => exact .quiet (pushUpload_quiet ipc w id batch s)
  | takeUpload id =>
    simp only [Hold.perform]
    split
    · exact .quiet (.refl s)
    · exact .quiet (.uploadsErased s id)
  | takeUploadsOf sid => exact .quiet (.uploadsRetained s _)
  | finishUpload upload => exact .quiet (.refl s)
  | cancelConnection => exact .quiet (.called fun _ => rfl)
  | cancelStatement id =>
    simp only [Hold.perform]
    split
    · exact .quiet (.called fun _ => rfl)
    · exact .quiet (.refl s)

/-- Whatever becomes of an operation, this is all it can do. -/
theorem respond_effect (host : Host) (m : Moment) (op : Op) (s : Inner) :
    Effect host.limits m.world s op (respond host m op s).2 := by
  cases op with
  | hold h => exact hold_effect host.limits host.ipc m.world h s
  | job j =>
    simp only [respond]
    cases m.fate with
    | answered | late => exact job_effect host.limits m.world j s
    | full | stopped | abandoned => exact .quiet (.refl s)

end Grainlift.Server
