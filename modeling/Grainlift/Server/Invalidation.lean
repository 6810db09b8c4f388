/-
  Grainlift.Server.Invalidation — what the four executes leave of a session's results.

  EXECUTE, EXECUTE_UPDATE, EXECUTE_SCHEMA and EXECUTE_PARTITIONS first drop the results of
  their statement; EXECUTE drops them again once it has the driver's reader, and then
  registers it, which the quota may refuse, and names it in its response, which may be too
  large. Wherever such a handler ends (`invalidation_frame`), the statement has no result
  but the one a successful EXECUTE named, and nothing else in the session has changed.

  This is one handler on its own, every worker call of which is answered. One that is
  refused or given up on may leave the statement's old results, or a new one that no
  response names.
-/

import Grainlift.Server.Handlers
import Grainlift.Server.Solo

namespace Grainlift.Server

open Grainlift.Lib Grainlift.Protocol

namespace Solo

/-- The methods that execute a statement. -/
def executes : List Method := [.execute, .executeUpdate, .executeSchema, .executePartitions]

def Owned (sid : String) (s : Inner) (id : String) : Prop :=
  ∃ e, s.results.lookup id = some e ∧ e.ownerStatementId = some sid

/-- What the method `m` on the statement `sid` does to the session it found, and what it
    answers. -/
structure Invalidated (srv : Service) (ctx : CallContext) (m : Method) (sid : String) (s s' : Inner)
    (r : Except RpcError Reply) : Prop where
  others : ∀ id e, e.ownerStatementId ≠ some sid → (s'.results.lookup id = some e ↔ s.results.lookup id = some e)
  named : m = .execute → ∀ reply, r = .ok reply → ∃ id ipc batch,
    reply = .unary batch ∧ boundedResponse srv (.execute id none ipc) (responseLimit ctx) = .ok batch ∧
    ∀ id', Owned sid s' id' ↔ id' = id
  none : m ≠ .execute ∨ (∃ e, r = .error e) → ∀ id, ¬ Owned sid s' id
  statements : s'.statements = s.statements
  bindUploads : s'.bindUploads = s.bindUploads

/-- The results of `sid` are dropped, and nothing else. -/
structure Cleared (sid : String) (s s' : Inner) : Prop where
  results : s'.results = s.results.retain (notOwnedBy sid)
  statements : s'.statements = s.statements
  bindUploads : s'.bindUploads = s.bindUploads

section

variable {sid : String} {s s' : Inner}

theorem lookup_notOwnedBy {t : Table String ResultEntry} {id : String} {e : ResultEntry} :
    (t.retain (notOwnedBy sid)).lookup id = some e ↔ t.lookup id = some e ∧ e.ownerStatementId ≠ some sid := by
  rw [Table.lookup_retain, Option.filter_eq_some_iff]
  simp [notOwnedBy]

theorem Cleared.called (h : Cleared sid s s') (c : BackendCall) : Cleared sid s (s'.called c) :=
  ⟨h.results, h.statements, h.bindUploads⟩

theorem Cleared.again (h : Cleared sid s s') :
    Cleared sid s { s' with results := s'.results.retain (notOwnedBy sid) } :=
  { h with results := by rw [h.results, Table.retain_retain] }

theorem Cleared.others (h : Cleared sid s s') (id : String) (e : ResultEntry) (he : e.ownerStatementId ≠ some sid) :
    s'.results.lookup id = some e ↔ s.results.lookup id = some e := by
  rw [h.results, lookup_notOwnedBy]
  exact and_iff_left he

theorem Cleared.not_owned (h : Cleared sid s s') (id : String) : ¬ Owned sid s' id := by
  intro h'
  obtain ⟨e, he, ho⟩ := h'
  rw [h.results, lookup_notOwnedBy] at he
  exact he.2 ho

theorem Cleared.lookup_none (h : Cleared sid s s') {id : String} (hid : s.results.lookup id = none) :
    s'.results.lookup id = none := by
  rw [h.results, Table.lookup_retain, hid]
  rfl

/-- With no result of the statement left, an error or a response that names none is in order. -/
theorem Cleared.invalidated {srv : Service} {ctx : CallContext} {m : Method} {r : Except RpcError Reply}
    (h : Cleared sid s s') (hr : m = .execute → ∃ e, r = .error e) : Invalidated srv ctx m sid s s' r where
  others := h.others
  named hm reply he := by
    obtain ⟨e, rfl⟩ := hr hm
    cases he
  none _ := h.not_owned
  statements := h.statements
  bindUploads := h.bindUploads

/-- One result of the statement, registered under a new id. -/
theorem Cleared.registered (h : Cleared sid s s') {id : String} (hid : s.results.lookup id = none) (reader : Reader) :
    (∀ id' e, e.ownerStatementId ≠ some sid →
      ((s'.results.insert id (.fresh (some sid) reader)).lookup id' = some e ↔ s.results.lookup id' = some e)) ∧
    ∀ id', Owned sid { s' with results := s'.results.insert id (.fresh (some sid) reader) } id' ↔ id' = id := by
  constructor
  · intro id' e he
    by_cases hk : id' = id
    · subst hk
      rw [AList.lookup_insert, hid]
      constructor
      · intro hf
        cases hf
        exact absurd rfl he
      · intro hf
        cases hf
    · rw [AList.lookup_insert_ne hk]
      exact h.others id' e he
  · intro id'
    constructor
    · intro h'
      obtain ⟨e, he, ho⟩ := h'
      by_cases hk : id' = id
      · exact hk
      · have he' : s'.results.lookup id' = some e := by rwa [← AList.lookup_insert_ne hk]
        exact absurd ⟨e, he', ho⟩ (h.not_owned id')
    · intro heq
      subst heq
      exact ⟨_, AList.lookup_insert _, rfl⟩

end

/-! ## The handlers -/

variable {host : Host} {srv : Service} {ctx : CallContext} {st : St}

/-- Every operation of the handler is answered. -/
def Answered (st : St) : Prop := ∀ n, (st.moments n).fate = .answered

/-- Up to the driver's answer, a handler has dropped the statement's results and no more. -/
theorem run_invalidating (ha : Answered st) (sid : String) (op : StatementOp) (k : op.Ret → Do RpcError Reply) :
    ∃ a inner, Cleared sid st.inner inner ∧
      run host ((invalidateStatementResults sid).mapErr .adbc >>= fun _ => (withStatement sid op).mapErr .adbc >>= k)
        st = Act.proceed .adbc (a, ⟨inner, st.moments, st.time + 2⟩) fun x s' => run host (k x) s' := by
  have hdrop : Cleared sid st.inner { st.inner with results := st.inner.results.retain (notOwnedBy sid) } :=
    ⟨rfl, rfl, rfl⟩
  rw [run_adbc, invalidateStatementResults, run_call, exec_answered host st (ha _)]
  simp only [Job.perform, Act.proceed_ok]
  rw [run_adbc, withStatement, run_call, exec_answered host _ (ha (st.time + 1))]
  simp only [Job.perform]
  split
  · split
    · exact ⟨_, _, hdrop.called _, rfl⟩
    · exact ⟨_, _, hdrop, rfl⟩
  · exact ⟨_, _, hdrop, rfl⟩

theorem executeOther_invalidated (ha : Answered st) {m : Method} (hm : m ≠ .execute) (sid : String) (op : StatementOp)
    (respond : op.Ret → Except RpcError Reply) :
    Invalidated srv ctx m sid st.inner (run host (executeOther sid op respond) st).2.inner
      (run host (executeOther sid op respond) st).1 := by
  obtain ⟨a, inner, hc, heq⟩ := @run_invalidating host st ha sid op fun x => respond x
  rw [executeOther, heq]
  cases a with
  | error e => exact hc.invalidated fun h => absurd h hm
  | ok x => exact hc.invalidated fun h => absurd h hm

/-- The registration at EXECUTE's end: the statement's results are already dropped. -/
theorem register_invalidated (ha : Answered st) {s : Inner} {sid : String} (hc : Cleared sid s st.inner)
    (hfresh : s.results.lookup (st.moments st.time).world.fresh = none) (reader : Reader) :
    Invalidated srv ctx .execute sid s
      (run host (register srv (some sid) reader (responseLimit ctx)) st).2.inner
      (run host (register srv (some sid) reader (responseLimit ctx)) st).1 := by
  rw [register, run_adbc, insertOwnedResult, run_call, exec_answered host st (ha _)]
  simp only [Job.perform, insertResultJob]
  split
  · exact hc.invalidated fun _ => ⟨_, rfl⟩
  simp only [Act.proceed_ok, resultResponse]
  split
  · rename_i batch hb
    obtain ⟨ipc, -, hb⟩ := bind_eq_ok hb
    obtain ⟨hothers, howned⟩ := hc.registered hfresh reader
    exact {
      others := hothers
      named := by
        intro _ reply hr
        exact ⟨_, ipc, batch, (Except.ok.inj hr).symm, hb, howned⟩
      none := by
        intro h
        rcases h with h | ⟨e, he⟩
        · exact absurd rfl h
        · cases he
      statements := hc.statements
      bindUploads := hc.bindUploads }
  · -- the response does not fit, and the result goes again
    rw [run_bind, run_ignore, closeResult, run_call, exec_answered host _ (ha (st.time + 1))]
    simp only [Job.perform, AList.lookup_insert, Act.proceed_ok]
    refine Cleared.invalidated ⟨?_, hc.statements, hc.bindUploads⟩ fun _ => ⟨_, rfl⟩
    refine Eq.trans ?_ hc.results
    exact Table.erase_insert_of_lookup_none _ (hc.lookup_none hfresh)

theorem executeOn_invalidated (ha : Answered st) (sid : String)
    (hfresh : ∀ n, st.inner.results.lookup (st.moments n).world.fresh = none) :
    Invalidated srv ctx .execute sid st.inner (run host (executeOn srv ctx sid) st).2.inner
      (run host (executeOn srv ctx sid) st).1 := by
  obtain ⟨a, inner, hc, heq⟩ := @run_invalidating host st ha sid .execute (executed srv ctx sid)
  have hon : executeOn srv ctx sid = ((invalidateStatementResults sid).mapErr .adbc >>= fun _ =>
      (withStatement sid .execute).mapErr .adbc >>= executed srv ctx sid : Do RpcError Reply) := rfl
  rw [hon, heq]
  cases a with
  | error e => exact hc.invalidated fun _ => ⟨_, rfl⟩
  | ok reader =>
    rw [Act.proceed_ok, run_executed, exec_answered host _ (ha (st.time + 2))]
    exact @register_invalidated host srv ctx ⟨_, st.moments, st.time + 2 + 1⟩ ha _ _ hc.again (hfresh _) reader

/-- Whatever the driver, the quota and the response limit do. UUIDs are new. -/
theorem invalidation_frame (host : Host) (srv : Service) (ctx : CallContext) (st : St) (v : SessionView) (m : Method)
    (hm : m ∈ executes) (request : Request) (p sessionId : String) (body : SessionView → Do RpcError Reply)
    (hroute : route srv ctx (.request m request) = .onSession p sessionId body) (sid : String)
    (hsid : string request "statement_id" = .ok sid) (ha : Answered st)
    (hfresh : ∀ n, st.inner.results.lookup (st.moments n).world.fresh = none) :
    Invalidated srv ctx m sid st.inner (run host (body v) st).2.inner (run host (body v) st).1 := by
  simp only [executes, List.mem_cons, List.not_mem_nil, or_false] at hm
  rcases hm with rfl | rfl | rfl | rfl
  · obtain ⟨-, rfl⟩ := getSession_onSession hroute
    have heq : executeHandler srv ctx request = executeOn srv ctx sid := by
      unfold executeHandler
      rw [hsid]
      rfl
    rw [heq]
    exact executeOn_invalidated ha sid hfresh
  · obtain ⟨-, rfl⟩ := getSession_onSession hroute
    have heq : executeUpdateHandler srv request =
        executeOther sid .executeUpdate fun affected => typedResponse srv (.update affected) := by
      unfold executeUpdateHandler
      rw [hsid]
      rfl
    rw [heq]
    exact executeOther_invalidated ha (by decide) sid _ _
  · obtain ⟨-, rfl⟩ := getSession_onSession hroute
    have heq : executeSchemaHandler srv request = executeOther sid .executeSchema (schemaResponse srv) := by
      unfold executeSchemaHandler
      rw [hsid]
      rfl
    rw [heq]
    exact executeOther_invalidated ha (by decide) sid _ _
  · obtain ⟨-, rfl⟩ := getSession_onSession hroute
    have heq : executePartitionsHandler srv ctx request v =
        executeOther sid .executePartitions (partitionsResponse srv ctx v) := by
      unfold executePartitionsHandler
      rw [hsid]
      rfl
    rw [heq]
    exact executeOther_invalidated ha (by decide) sid _ _

/-- Its one place for a result taken by the statement's last result. -/
def lastRun : St where
  inner := { fullSession.inner with results := AList.insert "old" (.fresh (some "s1") emptyReader) ∅ }
  moments := fullSession.moments
  time := 0

/-- EXECUTE again: the new result is the only one. -/
theorem invalidation_frame_again : ∃ body,
    route smallService anonymous (.request .execute (flatRequest [("session_id", "c"), ("statement_id", "s1")])) =
      .onSession "\x00anonymous" "c" body ∧
    (run smallHost (body smallView) lastRun).1 = .ok (.unary bindAck) ∧
    Invalidated smallService anonymous .execute "s1" lastRun.inner (run smallHost (body smallView) lastRun).2.inner
      (run smallHost (body smallView) lastRun).1 := by
  refine ⟨_, rfl, rfl, ?_⟩
  exact invalidation_frame smallHost smallService anonymous lastRun smallView .execute (by decide)
    (flatRequest [("session_id", "c"), ("statement_id", "s1")]) "\x00anonymous" "c"
    (fun _ => executeHandler smallService anonymous _) rfl "s1" rfl (fun _ => rfl) (fun _ => rfl)

end Solo

end Grainlift.Server
