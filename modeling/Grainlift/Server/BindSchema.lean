/-
  Grainlift.Server.BindSchema — the schema a bind upload declares and the batches it is
  sent (`BindExchange::exchange`, `push_bind_upload`, bind_upload.rs).

  The upload's file is written and read back under the schema of the init request, while
  every data turn decodes to a batch with a schema of its own. "Decoded batches must match
  it, including metadata" (docs/typed-protocol.md), but no step on the way compares the
  two.

  A run is the init request and then any turns addressed to the upload it made, each in
  its own call with its own cursor contents and its own luck. Proved
  (`schema_enforced_iff`): every off-schema batch is turned away and drops its upload, and
  every batch that reaches the driver was sent under the declared schema, exactly when no
  off-schema data turn finds the upload open and goes through the writer within the
  budget. `reinterpreted` is such a turn: what was sent as text is bound as numbers.
-/

import Grainlift.Server.Solo

namespace Grainlift.Server.BindSchema

open Grainlift.Lib Grainlift.Protocol Solo

/-- One turn of the exchange: the call it came in, the budget its cursor carries, its
    batch, and what its operations meet. -/
structure Turn where
  ctx : CallContext
  sessionId : String
  maxBytes : Nat
  input : RecordBatch
  moments : Nat → Moment

section

variable (host : Host) (srv : Service) (id : String)

def Turn.decoded (t : Turn) : Except ProtocolError (Option RecordBatch) :=
  srv.codec.decodeBindTurn t.input (min t.maxBytes maxControlBytes)

def Turn.take (s : Inner) (t : Turn) : Except RpcError Reply × Inner :=
  let r := run host (exchangeTurn srv t.ctx ⟨t.sessionId, id, t.maxBytes⟩ t.input) ⟨s, t.moments, 0⟩
  (r.1, r.2.inner)

def after (s : Inner) (turns : List Turn) : Inner := turns.foldl (fun s t => (t.take host srv id s).2) s

/-! ## The condition -/

/-- No off-schema data turn gets through the writer while the upload is open: `staged` and
    `written` are what the data turns so far put in the file. -/
def Conforms (schema : Schema) (maxBytes : Nat) : List RecordBatch → Nat → List Turn → Prop
  | _, _, [] => True
  | staged, written, t :: turns =>
    match t.decoded srv with
    | .ok (some b) =>
      match (t.moments 0).world.disk.write, host.ipc.batch schema staged b with
      | none, .ok n =>
        written + n ≤ maxBytes → b.schema = schema ∧ Conforms schema maxBytes (staged ++ [b]) (written + n) turns
      | _, _ => True
    | _ => True

/-- From the start: the file and the writer were made (`disk`), or nothing gets through. -/
def ConformsFrom (schema : Schema) (maxBytes : Nat) (disk : Disk) (turns : List Turn) : Prop :=
  match disk.tempfile, host.ipc.header schema with
  | none, .ok n => Conforms host srv schema maxBytes [] n turns
  | _, _ => True

/-! ## The property -/

/-- An off-schema turn is an error and its upload is gone after it. -/
def TurnedAway (schema : Schema) (s : Inner) (turns : List Turn) : Prop :=
  ∀ before t rest, turns = before ++ t :: rest → ∀ b, t.decoded srv = .ok (some b) → b.schema ≠ schema →
    (∃ e, (t.take host srv id (after host srv id s before)).1 = .error e) ∧
    (t.take host srv id (after host srv id s before)).2.bindUploads.lookup id = none

/-- A batch was sent in a turn that decoded to it under the declared schema. -/
def SentAs (schema : Schema) (turns : List Turn) (b : RecordBatch) : Prop :=
  ∃ t ∈ turns, t.decoded srv = .ok (some b) ∧ b.schema = schema

/-- Every batch a bind call carries. -/
def Carried : BackendCall → RecordBatch → Prop
  | .statement _ (.bind b) _, b' => b' = b
  | .statement _ (.bindStream r) _, b' => ∃ i, r.items i = some (.ok b')
  | _, _ => False

structure Enforced (schema : Schema) (s : Inner) (turns : List Turn) : Prop where
  turnedAway : TurnedAway host srv id schema s turns
  reached : ∃ new, (after host srv id s turns).calls = s.calls ++ new ∧
    ∀ c ∈ new, ∀ b, Carried c b → SentAs srv schema turns b

end

/-! ## What one turn does -/

section

variable (host : Host) (srv : Service) (id : String) (s : Inner) {t : Turn}

theorem exec_hold (h : Hold) (x : St) : exec host (.hold h) x =
    ((h.perform host.ipc (x.moments x.time).world x.inner).1,
      ⟨(h.perform host.ipc (x.moments x.time).world x.inner).2, x.moments, x.time + 1⟩) := rfl

/-- Cancelling an upload: it is gone, and nothing else changed. -/
theorem run_cancel (ε : Type) (x : St) : ∃ r, run host (cancelBindUpload id : Do ε Unit) x = (.ok (), r) ∧
    r.inner.bindUploads.lookup id = none ∧ r.inner.calls = x.inner.calls := by
  rw [cancelBindUpload, run_ignore, run_hold, exec_hold]
  refine ⟨_, rfl, ?_⟩
  simp only [Hold.perform]
  cases h : x.inner.bindUploads.lookup id with
  | none => exact ⟨h, rfl⟩
  | some entry => exact ⟨AList.lookup_erase _ _, rfl⟩

theorem take_malformed {e : ProtocolError} (h : t.decoded srv = .error e) :
    (∃ e, (t.take host srv id s).1 = .error e) ∧ (t.take host srv id s).2.bindUploads.lookup id = none ∧
    (t.take host srv id s).2.calls = s.calls := by
  simp only [Turn.decoded] at h
  simp only [Turn.take, exchangeTurn, h]
  obtain ⟨r, hr, hl, hc⟩ := run_cancel host id RpcError ⟨s, t.moments, 0⟩
  rw [run_bind, hr]
  exact ⟨⟨_, rfl⟩, hl, hc⟩

/-- A data turn is its push: refused, the upload is cancelled; staged, the push is all it
    did, whether or not the acknowledgement went out. -/
theorem take_data {b : RecordBatch} (h : t.decoded srv = .ok (some b)) :
    ((∃ e, (pushUploadHold host.ipc (t.moments 0).world id b s).1 = .error e) →
      (∃ e, (t.take host srv id s).1 = .error e) ∧ (t.take host srv id s).2.bindUploads.lookup id = none ∧
      (t.take host srv id s).2.calls = (pushUploadHold host.ipc (t.moments 0).world id b s).2.calls) ∧
    ((pushUploadHold host.ipc (t.moments 0).world id b s).1 = .ok () →
      (t.take host srv id s).2 = (pushUploadHold host.ipc (t.moments 0).world id b s).2) := by
  simp only [Turn.decoded] at h
  simp only [Turn.take, exchangeTurn, h]
  have hpush : run host (pushBindUpload id b) ⟨s, t.moments, 0⟩ =
      ((pushUploadHold host.ipc (t.moments 0).world id b s).1,
        ⟨(pushUploadHold host.ipc (t.moments 0).world id b s).2, t.moments, 1⟩) := rfl
  generalize pushUploadHold host.ipc (t.moments 0).world id b s = p at hpush
  obtain ⟨r, s'⟩ := p
  rw [run_bind, run_recover, hpush]
  cases r with
  | error e =>
    refine ⟨?_, fun h => by cases h⟩
    intro _
    obtain ⟨r, hr, hl, hc⟩ := run_cancel host id RpcError ⟨s', t.moments, 1⟩
    simp only [Act.rescue_error]
    rw [run_bind, hr]
    exact ⟨⟨_, rfl⟩, hl, hc⟩
  | ok u =>
    refine ⟨fun h => ?_, fun _ => ?_⟩
    · obtain ⟨e, he⟩ := h
      cases he
    simp only [Act.rescue_ok, Act.proceed_ok, acknowledge]
    cases t.ctx.emit bindAck <;> rfl

/-- Whatever becomes of a statement call, it enters at most itself. -/
theorem statement_calls (x : St) (sid : String) (op : StatementOp) :
    (exec host (.job (.statement sid op)) x).2.inner = x.inner ∨
    ∃ a, (exec host (.job (.statement sid op)) x).2.inner = x.inner.called (.statement sid op a) := by
  simp only [exec, respond]
  cases (x.moments x.time).fate with
  | answered | late =>
    simp only [Job.perform]
    split
    · split
      · exact .inr ⟨_, rfl⟩
      · exact .inl rfl
    · exact .inl rfl
  | full | stopped | abandoned => exact .inl rfl

theorem exactlyOne_ok {r : Reader} {b : RecordBatch} (h : exactlyOne r = .ok b) : r.items r.polled = some (.ok b) := by
  unfold exactlyOne Reader.next at h
  split at h
  · cases h
  · cases h
  · rename_i heq
    simp only [Prod.mk.injEq] at heq
    split at h
    · cases h
    · cases h; exact heq.1

/-- A finish turn takes the upload, and what it hands to the driver is what was staged. -/
theorem take_finish (h : t.decoded srv = .ok none) :
    (t.take host srv id s).2.bindUploads.lookup id = none ∧
    ∃ new, (t.take host srv id s).2.calls = s.calls ++ new ∧ ∀ c ∈ new, ∀ b, Carried c b →
      ∃ entry r i, s.bindUploads.lookup id = some entry ∧
        entry.upload.finish host.ipc (t.moments 1).world.disk = .ok r ∧ r.items i = some (.ok b) := by
  simp only [Turn.decoded] at h
  simp only [Turn.take, exchangeTurn, h]
  -- the acknowledgement changes nothing of the session
  have hack : ∀ x : St, (run host (acknowledge t.ctx true) x).2 = x := fun x => by
    unfold acknowledge
    cases t.ctx.emit bindAck <;> rfl
  have hfin : (run host ((finishBindUpload id).mapErr .adbc >>= fun _ => acknowledge t.ctx true) ⟨s, t.moments, 0⟩).2 =
      (run host (finishBindUpload id) ⟨s, t.moments, 0⟩).2 := by
    rw [run_adbc]
    generalize run host (finishBindUpload id) ⟨s, t.moments, 0⟩ = q
    obtain ⟨_ | u, x⟩ := q
    · rfl
    · exact hack x
  rw [hfin, finishBindUpload, run_bind, run_hold, exec_hold]
  simp only [Hold.perform]
  cases hl : s.bindUploads.lookup id with
  | none => exact ⟨hl, [], (List.append_nil _).symm, fun c hc => by cases hc⟩
  | some entry =>
    simp only [Act.proceed_ok]
    rw [run_bind, run_hold, exec_hold]
    simp only [Hold.perform]
    have herase : (s.bindUploads.erase id).lookup id = none := AList.lookup_erase _ _
    cases hf : entry.upload.finish host.ipc (t.moments 1).world.disk with
    | error e => exact ⟨herase, [], (List.append_nil _).symm, fun c hc => by cases hc⟩
    | ok r =>
      simp only [Act.proceed_ok]
      -- either way the one call that can come carries items of the staged reader
      have hbind : ∀ (op : StatementOp) (x : St), x.inner = { s with bindUploads := s.bindUploads.erase id } →
          (∀ a b, Carried (.statement entry.statementId op a) b → ∃ i, r.items i = some (.ok b)) →
          (exec host (.job (.statement entry.statementId op)) x).2.inner.bindUploads.lookup id = none ∧
          ∃ new, (exec host (.job (.statement entry.statementId op)) x).2.inner.calls = s.calls ++ new ∧
            ∀ c ∈ new, ∀ b, Carried c b → ∃ entry' r' i, some entry = some entry' ∧
              entry'.upload.finish host.ipc (t.moments 1).world.disk = .ok r' ∧ r'.items i = some (.ok b) := by
        intro op x hx hc
        rcases statement_calls host x entry.statementId op with hsame | ⟨a, hcall⟩
        · rw [hsame, hx]
          exact ⟨herase, [], (List.append_nil _).symm, fun c hc => by cases hc⟩
        · rw [hcall, hx]
          refine ⟨herase, [_], rfl, ?_⟩
          intro c hm b hb
          obtain rfl := List.mem_singleton.mp hm
          obtain ⟨i, hi⟩ := hc a b hb
          exact ⟨entry, r, i, rfl, hf, hi⟩
      cases entry.mode with
      | batch =>
        simp only
        cases he : exactlyOne r with
        | error e => exact ⟨herase, [], (List.append_nil _).symm, fun c hc => by cases hc⟩
        | ok batch => exact hbind (.bind batch) _ rfl fun a b hb => by cases hb; exact ⟨_, exactlyOne_ok he⟩
      | stream => exact hbind (.bindStream r) _ rfl fun a b hb => hb

/-- A push gets through when it is written and fits, and only then. -/
theorem push_accepts (ipc : Ipc) (disk : Disk) {u : BindUpload} (b : RecordBatch) (hu : u.terminal = none) :
    (∃ n, disk.write = none ∧ ipc.batch u.schema u.staged b = .ok n ∧ u.written + n ≤ u.maxBytes ∧
      u.push ipc disk b = (.ok (), { u with staged := u.staged ++ [b], written := u.written + n })) ∨
    ((∃ e, (u.push ipc disk b).1 = .error e) ∧
      ∀ n, disk.write = none → ipc.batch u.schema u.staged b = .ok n → ¬ u.written + n ≤ u.maxBytes) := by
  simp only [BindUpload.push, hu, BindUpload.write]
  cases hw : disk.write with
  | some e => exact .inr ⟨⟨_, rfl⟩, fun n h => by cases h⟩
  | none =>
    cases hb : ipc.batch u.schema u.staged b with
    | error e => exact .inr ⟨⟨_, rfl⟩, fun n _ h => by cases h⟩
    | ok n =>
      simp only
      split
      · rename_i hlt
        exact .inr ⟨⟨_, rfl⟩, fun m _ hm => by cases hm; omega⟩
      · rename_i hge
        exact .inl ⟨n, trivial, rfl, by omega, rfl⟩

theorem pushUploadHold_some (w : World) (b : RecordBatch) {entry : BindUploadEntry}
    (h : s.bindUploads.lookup id = some entry) :
    pushUploadHold host.ipc w id b s = ((entry.upload.push host.ipc w.disk b).1,
      { s with bindUploads := s.bindUploads.insert id { entry with upload := (entry.upload.push host.ipc w.disk b).2 } }) := by
  simp only [pushUploadHold, h]

theorem pushUploadHold_none (w : World) (b : RecordBatch) (h : s.bindUploads.lookup id = none) :
    pushUploadHold host.ipc w id b s = (.error (notFound "bind upload"), s) := by
  simp only [pushUploadHold, h]

/-- The entry after a batch of `n` bytes was staged. -/
def stage (entry : BindUploadEntry) (b : RecordBatch) (n : Nat) : BindUploadEntry :=
  let upload := { entry.upload with staged := entry.upload.staged ++ [b], written := entry.upload.written + n }
  { entry with upload := upload }

/-! ## Runs of turns -/

variable {host srv id s}

theorem turnedAway_cons {schema : Schema} {turns : List Turn} : TurnedAway host srv id schema s (t :: turns) ↔
    (∀ b, t.decoded srv = .ok (some b) → b.schema ≠ schema →
      (∃ e, (t.take host srv id s).1 = .error e) ∧ (t.take host srv id s).2.bindUploads.lookup id = none) ∧
    TurnedAway host srv id schema (t.take host srv id s).2 turns := by
  constructor
  · intro h
    refine ⟨h [] t turns rfl, ?_⟩
    intro before t' rest hsplit
    exact h (t :: before) t' rest (by rw [hsplit]; rfl)
  · intro h before t' rest hsplit
    obtain ⟨hd, tl⟩ := h
    cases before with
    | nil =>
      cases hsplit
      exact hd
    | cons t0 before =>
      cases hsplit
      exact tl before t' rest rfl

/-- What the run of `turns` from `s` must do, `P` holding of every batch sent on-schema. -/
def Safe (host : Host) (srv : Service) (id : String) (schema : Schema) (P : RecordBatch → Prop) (s : Inner)
    (turns : List Turn) : Prop :=
  TurnedAway host srv id schema s turns ∧
  ∃ new, (after host srv id s turns).calls = s.calls ++ new ∧ ∀ c ∈ new, ∀ b, Carried c b → P b

variable {schema : Schema} {P : RecordBatch → Prop} {turns : List Turn}

theorem safe_nil : Safe host srv id schema P s [] := by
  refine ⟨?_, [], (List.append_nil _).symm, ?_⟩
  · intro before t rest h
    cases before <;> cases h
  · intro c hc
    cases hc

/-- One turn, then the rest from where it left the session. -/
theorem safe_cons {new : List BackendCall} (hc : (t.take host srv id s).2.calls = s.calls ++ new)
    (hn : ∀ c ∈ new, ∀ b, Carried c b → P b)
    (hd : ∀ b, t.decoded srv = .ok (some b) → b.schema ≠ schema →
      (∃ e, (t.take host srv id s).1 = .error e) ∧ (t.take host srv id s).2.bindUploads.lookup id = none)
    (hs : Safe host srv id schema P (t.take host srv id s).2 turns) : Safe host srv id schema P s (t :: turns) := by
  obtain ⟨ht, new', hc', hn'⟩ := hs
  refine ⟨turnedAway_cons.mpr ⟨hd, ht⟩, new ++ new', ?_, ?_⟩
  · show (after host srv id (t.take host srv id s).2 turns).calls = _
    rw [hc', hc, List.append_assoc]
  · intro c hm b hb
    rcases List.mem_append.mp hm with h | h
    · exact hn c h b hb
    · exact hn' c h b hb

theorem safe_quiet (hc : (t.take host srv id s).2.calls = s.calls)
    (hd : ∀ b, t.decoded srv = .ok (some b) → b.schema ≠ schema →
      (∃ e, (t.take host srv id s).1 = .error e) ∧ (t.take host srv id s).2.bindUploads.lookup id = none)
    (hs : Safe host srv id schema P (t.take host srv id s).2 turns) : Safe host srv id schema P s (t :: turns) :=
  safe_cons (hc.trans (List.append_nil _).symm) (fun c hc => by cases hc) hd hs

theorem safe_closed (hl : s.bindUploads.lookup id = none) : Safe host srv id schema P s turns := by
  induction turns generalizing s with
  | nil => exact safe_nil
  | cons t turns ih =>
    cases hd : t.decoded srv with
    | error e =>
      obtain ⟨-, hl', hc⟩ := take_malformed host srv id s hd
      exact safe_quiet hc (fun b hb => by rw [hd] at hb; cases hb) (ih hl')
    | ok o =>
      cases o with
      | none =>
        obtain ⟨hl', new, hc, hn⟩ := take_finish host srv id s hd
        refine safe_cons hc ?_ (fun b hb => by rw [hd] at hb; cases hb) (ih hl')
        intro c hm b hb
        obtain ⟨entry, r, i, he, -⟩ := hn c hm b hb
        rw [hl] at he
        cases he
      | some b =>
        have hp := pushUploadHold_none host id s (t.moments 0).world b hl
        obtain ⟨he, hl', hc⟩ := (take_data host srv id s hd).1 ⟨_, congrArg Prod.fst hp⟩
        rw [hp] at hc
        exact safe_quiet hc (fun _ _ _ => ⟨he, hl'⟩) (ih hl')

/-- An upload that is turned down for any turn that would write off-schema. -/
theorem safe_open (hlaw : host.ipc.Lawful) {entry : BindUploadEntry} (hl : s.bindUploads.lookup id = some entry)
    (hsch : entry.upload.schema = schema) (hst : ∀ b ∈ entry.upload.staged, b.schema = schema ∧ P b)
    (hP : ∀ t ∈ turns, ∀ b, t.decoded srv = .ok (some b) → b.schema = schema → P b)
    (hconf : entry.upload.terminal = none →
      Conforms host srv schema entry.upload.maxBytes entry.upload.staged entry.upload.written turns) :
    Safe host srv id schema P s turns := by
  induction turns generalizing s entry with
  | nil => exact safe_nil
  | cons t turns ih =>
    cases hd : t.decoded srv with
    | error e =>
      obtain ⟨-, hl', hc⟩ := take_malformed host srv id s hd
      exact safe_quiet hc (fun b hb => by rw [hd] at hb; cases hb)
        (safe_closed hl')
    | ok o =>
      cases o with
      | none =>
        obtain ⟨hl', new, hc, hn⟩ := take_finish host srv id s hd
        refine safe_cons hc ?_ (fun b hb => by rw [hd] at hb; cases hb) (safe_closed hl')
        intro c hm b hb
        obtain ⟨entry', r, i, he, hf, hi⟩ := hn c hm b hb
        obtain rfl : entry = entry' := Option.some.inj (hl.symm.trans he)
        obtain ⟨-, rfl⟩ := BindUpload.finish_ok hf
        have hback := hlaw entry.upload.schema entry.upload.staged (fun b hb => by rw [hsch]; exact (hst b hb).1) i
        obtain ⟨b', hb', hbb⟩ := Option.map_eq_some_iff.mp (hback.symm.trans hi)
        cases hbb
        exact (hst b (List.mem_of_getElem? hb')).2
      | some b =>
        have hp := pushUploadHold_some host id s (t.moments 0).world b hl
        have htake := take_data host srv id s hd
        have hreject : (∃ e, (entry.upload.push host.ipc (t.moments 0).world.disk b).1 = .error e) →
            Safe host srv id schema P s (t :: turns) := by
          intro h
          obtain ⟨e, he⟩ := h
          obtain ⟨he, hl', hc⟩ := htake.1 ⟨e, (congrArg Prod.fst hp).trans he⟩
          rw [hp] at hc
          exact safe_quiet hc (fun _ _ _ => ⟨he, hl'⟩)
            (safe_closed hl')
        cases hterm : entry.upload.terminal with
        | some e => exact hreject ⟨e, by simp [BindUpload.push, hterm]⟩
        | none =>
          rcases push_accepts host.ipc (t.moments 0).world.disk b hterm with ⟨n, hw, hb, hfits, hpush⟩ | ⟨he, -⟩
          · rw [hsch] at hb
            have hc := hconf hterm
            simp only [Conforms, hd, hw, hb] at hc
            obtain ⟨hbs, hrest⟩ := hc hfits
            rw [hpush] at hp
            have hstate := htake.2 (congrArg Prod.fst hp)
            rw [hp] at hstate
            refine safe_quiet (by rw [hstate]) ?_ ?_
            · intro b' hb' hne
              rw [hd] at hb'
              cases hb'
              exact absurd hbs hne
            · rw [hstate]
              have hl' : (s.bindUploads.insert id (stage entry b n)).lookup id = some (stage entry b n) :=
                AList.lookup_insert _
              refine ih hl' hsch ?_ (fun t' ht' => hP t' (List.mem_cons_of_mem _ ht')) (fun _ => hrest)
              intro b' hb'
              rcases List.mem_append.mp hb' with h | h
              · exact hst b' h
              · obtain rfl := List.mem_singleton.mp h
                exact ⟨hbs, hP t List.mem_cons_self _ hd hbs⟩
          · exact hreject he

/-- An off-schema turn that gets through is not turned away. -/
theorem conforms_of_turnedAway {entry : BindUploadEntry} (hl : s.bindUploads.lookup id = some entry)
    (hsch : entry.upload.schema = schema) (hterm : entry.upload.terminal = none)
    (h : TurnedAway host srv id schema s turns) :
    Conforms host srv schema entry.upload.maxBytes entry.upload.staged entry.upload.written turns := by
  induction turns generalizing s entry with
  | nil => trivial
  | cons t turns ih =>
    obtain ⟨hhead, htail⟩ := turnedAway_cons.mp h
    cases hd : t.decoded srv with
    | error e => simp only [Conforms, hd]
    | ok o =>
      cases o with
      | none => simp only [Conforms, hd]
      | some b =>
        rcases push_accepts host.ipc (t.moments 0).world.disk b hterm with ⟨n, hw, hb, hfits, hpush⟩ | ⟨-, hno⟩
        · have hp := pushUploadHold_some host id s (t.moments 0).world b hl
          rw [hpush] at hp
          have hstate := (take_data host srv id s hd).2 (congrArg Prod.fst hp)
          rw [hp] at hstate
          rw [hsch] at hb
          simp only [Conforms, hd, hw, hb]
          refine fun _ => ⟨?_, ?_⟩
          · by_contra hne
            have hnone := (hhead b hd hne).2
            rw [hstate] at hnone
            simp at hnone
          · rw [hstate] at htail
            have hl' : (s.bindUploads.insert id (stage entry b n)).lookup id = some (stage entry b n) :=
              AList.lookup_insert _
            have hsch' : (stage entry b n).upload.schema = schema := hsch
            have hterm' : (stage entry b n).upload.terminal = none := hterm
            exact ih hl' hsch' hterm' htail
        · rw [hsch] at hno
          simp only [Conforms, hd]
          split
          · rename_i n hw hb
            exact fun hle => absurd hle (hno n hw hb)
          · trivial

/-! ## From the init request -/

/-- What an init request that was accepted left: an upload under the schema it declared. -/
theorem bind_started {mode : BindMode} {request : Request} {v : SessionView} {x x' : St} {cursor : BindCursor}
    {bytes : Bytes} (hb : binary request "schema_ipc" = .ok bytes) (hs : srv.codec.decodeSchema bytes = .ok schema)
    (h : run host (bindHandler srv mode request v) x = (.ok (.exchange cursor), x')) :
    ∃ statementId upload, BindUpload.start host.ipc (x.moment 1).world.disk schema srv.maxBindBytes = .ok upload ∧
      x'.inner.bindUploads.lookup cursor.uploadId = some ⟨statementId, mode, upload⟩ := by
  cases hst : string request "statement_id" with
  | error e =>
    have hrun : run host (bindHandler srv mode request v) x = (.error e, x) := by
      unfold bindHandler
      rw [hst]
      rfl
    rw [hrun] at h
    cases h
  | ok statementId =>
    have heq : bindHandler srv mode request v =
      (startBindUpload statementId mode schema srv.maxBindBytes).mapErr .adbc >>=
        fun uploadId => pure (.exchange ⟨v.sessionId, uploadId, srv.maxBindBytes⟩) := by
      have : bindHandler srv mode request v = (do
          let schema ← orProtocol (srv.codec.decodeSchema bytes)
          let uploadId ← (startBindUpload statementId mode schema srv.maxBindBytes).mapErr .adbc
          return .exchange ⟨v.sessionId, uploadId, srv.maxBindBytes⟩ : Do RpcError Reply) := by
        unfold bindHandler
        rw [hst, hb]
        rfl
      rw [this, hs]
      rfl
    rw [heq, run_adbc, startBindUpload, run_bind, run_hold, exec_hold] at h
    simp only [Hold.perform] at h
    split at h
    case isFalse => cases h
    case isTrue =>
    simp only [Act.proceed_ok] at h
    rw [run_bind, run_hold, exec_hold] at h
    simp only [Hold.perform] at h
    cases hstart : BindUpload.start host.ipc (x.moments (x.time + 1)).world.disk schema srv.maxBindBytes with
    | error e =>
      rw [hstart] at h
      cases h
    | ok upload =>
      rw [hstart] at h
      simp only [Act.proceed_ok] at h
      rw [run_hold, exec_hold] at h
      simp only [Hold.perform, Act.proceed_ok, run_pure] at h
      cases h
      exact ⟨statementId, upload, hstart, AList.lookup_insert _⟩

/-- The condition from the start is the condition on the upload as it was started. -/
theorem start_conforms (host : Host) (srv : Service) {disk : Disk} {maxBytes : Nat} {upload : BindUpload}
    (h : BindUpload.start host.ipc disk schema maxBytes = .ok upload) (turns : List Turn) :
    upload.schema = schema ∧ upload.maxBytes = maxBytes ∧ upload.staged = [] ∧
    (ConformsFrom host srv schema maxBytes disk turns ↔
      (upload.terminal = none → Conforms host srv schema maxBytes [] upload.written turns)) := by
  unfold BindUpload.start at h
  split at h
  · cases h
  split at h
  · rename_i hf
    cases h
    simp [ConformsFrom, hf]
  · rename_i hf
    split at h
    · rename_i hh
      cases h
      simp [ConformsFrom, hf, hh]
    · rename_i hh
      cases h
      simp [ConformsFrom, hf, hh]

/-- A bind enforces its declared schema on a sequence of turns if and only if no batch off
    that schema comes to the writer of an upload still open and passes it: nothing compares
    the schemas. -/
theorem schema_enforced_iff (hlaw : host.ipc.Lawful) (mode : BindMode) (request : Request) (v : SessionView)
    (x x' : St) (cursor : BindCursor) (bytes : Bytes) (hb : binary request "schema_ipc" = .ok bytes)
    (hs : srv.codec.decodeSchema bytes = .ok schema)
    (h : run host (bindHandler srv mode request v) x = (.ok (.exchange cursor), x')) (turns : List Turn) :
    Enforced host srv cursor.uploadId schema x'.inner turns ↔
      ConformsFrom host srv schema srv.maxBindBytes (x.moment 1).world.disk turns := by
  obtain ⟨statementId, upload, hstart, hl⟩ := bind_started hb hs h
  obtain ⟨hsch, hmax, hstaged, hfrom⟩ := start_conforms host srv hstart turns
  constructor
  · intro he
    exact hfrom.mpr fun hterm => hstaged ▸ hmax ▸ conforms_of_turnedAway hl hsch hterm he.turnedAway
  · intro hc
    have hsafe : Safe host srv cursor.uploadId schema (SentAs srv schema turns) x'.inner turns := by
      refine safe_open hlaw hl hsch ?_ (fun t ht b hb hbs => ⟨t, ht, hb, hbs⟩) ?_
      · rw [hstaged]
        simp
      · intro hterm
        rw [hstaged, hmax]
        exact hfrom.mp hc hterm
    exact ⟨hsafe.1, hsafe.2⟩

end

/-! ## Text bound as numbers -/

def declared : Schema := ⟨[⟨"p", .int64, false, []⟩], []⟩

/-- What the client sends: one text. -/
def text : RecordBatch := ⟨⟨[⟨"p", .utf8, false, []⟩], []⟩, [.utf8 [some "12345678"]], 1, by decide⟩

/-- Its offsets (0 and 8, four bytes each) read as one 64-bit number. -/
def numbers : RecordBatch := ⟨declared, [.int64 [some 34359738368]], 1, by decide⟩

/-- A spool file that gives batches of its schema back and reads others by its schema. -/
def spool : Ipc where
  header _ := .ok 8
  batch _ _ _ := .ok 16
  footer := 8
  reread schema batches i := (batches[i]?).map fun b => .ok (if b.schema = schema then b else numbers)

theorem spool_lawful : spool.Lawful := by
  intro schema batches h i
  simp only [spool]
  cases hb : batches[i]? with
  | none => rfl
  | some b => simp [h b (List.mem_of_getElem? hb)]

def spoolHost : Host := { smallHost with ipc := spool }

def textService : Service :=
  let codec := { smallCodec with decodeBatchIpc := fun _ _ => .ok text, decodeSchema := fun _ => .ok declared }
  { smallService with codec := codec }

def bindRequest : Request where
  metadata := (flatRequest []).metadata
  batch :=
    { schema := ⟨[⟨"session_id", .utf8, false, []⟩, ⟨"statement_id", .utf8, false, []⟩, ⟨"schema_ipc", .binary, false, []⟩], []⟩
      columns := [.utf8 [some "c"], .utf8 [some "s1"], .binary [some [1]]]
      numRows := 1
      wf := by decide }

def openSession : St where
  inner := ⟨.new false [] [], {"s1"}, ∅, ∅, []⟩
  moments _ := ⟨.answered, willing, .fine, "u"⟩
  time := 0

def turnOf (payload : Bytes) (finish : Bool) : Turn where
  ctx := anonymous
  sessionId := "c"
  maxBytes := maxBindStreamBytes
  input := ⟨⟨bindTurnFields, []⟩, [.binary [some payload], .boolean [some finish]],
    1, bindTurn_wf payload finish⟩
  moments := openSession.moments

/-- The session with the upload that the init request started. -/
def startedSession : St := (run spoolHost (bindHandler textService .batch bindRequest smallView) openSession).2

theorem schema_enforced_iff_text :
    Enforced spoolHost textService "u" declared startedSession.inner [turnOf [1] false, turnOf [] true] ↔
      ConformsFrom spoolHost textService declared maxBindStreamBytes .fine [turnOf [1] false, turnOf [] true] :=
  schema_enforced_iff spool_lawful .batch bindRequest smallView openSession startedSession
    ⟨"c", "u", maxBindStreamBytes⟩ [1] rfl rfl rfl _

theorem reinterpreted :
    run spoolHost (bindHandler textService .batch bindRequest smallView) openSession =
      (.ok (.exchange ⟨"c", "u", maxBindStreamBytes⟩), startedSession) ∧
    (turnOf [1] false).decoded textService = .ok (some text) ∧
    (after spoolHost textService "u" startedSession.inner [turnOf [1] false, turnOf [] true]).calls =
      [.statement "s1" (.bind numbers) (.ok ())] ∧
    ¬ Enforced spoolHost textService "u" declared startedSession.inner [turnOf [1] false, turnOf [] true] := by
  refine ⟨rfl, rfl, rfl, ?_⟩
  intro h
  obtain ⟨⟨e, he⟩, -⟩ := h.turnedAway [] (turnOf [1] false) [turnOf [] true] rfl text rfl (by decide)
  cases he

end Grainlift.Server.BindSchema
