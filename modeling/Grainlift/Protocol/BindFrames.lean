/-
  Grainlift.Protocol.BindFrames — the turns of a bind exchange (`encode_bind_turn`,
  `decode_bind_turn`, grainlift-protocol/src/responses.rs).

  A turn is one row of a fixed schema: a payload and whether the client is done. The two
  fields say one of three things: the end (done, nothing in the payload), one batch (not
  done, the payload its stream), or nothing that has a meaning.

  Proved (`bind_turn_codec`): what is encoded decodes to itself, and a decoded turn is the
  end or a batch exactly when it has that form; every other turn is refused.
-/

import Grainlift.Protocol.Records

namespace Grainlift.Protocol

/-- `RecordBatch::try_new(bind_turn_schema(), ..)`. -/
def bindTurn (payload : Bytes) (finish : Bool) : RecordBatch where
  schema := ⟨bindTurnFields, []⟩
  columns := [.binary [some payload], .boolean [some finish]]
  numRows := 1
  wf := bindTurn_wf payload finish

def encodeBindTurn (arrow : Arrow) (derived : Derived) (batch : Option RecordBatch) (limit : Nat) :
    Except ProtocolError RecordBatch := do
  let payload ← match batch with
    | some batch => (arrow.codec derived).encodeBatchIpc batch limit
    | none => .ok []
  return bindTurn payload batch.isNone

/-- The column has a null. -/
def Column.hasNull : Column → Bool
  | .boolean rows => rows.any Option.isNone
  | .int64 rows => rows.any Option.isNone
  | .utf8 rows => rows.any Option.isNone
  | .binary rows => rows.any Option.isNone
  | .other _ rows => rows.any Option.isNone

section

variable {arrow : Arrow} {derived : Derived} {turn batch : RecordBatch} {limit : Nat}

/-- One row of the bind schema is a payload and a flag, either of which may be null. -/
theorem turn_columns (hr : turn.numRows = 1) (hf : turn.schema.fields = bindTurnFields) :
    ∃ payload finish, turn.columns = [.binary [payload], .boolean [finish]] := by
  obtain ⟨htypes, hlens⟩ := turn.wf
  rw [hf] at htypes
  rw [hr] at hlens
  cases hc : turn.columns with
  | nil =>
    rw [hc] at htypes
    cases htypes
  | cons c0 rest =>
    rw [hc] at htypes hlens
    cases rest with
    | nil => simp [bindTurnFields] at htypes
    | cons c1 rest =>
      simp only [List.map_cons, bindTurnFields, List.map_nil, List.cons.injEq, List.map_eq_nil_iff] at htypes
      obtain ⟨h0, h1, rfl⟩ := htypes
      have hl0 := hlens c0 (by simp)
      have hl1 := hlens c1 (by simp)
      cases c0 <;> cases h0
      cases c1 <;> cases h1
      rename_i rows0 rows1
      obtain ⟨x, rfl⟩ := List.length_eq_one_iff.mp hl0
      obtain ⟨y, rfl⟩ := List.length_eq_one_iff.mp hl1
      exact ⟨x, y, rfl⟩

/-- `decode_bind_turn` of such a row. -/
def decodeParts (arrow : Arrow) (limit : Nat) :
    Option Bytes → Option Bool → Except ProtocolError (Option RecordBatch)
  | none, _ => .error (.null "batch_ipc")
  | some _, none => .error (invalid "null bind finish field")
  | some payload, some true => if payload = [] then .ok none else .error (invalid "bind finish payload must be empty")
  | some payload, some false =>
    some <$> (decodeBatchIpc arrow.platform arrow.bodyLength arrow.batches payload limit).mapError Fault.toProtocol

theorem decodeBindTurn_eq {payload : Option Bytes} {finish : Option Bool} (hr : turn.numRows = 1)
    (hf : turn.schema.fields = bindTurnFields) (hc : turn.columns = [.binary [payload], .boolean [finish]]) :
    (arrow.codec derived).decodeBindTurn turn limit = decodeParts arrow limit payload finish := by
  have hone : requireOneRow turn = .ok () := by
    unfold requireOneRow
    rw [if_neg (not_not.mpr hr)]
  have hcol : turn.columnByName "batch_ipc" = some (.binary [payload]) := by
    unfold RecordBatch.columnByName
    rw [hf, hc]
    rfl
  unfold Codec.decodeBindTurn binaryValue columnValue
  rw [hone, hcol, hc]
  simp only [bind, Except.bind, hf, ne_eq, not_true_eq_false, if_false]
  cases payload with
  | none => rfl
  | some payload =>
    cases finish with
    | none => rfl
    | some finish => cases finish <;> rfl

theorem decodeBindTurn_bindTurn (payload : Bytes) (finish : Bool) :
    (arrow.codec derived).decodeBindTurn (bindTurn payload finish) limit =
      decodeParts arrow limit (some payload) (some finish) :=
  decodeBindTurn_eq rfl rfl rfl

theorem decode_encodeBindTurn (ha : arrow.Lawful) {limit' : Nat}
    (h : encodeBindTurn arrow derived (some batch) limit = .ok turn) (hle : limit ≤ limit') :
    (arrow.codec derived).decodeBindTurn turn limit' = .ok (some batch) := by
  obtain ⟨payload, hp, h⟩ := bind_eq_ok h
  cases h
  have henc := mapError_eq_ok.mp hp
  obtain ⟨_, -, -, hlen, -⟩ := encodeBatchIpc_ok henc
  rw [Option.isNone_some, decodeBindTurn_bindTurn, decodeParts, decode_encodeBatchIpc ha.batches henc (by omega)]
  rfl

/-- The end of an exchange is one turn only. -/
theorem decodeParts_none_iff {payload : Bytes} {finish : Bool} :
    decodeParts arrow limit (some payload) (some finish) = .ok none ↔ finish = true ∧ payload = [] := by
  cases finish with
  | true =>
    simp only [decodeParts]
    by_cases hnil : payload = []
    · simp [hnil]
    · simp [hnil]
  | false =>
    simp only [decodeParts, Bool.false_eq_true, false_and, iff_false]
    intro h
    cases hd : decodeBatchIpc arrow.platform arrow.bodyLength arrow.batches payload limit with
    | error e =>
      rw [hd] at h
      cases h
    | ok b =>
      rw [hd] at h
      cases h

/-- A batch is what a complete stream of one batch within the limit holds. -/
theorem decodeParts_some_iff (ha : arrow.Lawful) (payload : Slice arrow.platform) {finish : Bool} :
    decodeParts arrow limit (some payload.bytes) (some finish) = .ok (some batch) ↔
      finish = false ∧ payload.bytes.length ≤ limit ∧ Framed arrow.bodyLength payload.bytes ∧
        ∃ decoded, arrow.batches.Holds payload.bytes decoded ∧ decoded.batch = batch := by
  cases finish with
  | true =>
    simp only [decodeParts, Bool.true_eq_false, false_and, iff_false]
    intro h
    split at h <;> cases h
  | false =>
    rw [← decodeBatchIpc_ok_iff ha.batches payload.bound]
    simp only [decodeParts, true_and]
    cases decodeBatchIpc arrow.platform arrow.bodyLength arrow.batches payload.bytes limit with
    | error e => exact ⟨fun h => (by cases h), fun h => (by cases h)⟩
    | ok b =>
      constructor
      · intro h
        cases h
        rfl
      · intro h
        cases h
        rfl

/-- Turns of another shape, or with a null, are refused. -/
theorem decodeBindTurn_refused
    (hbad : turn.numRows ≠ 1 ∨ turn.schema.fields ≠ bindTurnFields ∨ ∃ c ∈ turn.columns, c.hasNull = true) :
    ∃ e, (arrow.codec derived).decodeBindTurn turn limit = .error e := by
  by_cases hr : turn.numRows = 1
  case neg =>
    refine ⟨.rowCount turn.numRows, ?_⟩
    unfold Codec.decodeBindTurn requireOneRow
    rw [if_pos hr]
    rfl
  by_cases hf : turn.schema.fields = bindTurnFields
  case neg =>
    refine ⟨invalid "unexpected bind turn schema", ?_⟩
    unfold Codec.decodeBindTurn requireOneRow
    rw [if_neg (not_not.mpr hr)]
    simp only [bind, Except.bind, ne_eq, hf, not_false_eq_true, if_true]
  obtain ⟨payload, finish, hc⟩ := turn_columns hr hf
  rw [decodeBindTurn_eq hr hf hc]
  rcases hbad with h | h | ⟨c, hmem, hnull⟩
  · exact absurd hr h
  · exact absurd hf h
  · rw [hc] at hmem
    cases payload with
    | none => exact ⟨_, rfl⟩
    | some payload =>
      cases finish with
      | none => exact ⟨_, rfl⟩
      | some finish =>
        rcases List.mem_pair.mp hmem with rfl | rfl <;> simp [Column.hasNull] at hnull

end

/-- A bind turn decodes to what it was made of; a turn of the right shape to its batch, or to
    the finish, exactly when its two cells say so; and one of the wrong shape does not. -/
theorem bind_turn_codec (arrow : Arrow) (ha : arrow.Lawful) (derived : Derived) :
    (∀ batch limit turn, encodeBindTurn arrow derived (some batch) limit = .ok turn → ∀ limit', limit ≤ limit' →
      (arrow.codec derived).decodeBindTurn turn limit' = .ok (some batch)) ∧
    (∀ limit, ∃ turn, encodeBindTurn arrow derived none limit = .ok turn ∧
      ∀ limit', (arrow.codec derived).decodeBindTurn turn limit' = .ok none) ∧
    (∀ (turn : RecordBatch) (payload : Slice arrow.platform) (finish : Bool) (limit : Nat), turn.numRows = 1 →
      turn.schema.fields = bindTurnFields → turn.columns = [.binary [some payload.bytes], .boolean [some finish]] →
      ((arrow.codec derived).decodeBindTurn turn limit = .ok none ↔ finish = true ∧ payload.bytes = []) ∧
      (∀ batch, (arrow.codec derived).decodeBindTurn turn limit = .ok (some batch) ↔
        finish = false ∧ payload.bytes.length ≤ limit ∧ Framed arrow.bodyLength payload.bytes ∧
          ∃ decoded, arrow.batches.Holds payload.bytes decoded ∧ decoded.batch = batch)) ∧
    (∀ (turn : RecordBatch) (limit : Nat),
      turn.numRows ≠ 1 ∨ turn.schema.fields ≠ bindTurnFields ∨ (∃ c ∈ turn.columns, c.hasNull = true) →
      ∃ e, (arrow.codec derived).decodeBindTurn turn limit = .error e) := by
  refine ⟨?_, ?_, ?_, ?_⟩
  · intro batch limit turn h limit' hle
    exact decode_encodeBindTurn ha h hle
  · intro limit
    refine ⟨bindTurn [] true, rfl, ?_⟩
    intro limit'
    rw [decodeBindTurn_bindTurn]
    exact decodeParts_none_iff.mpr ⟨rfl, rfl⟩
  · intro turn payload finish limit hr hf hc
    rw [decodeBindTurn_eq hr hf hc]
    exact ⟨decodeParts_none_iff, fun batch => decodeParts_some_iff ha payload⟩
  · intro turn limit hbad
    exact decodeBindTurn_refused hbad

/-- Three rows of no columns. -/
def columnless : RecordBatch := ⟨⟨[], []⟩, [], 3, by simp⟩

def columnlessFrame : Frame lastByte := ⟨true, [12, 0, 0, 0, 3, 0, 0, 0], [], by decide, 0, by decide, by decide⟩

def columnlessArrow : Arrow :=
  { tableArrow with batches := .one columnless [schemaFrame.bytes, columnlessFrame.bytes, terminator true] }

theorem bind_turn_codec_columnless :
    (columnlessArrow.codec tableDerived).decodeBindTurn
      (bindTurn (stream [schemaFrame, columnlessFrame] true) false) 64 = .ok (some columnless) := by
  have ha : columnlessArrow.Lawful :=
    ⟨IpcStream.one_lawful ⟨[schemaFrame, columnlessFrame], true, rfl⟩,
      IpcStream.one_lawful ⟨[schemaFrame, tableFrame], true, rfl⟩⟩
  have henc : encodeBindTurn columnlessArrow tableDerived (some columnless) 64 =
      .ok (bindTurn (stream [schemaFrame, columnlessFrame] true) false) := by decide
  exact (bind_turn_codec columnlessArrow ha tableDerived).1 columnless 64 _ henc 64 (Nat.le_refl _)

end Grainlift.Protocol
