/-
  Grainlift.Protocol.Records — typed records: the seven requests and the eight responses as
  single-row Arrow batches inside a binary column (grainlift-protocol: responses.rs,
  requests.rs).

  A record travels as a struct array of one row. `validate_array` walks it on both sides:
  no null in a required field, none among the elements of a list. How a record becomes an
  array and back is derived code of another crate (`VgiArrow`), Arrow's stream writer and
  reader are an `IpcStream`; what is relied on of them is `Lawful`.

  `Arrow.codec` is the codec the handlers run with, made of these functions: all that is
  proved of a service with any codec holds of this one.

  Proved (`typed_record_codec`): what is encoded passed its validation, keeps to the limit,
  and decodes to the same value at every limit that is no smaller; what is decoded passed
  its validation and is the one row of the one batch of a stream, of the declared type, with
  no null where there must be none.
-/

import Grainlift.Protocol.Ipc

namespace Grainlift.Protocol

/-! ## Arrays -/

mutual

/-- Fields and list items have metadata, in the order of its keys; it is part of the type. -/
inductive ArrowType where
  | boolean
  | int64
  | float64
  | utf8
  | binary
  | list (item : String) (nullable : Bool) (metadata : List (String × String)) (type : ArrowType)
  | struct (fields : ArrowFields)
  | other (description : String)
  deriving DecidableEq

inductive ArrowFields where
  | nil
  | cons (name : String) (nullable : Bool) (metadata : List (String × String)) (type : ArrowType) (rest : ArrowFields)
  deriving DecidableEq

end

mutual

/-- Doubles by their bits. A list has a validity bit a row, offsets, and the values of all
    rows together. -/
inductive ArrowArray where
  | boolean (rows : List (Option Bool))
  | int64 (rows : List (Option Int64))
  | float64 (rows : List (Option UInt64))
  | utf8 (rows : List (Option String))
  | binary (rows : List (Option Bytes))
  | list (item : String) (nullable : Bool) (metadata : List (String × String)) (valid : List Bool) (offsets : List Nat)
      (values : ArrowArray)
  | struct (valid : List Bool) (columns : ArrowColumns)
  | other (description : String) (rows : List (Option Bytes))
  deriving DecidableEq

inductive ArrowColumns where
  | nil
  | cons (name : String) (nullable : Bool) (metadata : List (String × String)) (column : ArrowArray)
      (rest : ArrowColumns)
  deriving DecidableEq

end

mutual

def ArrowArray.dataType : ArrowArray → ArrowType
  | .boolean _ => .boolean
  | .int64 _ => .int64
  | .float64 _ => .float64
  | .utf8 _ => .utf8
  | .binary _ => .binary
  | .list item nullable metadata _ _ values => .list item nullable metadata values.dataType
  | .struct _ columns => .struct columns.fields
  | .other description _ => .other description

def ArrowColumns.fields : ArrowColumns → ArrowFields
  | .nil => .nil
  | .cons name nullable metadata column rest => .cons name nullable metadata column.dataType rest.fields

end

namespace ArrowArray

/-- Which rows hold a value. -/
def validity : ArrowArray → List Bool
  | .boolean rows => rows.map Option.isSome
  | .int64 rows => rows.map Option.isSome
  | .float64 rows => rows.map Option.isSome
  | .utf8 rows => rows.map Option.isSome
  | .binary rows => rows.map Option.isSome
  | .list _ _ _ valid _ _ => valid
  | .struct valid _ => valid
  | .other _ rows => rows.map Option.isSome

def length (a : ArrowArray) : Nat := a.validity.length

def nullCount (a : ArrowArray) : Nat := a.validity.count false

end ArrowArray

/-! ## `validate_array` -/

def checkNulls (nullable : Bool) (nulls : Nat) : Except ProtocolError Unit :=
  if !nullable && nulls != 0 then .error (invalid "null in required response field") else .ok ()

mutual

def validateArray (nullable : Bool) : ArrowArray → Except ProtocolError Unit
  | .struct valid columns => do
    checkNulls nullable (ArrowArray.struct valid columns).nullCount
    validateColumns columns
  | .list item itemNullable metadata valid offsets values => do
    checkNulls nullable (ArrowArray.list item itemNullable metadata valid offsets values).nullCount
    validateArray false values
  | array => checkNulls nullable array.nullCount

def validateColumns : ArrowColumns → Except ProtocolError Unit
  | .nil => .ok ()
  | .cons _ nullable _ column rest => do
    validateArray nullable column
    validateColumns rest

end

/-- The column is one of these, of that nullability. -/
def ArrowColumns.Has (nullable : Bool) (column : ArrowArray) : ArrowColumns → Prop
  | .nil => False
  | .cons _ nullable' _ column' rest => (nullable' = nullable ∧ column' = column) ∨ rest.Has nullable column

/-- The arrays inside `a`, and whether a value is required of each: of a field that is not
    nullable, and of the elements of a list whatever its item says. -/
inductive Inside (a : ArrowArray) : ArrowArray → (required : Bool) → Prop
  | self : Inside a a true
  | field {valid : List Bool} {columns : ArrowColumns} {required nullable : Bool} {column : ArrowArray} :
      Inside a (.struct valid columns) required → columns.Has nullable column → Inside a column (!nullable)
  | element {item : String} {nullable : Bool} {metadata : List (String × String)} {valid : List Bool}
      {offsets : List Nat} {values : ArrowArray} {required : Bool} :
      Inside a (.list item nullable metadata valid offsets values) required → Inside a values true

/-- No null where a value is required. -/
def NoNulls (a : ArrowArray) : Prop := ∀ b, Inside a b true → b.nullCount = 0

theorem checkNulls_ok {nullable : Bool} {nulls : Nat} (h : checkNulls nullable nulls = .ok ()) :
    nullable = false → nulls = 0 := by
  intro heq
  subst heq
  unfold checkNulls at h
  by_cases hn : nulls = 0
  · exact hn
  · simp [hn] at h

theorem validateArray_nulls {nullable : Bool} {a : ArrowArray} (h : validateArray nullable a = .ok ()) :
    nullable = false → a.nullCount = 0 := by
  cases a with
  | struct valid columns | list item n metadata valid offsets values =>
    obtain ⟨_, hnulls, -⟩ := bind_eq_ok h
    exact checkNulls_ok hnulls
  | boolean | int64 | float64 | utf8 | binary | other => exact checkNulls_ok h

theorem validateColumns_has {nullable : Bool} {column : ArrowArray} {columns : ArrowColumns}
    (h : validateColumns columns = .ok ()) (hc : columns.Has nullable column) :
    validateArray nullable column = .ok () := by
  cases columns with
  | nil => cases hc
  | cons name nullable' metadata column' rest =>
    obtain ⟨_, hcolumn, hrest⟩ := bind_eq_ok h
    rcases hc with ⟨rfl, rfl⟩ | hc
    · exact hcolumn
    · exact validateColumns_has hrest hc

/-- Every array inside was validated as its place demands. -/
theorem validateArray_inside {a b : ArrowArray} {required : Bool} (h : validateArray false a = .ok ())
    (hi : Inside a b required) : validateArray (!required) b = .ok () := by
  induction hi with
  | self => exact h
  | field _ hc ih =>
    obtain ⟨_, -, hcols⟩ := bind_eq_ok ih
    rw [Bool.not_not]
    exact validateColumns_has hcols hc
  | element _ ih =>
    obtain ⟨_, -, hvalues⟩ := bind_eq_ok ih
    exact hvalues

theorem validateArray_noNulls {a : ArrowArray} (h : validateArray false a = .ok ()) : NoNulls a := by
  intro b hb
  exact validateArray_nulls (validateArray_inside h hb) rfl

/-! ## Records in streams -/

/-- `VgiArrow`: what is derived for a record. -/
structure VgiArrow (τ : Type) where
  arrowDataType : ArrowType
  buildSingleton : τ → Except String ArrowArray
  read : ArrowArray → (row : Nat) → Except String τ

/-- A value becomes one row of the declared type, and reads back. -/
structure VgiArrow.Lawful {τ : Type} (t : VgiArrow τ) : Prop where
  typed : ∀ value array, t.buildSingleton value = .ok array →
    array.dataType = t.arrowDataType ∧ array.length = 1
  inverse : ∀ value array, t.buildSingleton value = .ok array → t.read array 0 = .ok value

/-- The batch of a struct array's columns. -/
structure RecordColumns where
  numRows : Nat
  columns : ArrowColumns
  deriving DecidableEq

/-- `StructArray::from(batch)`: no row is null. -/
def RecordColumns.toStruct (b : RecordColumns) : ArrowArray := .struct (List.replicate b.numRows true) b.columns

/-- Arrow, at flat batches and at those of records. -/
structure Arrow where
  platform : Platform
  /-- `root_as_message(..).bodyLength()`. -/
  bodyLength : Bytes → Option Int64
  batches : IpcStream RecordBatch
  records : IpcStream RecordColumns
  decodeSchema : Bytes → Except ProtocolError Schema
  encodeSchema : Schema → Except ProtocolError Bytes
  /-- `adbc_core`'s `ObjectDepth::try_from`. -/
  objectDepth : Int → Except AdbcError ObjectDepth

structure Arrow.Lawful (arrow : Arrow) : Prop where
  batches : arrow.batches.Lawful arrow.platform arrow.bodyLength
  records : arrow.records.Lawful arrow.platform arrow.bodyLength

/-- `?` on a `ProtocolError`. -/
def orRefuse {α : Type} (r : Except ProtocolError α) : Except Fault α := r.mapError .refused

/-- What a caller is given for a fault; none panics on a slice a platform can hold. -/
def Fault.toProtocol : Fault → ProtocolError
  | .refused e => e
  | .panic => invalid "panicked"

section

variable (arrow : Arrow) {τ : Type} (t : VgiArrow τ)

def encodeRecordIpc (value : τ) (limit : Nat) : Except Fault Bytes := do
  let array ← (t.buildSingleton value).mapError fun e => Fault.refused (invalid e)
  match array with
  | .struct valid columns =>
    orRefuse (validateArray false (.struct valid columns))
    encodeBatchIpc arrow.platform arrow.records ⟨valid.length, columns⟩ limit
  | _ => .error (.refused (invalid "response type must be a record"))

def decodeRecordIpc (bytes : Bytes) (limit : Nat) : Except Fault τ := do
  let batch ← decodeBatchIpc arrow.platform arrow.bodyLength arrow.records bytes limit
  if batch.numRows ≠ 1 then .error (.refused (.rowCount batch.numRows))
  else if batch.toStruct.dataType ≠ t.arrowDataType then
    .error (.refused (invalid "unexpected typed response schema"))
  else
    orRefuse (validateArray false batch.toStruct)
    (t.read batch.toStruct 0).mapError fun e => Fault.refused (invalid e)

/-- The one binary column a record travels in. -/
def envelope (field : String) (payload : Bytes) : RecordBatch where
  schema := ⟨envelopeFields field, []⟩
  columns := [.binary [some payload]]
  numRows := 1
  wf := by simp [envelopeFields, Column.dataType, Column.length]

def encodeRecord (value : τ) (field : String) (limit : Nat) : Except Fault RecordBatch := do
  return envelope field (← encodeRecordIpc arrow t value limit)

def decodeRecord (outer : RecordBatch) (field : String) (limit : Nat) : Except Fault τ := do
  if outer.schema.fields ≠ envelopeFields field then
    .error (.refused (invalid "unexpected typed envelope schema"))
  else decodeRecordIpc arrow t (← orRefuse (binaryValue outer field)) limit

end

section

variable {arrow : Arrow} {τ : Type} {t : VgiArrow τ} {value : τ} {bytes : Bytes} {limit : Nat}

@[simp] theorem orRefuse_ok {α : Type} {r : Except ProtocolError α} {a : α} : orRefuse r = .ok a ↔ r = .ok a :=
  mapError_eq_ok

theorem encodeRecordIpc_ok (h : encodeRecordIpc arrow t value limit = .ok bytes) :
    ∃ valid columns, t.buildSingleton value = .ok (.struct valid columns) ∧
      validateArray false (.struct valid columns) = .ok () ∧
      encodeBatchIpc arrow.platform arrow.records ⟨valid.length, columns⟩ limit = .ok bytes := by
  obtain ⟨array, hb, h⟩ := bind_eq_ok h
  rw [mapError_eq_ok] at hb
  cases array with
  | struct valid columns =>
    obtain ⟨_, hv, h⟩ := bind_eq_ok h
    exact ⟨valid, columns, hb, orRefuse_ok.mp hv, h⟩
  | boolean | int64 | float64 | utf8 | binary | list | other => cases h

/-- The value is the one row of the one batch in the bytes, of the declared type, with no
    null where a value is required. -/
def OneRecord (arrow : Arrow) (t : VgiArrow τ) (bytes : Bytes) (value : τ) : Prop :=
  ∃ decoded, arrow.records.Holds bytes decoded ∧ decoded.batch.numRows = 1 ∧
    decoded.batch.toStruct.dataType = t.arrowDataType ∧ NoNulls decoded.batch.toStruct ∧
    t.read decoded.batch.toStruct 0 = .ok value

theorem decodeRecordIpc_ok (h : decodeRecordIpc arrow t bytes limit = .ok value) : OneRecord arrow t bytes value := by
  obtain ⟨batch, hb, h⟩ := bind_eq_ok h
  obtain ⟨-, decoded, hh, rfl, -⟩ := decodeBatchIpc_ok hb
  by_cases hrows : decoded.batch.numRows ≠ 1
  · rw [if_pos hrows] at h
    cases h
  rw [if_neg hrows] at h
  by_cases htype : decoded.batch.toStruct.dataType ≠ t.arrowDataType
  · rw [if_pos htype] at h
    cases h
  rw [if_neg htype] at h
  obtain ⟨_, hv, h⟩ := bind_eq_ok h
  exact ⟨decoded, hh, not_not.mp hrows, not_not.mp htype, validateArray_noNulls (orRefuse_ok.mp hv),
    mapError_eq_ok.mp h⟩

/-- A struct array without nulls is the one its batch gives back. -/
theorem toStruct_of_valid {valid : List Bool} {columns : ArrowColumns}
    (h : (ArrowArray.struct valid columns).nullCount = 0) :
    (⟨valid.length, columns⟩ : RecordColumns).toStruct = .struct valid columns := by
  have hall : ∀ b ∈ valid, b = true := by
    intro b hb
    cases b with
    | true => rfl
    | false => exact absurd hb (List.count_eq_zero.mp h)
  unfold RecordColumns.toStruct
  rw [← List.eq_replicate_of_mem hall]

theorem decode_encodeRecordIpc (ha : arrow.Lawful) (ht : t.Lawful) {limit' : Nat}
    (h : encodeRecordIpc arrow t value limit = .ok bytes) (hle : bytes.length ≤ limit') :
    decodeRecordIpc arrow t bytes limit' = .ok value := by
  obtain ⟨valid, columns, hb, hv, henc⟩ := encodeRecordIpc_ok h
  obtain ⟨htype, hlen⟩ := ht.typed value _ hb
  have hstruct := toStruct_of_valid (validateArray_nulls hv rfl)
  have hrows : ¬ valid.length ≠ 1 := not_not.mpr hlen
  unfold decodeRecordIpc
  rw [decode_encodeBatchIpc ha.records henc hle]
  simp only [bind, Except.bind, if_neg hrows, hstruct, htype, ne_eq, not_true_eq_false, if_false, orRefuse, hv,
    mapError_of_ok, ht.inverse value _ hb]

end

/-! ## The codec of the handlers -/

inductive ResponseKind where
  | ok
  | session
  | statement
  | execute
  | schema
  | update
  | partitions
  | value
  deriving DecidableEq

def Response.kind : Response → ResponseKind
  | .ok _ => .ok
  | .session _ => .session
  | .statement _ _ => .statement
  | .execute _ _ _ => .execute
  | .schema _ => .schema
  | .update _ => .update
  | .partitions _ _ _ => .partitions
  | .value _ => .value

/-- The response record of a kind. -/
def ResponseKind.Record (k : ResponseKind) : Type := { r : Response // r.kind = k }

/-- The derived code of each record. -/
structure Derived where
  request : (t : RequestKind) → VgiArrow t.Record
  response : (k : ResponseKind) → VgiArrow k.Record

structure Derived.Lawful (derived : Derived) : Prop where
  request : ∀ t, (derived.request t).Lawful
  response : ∀ k, (derived.response k).Lawful

section

variable (arrow : Arrow) (derived : Derived)

def Arrow.codec : Codec where
  decodeBatchIpc bytes limit :=
    (decodeBatchIpc arrow.platform arrow.bodyLength arrow.batches bytes limit).mapError Fault.toProtocol
  encodeBatchIpc batch limit := (encodeBatchIpc arrow.platform arrow.batches batch limit).mapError Fault.toProtocol
  decodeSchema := arrow.decodeSchema
  encodeSchema := arrow.encodeSchema
  decodeRecordIpc t bytes limit := (decodeRecordIpc arrow (derived.request t) bytes limit).mapError Fault.toProtocol
  encodeRecord value limit :=
    (encodeRecord arrow (derived.response value.kind) ⟨value, rfl⟩ "result" limit).mapError Fault.toProtocol
  objectDepth := arrow.objectDepth

/-- `encode_request`: the whole envelope must fit as well. -/
def encodeRequest (t : RequestKind) (value : t.Record) (limit : Nat) : Except ProtocolError RecordBatch := do
  t.validate value
  let batch ← (encodeRecord arrow (derived.request t) value "request" limit).mapError Fault.toProtocol
  let _ ← (arrow.codec derived).encodeBatchIpc batch limit
  return batch

def decodeResponse (k : ResponseKind) (outer : RecordBatch) (limit : Nat) : Except ProtocolError k.Record := do
  let value ← (decodeRecord arrow (derived.response k) outer "result" limit).mapError Fault.toProtocol
  value.1.validate
  return value

end

/-! ## The records -/

theorem binaryValue_envelope (field : String) (payload : Bytes) :
    binaryValue (envelope field payload) field = .ok payload := by
  simp [binaryValue, columnValue, requireOneRow, envelope, RecordBatch.columnByName, envelopeFields, bind, Except.bind]

section

variable {arrow : Arrow} {derived : Derived} {limit limit' : Nat} {outer : RecordBatch}

theorem encodeRecord_ok {τ : Type} {t : VgiArrow τ} {value : τ} {field : String}
    (h : encodeRecord arrow t value field limit = .ok outer) :
    ∃ payload, encodeRecordIpc arrow t value limit = .ok payload ∧ outer = envelope field payload ∧
      payload.length ≤ limit := by
  obtain ⟨payload, hp, h⟩ := bind_eq_ok h
  cases h
  obtain ⟨_, _, -, -, henc⟩ := encodeRecordIpc_ok hp
  obtain ⟨_, -, -, hlen, -⟩ := encodeBatchIpc_ok henc
  exact ⟨payload, hp, rfl, hlen⟩

theorem decodeRecord_envelope {τ : Type} (t : VgiArrow τ) (field : String) (payload : Bytes) :
    decodeRecord arrow t (envelope field payload) field limit = decodeRecordIpc arrow t payload limit := by
  have hf : ¬ (envelope field payload).schema.fields ≠ envelopeFields field := not_not.mpr rfl
  unfold decodeRecord
  rw [if_neg hf, binaryValue_envelope]
  rfl

theorem decodeRecord_ok {τ : Type} {t : VgiArrow τ} {value : τ} {field : String}
    (h : decodeRecord arrow t outer field limit = .ok value) :
    ∃ payload, binaryValue outer field = .ok payload ∧ OneRecord arrow t payload value := by
  unfold decodeRecord at h
  by_cases hf : outer.schema.fields ≠ envelopeFields field
  · rw [if_pos hf] at h
    cases h
  · rw [if_neg hf] at h
    obtain ⟨payload, hp, h⟩ := bind_eq_ok h
    exact ⟨payload, orRefuse_ok.mp hp, decodeRecordIpc_ok h⟩

/-- `decode_request` of the handlers is `decode_record` and the record's validation. -/
theorem decodeRequest_eq (t : RequestKind) :
    (arrow.codec derived).decodeRequest t outer limit = (do
      let value ← (decodeRecord arrow (derived.request t) outer "request" limit).mapError Fault.toProtocol
      t.validate value
      return value) := by
  unfold Codec.decodeRequest decodeRecord Arrow.codec
  by_cases hf : outer.schema.fields ≠ envelopeFields "request"
  · rw [if_pos hf, if_pos hf]
    rfl
  · rw [if_neg hf, if_neg hf]
    cases binaryValue outer "request" <;> rfl

theorem encodeRequest_ok {t : RequestKind} {value : t.Record}
    (h : encodeRequest arrow derived t value limit = .ok outer) :
    t.validate value = .ok () ∧ encodeRecord arrow (derived.request t) value "request" limit = .ok outer ∧
      ∃ bytes, (arrow.codec derived).encodeBatchIpc outer limit = .ok bytes ∧ bytes.length ≤ limit := by
  obtain ⟨_, hv, h⟩ := bind_eq_ok h
  obtain ⟨batch, hb, h⟩ := bind_eq_ok h
  obtain ⟨bytes, hbytes, h⟩ := bind_eq_ok h
  cases h
  obtain ⟨_, -, -, hlen, -⟩ := encodeBatchIpc_ok (mapError_eq_ok.mp hbytes)
  exact ⟨hv, mapError_eq_ok.mp hb, bytes, hbytes, hlen⟩

theorem decode_encodeRequest (ha : arrow.Lawful) (hd : derived.Lawful) (hle : limit ≤ limit') {t : RequestKind}
    {value : t.Record} (h : encodeRequest arrow derived t value limit = .ok outer) :
    (arrow.codec derived).decodeRequest t outer limit' = .ok value := by
  obtain ⟨hv, hrec, -⟩ := encodeRequest_ok h
  obtain ⟨payload, hp, rfl, hlen⟩ := encodeRecord_ok hrec
  rw [decodeRequest_eq, decodeRecord_envelope, decode_encodeRecordIpc ha (hd.request t) hp (by omega)]
  simp only [mapError_of_ok, bind, Except.bind, hv, pure, Except.pure]

theorem decodeRequest_ok {t : RequestKind} {value : t.Record}
    (h : (arrow.codec derived).decodeRequest t outer limit = .ok value) :
    t.validate value = .ok () ∧ ∃ payload, binaryValue outer "request" = .ok payload ∧
      OneRecord arrow (derived.request t) payload value := by
  rw [decodeRequest_eq] at h
  obtain ⟨value', hr, h⟩ := bind_eq_ok h
  obtain ⟨_, hv, h⟩ := bind_eq_ok h
  cases h
  exact ⟨hv, decodeRecord_ok (mapError_eq_ok.mp hr)⟩

theorem encodeResponse_ok {value : Response} (h : (arrow.codec derived).encodeResponse value limit = .ok outer) :
    value.validate = .ok () ∧
      encodeRecord arrow (derived.response value.kind) ⟨value, rfl⟩ "result" limit = .ok outer := by
  obtain ⟨_, hv, h⟩ := bind_eq_ok h
  exact ⟨hv, mapError_eq_ok.mp h⟩

theorem decode_encodeResponse (ha : arrow.Lawful) (hd : derived.Lawful) (hle : limit ≤ limit') {value : Response}
    (h : (arrow.codec derived).encodeResponse value limit = .ok outer) :
    decodeResponse arrow derived value.kind outer limit' = .ok ⟨value, rfl⟩ := by
  obtain ⟨hv, hrec⟩ := encodeResponse_ok h
  obtain ⟨payload, hp, rfl, hlen⟩ := encodeRecord_ok hrec
  unfold decodeResponse
  rw [decodeRecord_envelope, decode_encodeRecordIpc ha (hd.response value.kind) hp (by omega)]
  show (value.validate >>= fun _ => .ok ⟨value, rfl⟩ : Except ProtocolError value.kind.Record) = .ok ⟨value, rfl⟩
  rw [hv]
  rfl

theorem decodeResponse_ok {k : ResponseKind} {value : k.Record}
    (h : decodeResponse arrow derived k outer limit = .ok value) :
    value.1.validate = .ok () ∧ ∃ payload, binaryValue outer "result" = .ok payload ∧
      OneRecord arrow (derived.response k) payload value := by
  obtain ⟨value', hr, h⟩ := bind_eq_ok h
  obtain ⟨_, hv, h⟩ := bind_eq_ok h
  cases h
  exact ⟨hv, decodeRecord_ok (mapError_eq_ok.mp hr)⟩

end

/-- What is encoded, within the limit, decodes to the same record; and what decodes is a valid
    record, its payload one row of exactly the declared type and nothing more. -/
theorem typed_record_codec (arrow : Arrow) (ha : arrow.Lawful) (derived : Derived) (hd : derived.Lawful)
    (limit limit' : Nat) (hle : limit ≤ limit') :
    (∀ (t : RequestKind) (value : t.Record) (outer : RecordBatch),
      encodeRequest arrow derived t value limit = .ok outer →
      t.validate value = .ok () ∧
      (∃ payload, binaryValue outer "request" = .ok payload ∧ payload.length ≤ limit) ∧
      (∃ bytes, (arrow.codec derived).encodeBatchIpc outer limit = .ok bytes ∧ bytes.length ≤ limit) ∧
      (arrow.codec derived).decodeRequest t outer limit' = .ok value) ∧
    (∀ (value : Response) (outer : RecordBatch), (arrow.codec derived).encodeResponse value limit = .ok outer →
      value.validate = .ok () ∧
      (∃ payload, binaryValue outer "result" = .ok payload ∧ payload.length ≤ limit) ∧
      decodeResponse arrow derived value.kind outer limit' = .ok ⟨value, rfl⟩) ∧
    (∀ (t : RequestKind) (value : t.Record) (outer : RecordBatch),
      (arrow.codec derived).decodeRequest t outer limit = .ok value →
      t.validate value = .ok () ∧ ∃ payload, binaryValue outer "request" = .ok payload ∧
        OneRecord arrow (derived.request t) payload value) ∧
    (∀ (k : ResponseKind) (value : k.Record) (outer : RecordBatch),
      decodeResponse arrow derived k outer limit = .ok value →
      value.1.validate = .ok () ∧ ∃ payload, binaryValue outer "result" = .ok payload ∧
        OneRecord arrow (derived.response k) payload value) := by
  refine ⟨?_, ?_, ?_, ?_⟩
  · intro t value outer h
    obtain ⟨hv, hrec, hbytes⟩ := encodeRequest_ok h
    obtain ⟨payload, -, rfl, hlen⟩ := encodeRecord_ok hrec
    exact ⟨hv, ⟨payload, binaryValue_envelope _ _, hlen⟩, hbytes, decode_encodeRequest ha hd hle h⟩
  · intro value outer h
    obtain ⟨hv, hrec⟩ := encodeResponse_ok h
    obtain ⟨payload, -, rfl, hlen⟩ := encodeRecord_ok hrec
    exact ⟨hv, ⟨payload, binaryValue_envelope _ _, hlen⟩, decode_encodeResponse ha hd hle h⟩
  · intro t value outer h
    exact decodeRequest_ok h
  · intro k value outer h
    exact decodeResponse_ok h

/-! A request with a null and an empty filter, on an Arrow of two frames a stream. -/

def VgiArrow.one {τ : Type} [DecidableEq τ] (value : τ) (array : ArrowArray) : VgiArrow τ where
  arrowDataType := array.dataType
  buildSingleton v := if v = value then .ok array else .error "unsupported"
  read a _ := if a = array then .ok value else .error "unsupported"

def VgiArrow.none {τ : Type} : VgiArrow τ := ⟨.boolean, fun _ => .error "unsupported", fun _ _ => .error "unsupported"⟩

theorem VgiArrow.one_lawful {τ : Type} [DecidableEq τ] {value : τ} {array : ArrowArray} (h : array.length = 1) :
    (VgiArrow.one value array).Lawful := by
  have hb : ∀ v a, (VgiArrow.one value array).buildSingleton v = .ok a → v = value ∧ a = array := by
    intro v a hv
    by_cases heq : v = value
    · simp only [VgiArrow.one, if_pos heq] at hv
      cases hv
      exact ⟨heq, rfl⟩
    · simp only [VgiArrow.one, if_neg heq] at hv
      cases hv
  refine ⟨?_, ?_⟩
  · intro v a hv
    obtain ⟨-, rfl⟩ := hb v a hv
    exact ⟨rfl, h⟩
  · intro v a hv
    obtain ⟨rfl, rfl⟩ := hb v a hv
    simp only [VgiArrow.one, if_true]

theorem VgiArrow.none_lawful {τ : Type} : (VgiArrow.none : VgiArrow τ).Lawful where
  typed _ _ h := by cases h
  inverse _ _ h := by cases h

deriving instance DecidableEq for GetTableSchemaRequest

def tableRequest : GetTableSchemaRequest := ⟨"s", none, some "", "t"⟩

def tableColumns : ArrowColumns :=
  .cons "session_id" false [] (.utf8 [some "s"]) (.cons "catalog" true [] (.utf8 [none])
    (.cons "db_schema" true [] (.utf8 [some ""]) (.cons "table_name" false [] (.utf8 [some "t"]) .nil)))

def tableVgi : VgiArrow GetTableSchemaRequest := .one tableRequest (.struct [true] tableColumns)

def tableDerived : Derived where
  request
    | .getTableSchema => tableVgi
    | .openConnection | .setConnectionOption | .setStatementOption | .getInfo | .getObjects | .getStatistics => .none
  response _ := .none

/-- The last byte of the metadata. -/
def lastByte (metadata : Bytes) : Option Int64 := metadata.getLast?.map fun b => Int64.ofNat b.toNat

def schemaFrame : Frame lastByte := ⟨true, [16, 0, 0, 0, 0, 0, 0, 0], [], by decide, 0, by decide, by decide⟩

def tableFrame : Frame lastByte :=
  ⟨true, [12, 0, 0, 0, 0, 0, 0, 8], [115, 116, 0, 0, 0, 0, 0, 0], by decide, 8, by decide, by decide⟩

def tablePayload : Bytes := stream [schemaFrame, tableFrame] true

def outerFrame : Frame lastByte := ⟨true, [12, 0, 0, 0, 0, 0, 0, 48], tablePayload, by decide, 48, by decide, by decide⟩

def tableArrow : Arrow where
  platform := ⟨64, by decide, .ascii⟩
  bodyLength := lastByte
  batches := .one (envelope "request" tablePayload) [schemaFrame.bytes, outerFrame.bytes, terminator true]
  records := .one ⟨1, tableColumns⟩ [schemaFrame.bytes, tableFrame.bytes, terminator true]
  decodeSchema _ := .error .invalidSchemaMessage
  encodeSchema _ := .ok []
  objectDepth n := .ok n

theorem typed_record_codec_table :
    encodeRequest tableArrow tableDerived .getTableSchema tableRequest 200 = .ok (envelope "request" tablePayload) ∧
    (tableArrow.codec tableDerived).decodeRequest .getTableSchema (envelope "request" tablePayload) 1000 =
      .ok tableRequest := by
  have ha : tableArrow.Lawful :=
    ⟨IpcStream.one_lawful ⟨[schemaFrame, outerFrame], true, rfl⟩, IpcStream.one_lawful ⟨[schemaFrame, tableFrame], true, rfl⟩⟩
  have hd : tableDerived.Lawful := by
    refine ⟨?_, fun _ => VgiArrow.none_lawful⟩
    intro t
    cases t with
    | getTableSchema =>
      have h : tableVgi.Lawful := VgiArrow.one_lawful rfl
      exact h
    | openConnection | setConnectionOption | setStatementOption | getInfo | getObjects | getStatistics =>
      exact VgiArrow.none_lawful
  have henc : encodeRequest tableArrow tableDerived .getTableSchema tableRequest 200 =
      .ok (envelope "request" tablePayload) := by decide
  exact ⟨henc, ((typed_record_codec tableArrow ha tableDerived hd 200 1000 (by decide)).1 .getTableSchema tableRequest _
    henc).2.2.2⟩

end Grainlift.Protocol
