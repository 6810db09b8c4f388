/-
  Grainlift.Protocol.NullDiscipline — what `validate_array` lets through
  (grainlift-protocol/src/responses.rs).

  A value is read out of an array as one that is there wherever its field is not nullable,
  and wherever it is an element of a list: Python's list types allow null elements, the
  records do not. Nothing after `validate_array` looks again.

  `Disciplined` says of an array, node by node, what is demanded of it. `Within` says the
  same by places: each array inside, with the nullability of the place it is in. `Reaches`
  are the entries that one row leads to, through fields and through the offsets of lists.

  Proved (`null_discipline`): an array is let through exactly if it is disciplined, exactly
  if there is no null in any place that allows none; and from the row of a record that was
  decoded no null is reached where a value is required.
-/

import Grainlift.Protocol.Records

namespace Grainlift.Protocol

/-! ## The discipline -/

inductive Disciplined : Bool → ArrowArray → Prop
  | struct {nullable : Bool} {valid : List Bool} {columns : ArrowColumns} :
      (nullable = false → (ArrowArray.struct valid columns).nullCount = 0) →
      (∀ (nullable' : Bool) (column : ArrowArray), columns.Has nullable' column → Disciplined nullable' column) →
      Disciplined nullable (.struct valid columns)
  | list {nullable itemNullable : Bool} {item : String} {metadata : List (String × String)} {valid : List Bool}
      {offsets : List Nat} {values : ArrowArray} :
      (nullable = false → (ArrowArray.list item itemNullable metadata valid offsets values).nullCount = 0) →
      values.nullCount = 0 → Disciplined false values →
      Disciplined nullable (.list item itemNullable metadata valid offsets values)
  | primitive {nullable : Bool} {a : ArrowArray} : (∀ valid columns, a ≠ .struct valid columns) →
      (∀ item itemNullable metadata valid offsets values, a ≠ .list item itemNullable metadata valid offsets values) →
      (nullable = false → a.nullCount = 0) → Disciplined nullable a

/-- The arrays inside `a` and whether the place of each is nullable, that of `a` being so. -/
inductive Within (nullable : Bool) (a : ArrowArray) : ArrowArray → (nullable' : Bool) → Prop
  | self : Within nullable a a nullable
  | field {valid : List Bool} {columns : ArrowColumns} {n n' : Bool} {column : ArrowArray} :
      Within nullable a (.struct valid columns) n → columns.Has n' column → Within nullable a column n'
  | element {item : String} {itemNullable n : Bool} {metadata : List (String × String)} {valid : List Bool}
      {offsets : List Nat} {values : ArrowArray} :
      Within nullable a (.list item itemNullable metadata valid offsets values) n → Within nullable a values false

theorem Within.trans {nullable n m : Bool} {a b c : ArrowArray} (h : Within nullable a b n) (h' : Within n b c m) :
    Within nullable a c m := by
  induction h' with
  | self => exact h
  | field _ hc ih => exact ih.field hc
  | element _ ih => exact ih.element

theorem Disciplined.nulls {nullable : Bool} {a : ArrowArray} (h : Disciplined nullable a) :
    nullable = false → a.nullCount = 0 := by
  cases h with
  | struct hn _ => exact hn
  | list hn _ _ => exact hn
  | primitive _ _ hn => exact hn

/-- What is inside a disciplined array is disciplined as its place demands. -/
theorem Disciplined.within {nullable n : Bool} {a b : ArrowArray} (h : Disciplined nullable a)
    (hw : Within nullable a b n) : Disciplined n b := by
  induction hw with
  | self => exact h
  | field _ hc ih =>
    cases ih with
    | struct _ hcols => exact hcols _ _ hc
    | primitive hs => exact absurd rfl (hs _ _)
  | element _ ih =>
    cases ih with
    | list _ _ hvalues => exact hvalues
    | primitive _ hl => exact absurd rfl (hl _ _ _ _ _ _)

mutual

/-- Conversely, by induction on the array: a place inside a child is a place inside it. -/
theorem disciplined_of_within {nullable : Bool} : (a : ArrowArray) →
    (∀ b n, Within nullable a b n → n = false → b.nullCount = 0) → Disciplined nullable a
  | .struct valid columns, h =>
    .struct (h _ _ .self) (disciplined_columns columns fun _ _ hc b n hw => h b n ((Within.self.field hc).trans hw))
  | .list item itemNullable metadata valid offsets values, h =>
    have hvalues : Within nullable (.list item itemNullable metadata valid offsets values) values false :=
      Within.self.element
    .list (h _ _ .self) (h _ _ hvalues rfl) (disciplined_of_within values fun b n hw => h b n (hvalues.trans hw))
  | .boolean rows, h | .int64 rows, h | .float64 rows, h | .utf8 rows, h | .binary rows, h | .other _ rows, h =>
    .primitive (by intros; simp) (by intros; simp) (h _ _ .self)

theorem disciplined_columns : (columns : ArrowColumns) →
    (∀ (n : Bool) (column : ArrowArray), columns.Has n column → ∀ b m, Within n column b m → m = false → b.nullCount = 0) →
    ∀ (n : Bool) (column : ArrowArray), columns.Has n column → Disciplined n column
  | .nil, _, _, _, hc => hc.elim
  | .cons _ n _ column rest, h, _, _, hc => by
    rcases hc with ⟨rfl, rfl⟩ | hc
    · exact disciplined_of_within column (h _ _ (.inl ⟨rfl, rfl⟩))
    · exact disciplined_columns rest (fun n' column' hc' => h n' column' (.inr hc')) _ _ hc

end

/-! ## The code -/

theorem checkNulls_ok_iff {nullable : Bool} {nulls : Nat} :
    checkNulls nullable nulls = .ok () ↔ (nullable = false → nulls = 0) := by
  refine ⟨checkNulls_ok, ?_⟩
  intro h
  unfold checkNulls
  cases nullable with
  | true => rfl
  | false => simp [h rfl]

theorem validateColumns_of_has : {columns : ArrowColumns} →
    (∀ (n : Bool) (column : ArrowArray), columns.Has n column → validateArray n column = .ok ()) →
    validateColumns columns = .ok ()
  | .nil, _ => rfl
  | .cons _ n _ column rest, h => by
    have hcolumn := h n column (.inl ⟨rfl, rfl⟩)
    have hrest := validateColumns_of_has fun n' column' hc => h n' column' (.inr hc)
    unfold validateColumns
    rw [hcolumn, hrest]
    rfl

theorem Disciplined.validated {nullable : Bool} {a : ArrowArray} (h : Disciplined nullable a) :
    validateArray nullable a = .ok () := by
  induction h with
  | struct hn _ ih =>
    unfold validateArray
    rw [checkNulls_ok_iff.mpr hn, validateColumns_of_has ih]
    rfl
  | list hn _ _ ih =>
    unfold validateArray
    rw [checkNulls_ok_iff.mpr hn, ih]
    rfl
  | primitive hs hl hn =>
    rename_i a
    cases a with
    | struct valid columns => exact absurd rfl (hs valid columns)
    | list item itemNullable metadata valid offsets values =>
      exact absurd rfl (hl item itemNullable metadata valid offsets values)
    | boolean | int64 | float64 | utf8 | binary | other =>
      unfold validateArray
      exact checkNulls_ok_iff.mpr hn

/-- Every array inside was validated as its place demands. -/
theorem validateArray_within {nullable n : Bool} {a b : ArrowArray} (h : validateArray nullable a = .ok ())
    (hw : Within nullable a b n) : validateArray n b = .ok () := by
  induction hw with
  | self => exact h
  | field _ hc ih =>
    obtain ⟨_, -, hcols⟩ := bind_eq_ok ih
    exact validateColumns_has hcols hc
  | element _ ih =>
    obtain ⟨_, -, hvalues⟩ := bind_eq_ok ih
    exact hvalues

theorem validateArray_ok_iff {nullable : Bool} {a : ArrowArray} :
    validateArray nullable a = .ok () ↔ Disciplined nullable a := by
  refine ⟨?_, Disciplined.validated⟩
  intro h
  apply disciplined_of_within a
  intro b n hw
  exact validateArray_nulls (validateArray_within h hw)

/-! ## The entries of a row -/

/-- The entries that row `i` of `a` leads to, and whether a value is required of each. -/
inductive Reaches (a : ArrowArray) (i : Nat) : ArrowArray → Nat → (required : Bool) → Prop
  | self : Reaches a i a i true
  | field {valid : List Bool} {columns : ArrowColumns} {j : Nat} {required nullable : Bool} {column : ArrowArray} :
      Reaches a i (.struct valid columns) j required → columns.Has nullable column → Reaches a i column j (!nullable)
  | element {item : String} {nullable required : Bool} {metadata : List (String × String)} {valid : List Bool}
      {offsets : List Nat} {values : ArrowArray} {j start stop k : Nat} :
      Reaches a i (.list item nullable metadata valid offsets values) j required → offsets[j]? = some start →
        offsets[j + 1]? = some stop → start ≤ k → k < stop → Reaches a i values k true

theorem Reaches.inside {a b : ArrowArray} {i j : Nat} {required : Bool} (h : Reaches a i b j required) :
    Inside a b required := by
  induction h with
  | self => exact .self
  | field _ hc ih => exact ih.field hc
  | element _ _ _ _ _ ih => exact ih.element

/-- Where a value is required, the entry is not null. -/
theorem NoNulls.entry {a b : ArrowArray} {i j : Nat} (ha : NoNulls a) (h : Reaches a i b j true) :
    b.validity[j]? ≠ some false := by
  intro hnull
  exact List.count_eq_zero.mp (ha b h.inside) (List.mem_of_getElem? hnull)

/-- Validation accepts exactly the trees of arrays without a null in a non-nullable field, at
    any depth; so no value that is decoded was read from one. -/
theorem null_discipline :
    (∀ (nullable : Bool) (a : ArrowArray), validateArray nullable a = .ok () ↔ Disciplined nullable a) ∧
    (∀ (nullable : Bool) (a : ArrowArray), validateArray nullable a = .ok () ↔
      ∀ b n, Within nullable a b n → n = false → b.nullCount = 0) ∧
    (∀ (arrow : Arrow) (τ : Type) (t : VgiArrow τ) (bytes : Bytes) (limit : Nat) (value : τ),
      decodeRecordIpc arrow t bytes limit = .ok value →
      ∃ decoded, arrow.records.Holds bytes decoded ∧ decoded.batch.numRows = 1 ∧
        t.read decoded.batch.toStruct 0 = .ok value ∧
        ∀ b j, Reaches decoded.batch.toStruct 0 b j true → b.validity[j]? ≠ some false) := by
  refine ⟨?_, ?_, ?_⟩
  · intro nullable a
    exact validateArray_ok_iff
  · intro nullable a
    constructor
    · intro h b n hw
      exact validateArray_nulls (validateArray_within h hw)
    · intro h
      exact (disciplined_of_within a h).validated
  · intro arrow τ t bytes limit value h
    obtain ⟨decoded, hh, hrows, -, hnulls, hread⟩ := decodeRecordIpc_ok h
    exact ⟨decoded, hh, hrows, hread, fun b j hr => hnulls.entry hr⟩

/-- A list whose item type allows nulls, with one: it is refused even where the list itself
    may be null. In a request that is accepted the catalog is null, the table's name not. -/
theorem null_discipline_table :
    validateArray true (.list "item" true [] [true] [0, 2] (.binary [some [1], none])) ≠ .ok () ∧
    ∃ decoded, tableArrow.records.Holds tablePayload decoded ∧
      ∀ b j, Reaches decoded.batch.toStruct 0 b j true → b.validity[j]? ≠ some false := by
  have hdecode : decodeRecordIpc tableArrow tableVgi tablePayload 200 = .ok tableRequest := by decide
  obtain ⟨-, hplaces, hrow⟩ := null_discipline
  refine ⟨?_, ?_⟩
  · intro h
    have hvalues := (hplaces true _).mp h _ false Within.self.element rfl
    exact absurd hvalues (by decide)
  · obtain ⟨decoded, hh, -, -, hnulls⟩ := hrow tableArrow _ tableVgi tablePayload 200 tableRequest hdecode
    exact ⟨decoded, hh, hnulls⟩

end Grainlift.Protocol
