/-
  Grainlift.Client.Info — GetInfo (`GrainliftInfoReader`, `GrainliftConnection::get_info`,
  `grainlift_info_batch`; adbc-driver-grainlift/src/lib.rs).

  The four driver codes are answered by this driver itself, in one batch before all others;
  what the server answers to them is left out. A batch from downstream is cut into its runs
  of rows with other codes, which wait in `pending` for the calls that follow; a batch with
  no such row is passed over in the same call.

  A batch is given by its rows, each with its code in the UInt32 column `info_name` (what
  `values()` holds for it) and the rest of it; `slice` takes the same range of every column.
  Arrow's two `try_new` are parameters: a batch they build has the codes it was given
  (`TryNew.Lawful`).

  Proved (`info_merging`), for every set of codes and whatever comes from downstream:
  what was returned and what is waiting are the driver's batch, if one of its codes was
  asked for, and then what each item that was taken `Emits`, in order; the driver's batch
  has one row for each of its codes that was asked for, and no batch that is returned is
  empty; and a call returns exactly if something waits, or there is still to come an end, an
  error, a batch without the column or one with a row of another code.
-/

import Grainlift.Lib.Loop
import Grainlift.Lib.Runs
import Grainlift.Server.Access
import Mathlib.Data.Finset.Insert

namespace Grainlift.Client.Info

open Grainlift.Lib Grainlift.Lib.Loop Grainlift.Protocol Grainlift.Server

/-! ## Codes -/

def driverName : UInt32 := 100
def driverVersion : UInt32 := 101
def driverArrowVersion : UInt32 := 102
def driverAdbcVersion : UInt32 := 103

def driverCodes : List UInt32 := [driverName, driverVersion, driverArrowVersion, driverAdbcVersion]

def isGrainliftDriverInfo (code : UInt32) : Bool :=
  code = driverName || code = driverVersion || code = driverArrowVersion || code = driverAdbcVersion

theorem isGrainliftDriverInfo_iff {code : UInt32} : isGrainliftDriverInfo code = true ↔ code ∈ driverCodes := by
  simp [isGrainliftDriverInfo, driverCodes, or_assoc]

/-! ## Batches -/

/-- `ρ` is a row less its code. -/
inductive InfoBatch (ρ : Type) where
  | coded (rows : List (UInt32 × ρ))
  /-- Without a UInt32 column `info_name`. -/
  | uncoded (rows : List ρ)

variable {ρ : Type}

def InfoBatch.numRows : InfoBatch ρ → Nat
  | .coded rows => rows.length
  | .uncoded rows => rows.length

def InfoBatch.slice (offset length : Nat) : InfoBatch ρ → InfoBatch ρ
  | .coded rows => .coded (Lib.slice rows (offset, length))
  | .uncoded rows => .uncoded (Lib.slice rows (offset, length))

inductive ArrowError where
  | schemaError (message : String)
  | other (description : String)

abbrev Item (ρ : Type) := Except ArrowError (InfoBatch ρ)

/-! ## The driver's own batch -/

inductive UnionMode where
  | dense
  | sparse
  deriving DecidableEq

inductive InfoType where
  /-- The fields by their type id and data type. -/
  | union (fields : List (Int8 × String)) (mode : UnionMode)
  | other

/-- A schema by the name of its first field and the type of its second. (With one field or
    none, `field(1)` panics.) -/
structure InfoSchema where
  first : String
  value : InfoType

/-- A child array of the union. -/
inductive Child where
  | strings (rows : List (Option String))
  | integers (rows : List (Option Int64))
  | empty (type : String)
  | nulls (type : String) (rows : Nat)

structure InfoColumns where
  infoNames : List UInt32
  typeIds : List Int8
  offsets : List Nat
  strings : List String
  integers : List Int64

def InfoColumns.addString (c : InfoColumns) (code : UInt32) (value : String) : InfoColumns :=
  { c with infoNames := c.infoNames ++ [code], typeIds := c.typeIds ++ [0], offsets := c.offsets ++ [c.strings.length]
           strings := c.strings ++ [value] }

def InfoColumns.addInteger (c : InfoColumns) (code : UInt32) (value : Int64) : InfoColumns :=
  { c with infoNames := c.infoNames ++ [code], typeIds := c.typeIds ++ [2], offsets := c.offsets ++ [c.integers.length]
           integers := c.integers ++ [value] }

/-- No codes ask for all of them. -/
def Requested (codes : Option (Finset UInt32)) (code : UInt32) : Prop := ∀ values ∈ codes, code ∈ values

instance (codes : Option (Finset UInt32)) (code : UInt32) : Decidable (Requested codes code) :=
  match codes with
  | none => isTrue (by simp [Requested])
  | some values => decidable_of_iff (code ∈ values) (by simp [Requested])

def infoColumns (codes : Option (Finset UInt32)) : InfoColumns :=
  let c : InfoColumns := ⟨[], [], [], [], []⟩
  let c := if Requested codes driverName then c.addString driverName "Grainlift ADBC Driver" else c
  let c := if Requested codes driverVersion then c.addString driverVersion "0.4.0" else c
  let c := if Requested codes driverArrowVersion then c.addString driverArrowVersion "v59" else c
  if Requested codes driverAdbcVersion then c.addInteger driverAdbcVersion 1001000 else c

def InfoColumns.child (c : InfoColumns) (mode : UnionMode) (typeId : Int8) (type : String) : Child :=
  match mode with
  | .dense =>
    if typeId = 0 then .strings (c.strings.map some)
    else if typeId = 2 then .integers (c.integers.map some)
    else .empty type
  | .sparse =>
    let rows := c.typeIds.zip c.offsets
    if typeId = 0 then .strings (rows.map fun x => if x.1 = 0 then c.strings[x.2]? else none)
    else if typeId = 2 then .integers (rows.map fun x => if x.1 = 2 then c.integers[x.2]? else none)
    else .nulls type c.typeIds.length

/-- `UnionArray::try_new`, and `RecordBatch::try_new` of the codes and the union. -/
abbrev TryNew (ρ : Type) := (schema : InfoSchema) → (infoNames : List UInt32) → (typeIds : List Int8) →
  (offsets : Option (List Nat)) → (children : List Child) → Except AdbcError (InfoBatch ρ)

/-- The first column of a batch that was built is the codes it was given, under the name the
    schema has for it. -/
def TryNew.Lawful (tryNew : TryNew ρ) : Prop :=
  ∀ schema infoNames typeIds offsets children batch, tryNew schema infoNames typeIds offsets children = .ok batch →
    batch.numRows = infoNames.length ∧
    (schema.first = "info_name" → ∃ rows, batch = .coded rows ∧ rows.map Prod.fst = infoNames)

def grainliftInfoBatch (tryNew : TryNew ρ) (codes : Option (Finset UInt32)) (schema : InfoSchema) :
    Except AdbcError (Option (InfoBatch ρ)) :=
  let c := infoColumns codes
  if c.infoNames.isEmpty then .ok none
  else
    match schema.value with
    | .other => .error (internal "ADBC GetInfo schema does not contain a union")
    | .union fields mode =>
      (tryNew schema c.infoNames c.typeIds (if mode = .dense then some c.offsets else none)
        (fields.map fun f => c.child mode f.1 f.2)).map some

/-! ## The reader -/

/-- The stream of the server's result: its schema, and what each `next` answers. -/
structure Downstream (ρ : Type) where
  schema : InfoSchema
  items : Nat → Option (Item ρ)

structure GrainliftInfoReader (ρ : Type) where
  grainliftBatch : Option (InfoBatch ρ)
  downstream : Downstream ρ
  /-- How many items were taken from it. -/
  polled : Nat
  pending : List (InfoBatch ρ)
  schema : InfoSchema

def getInfo (tryNew : TryNew ρ) (call : Option (Finset UInt32) → Except AdbcError (Downstream ρ))
    (codes : Option (Finset UInt32)) : Except AdbcError (GrainliftInfoReader ρ) := do
  let downstream ← call codes
  let grainliftBatch ← grainliftInfoBatch tryNew codes downstream.schema
  return ⟨grainliftBatch, downstream, 0, [], downstream.schema⟩

/-- The loop over the codes of `batch`, in a run since `runStart`. -/
def splitRuns (batch : InfoBatch ρ) :
    List UInt32 → (index : Nat) → (runStart : Option Nat) → (pending : List (InfoBatch ρ)) → List (InfoBatch ρ)
  | [], _, none, pending => pending
  | [], _, some start, pending => pending ++ [batch.slice start (batch.numRows - start)]
  | code :: codes, index, none, pending =>
    if isGrainliftDriverInfo code then splitRuns batch codes (index + 1) none pending
    else splitRuns batch codes (index + 1) (some index) pending
  | code :: codes, index, some start, pending =>
    if isGrainliftDriverInfo code then
      splitRuns batch codes (index + 1) none (pending ++ [batch.slice start (index - start)])
    else splitRuns batch codes (index + 1) (some start) pending

def missingInfoName : ArrowError := .schemaError "GetInfo response is missing its UInt32 info_name column"

namespace GrainliftInfoReader

/-- One round of `next`'s loop. -/
def round (r : GrainliftInfoReader ρ) : Round (GrainliftInfoReader ρ) (Option (Item ρ) × GrainliftInfoReader ρ) :=
  let taken := { r with polled := r.polled + 1 }
  match r.downstream.items r.polled with
  | none => .leave (none, taken)
  | some (.error error) => .leave (some (.error error), taken)
  | some (.ok (.uncoded _)) => .leave (some (.error missingInfoName), taken)
  | some (.ok (.coded rows)) =>
    match splitRuns (.coded rows) (rows.map Prod.fst) 0 none r.pending with
    | [] => .again { taken with pending := [] }
    | batch :: pending => .leave (some (.ok batch), { taken with pending := pending })

/-- `next`, if its loop ends within so many rounds. -/
def next (rounds : Nat) (r : GrainliftInfoReader ρ) : Option (Option (Item ρ) × GrainliftInfoReader ρ) :=
  match r.grainliftBatch, r.pending with
  | some batch, _ => some (some (.ok batch), { r with grainliftBatch := none })
  | none, batch :: pending => some (some (.ok batch), { r with pending := pending })
  | none, [] => Loop.run round rounds r

/-- A call of `next` returns this. -/
def Returns (r : GrainliftInfoReader ρ) (item : Option (Item ρ)) (r' : GrainliftInfoReader ρ) : Prop :=
  ∃ rounds, r.next rounds = some (item, r')

/-- Calls that return these, one after the other. -/
inductive Reads : GrainliftInfoReader ρ → List (Option (Item ρ)) → GrainliftInfoReader ρ → Prop
  | nil {r : GrainliftInfoReader ρ} : Reads r [] r
  | snoc {r r' r'' : GrainliftInfoReader ρ} {items : List (Option (Item ρ))} {item : Option (Item ρ)} :
      Reads r items r' → r'.Returns item r'' → Reads r (items ++ [item]) r''

/-- What the next calls return before downstream is asked again. -/
def waiting (r : GrainliftInfoReader ρ) : List (Option (Item ρ)) :=
  (r.grainliftBatch.toList ++ r.pending).map fun batch => some (.ok batch)

end GrainliftInfoReader

/-! ## What an item from downstream becomes -/

/-- What is returned for an item: the end, its error, or what is left of its rows. -/
inductive Emits : Option (Item ρ) → List (Option (Item ρ)) → Prop
  | ended : Emits none [none]
  | error (e : ArrowError) : Emits (some (.error e)) [some (.error e)]
  | uncoded (rows : List ρ) : Emits (some (.ok (.uncoded rows))) [some (.error missingInfoName)]
  /-- Slices that are not empty, in order, and together the rows whose code is no driver code. -/
  | coded (rows : List (UInt32 × ρ)) (ranges : List (Nat × Nat)) :
      (∀ r ∈ ranges, 0 < r.2 ∧ r.1 + r.2 ≤ rows.length) → ranges.Pairwise (fun r r' => r.1 + r.2 < r'.1) →
      ranges.flatMap (Lib.slice rows) = rows.filter (fun row => row.1 ∉ driverCodes) →
      Emits (some (.ok (.coded rows))) (ranges.map fun r => some (.ok ((InfoBatch.coded rows).slice r.1 r.2)))

/-- An item for which something is returned. -/
def Shows : Option (Item ρ) → Prop
  | some (.ok (.coded rows)) => ∃ row ∈ rows, row.1 ∉ driverCodes
  | _ => True

/-- The ranges of the rows that stay. -/
def kept (rows : List (UInt32 × ρ)) : List (Nat × Nat) := runs (fun row => !isGrainliftDriverInfo row.1) rows 0 none

def emitted : Option (Item ρ) → List (Option (Item ρ))
  | none => [none]
  | some (.error e) => [some (.error e)]
  | some (.ok (.uncoded _)) => [some (.error missingInfoName)]
  | some (.ok (.coded rows)) => (kept rows).map fun r => some (.ok ((InfoBatch.coded rows).slice r.1 r.2))

theorem kept_flatMap (rows : List (UInt32 × ρ)) :
    (kept rows).flatMap (Lib.slice rows) = rows.filter (fun row => row.1 ∉ driverCodes) := by
  rw [kept, runs_filter]
  refine List.filter_congr fun row _ => ?_
  rw [Bool.eq_iff_iff, Bool.not_eq_true', decide_eq_true_iff, ← isGrainliftDriverInfo_iff, Bool.not_eq_true]

theorem emits_emitted (item : Option (Item ρ)) : Emits item (emitted item) := by
  cases item with
  | none => exact .ended
  | some item =>
    cases item with
    | error e => exact .error e
    | ok batch =>
      cases batch with
      | uncoded rows => exact .uncoded rows
      | coded rows =>
        refine .coded rows (kept rows) ?_ (runs_pairwise (by simp)) (kept_flatMap rows)
        intro r hr
        have h := (runs_within (by simp) r hr).2
        rwa [Nat.zero_add] at h

theorem emitted_ne_nil {item : Option (Item ρ)} : emitted item ≠ [] ↔ Shows item := by
  cases item with
  | none => simp [emitted, Shows]
  | some item =>
    cases item with
    | error e => simp [emitted, Shows]
    | ok batch =>
      cases batch with
      | uncoded rows => simp [emitted, Shows]
      | coded rows =>
        simp only [emitted, Shows, ne_eq, List.map_eq_nil_iff]
        constructor
        · intro h
          obtain ⟨r, hr⟩ := List.exists_mem_of_ne_nil _ h
          obtain ⟨-, hpos, hle⟩ := runs_within (by simp) r hr
          have hlen := slice_length (l := rows) (r := r) (by omega)
          obtain ⟨row, hrow⟩ := List.exists_mem_of_length_pos (l := Lib.slice rows r) (by omega)
          have hmem : row ∈ (kept rows).flatMap (Lib.slice rows) := List.mem_flatMap.mpr ⟨r, hr, hrow⟩
          rw [kept_flatMap, List.mem_filter, decide_eq_true_iff] at hmem
          exact ⟨row, hmem.1, hmem.2⟩
        · intro h' h
          obtain ⟨row, hrow, hcode⟩ := h'
          have hmem : row ∈ (kept rows).flatMap (Lib.slice rows) := by
            rw [kept_flatMap, List.mem_filter, decide_eq_true_iff]
            exact ⟨hrow, hcode⟩
          rw [h] at hmem
          cases hmem

/-- The loop over the codes pushes the slices at the runs. -/
theorem splitRuns_runs (batch : InfoBatch ρ) (codes : List UInt32) (index : Nat) (runStart : Option Nat)
    (pending : List (InfoBatch ρ)) (h : index + codes.length = batch.numRows) :
    splitRuns batch codes index runStart pending =
      pending ++ (runs (fun code => !isGrainliftDriverInfo code) codes index runStart).map fun r => batch.slice r.1 r.2 := by
  induction codes generalizing index runStart pending with
  | nil =>
    cases runStart with
    | none => simp [splitRuns, runs]
    | some start => simp [splitRuns, runs, ← h]
  | cons code codes ih =>
    have hnext : index + 1 + codes.length = batch.numRows := by
      rw [List.length_cons] at h
      omega
    cases runStart <;> cases hc : isGrainliftDriverInfo code <;> simp [splitRuns, runs, hc, ih _ _ _ hnext]

theorem splitRuns_kept (rows : List (UInt32 × ρ)) :
    splitRuns (.coded rows) (rows.map Prod.fst) 0 none [] =
      (kept rows).map fun r => (InfoBatch.coded rows).slice r.1 r.2 := by
  rw [splitRuns_runs _ _ _ _ _ (by simp [InfoBatch.numRows]), runs_map, List.nil_append, kept]

example : splitRuns (.coded [(100, "x"), (0, "a"), (1, "b"), (103, "y"), (2, "c")]) [100, 0, 1, 103, 2] 0 none [] =
    [.coded [(0, "a"), (1, "b")], .coded [(2, "c")]] := rfl

/-! ## The calls -/

namespace GrainliftInfoReader

variable {r r' : GrainliftInfoReader ρ} {item : Option (Item ρ)}

/-- What downstream's items from `polled` on become, `n` of them. -/
def taken (downstream : Downstream ρ) (polled n : Nat) : List (Option (Item ρ)) :=
  (List.range n).flatMap fun i => emitted (downstream.items (polled + i))

@[simp] theorem taken_zero (downstream : Downstream ρ) (polled : Nat) : taken downstream polled 0 = [] := rfl

theorem taken_succ (downstream : Downstream ρ) (polled n : Nat) :
    taken downstream polled (n + 1) = emitted (downstream.items polled) ++ taken downstream (polled + 1) n := by
  simp [taken, List.range_succ_eq_map, List.flatMap_map, Nat.add_assoc, Nat.add_comm 1]

theorem taken_add (downstream : Downstream ρ) (m n : Nat) :
    taken downstream 0 (m + n) = taken downstream 0 m ++ taken downstream m n := by
  simp [taken, List.range_add, List.flatMap_append, List.flatMap_map]

theorem round_again (hp : r.pending = []) (he : emitted (r.downstream.items r.polled) = []) :
    r.round = .again { r with polled := r.polled + 1 } := by
  unfold round
  cases hi : r.downstream.items r.polled with
  | none => simp [emitted, hi] at he
  | some item =>
    cases item with
    | error e => simp [emitted, hi] at he
    | ok batch =>
      cases batch with
      | uncoded rows => simp [emitted, hi] at he
      | coded rows =>
        rw [hi, emitted, List.map_eq_nil_iff] at he
        simp only [hp, splitRuns_kept, he, List.map_nil]

theorem round_leave (hg : r.grainliftBatch = none) (hp : r.pending = []) {rest : List (Option (Item ρ))}
    (he : emitted (r.downstream.items r.polled) = item :: rest) :
    ∃ r', r.round = .leave (item, r') ∧ r'.downstream = r.downstream ∧ r'.polled = r.polled + 1 ∧
      r'.waiting = rest := by
  have hnone : ({ r with polled := r.polled + 1 } : GrainliftInfoReader ρ).waiting = [] := by simp [waiting, hg, hp]
  unfold round
  cases hi : r.downstream.items r.polled with
  | none =>
    rw [hi, emitted, List.cons.injEq] at he
    obtain ⟨rfl, rfl⟩ := he
    exact ⟨{ r with polled := r.polled + 1 }, rfl, rfl, rfl, hnone⟩
  | some downstream =>
    cases downstream with
    | error e =>
      rw [hi, emitted, List.cons.injEq] at he
      obtain ⟨rfl, rfl⟩ := he
      exact ⟨{ r with polled := r.polled + 1 }, rfl, rfl, rfl, hnone⟩
    | ok batch =>
      cases batch with
      | uncoded rows =>
        rw [hi, emitted, List.cons.injEq] at he
        obtain ⟨rfl, rfl⟩ := he
        exact ⟨{ r with polled := r.polled + 1 }, rfl, rfl, rfl, hnone⟩
      | coded rows =>
        rw [hi, emitted] at he
        obtain ⟨range, ranges, hk, hitem, hrest⟩ := List.map_eq_cons_iff.mp he
        simp only [hp, splitRuns_kept, hk, List.map_cons, hitem]
        refine ⟨_, rfl, rfl, rfl, ?_⟩
        simp [waiting, hg, ← hrest]

/-- The loop takes items until one shows. -/
theorem leaves_taken {x : Option (Item ρ) × GrainliftInfoReader ρ} (h : Leaves round r x)
    (hg : r.grainliftBatch = none) (hp : r.pending = []) :
    ∃ n, x.2.downstream = r.downstream ∧ x.2.polled = r.polled + n ∧
      taken r.downstream r.polled n = x.1 :: x.2.waiting := by
  induction h with
  | @now r x hr =>
    cases he : emitted (r.downstream.items r.polled) with
    | nil =>
      rw [round_again hp he] at hr
      cases hr
    | cons item rest =>
      obtain ⟨r', hleave, hd, hn, hw⟩ := round_leave hg hp he
      rw [hleave] at hr
      cases hr
      exact ⟨1, hd, hn, by rw [taken_succ, taken_zero, he, List.append_nil, hw]⟩
  | @later r s x hr _ ih =>
    cases he : emitted (r.downstream.items r.polled) with
    | nil =>
      rw [round_again hp he] at hr
      cases hr
      obtain ⟨n, hd, hn, ht⟩ := ih hg hp
      refine ⟨n + 1, hd, by rw [hn, Nat.add_assoc, Nat.add_comm 1], ?_⟩
      rw [taken_succ, he, List.nil_append]
      exact ht
    | cons item rest =>
      obtain ⟨r', hleave, -⟩ := round_leave hg hp he
      rw [hleave] at hr
      cases hr

/-- A call returns the first of what waits, or of what the items it takes become. -/
theorem returns_taken (h : r.Returns item r') :
    ∃ n, r'.downstream = r.downstream ∧ r'.polled = r.polled + n ∧
      r.waiting ++ taken r.downstream r.polled n = item :: r'.waiting := by
  obtain ⟨rounds, h⟩ := h
  cases hg : r.grainliftBatch with
  | some batch =>
    simp only [next, hg, Option.some.injEq, Prod.mk.injEq] at h
    obtain ⟨rfl, rfl⟩ := h
    exact ⟨0, rfl, rfl, by simp [waiting, hg]⟩
  | none =>
    cases hp : r.pending with
    | cons batch pending =>
      simp only [next, hg, hp, Option.some.injEq, Prod.mk.injEq] at h
      obtain ⟨rfl, rfl⟩ := h
      exact ⟨0, rfl, rfl, by simp [waiting, hg, hp]⟩
    | nil =>
      simp only [next, hg, hp] at h
      obtain ⟨n, hd, hn, ht⟩ := leaves_taken (leaves_of_run h) hg hp
      refine ⟨n, hd, hn, ?_⟩
      rw [ht]
      simp [waiting, hg, hp]

theorem reads_taken (h0 : r.polled = 0) {items : List (Option (Item ρ))} (h : Reads r items r') :
    r'.downstream = r.downstream ∧ items ++ r'.waiting = r.waiting ++ taken r.downstream 0 r'.polled := by
  induction h with
  | nil => simp [h0]
  | snoc _ hret ih =>
    obtain ⟨hd, heq⟩ := ih
    obtain ⟨n, hd', hn, ht⟩ := returns_taken hret
    refine ⟨hd'.trans hd, ?_⟩
    rw [hn, taken_add, ← List.append_assoc, ← heq, List.append_assoc, List.append_assoc, ← hd, ht]
    rfl

theorem leaves_of_shows (hg : r.grainliftBatch = none) (hp : r.pending = []) {n : Nat}
    (h : Shows (r.downstream.items (r.polled + n))) : ∃ x, Leaves round r x := by
  induction n generalizing r with
  | zero =>
    cases he : emitted (r.downstream.items r.polled) with
    | nil => exact absurd he (emitted_ne_nil.mpr h)
    | cons item rest =>
      obtain ⟨r', hleave, -⟩ := round_leave hg hp he
      exact ⟨_, .now hleave⟩
  | succ n ih =>
    cases he : emitted (r.downstream.items r.polled) with
    | nil =>
      have hshow : Shows (r.downstream.items (r.polled + 1 + n)) := by rwa [Nat.add_assoc, Nat.add_comm 1]
      obtain ⟨x, hx⟩ := ih (r := { r with polled := r.polled + 1 }) hg hp hshow
      exact ⟨x, .later (round_again hp he) hx⟩
    | cons item rest =>
      obtain ⟨r', hleave, -⟩ := round_leave hg hp he
      exact ⟨_, .now hleave⟩

theorem returns_iff : (∃ item r', r.Returns item r') ↔
    r.waiting ≠ [] ∨ ∃ n, r.polled ≤ n ∧ Shows (r.downstream.items n) := by
  constructor
  · intro h
    obtain ⟨item, r', h⟩ := h
    obtain ⟨n, -, -, ht⟩ := returns_taken h
    cases hw : r.waiting with
    | cons item rest => exact .inl (by simp)
    | nil =>
      rw [hw, List.nil_append] at ht
      have hmem : item ∈ taken r.downstream r.polled n := by
        rw [ht]
        exact List.mem_cons_self
      obtain ⟨i, -, hi⟩ := List.mem_flatMap.mp hmem
      exact .inr ⟨r.polled + i, by omega, emitted_ne_nil.mp (List.ne_nil_of_mem hi)⟩
  · intro h
    cases hg : r.grainliftBatch with
    | some batch =>
      refine ⟨some (.ok batch), { r with grainliftBatch := none }, 0, ?_⟩
      simp only [next, hg]
    | none =>
      cases hp : r.pending with
      | cons batch pending =>
        refine ⟨some (.ok batch), { r with pending := pending }, 0, ?_⟩
        simp only [next, hg, hp]
      | nil =>
        rcases h with h | ⟨n, hn, h⟩
        · simp [waiting, hg, hp] at h
        · obtain ⟨k, rfl⟩ := Nat.exists_eq_add_of_le hn
          obtain ⟨x, hx⟩ := leaves_of_shows hg hp h
          obtain ⟨rounds, hrun⟩ := run_of_leaves hx
          exact ⟨x.1, x.2, rounds, by simp only [next, hg, hp, hrun]⟩

end GrainliftInfoReader

open GrainliftInfoReader

/-! ## The driver's batch -/

theorem infoColumns_infoNames (codes : Option (Finset UInt32)) :
    (infoColumns codes).infoNames = driverCodes.filter fun code => Requested codes code := by
  unfold infoColumns driverCodes
  by_cases h0 : Requested codes driverName <;> by_cases h1 : Requested codes driverVersion <;>
    by_cases h2 : Requested codes driverArrowVersion <;> by_cases h3 : Requested codes driverAdbcVersion <;>
      simp [h0, h1, h2, h3, InfoColumns.addString, InfoColumns.addInteger]

/-- Either none of its codes was asked for and there is none, or it was built of those that were. -/
theorem grainliftInfoBatch_ok {tryNew : TryNew ρ} {codes : Option (Finset UInt32)} {schema : InfoSchema}
    {batch : Option (InfoBatch ρ)} (h : grainliftInfoBatch tryNew codes schema = .ok batch) :
    ((infoColumns codes).infoNames = [] ∧ batch = none) ∨
    ((infoColumns codes).infoNames ≠ [] ∧ ∃ typeIds offsets children b, batch = some b ∧
      tryNew schema (infoColumns codes).infoNames typeIds offsets children = .ok b) := by
  unfold grainliftInfoBatch at h
  by_cases he : (infoColumns codes).infoNames.isEmpty = true
  · rw [if_pos he] at h
    cases h
    exact .inl ⟨List.isEmpty_iff.mp he, rfl⟩
  · rw [if_neg he] at h
    refine .inr ⟨mt List.isEmpty_iff.mpr he, ?_⟩
    cases hv : schema.value with
    | other =>
      rw [hv] at h
      cases h
    | union fields mode =>
      simp only [hv] at h
      cases ht : tryNew schema (infoColumns codes).infoNames (infoColumns codes).typeIds
          (if mode = .dense then some (infoColumns codes).offsets else none)
          (fields.map fun f => (infoColumns codes).child mode f.1 f.2) with
      | error e =>
        rw [ht] at h
        cases h
      | ok b =>
        rw [ht] at h
        cases h
        exact ⟨_, _, _, b, rfl, ht⟩

theorem infoNames_ne_nil {codes : Option (Finset UInt32)} :
    (infoColumns codes).infoNames ≠ [] ↔ ∃ code ∈ driverCodes, Requested codes code := by
  rw [infoColumns_infoNames]
  simp [List.filter_eq_nil_iff]

/-- There is one exactly if one of its codes was asked for. -/
theorem grainliftInfoBatch_isSome {tryNew : TryNew ρ} {codes : Option (Finset UInt32)} {schema : InfoSchema}
    {batch : Option (InfoBatch ρ)} (h : grainliftInfoBatch tryNew codes schema = .ok batch) :
    batch.isSome ↔ ∃ code ∈ driverCodes, Requested codes code := by
  rw [← infoNames_ne_nil]
  rcases grainliftInfoBatch_ok h with ⟨hnames, rfl⟩ | ⟨hnames, _, _, _, b, rfl, -⟩
  · simp [hnames]
  · simp [hnames]

/-- A row for each code that was asked for. -/
theorem grainliftInfoBatch_rows {tryNew : TryNew ρ} (hlawful : tryNew.Lawful) {codes : Option (Finset UInt32)}
    {schema : InfoSchema} {batch : InfoBatch ρ} (h : grainliftInfoBatch tryNew codes schema = .ok (some batch)) :
    batch.numRows = (driverCodes.filter fun code => Requested codes code).length ∧ 0 < batch.numRows ∧
    (schema.first = "info_name" →
      ∃ rows, batch = .coded rows ∧ rows.map Prod.fst = driverCodes.filter fun code => Requested codes code) := by
  rcases grainliftInfoBatch_ok h with ⟨-, hnone⟩ | ⟨hnames, typeIds, offsets, children, b, hb, htry⟩
  · cases hnone
  · cases hb
    obtain ⟨hrows, hcodes⟩ := hlawful _ _ _ _ _ _ htry
    refine ⟨?_, ?_, ?_⟩
    · rw [hrows, infoColumns_infoNames]
    · rw [hrows]
      exact List.length_pos_iff.mpr hnames
    · rw [← infoColumns_infoNames]
      exact hcodes

/-- No slice is empty. -/
theorem emitted_numRows {item : Option (Item ρ)} {batch : InfoBatch ρ} (h : some (.ok batch) ∈ emitted item) :
    0 < batch.numRows := by
  match item with
  | none => simp [emitted] at h
  | some (.error e) => simp [emitted] at h
  | some (.ok (.uncoded rows)) => simp [emitted] at h
  | some (.ok (.coded rows)) =>
    obtain ⟨r, hr, heq⟩ := List.mem_map.mp h
    cases heq
    obtain ⟨-, hpos, hle⟩ := runs_within (by simp) r hr
    have hlen := slice_length (l := rows) (r := r) (by omega)
    show 0 < (Lib.slice rows r).length
    omega

/-- What `get_info`'s reader returns, call by call, for any set of codes and any stream from
    the server: the driver's batch of the codes asked for, then the server's rows less those
    with a driver code, none lost and no empty batch; and when a call returns at all. -/
theorem info_merging (tryNew : TryNew ρ) (hlawful : tryNew.Lawful)
    (call : Option (Finset UInt32) → Except AdbcError (Downstream ρ))
    (codes : Option (Finset UInt32)) (reader : GrainliftInfoReader ρ) (h : getInfo tryNew call codes = .ok reader) :
    (reader.grainliftBatch.isSome ↔ ∃ code ∈ driverCodes, Requested codes code) ∧
    (∀ batch, reader.grainliftBatch = some batch →
      batch.numRows = (driverCodes.filter fun code => Requested codes code).length ∧
      (reader.schema.first = "info_name" →
        ∃ rows, batch = .coded rows ∧ rows.map Prod.fst = driverCodes.filter fun code => Requested codes code)) ∧
    (∃ parts : Nat → List (Option (Item ρ)), (∀ i, Emits (reader.downstream.items i) (parts i)) ∧
      ∀ items r, Reads reader items r →
        items ++ r.waiting =
          (reader.grainliftBatch.toList.map fun batch => some (.ok batch)) ++ (List.range r.polled).flatMap parts) ∧
    (∀ items r, Reads reader items r → ∀ batch, some (.ok batch) ∈ items → 0 < batch.numRows) ∧
    ∀ items r, Reads reader items r →
      ((∃ item r', r.Returns item r') ↔ r.waiting ≠ [] ∨ ∃ n, r.polled ≤ n ∧ Shows (reader.downstream.items n)) := by
  obtain ⟨downstream, -, h⟩ := bind_eq_ok h
  obtain ⟨grainlift, hgrainlift, h⟩ := bind_eq_ok h
  cases h
  refine ⟨grainliftInfoBatch_isSome hgrainlift, ?_, ⟨fun i => emitted (downstream.items i), fun i => emits_emitted _, ?_⟩,
    ?_, ?_⟩
  · rintro batch rfl
    obtain ⟨hrows, -, hcodes⟩ := grainliftInfoBatch_rows hlawful hgrainlift
    exact ⟨hrows, hcodes⟩
  · intro items r hr
    rw [(reads_taken rfl hr).2]
    simp [waiting, taken]
  · intro items r hr batch hbatch
    have hmem := List.mem_append_left r.waiting hbatch
    rw [(reads_taken rfl hr).2] at hmem
    -- it is the driver's own or a slice of an item that was taken
    rcases List.mem_append.mp hmem with hown | htaken
    · rw [waiting, List.append_nil] at hown
      obtain ⟨own, hown, heq⟩ := List.mem_map.mp hown
      cases heq
      have hsome := hgrainlift.trans (congrArg Except.ok (Option.mem_toList.mp hown))
      exact (grainliftInfoBatch_rows hlawful hsome).2.1
    · obtain ⟨i, -, hi⟩ := List.mem_flatMap.mp htaken
      exact emitted_numRows hi
  · intro items r hr
    rw [returns_iff, (reads_taken rfl hr).1]

/-- A server that answers driver codes between its own. -/
def mixedRows : List (UInt32 × String) := [(100, "x"), (0, "a"), (1, "b"), (103, "y"), (2, "c")]

def mixed : Downstream String where
  schema := ⟨"info_name", .union [(0, "Utf8"), (2, "Int64")] .dense⟩
  items n := if n = 0 then some (.ok (.coded mixedRows)) else none

/-- The driver's batch by its codes. -/
def codesOnly : TryNew String := fun schema infoNames _ _ _ =>
  if schema.first = "info_name" then .ok (.coded (infoNames.map fun code => (code, "")))
  else .ok (.uncoded (infoNames.map fun _ => ""))

theorem codesOnly_lawful : codesOnly.Lawful := by
  intro schema infoNames typeIds offsets children batch h
  unfold codesOnly at h
  by_cases hfirst : schema.first = "info_name"
  · rw [if_pos hfirst] at h
    cases h
    exact ⟨List.length_map _, fun _ => ⟨_, rfl, by simp [Function.comp_def]⟩⟩
  · rw [if_neg hfirst] at h
    cases h
    exact ⟨List.length_map _, fun h => absurd h hfirst⟩

theorem info_merging_mixed : ∃ reader, getInfo codesOnly (fun _ => .ok mixed) (some {driverName, 0}) = .ok reader ∧
    (∃ rows, reader.grainliftBatch = some (.coded rows) ∧ rows.map Prod.fst = [driverName]) ∧
    (∃ item r, reader.Returns item r) ∧
    ∃ parts, Emits (some (.ok (.coded mixedRows))) parts ∧
      ∀ items r, Reads reader items r → (∀ batch, some (.ok batch) ∈ items → 0 < batch.numRows) ∧
        (r.polled = 1 →
          items ++ r.waiting = (reader.grainliftBatch.toList.map fun batch => some (.ok batch)) ++ parts) := by
  refine ⟨⟨some (.coded [(driverName, "")]), mixed, 0, [], mixed.schema⟩, rfl, ?_⟩
  obtain ⟨-, hbatch, ⟨parts, hemits, hitems⟩, hrows, hreturns⟩ := info_merging codesOnly codesOnly_lawful
    (fun _ => .ok mixed) (some {driverName, 0}) ⟨some (.coded [(driverName, "")]), mixed, 0, [], mixed.schema⟩ rfl
  refine ⟨?_, (hreturns [] _ .nil).mpr (.inl (by simp [waiting])), parts 0, hemits 0, ?_⟩
  · obtain ⟨rows, heq, hcodes⟩ := (hbatch _ rfl).2 rfl
    exact ⟨rows, congrArg some heq, hcodes.trans (by decide)⟩
  · intro items r hr
    refine ⟨hrows items r hr, ?_⟩
    intro hpolled
    rw [hitems items r hr, hpolled]
    simp

end Grainlift.Client.Info
