/-
  Grainlift.Protocol.Values — the values that cross the wire and the driver boundary:
  ADBC statuses and errors, protocol and RPC errors (`grainlift-protocol/src/lib.rs`,
  `adbc_core`), Arrow schemas and record batches as far as the proxy reads them, and
  record batch readers.

  A record batch is its schema, its columns and its row count; a column holds one value
  or null per row, and `wf` says that column types are the schema's and that every
  column has one entry per row, so an ill-formed batch cannot be built. A column type
  the proxy never looks into is `other`, its values by their bytes.

  A reader is the sequence of what its `next` calls yield (`items`; errors already
  through `AdbcError::from`) and how often it was polled. Nothing is assumed of `items`
  past the first error or end, so any behaviour of a driver's reader along a run is
  some `items`.
-/

namespace Grainlift.Protocol

abbrev Bytes := List UInt8

/-! ## Errors -/

inductive Status where
  | ok
  | unknown
  | notImplemented
  | notFound
  | alreadyExists
  | invalidArguments
  | invalidState
  | invalidData
  | integrity
  | internal
  | io
  | cancelled
  | timeout
  | unauthenticated
  | unauthorized
  deriving DecidableEq, Repr

structure AdbcError where
  message : String
  status : Status
  vendorCode : Int
  sqlstate : Bytes
  details : Option (List (String × Bytes))
  deriving DecidableEq, Repr

/-- The tables of the standard library by which `Debug` prints a character past ASCII. -/
structure Unicode where
  isGraphemeExtended : Char → Bool
  isPrintable : Char → Bool

/-- Tables for texts in ASCII. -/
def Unicode.ascii : Unicode := ⟨fun _ => false, fun _ => true⟩

/-- `base64::engine::general_purpose::STANDARD`; a text that is not base64 by the message of
    its error. -/
structure Base64 where
  encode : Bytes → String
  decode : String → Except String Bytes

def AdbcError.withMessageAndStatus (message : String) (status : Status) : AdbcError :=
  ⟨message, status, 0, [0, 0, 0, 0, 0], none⟩

inductive ProtocolError where
  | missingColumn (name : String)
  | wrongType (name expected : String)
  | rowCount (rows : Nat)
  | null (name : String)
  | optionsJson (message : String)
  | arrow (message : String)
  | invalidSchemaMessage
  | invalidWire (message : String)
  deriving DecidableEq, Repr

/-- `adbc` is `adbc_rpc_error`, `protocol` is `protocol_rpc_error`. -/
inductive RpcError where
  | adbc (e : AdbcError)
  | protocol (e : ProtocolError)
  | value (message : String)
  | version (message : String)
  | unauthenticated
  deriving DecidableEq, Repr

/-- What a sequence of fallible steps returns came from each of them. -/
theorem bind_eq_ok {ε α β : Type} {x : Except ε α} {f : α → Except ε β} {b : β} (h : (x >>= f) = .ok b) :
    ∃ a, x = .ok a ∧ f a = .ok b := by
  cases x with
  | error e => cases h
  | ok a => exact ⟨a, rfl, h⟩

theorem mapError_of_ok {ε δ α : Type} (f : ε → δ) (a : α) : (Except.ok a : Except ε α).mapError f = .ok a := rfl

theorem mapError_eq_ok {ε δ α : Type} {r : Except ε α} {f : ε → δ} {a : α} : r.mapError f = .ok a ↔ r = .ok a := by
  cases r with
  | ok b => rw [mapError_of_ok, Except.ok.injEq, Except.ok.injEq]
  | error e =>
    refine ⟨?_, ?_⟩
    · intro h
      cases h
    · intro h
      cases h

/-! ## Option values -/

/-- Doubles by their bits. -/
inductive OptionValue where
  | string (v : String)
  | bytes (v : Bytes)
  | int (v : Int64)
  | double (bits : UInt64)
  deriving DecidableEq

/-! ## Arrow -/

inductive DataType where
  | boolean
  | int64
  | utf8
  | binary
  | other (description : String)
  deriving DecidableEq, Repr

/-- Metadata in the order of its keys, so that equal maps are equal lists. -/
structure Field where
  name : String
  dataType : DataType
  nullable : Bool
  metadata : List (String × String)
  deriving DecidableEq, Repr

structure Schema where
  fields : List Field
  metadata : List (String × String)
  deriving DecidableEq, Repr

inductive Column where
  | boolean (rows : List (Option Bool))
  | int64 (rows : List (Option Int64))
  | utf8 (rows : List (Option String))
  | binary (rows : List (Option Bytes))
  | other (description : String) (rows : List (Option Bytes))
  deriving DecidableEq

def Column.dataType : Column → DataType
  | .boolean _ => .boolean
  | .int64 _ => .int64
  | .utf8 _ => .utf8
  | .binary _ => .binary
  | .other d _ => .other d

def Column.length : Column → Nat
  | .boolean r => r.length
  | .int64 r => r.length
  | .utf8 r => r.length
  | .binary r => r.length
  | .other _ r => r.length

structure RecordBatch where
  schema : Schema
  columns : List Column
  numRows : Nat
  wf : columns.map Column.dataType = schema.fields.map Field.dataType ∧ ∀ c ∈ columns, c.length = numRows
  deriving DecidableEq

/-- The column of the first field of that name. -/
def RecordBatch.columnByName (b : RecordBatch) (name : String) : Option Column :=
  ((b.schema.fields.zip b.columns).find? fun fc => fc.1.name == name).map (·.2)

structure Reader where
  schema : Schema
  items : Nat → Option (Except AdbcError RecordBatch)
  polled : Nat

/-- One poll: the item at the reader's position, and the reader past it. -/
def Reader.next (r : Reader) : Option (Except AdbcError RecordBatch) × Reader :=
  (r.items r.polled, { r with polled := r.polled + 1 })

@[simp] theorem Reader.next_polled (r : Reader) : r.next.2.polled = r.polled + 1 := rfl
@[simp] theorem Reader.next_items (r : Reader) : r.next.2.items = r.items := rfl

end Grainlift.Protocol
