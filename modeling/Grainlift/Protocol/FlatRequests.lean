/-
  Grainlift.Protocol.FlatRequests — requests of one row whose columns are their arguments
  (grainlift-protocol/src/lib.rs, adbc-driver-grainlift/src/lib.rs).

  The schemas of these requests are their columns: a name, a type, never null. The client
  builds the row, the server reads the columns it wants by name.

  Proved: what is read under a name is what was put there (`stringValue_oneRow`,
  `binaryValue_oneRow`, `int64Value_oneRow`).
-/

import Grainlift.Protocol.Wire

namespace Grainlift.Protocol

inductive Cell where
  | text (v : String)
  | bytes (v : Bytes)
  | int64 (v : Int64)

def Cell.column : Cell → Column
  | .text v => .utf8 [some v]
  | .bytes v => .binary [some v]
  | .int64 v => .int64 [some v]

def Cell.field (name : String) (c : Cell) : Field := ⟨name, c.column.dataType, false, []⟩

/-- `RecordBatch::try_new` at one row: the columns are those of the schema. -/
def oneRow (cells : List (String × Cell)) : RecordBatch where
  schema := ⟨cells.map fun c => c.2.field c.1, []⟩
  columns := cells.map fun c => c.2.column
  numRows := 1
  wf := by
    refine ⟨by simp [Cell.field, Function.comp_def], ?_⟩
    intro c hc
    obtain ⟨⟨_, cell⟩, -, rfl⟩ := List.mem_map.mp hc
    cases cell <;> rfl

def sessionRequest (sessionId : String) : RecordBatch := oneRow [("session_id", .text sessionId)]

def statementRequest (sessionId statementId : String) : RecordBatch :=
  oneRow [("session_id", .text sessionId), ("statement_id", .text statementId)]

def connectionBinaryRequest (sessionId : String) (payload : Bytes) : RecordBatch :=
  oneRow [("session_id", .text sessionId), ("payload", .bytes payload)]

def connectionOptionKeyRequest (sessionId key valueType : String) : RecordBatch :=
  oneRow [("session_id", .text sessionId), ("key", .text key), ("value_type", .text valueType)]

def statementOptionKeyRequest (sessionId statementId key valueType : String) : RecordBatch :=
  oneRow [("session_id", .text sessionId), ("statement_id", .text statementId), ("key", .text key),
    ("value_type", .text valueType)]

def setSqlRequest (sessionId statementId sql : String) : RecordBatch :=
  oneRow [("session_id", .text sessionId), ("statement_id", .text statementId), ("sql", .text sql)]

def statementBinaryRequest (sessionId statementId : String) (payload : Bytes) : RecordBatch :=
  oneRow [("session_id", .text sessionId), ("statement_id", .text statementId), ("payload", .bytes payload)]

def resultRequest (sessionId resultId : String) : RecordBatch :=
  oneRow [("session_id", .text sessionId), ("result_id", .text resultId)]

def readResultRequest (sessionId resultId : String) (sequence : Int64) : RecordBatch :=
  oneRow [("session_id", .text sessionId), ("result_id", .text resultId), ("sequence", .int64 sequence)]

def bindInitRequest (sessionId statementId : String) (schemaIpc : Bytes) : RecordBatch :=
  oneRow [("session_id", .text sessionId), ("statement_id", .text statementId), ("schema_ipc", .bytes schemaIpc)]

/-! ## Reading -/

section

variable {cells : List (String × Cell)} {name : String}

/-- The argument of that name. -/
def argument (cells : List (String × Cell)) (name : String) : Option Cell :=
  (cells.find? fun c => c.1 == name).map Prod.snd

theorem columnByName_oneRow (cells : List (String × Cell)) (name : String) :
    (oneRow cells).columnByName name = (argument cells name).map Cell.column := by
  unfold RecordBatch.columnByName oneRow argument
  simp only [List.zip_map', List.find?_map, Option.map_map]
  rfl

/-- The reading functions differ in the array they take and in its name. -/
theorem columnValue_oneRow {α : Type} {expected : String} {downcast : Column → Option (List (Option α))} {cell : Cell}
    {v : α} (h : argument cells name = some cell) (hd : downcast cell.column = some [some v]) :
    columnValue expected downcast (oneRow cells) name = .ok v := by
  have hrows : requireOneRow (oneRow cells) = .ok () := rfl
  unfold columnValue
  rw [hrows, columnByName_oneRow, h, Option.map_some]
  simp only [bind, Except.bind, hd]
  rfl

theorem stringValue_oneRow {v : String} (h : argument cells name = some (.text v)) :
    stringValue (oneRow cells) name = .ok v := columnValue_oneRow h rfl

theorem binaryValue_oneRow {v : Bytes} (h : argument cells name = some (.bytes v)) :
    binaryValue (oneRow cells) name = .ok v := columnValue_oneRow h rfl

theorem int64Value_oneRow {v : Int64} (h : argument cells name = some (.int64 v)) :
    int64Value (oneRow cells) name = .ok v := columnValue_oneRow h rfl

end

end Grainlift.Protocol
