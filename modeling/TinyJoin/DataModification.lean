import TinyJoin.ChangeReport
import TinyJoin.Expressions
import TinyJoin.Lexer
import TinyJoin.RecordUpdate

/-! What planning a data modification reads and keeps: rows as a visit presents them, the budgets that
it is charged to, and the plan that it hands over to a writer. -/
namespace TinyJoin

def maxDmlChangedRows : Nat := 100000
def maxDmlWorkBytes : Nat := 16 * 1024 * 1024
def maxDmlResultBytes : Nat := 16 * 1024 * 1024
def dmlChangeRetainedBytes : Nat := 96
def maxKeptRowBytes : Nat := 8 * 1024 * 1024

def dmlLimitError (message : String) : EngineError := ⟨"RESOURCE_LIMIT", message⟩

def dmlChangedRowsError : EngineError :=
  dmlLimitError s!"A data-modification statement cannot change more than {maxDmlChangedRows} rows"

/-- The failure of a statement that would leave two rows of a table with one primary key. -/
def duplicatePrimaryKey (statement table : String) : EngineError :=
  .constraintViolation s!"{statement} `{table}` would duplicate a primary key"

def ensureDmlWorkBytes (bytes : Nat) : Result Unit :=
  if bytes > maxDmlWorkBytes then
    .error (dmlLimitError
      s!"A data-modification statement cannot retain more than {maxDmlWorkBytes} bytes of working state")
  else .ok ()

def retainDmlChange (current : Nat) (table : String) : Result Nat := do
  let next := current + (textLength table + dmlChangeRetainedBytes)
  ensureDmlWorkBytes next
  return next

/-- Whether a row can be kept beside those kept so far, and what is kept with it if so. -/
def keptFits (kept bytes : Nat) : Bool × Nat :=
  if kept + bytes ≤ maxKeptRowBytes then (true, kept + bytes) else (false, kept)

/-! ### Columns -/

def columnDefinition (schema : TableDefinition) (column table : String) :
    Result ColumnDefinition :=
  match schema.columns.find? (fun definition => definition.name == column) with
  | some definition => .ok definition
  | none => .error (.columnNotFound column table)

def columnDefault (schema : TableDefinition) (name : String) : Result Value :=
  match schema.columns.find? (fun column => column.name == name) with
  | some column => .ok (column.default.getD .null)
  | none => .error (.columnNotFound name schema.name)

def validateNamedFrom (schema : TableDefinition) : List String → List String → Result Unit
  | _, [] => .ok ()
  | before, column :: columns =>
    if column ∈ before then
      .error (.invalidQuery s!"Column `{column}` is named more than once")
    else do
      let _ ← columnDefinition schema column schema.name
      validateNamedFrom schema (column :: before) columns

def validateNamedColumns (schema : TableDefinition) (columns : List String) : Result Unit :=
  validateNamedFrom schema [] columns

def validateProjection (schema : TableDefinition) : Option (List String) → Result Unit
  | some columns => validateNamedColumns schema columns
  | none => .ok ()

def rowColumn (row : RowMap) (column table : String) : Result Value :=
  match row.row column with
  | some value => .ok value
  | none => .error (.columnNotFound column table)

/-! ### Rows -/

/-- The map of a row's columns. -/
def rowMap (schema : TableDefinition) (row : Row) : RowMap :=
  ⟨schema.columns.filterMap (fun column => (row column.name).map (fun value => (column.name, value)))⟩

def primaryKeyEntries (schema : TableDefinition) (row : RowMap) :
    List String → Result (List (String × Value))
  | [] => .ok []
  | column :: columns =>
    match row.row column with
    | some value => do return (column, value) :: (← primaryKeyEntries schema row columns)
    | none => .error (.invalidChange
        s!"Row for `{schema.name}` is missing primary-key column `{column}`")

def primaryKeyRow (schema : TableDefinition) (row : RowMap) : Result RowMap := do
  return ⟨← primaryKeyEntries schema row schema.primaryKey⟩

/-- A row as a visitor reads it, whole. -/
inductive RowRef where
  | map (row : RowMap)
  | record (record : StoredRecord)

section Rows
variable (json : SerdeJson)

namespace RowRef

def stored : RowRef → Option StoredRecord
  | .map _ => none
  | .record entry => some entry

def toRow (schema : TableDefinition) : RowRef → Result RowMap
  | .map row => .ok row
  | .record entry => do return rowMap schema (← entry.toRow json)

def hold : RowRef → HeldRow
  | .map row => .map row
  | .record entry => .stored entry.key entry.value

def heldBytes : RowRef → Result Nat
  | .map row => estimatedRowBytes row
  | .record entry => .ok (entry.key.length + entry.value.length)

def encodedKey (schema : TableDefinition) : RowRef → Result (List UInt8)
  | .map row => encodePrimaryKey schema row.row
  | .record entry => .ok entry.key

end RowRef

/-- What the map of a stored row's primary-key columns is estimated at. -/
def estimatedKeyBytes (record : StoredRecord) : Result Nat :=
  match record.layout.keyEstimates record.schema with
  | some (bytes, _) => .ok bytes
  | none => do
    estimatedRowBytes (keyRowMap record.schema (← record.layout.keyRow record.schema record.key))

def returnedColumnsBytes (row : RowMap) : Nat → List String → Result Nat
  | bytes, [] => .ok bytes
  | bytes, column :: columns => do
    let value ← rowColumn row column "RETURNING"
    let estimate ← estimatedValueBytes json value
    returnedColumnsBytes row (bytes + 64 + textLength column * 2 + estimate * 2) columns

/-- What the rows that a statement returns take, with one more of them. -/
def retainReturnedRow (current : Nat) (row : RowMap) (columns : List String) : Result Nat := do
  let bytes ← if columns.isEmpty then estimatedRowBytes row
    else returnedColumnsBytes json row 32 columns
  let next := current + bytes
  if next > maxDmlResultBytes then
    .error (dmlLimitError ("A data-modification statement cannot materialize more than " ++
      s!"{maxDmlResultBytes} bytes of RETURNING results"))
  else return next

end Rows

def projectColumns (row : RowMap) (table : String) : List String → Result (List (String × Value))
  | [] => .ok []
  | column :: columns => do
    let value ← rowColumn row column table
    return (column, value) :: (← projectColumns row table columns)

/-- The columns that RETURNING names, or all of them where it is `*`. -/
def projectReturningRow (row : RowMap) (columns : List String) (table : String) : Result RowMap :=
  if columns.isEmpty then .ok row else do return ⟨← projectColumns row table columns⟩

/-! ### Reading a table -/

/-- What planning reads beside a table's definition: the lengths that its TEXT columns are held to, and
whether a row holds the primary key of a map. -/
structure DmlReader extends StorageReader where
  textLimits : String → TextLimits
  holdsPrimaryKey : String → RowMap → Result Bool

/-- A visit of the rows that a statement's predicate accepts: those it presents, in order, and the
error that it ends with, if it does not come to the end of them. -/
structure Visit where
  rows : List RowRef
  failure : Option EngineError

/-- The loop over a visit's rows, of which `step` makes what it can. -/
def Visit.fold {σ : Type} (visit : Visit) (step : σ → RowRef → Result σ) (s : σ) : Result σ := do
  let s ← visit.rows.foldlM step s
  match visit.failure with
  | some error => .error error
  | none => return s

/-! ### Plans -/

structure WriteOutcome where
  command : String
  rowCount : Nat
  rows : List RowMap
  tables : List String
  mutated : Bool

structure PlannedDml where
  outcome : WriteOutcome
  changes : List RowChange
  /-- For each change, what its key held before the statement, where planning read it. -/
  previous : List PreviousRow
  /-- Each row moved to a new primary key: the change deleting it from its old key, and the change
  writing it at its new one, by position. -/
  moved : List (Nat × Nat)

end TinyJoin
