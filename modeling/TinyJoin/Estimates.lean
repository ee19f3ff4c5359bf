import TinyJoin.RecordCodec

/-! The estimates and checks a write set is measured by: a row as a map, as a stored record, and as
a paged batch holds it, and the keys it would add to its table's indexes. Sizes are far below what
a machine word holds, so a sum of them is a sum of natural numbers. -/
namespace TinyJoin

def maxRowWriteChanges : Nat := 200000
def maxRowWriteBytes : Nat := 16 * 1024 * 1024
def maxPagedBatchOperations : Nat := 1000000
def maxPagedBatchBytes : Nat := 16 * 1024 * 1024

def EngineError.tableNotFound (table : String) : EngineError :=
  ⟨"TABLE_NOT_FOUND", s!"Table `{table}` is not defined"⟩
def EngineError.columnNotFound (column table : String) : EngineError :=
  ⟨"COLUMN_NOT_FOUND", s!"Column `{column}` does not exist in table `{table}`"⟩
def EngineError.constraintViolation (message : String) : EngineError :=
  ⟨"CONSTRAINT_VIOLATION", message⟩
def EngineError.invalidChange (message : String) : EngineError := ⟨"INVALID_CHANGE", message⟩
def EngineError.typeMismatch (message : String) : EngineError := ⟨"TYPE_MISMATCH", message⟩

def rowWriteLimitError (message : String) : EngineError := ⟨"RESOURCE_LIMIT", message⟩
def rowWriteTooLarge : EngineError :=
  ⟨"TRANSACTION_TOO_LARGE", s!"A row write-set cannot retain more than {maxRowWriteBytes} bytes"⟩
def batchTooLarge : EngineError :=
  ⟨"TRANSACTION_TOO_LARGE", s!"A paged batch cannot retain more than {maxPagedBatchBytes} bytes"⟩
def operationLimit : EngineError :=
  ⟨"TRANSACTION_TOO_LARGE", "A paged batch cannot require more than " ++
    s!"{maxPagedBatchOperations} row, index, and catalog operations"⟩

/-- The length of a text in bytes. -/
def textLength (s : String) : Nat := (textBytes s).length

/-- A row as planning makes it: a map, whose entries an estimate counts one by one. -/
structure RowMap where
  entries : List (String × Value)

def RowMap.row (map : RowMap) : Row := fun name => map.entries.lookup name

/-! ### A row's estimated bytes -/

/-- An estimate at a depth JSON may nest to. -/
def estimatedScalar (depth bytes : Nat) : Result Nat :=
  if depth > maxJsonDepth then
    .error (rowWriteLimitError s!"JSON cannot nest more than {maxJsonDepth} levels")
  else .ok bytes

mutual
def estimatedValueBytesAtDepth (depth : Nat) : Value → Result Nat
  | .null => estimatedScalar depth 16
  | .bool _ => estimatedScalar depth 16
  | .number _ => estimatedScalar depth 16
  | .string s => estimatedScalar depth (24 + textLength s)
  | .array values =>
    if depth > maxJsonDepth then estimatedScalar depth 0 else estimatedElements depth 32 values
  | .object entries =>
    if depth > maxJsonDepth then estimatedScalar depth 0 else estimatedEntries depth 32 entries

def estimatedElements (depth bytes : Nat) : List Value → Result Nat
  | [] => .ok bytes
  | value :: values => do
    let estimate ← estimatedValueBytesAtDepth (depth + 1) value
    estimatedElements depth (bytes + 32 + estimate) values

def estimatedEntries (depth bytes : Nat) : List (String × Value) → Result Nat
  | [] => .ok bytes
  | (key, value) :: entries => do
    let estimate ← estimatedValueBytesAtDepth (depth + 1) value
    estimatedEntries depth (bytes + 64 + textLength key * 2 + estimate) entries
end

def estimatedRowBytesFrom (bytes : Nat) : List (String × Value) → Result Nat
  | [] => .ok bytes
  | (name, value) :: entries => do
    let estimate ← estimatedValueBytesAtDepth 1 value
    estimatedRowBytesFrom (bytes + 64 + textLength name * 2 + estimate * 2) entries

def estimatedRowBytes (row : RowMap) : Result Nat := estimatedRowBytesFrom 32 row.entries

/-- What every row of a schema is estimated at while its values are scalars. -/
def scalarEstimate (schema : TableDefinition) : Nat :=
  schema.columns.foldl (fun bytes column => bytes + 96 + textLength column.name * 2) 32

/-- The columns whose values take more than a scalar by their lengths. -/
def sizedColumns (schema : TableDefinition) : List Nat :=
  (schema.columns.zipIdx.filter (fun column =>
    decide (column.1.dataType = .text) || decide (column.1.dataType = .json))).map Prod.snd

/-- What the map of a primary key's columns takes, by a row's estimate and by a paged batch's, when
no key column holds text or JSON. -/
def RecordLayout.keyEstimates (layout : RecordLayout) (schema : TableDefinition) :
    Option (Nat × Nat) :=
  if layout.keyTypes.any (fun dataType => dataType = .text || dataType = .json) then none
  else some
    (schema.primaryKey.foldl (fun bytes name => bytes + 96 + textLength name * 2) 32,
      (schema.primaryKey.zip layout.keyTypes).foldl (fun bytes column =>
        bytes + 6 * textLength column.1 + 64 + (if column.2 = .boolean then 8 else 32)) 64)

/-- The map of a primary key's columns, in place of the row it decodes to. -/
def keyRowMap (schema : TableDefinition) (row : Row) : RowMap :=
  ⟨schema.primaryKey.filterMap (fun name => (row name).map (fun value => (name, value)))⟩

namespace StoredRecord
variable (json : SerdeJson)

/-- The length of the TEXT column at `index`, or `none` for NULL. -/
def textLen (record : StoredRecord) (index : Nat) : Result (Option Nat) :=
  let read : Result (Option Nat) := do
    match ← record.column json index with
    | .text s => return some (textLength s)
    | _ => return none
  match record.layout.slots[index]? with
  | some (.stored position) =>
    if position < record.count then do
      return (← record.storedBytes position).map List.length
    else read
  | _ => read
end StoredRecord

def ValueRef.ownedBytes (estimate : Value → Result Nat) : ValueRef → Result Nat
  | .text s => .ok (24 + textLength s)
  | .json value => estimate value
  | _ => .ok 16

section Records
variable (json : SerdeJson)

/-- What the text or JSON column at `position` takes, as NULL takes 16 bytes. -/
def sizedColumnBytes (record : StoredRecord) (position : Nat) : Result Nat :=
  if (record.schema.columns[position]?).map (fun column => column.dataType) = some .text then do
    return ((← record.textLen json position).map (fun length => 24 + length)).getD 16
  else do (← record.column json position).ownedBytes (estimatedValueBytesAtDepth 1)

def estimatedSizedColumns (record : StoredRecord) : Nat → List Nat → Result Nat
  | bytes, [] => .ok bytes
  | bytes, position :: positions => do
    let estimate ← sizedColumnBytes json record position
    estimatedSizedColumns record (bytes + (estimate - 16) * 2) positions

def estimatedRecordBytes (record : StoredRecord) : Result Nat :=
  estimatedSizedColumns json record (scalarEstimate record.schema) (sizedColumns record.schema)

/-! ### A paged batch's estimates -/

def estimatedStringBytes (length : Nat) : Nat := length * 6 + 32

/-- An estimate at a depth a paged batch's value may nest to. -/
def batchScalar (depth bytes : Nat) : Result Nat :=
  if depth > 64 then .error (.invalidChange "A paged batch value cannot exceed 64 levels")
  else .ok bytes

mutual
def estimatedJsonBytes (depth : Nat) : Value → Result Nat
  | .null => batchScalar depth 8
  | .bool _ => batchScalar depth 8
  | .number _ => batchScalar depth 32
  | .string s => batchScalar depth (estimatedStringBytes (textLength s))
  | .array values =>
    if depth > 64 then batchScalar depth 0 else estimatedJsonElements depth 64 values
  | .object entries =>
    if depth > 64 then batchScalar depth 0 else estimatedObjectBytes depth 64 entries

def estimatedJsonElements (depth bytes : Nat) : List Value → Result Nat
  | [] => .ok bytes
  | value :: values => do
    let estimate ← estimatedJsonBytes (depth + 1) value
    estimatedJsonElements depth (bytes + estimate + 16) values

/-- An object's estimate, from the `bytes` of the entries before. -/
def estimatedObjectBytes (depth bytes : Nat) : List (String × Value) → Result Nat
  | [] => .ok bytes
  | (key, value) :: entries => do
    let estimate ← estimatedJsonBytes (depth + 1) value
    estimatedObjectBytes depth (bytes + textLength key * 6 + estimate + 64) entries
end

def estimatedBatchRowBytes (row : RowMap) : Result Nat := estimatedObjectBytes 0 64 row.entries

def batchColumnBytes (record : StoredRecord) (dataType : ColumnType) (position : Nat) :
    Result Nat :=
  if dataType = .text then do
    return ((← record.textLen json position).map estimatedStringBytes).getD 8
  else do
    match ← record.column json position with
    | .null => return 8
    | .boolean _ => return 8
    | .integer _ => return 32
    | .float _ => return 32
    | .text s => return estimatedStringBytes (textLength s)
    | .json value => estimatedJsonBytes 1 value

def estimatedBatchColumns (record : StoredRecord) :
    Nat → List (ColumnDefinition × Nat) → Result Nat
  | bytes, [] => .ok bytes
  | bytes, (column, position) :: columns => do
    let estimate ← batchColumnBytes json record column.dataType position
    estimatedBatchColumns record (bytes + textLength column.name * 6 + estimate + 64) columns

def estimatedRecordBatchBytes (record : StoredRecord) : Result Nat :=
  estimatedBatchColumns json record 64 record.schema.columns.zipIdx

def ensureBatchBytes (bytes : Nat) : Result Unit :=
  if bytes > maxPagedBatchBytes then .error batchTooLarge else .ok ()

/-! ### The keys a change adds -/

def ensureStorageKeyBytes (bytes : Nat) : Result Unit :=
  if bytes > maxBtreeKeyBytes then
    .error (.invalidChange
      s!"An encoded primary or index key cannot exceed {maxBtreeKeyBytes} bytes")
  else .ok ()

/-- The bytes of a text as a key component, each zero byte escaped and a terminator after. -/
def textComponentBytes (s : String) : Nat := textLength s + (textBytes s).count 0 + 2

def keyComponentBytes (schema : TableDefinition) (name : String) (dataType : ColumnType)
    (value : Value) : Result Nat :=
  match dataType with
  | .boolean => .ok 1
  | .integer => .ok 8
  | .float => .ok 8
  | .text =>
    match value.asStr with
    | some s => .ok (textComponentBytes s)
    | none => .error (.typeMismatch s!"Key column `{name}` in `{schema.name}` expects text")
  | .json => .error (.typeMismatch
      s!"JSON column `{name}` in `{schema.name}` cannot be part of a key")

/-- The bytes of a row's primary-key tuple, from the `bytes` of the columns before. -/
def primaryTupleBytes (schema : TableDefinition) (row : Row) : Nat → List String → Result Nat
  | bytes, [] => .ok bytes
  | bytes, name :: names =>
    match row name with
    | none => .error (.invalidChange s!"Row for `{schema.name}` is missing key column `{name}`")
    | some value =>
      if value.isNull then
        .error (.invalidChange s!"Primary-key column `{name}` in `{schema.name}` cannot be null")
      else
        match schema.columns.find? (fun column => column.name == name) with
        | none => .error (.columnNotFound name schema.name)
        | some column => do
          let bytes := bytes + (← keyComponentBytes schema name column.dataType value)
          ensureStorageKeyBytes bytes
          primaryTupleBytes schema row bytes names

/-- The bytes of an index's tuple of a row, or `none` for a tuple with a null in it. -/
def indexTupleBytes (schema : TableDefinition) (column : Nat → Result ValueRef) :
    Nat → List String → Result (Option Nat)
  | bytes, [] => .ok (some bytes)
  | bytes, name :: names =>
    match schema.columns.findIdx? (fun column => column.name == name) with
    | none => .error (.columnNotFound name schema.name)
    | some position => do
      let value ← column position
      if value.isNull then return none
      else
        let dataType := ((schema.columns[position]?).map (fun column => column.dataType)).getD .json
        let component ← match dataType, value with
          | .boolean, _ => .ok 1
          | .integer, _ => .ok 8
          | .float, _ => .ok 8
          | .text, .text s => .ok (textComponentBytes s)
          | _, _ => keyComponentBytes schema name dataType value.intoValue
        let bytes := bytes + component
        ensureStorageKeyBytes bytes
        indexTupleBytes schema column bytes names

def validateIndexStorageKeys (schema : TableDefinition) (primaryBytes : Nat)
    (column : Nat → Result ValueRef) : List IndexDefinition → Result Unit
  | [] => .ok ()
  | definition :: indexes =>
    if definition.table ≠ schema.name then
      validateIndexStorageKeys schema primaryBytes column indexes
    else do
      match ← indexTupleBytes schema column 0 definition.columns with
      | none => validateIndexStorageKeys schema primaryBytes column indexes
      | some bytes =>
        ensureStorageKeyBytes (bytes + primaryBytes)
        validateIndexStorageKeys schema primaryBytes column indexes

def validateRecordStorageKeys (record : StoredRecord) (indexes : List IndexDefinition) :
    Result Unit := do
  ensureStorageKeyBytes record.key.length
  validateIndexStorageKeys record.schema record.key.length (record.column json) indexes

def validateProspectiveStorageKeys (schema : TableDefinition) (input : Row)
    (indexes : List IndexDefinition) : Result Unit := do
  let primaryBytes ← primaryTupleBytes schema input 0 schema.primaryKey
  validateIndexStorageKeys schema primaryBytes (fun position =>
    match schema.columns[position]? with
    | some column => .ok (.fromValue
        (((input column.name).or column.default).getD .null) column.dataType)
    | none => .error (codecArgument s!"Table `{schema.name}` has no column {position}")) indexes

/-! ### One change of a write set -/

def validateCatalogNameBound (name : String) : Result Unit :=
  if textLength name + 1 > maxBtreeKeyBytes then
    .error (rowWriteLimitError
      s!"A catalog name cannot exceed {maxBtreeKeyBytes - 1} UTF-8 bytes")
  else .ok ()

def preflightChange (table : String) (changes : Nat) : Result Nat :=
  let changes := changes + 1
  if changes > maxRowWriteChanges then
    .error (rowWriteLimitError
      s!"A row write-set cannot contain more than {maxRowWriteChanges} changes")
  else match validateCatalogNameBound table with
    | .error error => .error (.invalidChange error.message)
    | .ok () => .ok changes

def chargeRowWrite (table : String) (inputBytes batchBytes : Nat) : Result Nat :=
  let batchBytes := batchBytes + (textLength table + (inputBytes + 64))
  if batchBytes > maxRowWriteBytes then .error rowWriteTooLarge else .ok batchBytes

def preflightRecordChange (table : String) (record : StoredRecord) (recordBytes : Nat)
    (indexes : List IndexDefinition) (batchBytes : Nat) : Result Nat := do
  validateRecordStorageKeys json record indexes
  chargeRowWrite table recordBytes batchBytes

def preflightRowChange (table : String) (schema : TableDefinition) (input : RowMap)
    (inputBytes : Nat) (isDelete : Bool) (indexes : List IndexDefinition) (batchBytes : Nat) :
    Result Nat := do
  if !isDelete then
    validateProspectiveStorageKeys schema input.row indexes
  chargeRowWrite table inputBytes batchBytes
end Records

/-! ### A write set's usage -/

structure RowWriteUsage where
  changes : Nat
  bytes : Nat
deriving DecidableEq

namespace RowWriteUsage
def zero : RowWriteUsage := ⟨0, 0⟩

def plus (usage other : RowWriteUsage) : Result RowWriteUsage :=
  let changes := usage.changes + other.changes
  if changes > maxRowWriteChanges then
    .error (rowWriteLimitError
      s!"A row write-set cannot contain more than {maxRowWriteChanges} changes")
  else
    let bytes := usage.bytes + other.bytes
    if bytes > maxRowWriteBytes then .error rowWriteTooLarge else .ok ⟨changes, bytes⟩

def minus (usage other : RowWriteUsage) : RowWriteUsage :=
  ⟨usage.changes - other.changes, usage.bytes - other.bytes⟩
end RowWriteUsage

structure PagedWriteUsage where
  rowWrite : RowWriteUsage
  inputBytes : Nat
  preparedBytes : Nat
  operations : Nat
deriving DecidableEq

namespace PagedWriteUsage
def zero : PagedWriteUsage := ⟨.zero, 0, 0, 0⟩

def plus (usage other : PagedWriteUsage) : Result PagedWriteUsage := do
  let rowWrite ← usage.rowWrite.plus other.rowWrite
  let inputBytes := usage.inputBytes + other.inputBytes
  let preparedBytes := usage.preparedBytes + other.preparedBytes
  let operations := usage.operations + other.operations
  if operations > maxPagedBatchOperations then .error operationLimit
  else
    ensureBatchBytes inputBytes
    ensureBatchBytes preparedBytes
    return ⟨rowWrite, inputBytes, preparedBytes, operations⟩

def withOperations (usage : PagedWriteUsage) (operations : Nat) : Result PagedWriteUsage :=
  usage.plus { zero with operations }

def minus (usage other : PagedWriteUsage) : PagedWriteUsage where
  rowWrite := usage.rowWrite.minus other.rowWrite
  inputBytes := usage.inputBytes - other.inputBytes
  preparedBytes := usage.preparedBytes - other.preparedBytes
  operations := usage.operations - other.operations
end PagedWriteUsage
end TinyJoin
