import TinyJoin.Estimates
import TinyJoin.FloatArithmetic

/-! Scalar expressions over one row, which `UPDATE ... SET` and `ON CONFLICT DO UPDATE SET` assign, and
the checks on a value that a row's column is given. -/
namespace TinyJoin

def maxLogicalValueBytes : Nat := maxPagedValueBytes
def maxLogicalRowBytes : Nat := maxPagedValueBytes - 8

def columnTypeName : ColumnType → String
  | .boolean => "boolean"
  | .integer => "integer"
  | .float => "float"
  | .text => "text"
  | .json => "json"

/-! ### Expressions -/

inductive Operator where
  | add | subtract | multiply | divide | remainder | concatenate
deriving DecidableEq

def Operator.symbol : Operator → String
  | .add => "+"
  | .subtract => "-"
  | .multiply => "*"
  | .divide => "/"
  | .remainder => "%"
  | .concatenate => "||"

inductive Expression where
  | value (value : Value)
  | column (name : String)
  /-- A column of the row an `INSERT ... ON CONFLICT` proposed. -/
  | excluded (name : String)
  | negate (operand : Expression)
  | binary (operator : Operator) (left right : Expression)

namespace Expression

/-- Whether the expression reads a row, rather than giving one value for every row. -/
def readsRow : Expression → Bool
  | value _ => false
  | column _ => true
  | excluded _ => true
  | negate operand => operand.readsRow
  | binary _ left right => left.readsRow || right.readsRow

end Expression

/-- Whether an operator takes operands of a type, or a NULL. -/
def Operator.takes (operator : Operator) (operand : Option ColumnType) : Bool :=
  match operator, operand with
  | _, none => true
  | .concatenate, some dataType => dataType = .text
  | .remainder, some dataType => dataType = .integer
  | _, some dataType => dataType = .integer || dataType = .float

def operandError (operator : Operator) (operand : Option ColumnType) : EngineError :=
  .typeMismatch s!"Operator `{operator.symbol}` cannot take {columnTypeName (operand.getD .json)} values"

def operandTypes (operator : Operator) (left right : Option ColumnType) :
    Result (Option ColumnType) :=
  if !operator.takes left then .error (operandError operator left)
  else if !operator.takes right then .error (operandError operator right)
  else if left = some .float ∨ right = some .float then .ok (some .float)
  else .ok (left.or right)

/-- The type of the values an expression gives, or `none` where it gives only NULL. -/
def valueType (columnType : String → Result ColumnType) : Expression → Result (Option ColumnType)
  | .value value =>
    .ok (match value with
      | .null => none
      | .bool _ => some .boolean
      | .number number => if number.isF64 then some .float else some .integer
      | .string _ => some .text
      | .array _ => some .json
      | .object _ => some .json)
  | .column name => some <$> columnType name
  | .excluded name => some <$> columnType name
  | .negate operand => do operandTypes .subtract (← valueType columnType operand) none
  | .binary operator left right => do
    let left ← valueType columnType left
    operandTypes operator left (← valueType columnType right)

def checkAssignment (expression : Expression) (target : ColumnDefinition) (table : String)
    (columnType : String → Result ColumnType) : Result Unit := do
  let given ← valueType columnType expression
  let fits : Bool := match given, target.dataType with
    | none, _ => true
    | some _, .json => true
    | some given, .float => given = .integer || given = .float
    | some given, expected => given = expected
  if fits then .ok ()
  else .error (.typeMismatch
    s!"Column `{target.name}` in `{table}` expects {columnTypeName target.dataType}")

/-! ### Evaluation -/

def divisionByZero : EngineError := ⟨"DIVISION_BY_ZERO", "Division by zero"⟩

def operandMismatch (operator : Operator) : EngineError :=
  .typeMismatch s!"Operator `{operator.symbol}` cannot take these values"

/-- An `i64`, unless it overflows. -/
def checkedI64 (i : Int) : Option Int := if -(2 ^ 63) ≤ i ∧ i < 2 ^ 63 then some i else none

/-- An operator on integers. A remainder overflows where its quotient does. -/
def applyIntegers (operator : Operator) (left right : Int) : Result Value :=
  if (operator = .divide ∨ operator = .remainder) ∧ right = 0 then .error divisionByZero
  else
    let result := match operator with
      | .add => checkedI64 (left + right)
      | .subtract => checkedI64 (left - right)
      | .multiply => checkedI64 (left * right)
      | .divide => checkedI64 (left.tdiv right)
      | .remainder => (checkedI64 (left.tdiv right)).map (fun _ => left.tmod right)
      | .concatenate => (checkedI64 (left.tdiv right)).map (fun _ => left.tmod right)
    match result.filter (fun result => decide (result.natAbs ≤ maxSafeInteger)) with
    | some result => .ok (.ofI64 result)
    | none => .error ⟨"NUMERIC_OVERFLOW", "Arithmetic exceeds TinyJoin's safe-integer range"⟩

def applyFloats (operator : Operator) (left right : F64) : Result Value :=
  if (operator = .divide ∨ operator = .remainder) ∧ right.isZero = true then .error divisionByZero
  else
    let result : Option F64 := match operator with
      | .add => some (left.add right)
      | .subtract => some (left.sub right)
      | .multiply => some (left.mul right)
      | .divide => some (left.div right)
      | .remainder => none
      | .concatenate => none
    match result with
    | none => .error (operandMismatch operator)
    | some result =>
      if result.isFinite then .ok (.ofF64 result)
      else .error ⟨"NUMERIC_OVERFLOW", "Arithmetic produced a non-finite result"⟩

/-- An operator applied to two values. NULL gives NULL. -/
def applyOperator (operator : Operator) (left right : Value) : Result Value :=
  if left.isNull || right.isNull then .ok .null
  else
    match operator, left, right with
    | .concatenate, .string left, .string right =>
      if textLength left + textLength right > maxLogicalValueBytes then
        .error ⟨"RESOURCE_LIMIT",
          s!"A concatenated value cannot exceed {maxLogicalValueBytes} bytes"⟩
      else .ok (.string (left ++ right))
    | .concatenate, _, _ => .error (operandMismatch operator)
    | operator, .number left, .number right =>
      match left.asI64, right.asI64 with
      | some left, some right => applyIntegers operator left right
      | _, _ => applyFloats operator left.asF64 right.asF64
    | _, _, _ => .error (operandMismatch operator)

/-- The value an expression gives. A column is read by its name, and whether it is `EXCLUDED`'s. -/
def evaluate (column : String → Bool → Result Value) : Expression → Result Value
  | .value value => .ok value
  | .column name => column name false
  | .excluded name => column name true
  | .negate operand => do applyOperator .subtract (.ofI64 0) (← evaluate column operand)
  | .binary operator left right => do
    let left ← evaluate column left
    applyOperator operator left (← evaluate column right)

def unreadRow : EngineError := ⟨"INTERNAL_ERROR", "A constant expression read a row"⟩

/-- The one value of an expression that reads no row. -/
def constant (expression : Expression) : Result Value := do
  let _ ← valueType (fun _ => .error unreadRow) expression
  evaluate (fun _ _ => .error unreadRow) expression

/-! ### The size of a value's JSON text -/

def valueLimitError : EngineError :=
  rowWriteLimitError s!"A JSON value cannot exceed {maxLogicalValueBytes} encoded bytes"

/-- What a byte takes in JSON text beyond itself. -/
def escapeBytes (byte : UInt8) : Nat :=
  if byte ∈ [0x22, 0x5c, 0x08, 0x0c, 0x0a, 0x0d, 0x09] then 1
  else if byte ≤ 0x1f then 5
  else 0

def encodedJsonStringBytes (value : String) : Nat :=
  textLength value + ((textBytes value).map escapeBytes).sum + 2

def decimalDigits (value : Nat) : Nat := if value ≥ 10 then decimalDigits (value / 10) + 1 else 1

section Limits
variable (json : SerdeJson)

/-- The length of a number as `serde_json` writes it. -/
def encodedJsonNumberBytes : Number → Nat
  | .posInt n => decimalDigits n.toNat
  | .negInt i => 1 + decimalDigits i.val.natAbs
  | .float f => (json.numberText (.float f)).length

mutual

def encodedJsonBytes (depth : Nat) : Value → Result Nat
  | .null => estimatedScalar depth 4
  | .bool false => estimatedScalar depth 5
  | .bool true => estimatedScalar depth 4
  | .number number => estimatedScalar depth (encodedJsonNumberBytes json number)
  | .string value => estimatedScalar depth (encodedJsonStringBytes value)
  | .array values =>
    if depth > maxJsonDepth then estimatedScalar depth 0
    else encodedJsonElements depth 2 0 values
  | .object entries =>
    if depth > maxJsonDepth then estimatedScalar depth 0
    else encodedJsonEntries depth 2 0 entries

def encodedJsonElements (depth bytes index : Nat) : List Value → Result Nat
  | [] => .ok bytes
  | value :: values => do
    let bytes := if index ≠ 0 then bytes + 1 else bytes
    let bytes := bytes + (← encodedJsonBytes (depth + 1) value)
    if bytes > maxLogicalValueBytes then .error valueLimitError
    else encodedJsonElements depth bytes (index + 1) values

def encodedJsonEntries (depth bytes index : Nat) : List (String × Value) → Result Nat
  | [] => .ok bytes
  | (key, value) :: entries => do
    let bytes := if index ≠ 0 then bytes + 1 else bytes
    let bytes := bytes + encodedJsonStringBytes key + 1
    let bytes := bytes + (← encodedJsonBytes (depth + 1) value)
    if bytes > maxLogicalValueBytes then .error valueLimitError
    else encodedJsonEntries depth bytes (index + 1) entries

end

def validateJsonValue (value : Value) : Result Nat := do
  let bytes ← encodedJsonBytes json 0 value
  if bytes > maxLogicalValueBytes then .error valueLimitError else return bytes

def estimatedValueBytes (value : Value) : Result Nat := do
  let _ ← validateJsonValue json value
  estimatedValueBytesAtDepth 0 value

def validateRowEntries (bytes index : Nat) : List (String × Value) → Result Nat
  | [] => .ok bytes
  | (key, value) :: entries => do
    let bytes := if index ≠ 0 then bytes + 1 else bytes
    let bytes := bytes + encodedJsonStringBytes key + 1
    let bytes := bytes + (← encodedJsonBytes json 1 value)
    if bytes > maxLogicalRowBytes then
      .error (rowWriteLimitError s!"A row cannot exceed {maxLogicalRowBytes} encoded bytes")
    else validateRowEntries bytes (index + 1) entries

def validateRowValueLimits (row : RowMap) : Result Nat := validateRowEntries json 2 0 row.entries

/-- The most JSON text that a row takes apart from its values. -/
def rowJsonOverhead (schema : TableDefinition) : Nat :=
  schema.columns.foldl (fun bytes column => bytes + encodedJsonStringBytes column.name + 1)
    (2 + (schema.columns.length - 1))

/-- An upper bound on a scalar's JSON text. Only its encoding measures an array or an object. -/
def jsonScalarBound : Value → Option Nat
  | .null => some 5
  | .bool _ => some 5
  | .number _ => some 25
  | .string text => some (textLength text * 6 + 2)
  | .array _ => none
  | .object _ => none

/-! ### Checking a row -/

/-- The most characters that a table's TEXT columns hold, by name, where they say so. -/
abbrev TextLimits : Type := String → Option Nat

def columnTypeError (column : ColumnDefinition) (table : String) : EngineError :=
  .typeMismatch s!"Column `{column.name}` in `{table}` expects {columnTypeName column.dataType}"

/-- Whether a value is of a column's type, in the shape that the column's checks admit. -/
def validShape (maxLength : TextLimits) (column : ColumnDefinition) (value : Value)
    (table : String) : Result Bool :=
  match column.dataType with
  | .boolean => .ok value.asBool.isSome
  | .integer => .ok (safeInteger value).isSome
  | .float => .ok value.isNumber
  | .text =>
    match value.asStr, maxLength column.name with
    | some text, some max =>
      if textLength text > max ∧ text.length > max then
        .error (.constraintViolation
          s!"Column `{column.name}` in `{table}` holds at most {max} characters")
      else .ok true
    | text, _ => .ok text.isSome
  | .json =>
    match estimatedValueBytes json value with
    | .ok _ => .ok true
    | .error error => .error (.invalidChange
        s!"Column `{column.name}` in `{table}` contains invalid JSON: {error.message}")

def ColumnDefinition.validateValue (maxLength : TextLimits) (column : ColumnDefinition)
    (value : Value) (table : String) : Result Unit :=
  if value.isNull then
    if column.nullable then .ok ()
    else .error (.constraintViolation s!"Column `{column.name}` in `{table}` cannot be null")
  else do
    if ← validShape json maxLength column value table then .ok ()
    else .error (columnTypeError column table)

/-- A number as the binary64 value a FLOAT column holds. -/
def floatValue : Value → Value
  | .number number =>
    if number.isF64 || !number.asF64.isFinite then .number number else .ofF64 number.asF64
  | value => value

/-- A value as its column holds it, a FLOAT respelled. -/
def respelled (column : ColumnDefinition) (value : Value) : Value :=
  if column.dataType = .float then floatValue value else value

def normalizeValue (maxLength : TextLimits) (column : ColumnDefinition) (value : Value)
    (table : String) : Result Value := do
  column.validateValue json maxLength value table
  return respelled column value

/-- The value of a name in a map, in place or behind the others. -/
def RowMap.insert (map : RowMap) (name : String) (value : Value) : RowMap :=
  if map.entries.any (fun entry => entry.1 == name) then
    ⟨map.entries.map (fun entry => if entry.1 = name then (name, value) else entry)⟩
  else ⟨map.entries ++ [(name, value)]⟩

/-- The loop over the schema's columns. A column that the row does not name takes its default. -/
def normalizeColumns (maxLength : TextLimits) (table : String) :
    List ColumnDefinition → RowMap → Result RowMap
  | [], row => .ok row
  | column :: columns, row => do
    let value := (row.row column.name).getD (column.default.getD .null)
    let value ← normalizeValue json maxLength column value table
    normalizeColumns maxLength table columns (row.insert column.name value)

/-- A check of sizes as a change reports it. -/
def asInvalidChange (error : EngineError) : EngineError := .invalidChange error.message

/-- The row with every column in it, each checked and a FLOAT respelled. The row's size is checked
again where a column was added or respelled, and is what it was where none was. -/
def normalizeRow (maxLength : TextLimits) (schema : TableDefinition) (row : RowMap) :
    Result RowMap := do
  let _ ← (validateRowValueLimits json row).mapError asInvalidChange
  match row.entries.find? (fun entry =>
      !schema.columns.any (fun column => column.name == entry.1)) with
  | some entry => .error (.columnNotFound entry.1 schema.name)
  | none => do
    let row ← normalizeColumns json maxLength schema.name schema.columns row
    let _ ← (validateRowValueLimits json row).mapError asInvalidChange
    return row

end Limits
end TinyJoin
