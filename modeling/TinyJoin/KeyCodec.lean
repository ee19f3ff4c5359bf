import TinyJoin.Value

/-! Keys: every component compares correctly as raw bytes and delimits itself, so a tuple is its
components concatenated. BOOLEAN is one byte, INTEGER and FLOAT eight sortable big-endian bytes,
TEXT its UTF-8 bytes with each zero escaped, and a terminator. JSON is never part of a key. -/
namespace TinyJoin
open Bytes OrderCode

def maxBtreeKeyBytes : Nat := 1024

def codecArgument (message : String) : EngineError := ⟨"INVALID_PAGED_ARGUMENT", message⟩
def valueTooLarge (message : String) : EngineError := ⟨"PAGED_VALUE_TOO_LARGE", message⟩
def storageCorrupt (message : String) : EngineError := ⟨"PAGED_STORAGE_CORRUPT", message⟩
def storageVersion (message : String) : EngineError :=
  ⟨"PAGED_STORAGE_VERSION_UNSUPPORTED", message⟩
def asStorageCorruption (error : EngineError) : EngineError := storageCorrupt error.message

def keyTypeMismatch (table column expected : String) : EngineError :=
  ⟨"TYPE_MISMATCH", s!"Key column `{column}` in `{table}` expects {expected}"⟩

def validateKeySize (key : List UInt8) : Result Unit :=
  if key.length > maxBtreeKeyBytes then
    .error (valueTooLarge s!"An encoded storage key cannot exceed {maxBtreeKeyBytes} bytes")
  else .ok ()

def schemaColumnType (schema : TableDefinition) (column : String) : Result ColumnType :=
  match schema.columns.find? (fun definition => definition.name == column) with
  | some definition => .ok definition.dataType
  | none => .error ⟨"COLUMN_NOT_FOUND",
      s!"Column `{column}` does not exist in table `{schema.name}`"⟩

def textEscapedZero : UInt8 := 0xff
def textTerminator : UInt8 := 0x01

def pushIntegerComponent (key : List UInt8) (value : Int) : List UInt8 :=
  key ++ beBytes 8 (UInt64.ofInt value ^^^ F64.signBit).toNat

/-- The bits of a float whose unsigned order is the order of the numbers. -/
def sortableFloat (value : F64) : UInt64 :=
  let normalized := if value.isZero then F64.zero else value
  let bits := normalized.bits
  if bits &&& F64.signBit == 0 then bits ^^^ F64.signBit else ~~~bits

def pushFloatComponent (key : List UInt8) (value : F64) : List UInt8 :=
  key ++ beBytes 8 (sortableFloat value).toNat

def escapeZeros (bytes : List UInt8) : List UInt8 :=
  bytes.flatMap (fun byte => if byte == 0 then [byte, textEscapedZero] else [byte])

def pushTextComponent (key : List UInt8) (value : String) : List UInt8 :=
  let bytes := textBytes value
  (if bytes.contains 0 then key ++ escapeZeros bytes else key ++ bytes) ++ [0, textTerminator]

def encodeComponent (key : List UInt8) (dataType : ColumnType) (value : Value)
    (table column : String) : Result (List UInt8) :=
  match dataType with
  | .boolean =>
    match value.asBool with
    | some b => .ok (key ++ [if b then 1 else 0])
    | none => .error (keyTypeMismatch table column "boolean")
  | .integer =>
    match safeInteger value with
    | some i => .ok (pushIntegerComponent key i)
    | none => .error (keyTypeMismatch table column "integer")
  | .float =>
    match value with
    | .number n =>
      if n.asF64.isFinite then .ok (pushFloatComponent key n.asF64)
      else .error (keyTypeMismatch table column "finite float")
    | _ => .error (keyTypeMismatch table column "float")
  | .text =>
    match value.asStr with
    | some s => .ok (pushTextComponent key s)
    | none => .error (keyTypeMismatch table column "text")
  | .json => .error (codecArgument
      s!"JSON column `{column}` in `{table}` cannot be part of a key")

inductive NullPolicy where
  | reject | omit
deriving DecidableEq

/-- One turn of the loop over a tuple's columns, which extends `key` with the column's
component, or stops at a null. -/
def encodeColumn (schema : TableDefinition) (row : Row) (nullPolicy : NullPolicy)
    (key : List UInt8) (column : String) : Result (Option (List UInt8)) :=
  match row column with
  | none => .error ⟨"INVALID_CHANGE",
      s!"Row for `{schema.name}` is missing key column `{column}`"⟩
  | some value =>
    if value.isNull then
      match nullPolicy with
      | .reject => .error ⟨"INVALID_CHANGE",
          s!"Primary-key column `{column}` in `{schema.name}` cannot be null"⟩
      | .omit => .ok none
    else do
      let dataType ← schemaColumnType schema column
      let key ← encodeComponent key dataType value schema.name column
      validateKeySize key
      return some key

def encodeColumnsFrom (schema : TableDefinition) (row : Row) (nullPolicy : NullPolicy) :
    List UInt8 → List String → Result (Option (List UInt8))
  | key, [] => .ok (some key)
  | key, column :: columns =>
    match encodeColumn schema row nullPolicy key column with
    | .error error => .error error
    | .ok none => .ok none
    | .ok (some key) => encodeColumnsFrom schema row nullPolicy key columns

def encodeColumns (schema : TableDefinition) (columns : List String) (row : Row)
    (nullPolicy : NullPolicy) : Result (Option (List UInt8)) :=
  if columns.isEmpty then .error (codecArgument "A key tuple must name at least one column")
  else encodeColumnsFrom schema row nullPolicy [] columns

def encodePrimaryKey (schema : TableDefinition) (row : Row) : Result (List UInt8) := do
  -- Rejecting nulls always returns a tuple, so the default below is never taken.
  let key := (← encodeColumns schema schema.primaryKey row .reject).getD []
  validateKeySize key
  return key

def encodeSecondaryIndexPrefix (schema : TableDefinition) (definition : IndexDefinition)
    (row : Row) : Result (Option (List UInt8)) := do
  match ← encodeColumns schema definition.columns row .omit with
  | none => return none
  | some key =>
    validateKeySize key
    return some key

/-- One secondary-index entry, the indexed tuple and then the primary key, with the length of
the indexed tuple. -/
def encodeSecondaryIndexEntry (schema : TableDefinition) (definition : IndexDefinition)
    (row : Row) : Result (Option (List UInt8 × Nat)) := do
  match ← encodeSecondaryIndexPrefix schema definition row with
  | none => return none
  | some tuple =>
    let key := tuple ++ (← encodePrimaryKey schema row)
    validateKeySize key
    return some (key, tuple.length)

/-- Where the text component that `rest` starts with ends, `index` being where `rest` starts:
past the first zero byte that the terminator follows. -/
def textComponentEnd : List UInt8 → Nat → Result Nat
  | [], _ => .error (storageCorrupt "A text key component is not terminated")
  | [byte], _ =>
    if byte = 0 then .error (storageCorrupt "A text key component contains an invalid escape")
    else .error (storageCorrupt "A text key component is not terminated")
  | byte :: next :: rest, index =>
    if byte = 0 then
      if next = textTerminator then .ok (index + 2)
      else if next = textEscapedZero then textComponentEnd rest (index + 2)
      else .error (storageCorrupt "A text key component contains an invalid escape")
    else textComponentEnd (next :: rest) (index + 1)

def componentEnd (key : List UInt8) (offset : Nat) (dataType : ColumnType) : Result Nat :=
  let fixed := fun length =>
    if offset + length ≤ key.length then .ok (offset + length)
    else .error (storageCorrupt "A storage key component is truncated")
  match dataType with
  | .boolean => fixed 1
  | .integer => fixed 8
  | .float => fixed 8
  | .text => textComponentEnd (key.drop offset) offset
  | .json => .error (storageCorrupt "A storage key cannot contain JSON")

def floatOfSortable (sortable : UInt64) : F64 :=
  if sortable &&& F64.signBit != 0 then ⟨sortable ^^^ F64.signBit⟩ else ⟨~~~sortable⟩

def validEncodedFloatComponent (payload : List UInt8) : Bool :=
  if payload.length = 8 then
    let value := floatOfSortable (UInt64.ofNat (ofBeBytes payload))
    value.isFinite && (!value.isZero || value.bits == 0)
  else false

/-- Drops the byte behind each zero byte. -/
def unescapeZeros : Bool → List UInt8 → List UInt8
  | _, [] => []
  | true, _ :: rest => unescapeZeros false rest
  | false, byte :: rest => byte :: unescapeZeros (byte == 0) rest

def decodeComponent (bytes : List UInt8) (dataType : ColumnType) : Result ValueRef :=
  match dataType with
  | .boolean =>
    if bytes = [0] then .ok (.boolean false)
    else if bytes = [1] then .ok (.boolean true)
    else .error (storageCorrupt "A boolean key component is not canonical")
  | .integer =>
    if bytes.length = 8 then
      let value := ((UInt64.ofNat (ofBeBytes bytes)) ^^^ F64.signBit).toInt64.toInt
      if value.natAbs > maxSafeInteger then
        .error (storageCorrupt "An integer key component is out of range")
      else .ok (.integer value)
    else .error (storageCorrupt "A storage key component has the wrong length")
  | .float =>
    if validEncodedFloatComponent bytes then
      .ok (.float (floatOfSortable (UInt64.ofNat (ofBeBytes bytes))))
    else .error (storageCorrupt "A float key component is not canonical")
  | .text =>
    let payload := bytes.take (bytes.length - 2)
    let text := if payload.contains 0 then unescapeZeros false payload else payload
    match fromUtf8 text with
    | some s => .ok (.text s)
    | none => .error (storageCorrupt "A text key component is not valid UTF-8")
  | .json => .error (storageCorrupt "A storage key cannot contain JSON")

/-- The loop every reader of a whole key runs: each component's bytes and value, and where the
last of them ends. -/
def readComponents (key : List UInt8) :
    Nat → List ColumnType → Result (List (List UInt8 × ValueRef) × Nat)
  | offset, [] => .ok ([], offset)
  | offset, dataType :: types => do
    let stop ← componentEnd key offset dataType
    let value ← decodeComponent (slice key offset stop) dataType
    let (rest, last) ← readComponents key stop types
    return ((slice key offset stop, value) :: rest, last)

/-- Where the tuple whose components have `types` ends. -/
def tupleEnd (key : List UInt8) : Nat → List ColumnType → Result Nat
  | offset, [] => .ok offset
  | offset, dataType :: types => do
    let stop ← componentEnd key offset dataType
    tupleEnd key stop types

def indexEntryPrimaryKey (entry : List UInt8) (indexedTypes : List ColumnType) :
    Result (List UInt8) := do
  let offset ← tupleEnd entry 0 indexedTypes
  if offset = entry.length then
    .error (storageCorrupt
      "A secondary-index entry does not contain a primary key after its tuple")
  else return entry.drop offset

end TinyJoin
