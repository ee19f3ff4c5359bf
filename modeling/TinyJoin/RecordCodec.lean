import TinyJoin.KeyCodec
import TinyJoin.Lib.Bitmap

/-! Rows in page format 3: a flags byte, the stored column count, a null bitmap if any stored
column is NULL, the end offset of every stored column but the last, then the packed values.
Primary-key columns live only in the B-tree key, and trailing columns that equal their defaults
are not stored. `SerdeJson` stands for the parts of `serde_json` the codec calls. -/
namespace TinyJoin
open Bytes Bitmap

def maxPagedValueBytes : Nat := 1024 * 1024
def maxJsonDepth : Nat := 64
def maxJsonNodes : Nat := 1000000
def maxColumns : Nat := 256

def recordOffsetWidth : UInt8 := 0b00000011
def recordHasNulls : UInt8 := 0b00000100
def recordReserved : UInt8 := 0b11111000
def recordHeaderBytes : Nat := 2

def valueTypeMismatch (table column expected : String) : EngineError :=
  ⟨"TYPE_MISMATCH", s!"Column `{column}` in `{table}` expects {expected}"⟩

/-! ### Schemas the catalog accepts -/

/-- The characters with the Unicode property `White_Space`. -/
def isWhitespace (c : Char) : Bool :=
  let n := c.toNat
  (9 ≤ n && n ≤ 13) || n == 0x20 || n == 0x85 || n == 0xa0 || n == 0x1680 ||
    (0x2000 ≤ n && n ≤ 0x200a) || n == 0x2028 || n == 0x2029 || n == 0x202f || n == 0x205f ||
    n == 0x3000

def validateCatalogName (name : String) : Result Unit :=
  if name.toList.all isWhitespace then .error (codecArgument "A catalog name cannot be empty")
  else if (textBytes name).length + 1 > maxBtreeKeyBytes then
    .error (valueTooLarge
      s!"A catalog name cannot exceed {maxBtreeKeyBytes - 1} UTF-8 bytes")
  else .ok ()

def validateCatalogDefault (schema : TableDefinition) (column : ColumnDefinition)
    (value : Value) : Result Unit :=
  if value.isNull then
    if column.nullable then .ok ()
    else .error (codecArgument
      s!"Default for non-null column `{column.name}` in `{schema.name}` cannot be null")
  else
    let valid := match column.dataType with
      | .boolean => value.asBool.isSome
      | .integer => (safeInteger value).isSome
      | .float => value.isNumber
      | .text => value.asStr.isSome
      | .json => true
    if valid then .ok ()
    else .error (codecArgument
      s!"Default for column `{column.name}` in `{schema.name}` has the wrong type")

/-- The check of the primary key's names, `previous` being those before. -/
def validateKeyNames (schema : TableDefinition) : List String → List String → Result Unit
  | _, [] => .ok ()
  | previous, column :: columns => do
    validateCatalogName column
    if previous.contains column then
      .error (codecArgument
        s!"Table `{schema.name}` names primary-key column `{column}` more than once")
    else validateKeyNames schema (previous ++ [column]) columns

def validateColumn (schema : TableDefinition) (previous : List ColumnDefinition)
    (column : ColumnDefinition) : Result Unit := do
  validateCatalogName column.name
  if previous.any (fun other => other.name == column.name) then
    .error (codecArgument s!"Table `{schema.name}` declares column `{column.name}` more than once")
  else if schema.primaryKey.contains column.name && column.nullable then
    .error (codecArgument
      s!"Primary-key column `{column.name}` in `{schema.name}` cannot be nullable")
  else if schema.primaryKey.contains column.name && column.dataType == .json then
    .error (codecArgument
      (s!"Page storage does not support JSON primary-key column `{column.name}` in " ++
        s!"`{schema.name}`"))
  else match column.default with
    | some default => validateCatalogDefault schema column default
    | none => .ok ()

def validateColumns (schema : TableDefinition) :
    List ColumnDefinition → List ColumnDefinition → Result Unit
  | _, [] => .ok ()
  | previous, column :: columns => do
    validateColumn schema previous column
    validateColumns schema (previous ++ [column]) columns

def validateSchemaShape (schema : TableDefinition) : Result Unit := do
  validateCatalogName schema.name
  if schema.columns.isEmpty then
    .error (codecArgument s!"Table `{schema.name}` must declare at least one column")
  else if schema.primaryKey.isEmpty then
    .error (codecArgument s!"Table `{schema.name}` must declare a primary key")
  else
    validateKeyNames schema [] schema.primaryKey
    if schema.columns.length > maxColumns then
      .error (codecArgument
        s!"Table `{schema.name}` cannot contain more than {maxColumns} columns")
    else
      validateColumns schema [] schema.columns
      if schema.primaryKey.any
          (fun key => !schema.columns.any (fun column => column.name == key)) then
        .error (codecArgument
          s!"Table `{schema.name}` has a primary-key column outside its catalog")
      else .ok ()

/-! ### Canonical JSON -/

structure SerdeJson where
  /-- `Number::to_string`, as bytes. -/
  numberText : Number → List UInt8
  /-- `to_vec` of a string: its quoted text, or the error's message. -/
  stringText : String → Except String (List UInt8)
  /-- `from_slice`. -/
  fromSlice : List UInt8 → Except String Value

structure CanonicalJsonEncoder where
  bytes : List UInt8
  nodes : Nat

section Json
variable (json : SerdeJson)

def CanonicalJsonEncoder.append (encoder : CanonicalJsonEncoder) (value : List UInt8) :
    Result CanonicalJsonEncoder :=
  if encoder.bytes.length + value.length > maxPagedValueBytes then
    .error (valueTooLarge s!"Canonical JSON cannot exceed {maxPagedValueBytes} bytes")
  else .ok { encoder with bytes := encoder.bytes ++ value }

def CanonicalJsonEncoder.appendJsonString (encoder : CanonicalJsonEncoder) (value : String) :
    Result CanonicalJsonEncoder :=
  match json.stringText value with
  | .ok encoded => encoder.append encoded
  | .error error => .error (codecArgument s!"Could not encode canonical JSON string: {error}")

/-- The checks `encode` makes before it looks at the value. -/
def CanonicalJsonEncoder.enter (encoder : CanonicalJsonEncoder) (depth : Nat) :
    Result CanonicalJsonEncoder :=
  if depth > maxJsonDepth then
    .error (valueTooLarge s!"Canonical JSON cannot nest more than {maxJsonDepth} levels")
  else if encoder.nodes + 1 > maxJsonNodes then
    .error (valueTooLarge s!"Canonical JSON cannot contain more than {maxJsonNodes} nodes")
  else .ok { encoder with nodes := encoder.nodes + 1 }

mutual

def CanonicalJsonEncoder.encode (encoder : CanonicalJsonEncoder) (depth : Nat) :
    Value → Result CanonicalJsonEncoder
  | .null => do (← encoder.enter depth).append (textBytes "null")
  | .bool false => do (← encoder.enter depth).append (textBytes "false")
  | .bool true => do (← encoder.enter depth).append (textBytes "true")
  | .number n => do (← encoder.enter depth).append (json.numberText n)
  | .string s => do (← encoder.enter depth).appendJsonString json s
  | .array values => do
    let encoder ← (← encoder.enter depth).append (textBytes "[")
    let encoder ← encoder.encodeElements depth 0 values
    encoder.append (textBytes "]")
  | .object entries => do
    let encoder ← (← encoder.enter depth).append (textBytes "\x7b")
    let encoder ← encoder.encodeEntries depth 0 entries
    encoder.append (textBytes "\x7d")

def CanonicalJsonEncoder.encodeElements (encoder : CanonicalJsonEncoder) (depth index : Nat) :
    List Value → Result CanonicalJsonEncoder
  | [] => .ok encoder
  | value :: values => do
    let encoder ← if index ≠ 0 then encoder.append (textBytes ",") else .ok encoder
    let encoder ← encoder.encode (depth + 1) value
    encoder.encodeElements depth (index + 1) values

def CanonicalJsonEncoder.encodeEntries (encoder : CanonicalJsonEncoder) (depth index : Nat) :
    List (String × Value) → Result CanonicalJsonEncoder
  | [] => .ok encoder
  | (key, value) :: entries => do
    let encoder ← if index ≠ 0 then encoder.append (textBytes ",") else .ok encoder
    let encoder ← encoder.appendJsonString json key
    let encoder ← encoder.append (textBytes ":")
    let encoder ← encoder.encode (depth + 1) value
    encoder.encodeEntries depth (index + 1) entries

end

def encodeCanonicalJson (value : Value) : Result (List UInt8) := do
  let encoder ← CanonicalJsonEncoder.encode json ⟨[], 0⟩ 0 value
  return encoder.bytes

def decodeCanonicalJson (bytes : List UInt8) (description : String) : Result Value :=
  match json.fromSlice bytes with
  | .error error => .error (storageCorrupt s!"Encoded {description} JSON is invalid: {error}")
  | .ok value =>
    match encodeCanonicalJson json value with
    | .error error => .error (asStorageCorruption error)
    | .ok encoded =>
      if encoded = bytes then .ok value
      else .error (storageCorrupt s!"Encoded {description} JSON is not canonical")

/-! ### Values -/

/-- `(value << shift) >> shift` on `i64`: the value its low `64 - shift` bits sign-extend to. -/
def signExtend (shift : Nat) (value : Int) : Int :=
  Int.bmod (value * 2 ^ shift) (2 ^ 64) / 2 ^ shift

/-- The fewest little-endian bytes whose sign extension is `value`; zero needs none. -/
def integerLength (value : Int) : Nat :=
  if value = 0 then 0
  else ((List.range' 1 8).find? (fun length =>
    signExtend (64 - 8 * length) value == value)).getD 8

/-- A stored integer's value, or `none` when it is longer than seven bytes or beyond the safe
integer range. -/
def integerValue (bytes : List UInt8) : Option Int :=
  if bytes.length > 7 then none
  else
    let value := if bytes.isEmpty then 0
      else signExtend (64 - 8 * bytes.length) (ofLeBytes bytes)
    if value.natAbs ≤ maxSafeInteger then some value else none

def encodeValue (column : ColumnDefinition) (value : Value) (data : List UInt8)
    (table : String) : Result (List UInt8) :=
  match column.dataType with
  | .boolean =>
    match value.asBool with
    | some b => .ok (data ++ [if b then 1 else 0])
    | none => .error (valueTypeMismatch table column.name "boolean")
  | .integer =>
    match safeInteger value with
    | some i => .ok (data ++ (leBytes 8 (i % 2 ^ 64).toNat).take (integerLength i))
    | none => .error (valueTypeMismatch table column.name "integer")
  | .float =>
    match value.asF64.filter (fun f => f.isFinite) with
    | some f => .ok (data ++ leBytes 8 f.bits.toNat)
    | none => .error (valueTypeMismatch table column.name "finite float")
  | .text =>
    match value.asStr with
    | some s => .ok (data ++ textBytes s)
    | none => .error (valueTypeMismatch table column.name "text")
  | .json => do return data ++ (← encodeCanonicalJson json value)

def decodeValue (dataType : ColumnType) (bytes : List UInt8) (strict : Bool) : Result ValueRef :=
  match dataType with
  | .boolean =>
    if bytes = [0] then .ok (.boolean false)
    else if bytes = [1] then .ok (.boolean true)
    else .error (storageCorrupt "A stored boolean is not canonical")
  | .integer =>
    if bytes.length > 7 then .error (storageCorrupt "A stored integer is too long")
    else match integerValue bytes with
      | some value =>
        if !strict || integerLength value == bytes.length then .ok (.integer value)
        else .error (storageCorrupt "A stored integer is not canonical")
      | none => .error (storageCorrupt "A stored integer is not canonical")
  | .float =>
    if bytes.length = 8 then
      let value : F64 := ⟨UInt64.ofNat (ofLeBytes bytes)⟩
      if value.isFinite then .ok (.float value)
      else .error (storageCorrupt "A stored float is not finite")
    else .error (storageCorrupt "A stored float is not eight bytes")
  | .text =>
    match fromUtf8 bytes with
    | some s => .ok (.text s)
    | none => .error (storageCorrupt "A stored text value is not valid UTF-8")
  | .json =>
    if strict then do return .json (← decodeCanonicalJson json bytes "JSON column")
    else match json.fromSlice bytes with
      | .ok value => .ok (.json value)
      | .error error => .error (storageCorrupt s!"A stored JSON value is invalid: {error}")

/-- The value a row holds for a column its record omits. -/
def storedDefault (column : ColumnDefinition) : ValueRef :=
  match column.default with
  | none => .null
  | some value =>
    if column.dataType = .float then
      match value.asF64 with
      | some f => .float f
      | none => .fromValue value .float
    else .fromValue value column.dataType

/-- Whether a column's encoded value, or `none` for NULL, is its default's encoding. -/
def isDefault (column : ColumnDefinition) (encoded : Option (List UInt8)) (table : String) :
    Result Bool :=
  match column.default.filter (fun value => !value.isNull), encoded with
  | none, encoded => .ok encoded.isNone
  | some _, none => .ok false
  | some default, some encoded => do
    let bytes ← encodeValue json column default [] table
    return bytes == encoded

/-- The flag code of the smallest offset width that can hold `largest`, and the width. -/
def offsetWidth (largest : Nat) : UInt8 × Nat :=
  if largest ≤ 0xff then (0, 1) else if largest ≤ 0xffff then (1, 2) else (2, 4)

/-! ### Writing a record -/

inductive StoredValue where
  | value (v : Value)
  | encoded (bytes : Option (List UInt8))

namespace StoredValue

def isNull : StoredValue → Bool
  | value v => v.isNull
  | encoded bytes => bytes.isNone

end StoredValue

/-- Appends each column's value to `data`, and gives where each ends there and whether it is
NULL. -/
def encodeValues (table : String) :
    List UInt8 → List (ColumnDefinition × StoredValue) → Result (List UInt8 × List (Nat × Bool))
  | data, [] => .ok (data, [])
  | data, (column, stored) :: columns => do
    let data ← match stored with
      | .value v => if v.isNull then .ok data else encodeValue json column v data table
      | .encoded bytes => .ok (data ++ bytes.getD [])
    let (all, ends) ← encodeValues table data columns
    return (all, (data.length, stored.isNull) :: ends)

/-- Where the value before the one at `position` ends. -/
def startOf (ends : List (Nat × Bool)) (position : Nat) : Nat :=
  if position = 0 then 0 else (ends.getD (position - 1) (0, false)).1

/-- How many of the first `count` columns are left when trailing ones that equal their defaults
are omitted. -/
def storedCount (table : String) (columns : List (ColumnDefinition × StoredValue))
    (data : List UInt8) (ends : List (Nat × Bool)) : Nat → Result Nat
  | 0 => .ok 0
  | count + 1 =>
    match columns[count]? with
    | none => .ok (count + 1)
    | some (column, _) => do
      let (stop, null) := ends.getD count (0, false)
      let value := if null then none else some (slice data (startOf ends count) stop)
      if ← isDefault json column value table then
        storedCount table columns data ends count
      else return count + 1

/-- The null bitmap of `bytes` bytes, with a bit set for each null. -/
def nullBitmap (bytes : Nat) (nulls : List Bool) : List UInt8 :=
  nulls.zipIdx.foldl (fun bitmap null => if null.1 then setBit bitmap null.2 else bitmap)
    (List.replicate bytes 0)

def encodeStoredValues (schema : TableDefinition)
    (columns : List (ColumnDefinition × StoredValue)) : Result (List UInt8) := do
  let (data, ends) ← encodeValues json schema.name [] columns
  let count ← storedCount json schema.name columns data ends columns.length
  let ends := ends.take count
  let values := startOf ends count
  let data := data.take values
  let (widthCode, width) := offsetWidth (if count ≥ 2 then startOf ends (count - 1) else 0)
  let hasNulls := ends.any (fun stop => stop.2)
  let bitmapBytes := if hasNulls then (count + 7) / 8 else 0
  let header := recordHeaderBytes + bitmapBytes + (count - 1) * width
  if header + values > maxPagedValueBytes then
    .error (valueTooLarge s!"An encoded row cannot exceed {maxPagedValueBytes} bytes")
  else if count > 255 then
    .error (codecArgument s!"Table `{schema.name}` cannot store more than 255 non-key columns")
  else
    return [widthCode ||| (if hasNulls then recordHasNulls else 0), UInt8.ofNat count] ++
      nullBitmap bitmapBytes (ends.map (fun stop => stop.2)) ++
      (ends.take (count - 1)).flatMap (fun stop => leBytes width stop.1) ++ data

/-- The values of the columns a record stores, in record order. -/
def storedValues (schema : TableDefinition) (row : Row) :
    List ColumnDefinition → Result (List (ColumnDefinition × StoredValue))
  | [] => .ok []
  | column :: columns =>
    if schema.primaryKey.contains column.name then storedValues schema row columns
    else match row column.name with
      | none => .error (codecArgument
          s!"Row for `{schema.name}` is missing column `{column.name}`")
      | some value => do
        return (column, .value value) :: (← storedValues schema row columns)

def encodeRow (schema : TableDefinition) (row : Row) : Result (List UInt8) := do
  encodeStoredValues json schema (← storedValues schema row schema.columns)

end Json

/-! ### Reading a record -/

inductive ColumnSlot where
  | key (position : Nat)
  | stored (position : Nat)
deriving DecidableEq

/-- Where each of a table's columns lives in its stored entries. -/
structure RecordLayout where
  /-- Each column's place, in schema order. -/
  slots : List ColumnSlot
  /-- The type of each primary-key component, in key order. -/
  keyTypes : List ColumnType
  /-- The schema position of each primary-key component, in key order. -/
  keys : List Nat
  /-- The schema position of each stored column, in record order. -/
  stored : List Nat

namespace RecordLayout

def keyTypesOf (schema : TableDefinition) : List String → Result (List ColumnType)
  | [] => .ok []
  | name :: names =>
    match schemaColumnType schema name with
    | .error error => .error (asStorageCorruption error)
    | .ok dataType => do return dataType :: (← keyTypesOf schema names)

/-- One turn of the loop over a schema's columns. -/
def place (schema : TableDefinition) (layout : RecordLayout) (column : ColumnDefinition × Nat) :
    RecordLayout :=
  match schema.primaryKey.idxOf? column.1.name with
  | some position => { layout with
      slots := layout.slots ++ [.key position]
      keys := layout.keys.set position column.2 }
  | none => { layout with
      slots := layout.slots ++ [.stored layout.stored.length]
      stored := layout.stored ++ [column.2] }

def new (schema : TableDefinition) : Result RecordLayout := do
  let keyTypes ← keyTypesOf schema schema.primaryKey
  return schema.columns.zipIdx.foldl (place schema)
    { slots := [], keyTypes, keys := List.replicate keyTypes.length 0, stored := [] }

/-- The loop over a key's components, which inserts each into the row. -/
def keyRowFrom (key : List UInt8) :
    List (String × ColumnType) → Nat → Row → Result (Row × Nat)
  | [], offset, row => .ok (row, offset)
  | (name, dataType) :: columns, offset, row => do
    let stop ← componentEnd key offset dataType
    let value ← decodeComponent (slice key offset stop) dataType
    keyRowFrom key columns stop (row.insert name value.intoValue)

def keyRow (layout : RecordLayout) (schema : TableDefinition) (key : List UInt8) :
    Result Row := do
  let (row, offset) ← keyRowFrom key (schema.primaryKey.zip layout.keyTypes) 0 Row.empty
  if offset ≠ key.length then
    .error (storageCorrupt "A stored row key contains trailing bytes after its primary key")
  else return row

end RecordLayout

structure StoredRecord where
  schema : TableDefinition
  layout : RecordLayout
  key : List UInt8
  value : List UInt8
  count : Nat
  width : Nat
  bitmap : List UInt8
  offsetsStart : Nat
  data : List UInt8

/-- One byte as `{:#04x}` writes it. -/
def hexByte (byte : UInt8) : String :=
  let digit := fun n => String.singleton (Nat.digitChar n)
  "0x" ++ digit (byte.toNat / 16) ++ digit (byte.toNat % 16)

namespace StoredRecord

def new (schema : TableDefinition) (layout : RecordLayout) (key value : List UInt8) :
    Result StoredRecord :=
  match value with
  | flags :: count :: _ =>
    if flags &&& recordReserved != 0 || flags &&& recordOffsetWidth == 3 then
      .error (storageVersion s!"Row record flags {hexByte flags} are not supported")
    else
      let count := count.toNat
      if count > layout.stored.length then
        .error (storageCorrupt "A stored row record has more columns than its table")
      else
        let width := 2 ^ (flags &&& recordOffsetWidth).toNat
        let bitmapBytes := if flags &&& recordHasNulls != 0 then (count + 7) / 8 else 0
        let offsetsStart := recordHeaderBytes + bitmapBytes
        let dataStart := offsetsStart + (count - 1) * width
        if dataStart > value.length then
          .error (storageCorrupt "A stored row record is truncated")
        else
          let bitmap := slice value recordHeaderBytes offsetsStart
          let data := value.drop dataStart
          .ok { schema, layout, key, value, count, width, bitmap, offsetsStart, data }
  | _ => .error (storageCorrupt "A stored row record is truncated")

/-- Where the stored column at `position` ends within the data. -/
def endOf (record : StoredRecord) (position : Nat) : Nat :=
  if position + 1 = record.count then record.data.length
  else readLe record.value (record.offsetsStart + position * record.width) record.width

def isNull (record : StoredRecord) (position : Nat) : Bool := bitAt record.bitmap position

/-- The encoded value of the stored column at `position`, below the record's count, or `none`
for NULL. -/
def storedBytes (record : StoredRecord) (position : Nat) : Result (Option (List UInt8)) :=
  let start := if position = 0 then 0 else record.endOf (position - 1)
  let stop := record.endOf position
  if stop < start ∨ stop > record.data.length then
    .error (storageCorrupt "A stored row record has invalid column offsets")
  else
    let bytes := slice record.data start stop
    if record.isNull position then
      if bytes.isEmpty then .ok none
      else .error (storageCorrupt "A stored NULL column has a value")
    else .ok (some bytes)

/-- The primary-key component at `position`, which is always one of the key's. -/
def keyComponent (record : StoredRecord) (position : Nat) : Result ValueRef := do
  let start ← tupleEnd record.key 0 (record.layout.keyTypes.take position)
  let dataType := record.layout.keyTypes.getD position .json
  let stop ← componentEnd record.key start dataType
  decodeComponent (slice record.key start stop) dataType

section Reading
variable (json : SerdeJson)

def storedColumn (record : StoredRecord) (position : Nat) (column : ColumnDefinition) :
    Result ValueRef :=
  if position ≥ record.count then .ok (storedDefault column)
  else do
    match ← record.storedBytes position with
    | none => return .null
    | some bytes =>
      match column.dataType, integerValue bytes with
      | .integer, some value => return .integer value
      | dataType, _ => decodeValue json dataType bytes false

/-- The value of the column at `index`, in schema order. -/
def column (record : StoredRecord) (index : Nat) : Result ValueRef :=
  match record.layout.slots[index]?, record.schema.columns[index]? with
  | some (.key position), _ => record.keyComponent position
  | some (.stored position), some definition => record.storedColumn json position definition
  | _, _ => .error (codecArgument s!"Table `{record.schema.name}` has no column {index}")

/-- The loop over a table's stored columns, `start` being where the last value ended. -/
def decodeColumnsFrom (record : StoredRecord) (strict : Bool) :
    List (ColumnDefinition × Nat) → Nat → Row → Result Row
  | [], _, row => .ok row
  | (column, position) :: columns, start, row =>
    if position ≥ record.count then
      decodeColumnsFrom record strict columns start
        (row.insert column.name (storedDefault column).intoValue)
    else
      let stop := record.endOf position
      if stop < start ∨ stop > record.data.length then
        .error (storageCorrupt "A stored row record has invalid column offsets")
      else
        let bytes := slice record.data start stop
        if record.isNull position then
          if bytes.isEmpty then
            decodeColumnsFrom record strict columns stop (row.insert column.name .null)
          else .error (storageCorrupt "A stored NULL column has a value")
        else do
          let decoded ← decodeValue json column.dataType bytes strict
          decodeColumnsFrom record strict columns stop (row.insert column.name decoded.intoValue)

/-- The columns a table's records store, with their positions. -/
def storedColumns (record : StoredRecord) : List (ColumnDefinition × Nat) :=
  (record.layout.stored.filterMap (fun index => record.schema.columns[index]?)).zipIdx

/-- Whether the flags and the bitmap are those of the values the record holds. -/
def headerIsCanonical (record : StoredRecord) : Bool :=
  let count := record.count
  let flags := record.value.headD 0
  let largestOffset := if count ≥ 2 then record.endOf (count - 2) else 0
  let hasNulls := (List.range count).any record.isNull
  let unusedBits := (List.range' count (record.bitmap.length * 8 - count)).any record.isNull
  !((offsetWidth largestOffset).1 != flags &&& recordOffsetWidth ||
    (flags &&& recordHasNulls != 0) != hasNulls || unusedBits)

/-- The encoding of a row's value of a column, or `none` for NULL. -/
def lastValue (record : StoredRecord) (row : Row) (column : ColumnDefinition) :
    Result (Option (List UInt8)) :=
  match row column.name with
  | some value =>
    if value.isNull then .ok none
    else match encodeValue json column value [] record.schema.name with
      | .ok bytes => .ok (some bytes)
      | .error error => .error (asStorageCorruption error)
  | none => .ok none

def checkCanonical (record : StoredRecord) (row : Row) : Result Unit :=
  if !record.headerIsCanonical then
    .error (storageCorrupt "A stored row record is not canonical")
  else if record.count = 0 then .ok ()
  else match record.storedColumns[record.count - 1]? with
    | none => .ok ()
    | some (column, _) => do
      let last ← record.lastValue json row column
      match isDefault json column last record.schema.name with
      | .error error => .error (asStorageCorruption error)
      | .ok true => .error (storageCorrupt "A stored row record keeps a trailing default column")
      | .ok false => .ok ()

def decodeColumns (record : StoredRecord) (row : Row) (strict : Bool) : Result Row := do
  let row ← record.decodeColumnsFrom json strict record.storedColumns 0 row
  if strict then
    record.checkCanonical json row
  return row

def decode (record : StoredRecord) (strict : Bool) : Result Row := do
  let row ← record.layout.keyRow record.schema record.key
  record.decodeColumns json row strict

def toRow (record : StoredRecord) : Result Row := record.decode json false

def toRowStrictly (record : StoredRecord) : Result Row := record.decode json true

end Reading

end StoredRecord

end TinyJoin
