import TinyJoin.PredicateFilter
import TinyJoin.Storage

/-! Record tests resolved to positions in a table's stored records, and the pass that applies them to a
record's bytes. -/
namespace TinyJoin
open Bytes Bitmap

inductive StoredTest where
  | integerRange (position : Nat) (low high : Int) (default : Bool)
  | like (position : Nat) (pattern : LikePattern) (default : Bool)
  | textEquals (position : Nat) (text : List UInt8) (default : Bool)
  | isNull (position : Nat) (negated default : Bool)

namespace StoredTest

/-- The tested column's position in the record, and whether a record that omits it passes. -/
def position : StoredTest → Nat × Bool
  | integerRange position _ _ default => (position, default)
  | like position _ default => (position, default)
  | textEquals position _ default => (position, default)
  | isNull position _ default => (position, default)

end StoredTest

/-- Where a record stores a column, which it does unless the key holds it. -/
def RecordLayout.storedPosition (layout : RecordLayout) (column : Nat) : Option Nat :=
  match layout.slots[column]? with
  | some (.stored position) => some position
  | _ => none

/-- A test at its column's position in stored records, or `none` for a primary-key column. -/
def RecordLayout.storedTest (layout : RecordLayout) (schema : TableDefinition) :
    Query.RecordTest → Option StoredTest
  | .integerRange column low high default => do
    return .integerRange (← layout.storedPosition column) low high default
  | .like column pattern default => do
    return .like (← layout.storedPosition column) pattern default
  | .textEquals column text default => do
    return .textEquals (← layout.storedPosition column) (textBytes text) default
  | .isNull column negated => do
    return .isNull (← layout.storedPosition column) negated
      ((Query.columnDefault schema column).all Value.isNull ^^ negated)

/-- `integer_value`, with the shortest encodings decoded in one step each. -/
def shortIntegerValue (bytes : List UInt8) : Option Int :=
  match bytes with
  | [] => some 0
  | [a] => some (Int.bmod (ofLeBytes [a]) (2 ^ 8))
  | [a, b] => some (Int.bmod (ofLeBytes [a, b]) (2 ^ 16))
  | [a, b, c] => some (Int.bmod (ofLeBytes [a, b, c, 0] * 2 ^ 8) (2 ^ 32) / 2 ^ 8)
  | [a, b, c, d] => some (Int.bmod (ofLeBytes [a, b, c, d]) (2 ^ 32))
  | bytes => integerValue bytes

/-- What the pass reads of a record's header. -/
structure RecordBounds where
  value : List UInt8
  count : Nat
  width : Nat
  hasNulls : Bool
  offsetsStart : Nat
  dataStart : Nat

namespace RecordBounds

def dataLen (record : RecordBounds) : Nat := record.value.length - record.dataStart

/-- Where the column at a position ends, offsets being wider than a byte. -/
def wideEnd (record : RecordBounds) (position : Nat) : Nat :=
  if position + 1 = record.count then record.dataLen
  else readLe record.value (record.offsetsStart + position * record.width)
    (if record.width = 2 then 2 else 4)

/-- Where the column at a position starts and stops within the data. -/
def columnBounds (record : RecordBounds) (position : Nat) : Nat × Nat :=
  if record.width = 1 then
    let place := record.offsetsStart + position
    (if position = 0 then 0 else (record.value.getD (place - 1) 0).toNat,
      if position + 1 = record.count then record.dataLen else (record.value.getD place 0).toNat)
  else
    (if position = 0 then 0 else record.wideEnd (position - 1), record.wideEnd position)

/-- Whether a column's bytes pass a test of its value, if they can be read. -/
def bytesPass (test : StoredTest) (bytes : List UInt8) : Option Bool :=
  match test with
  | .integerRange _ low high _ => do
    let value ← shortIntegerValue bytes
    return decide (low ≤ value) && decide (value ≤ high)
  | .like _ pattern _ => do
    match ← pattern.matchesBytes bytes with
    | some matched => return matched
    | none => return Query.likeMatches pattern (← fromUtf8 bytes)
  | .textEquals _ text _ => some (bytes == text)
  -- `IS NULL` is decided before any bytes are read.
  | .isNull _ _ _ => none

/-- Whether a record passes a test, if it can be read. -/
def passes (record : RecordBounds) (test : StoredTest) : Option Bool :=
  let (position, default) := test.position
  if position ≥ record.count then some default
  else
    let null := record.hasNulls &&
      (record.value.getD (recordHeaderBytes + position / 8) 0 &&& mask position != 0)
    match test with
    | .isNull _ negated _ => some (null ^^ negated)
    | test =>
      let (start, stop) := record.columnBounds position
      if stop < start ∨ stop > record.dataLen then none
      else
        let bytes := slice record.value (record.dataStart + start) (record.dataStart + stop)
        -- A NULL that holds bytes is corrupt, which reading the row reports.
        if null then if bytes.isEmpty then some false else none
        else bytesPass test bytes

def passesAll (record : RecordBounds) : List StoredTest → Option Bool
  | [] => some true
  | test :: tests => do
    if ← record.passes test then record.passesAll tests else return false

end RecordBounds

/-- Whether a record passes every test, read from its bytes alone, or `none` when the record or a tested
value cannot be read. -/
def storedRecordPasses (value : List UInt8) (tests : List StoredTest) : Option Bool :=
  match value with
  | flags :: count :: _ =>
    if flags &&& recordReserved != 0 || flags &&& recordOffsetWidth == 3 then none
    else
      let count := count.toNat
      let width := 2 ^ (flags &&& recordOffsetWidth).toNat
      let hasNulls := flags &&& recordHasNulls != 0
      let bitmapBytes := if hasNulls then (count + 7) / 8 else 0
      let offsetsStart := recordHeaderBytes + bitmapBytes
      let dataStart := offsetsStart + (count - 1) * width
      if dataStart > value.length then none
      else RecordBounds.passesAll ⟨value, count, width, hasNulls, offsetsStart, dataStart⟩ tests
  | _ => none

namespace Query.Filter

/-- The tests of stored columns, which a pass over a table's records applies. -/
def storedTests (filter : Filter) (schema : TableDefinition) (layout : RecordLayout) :
    List StoredTest :=
  filter.tests.filterMap (layout.storedTest schema)

/-- Whether the filter must still judge a row that passes: its tests do not decide the predicate, or one
is of a primary-key column. -/
def judged (filter : Filter) (schema : TableDefinition) (layout : RecordLayout) : Bool :=
  !filter.decided || filter.tests.any (fun test => (layout.storedTest schema test).isNone)

/-- The filter as a visit of stored rows uses it. -/
def reader (json : SerdeJson) (filter : Filter) : TinyJoin.Filter where
  storedTests schema layout value := storedRecordPasses value (filter.storedTests schema layout)
  judges := filter.judged
  accepts row := filter.matchesRow (row.column json)

end Query.Filter
end TinyJoin
