import TinyJoin.Lib.Sorting
import TinyJoin.KeyValues
import TinyJoin.StagedView
import TinyJoin.StructuredJson
import Mathlib.Data.Prod.Lex

/-! The primary keys that a statement reports its planned changes to have been made to, table by
table. -/
namespace TinyJoin
open Sorting

def maxChangedKeysPerTable : Nat := 1000

/-- Decodes as a record without values, for a key read on its own. -/
def emptyRecord : List UInt8 := [0, 0]

def unplannedRecord : EngineError :=
  ⟨"INTERNAL_ERROR", "A row planned as a stored record reached a writer without record layouts"⟩

/-- What a statement reads of a table's definition, which the catalog checked. Only some readers plan
rows as records. -/
structure StorageReader where
  tableSchema : String → Result TableDefinition
  recordLayout : String → Option RecordLayout
  name_eq {table : String} {schema : TableDefinition} :
    tableSchema table = .ok schema → schema.name = table
  valid {table : String} {schema : TableDefinition} :
    tableSchema table = .ok schema → validateSchemaShape schema = .ok ()
  layout_new {table : String} {schema : TableDefinition} {layout : RecordLayout} :
    tableSchema table = .ok schema → recordLayout table = some layout →
    RecordLayout.new schema = .ok layout

/-- Each table's changed keys, in the order of the tables' names. -/
abbrev ChangedKeys : Type := NameMap TableKeys

namespace ChangedKeys

def insert (keys : ChangedKeys) (table : TableKeys) : ChangedKeys :=
  keys.put (keys.position table.table) table.table table

end ChangedKeys

/-! ### One change -/

/-- The primary-key values, in key order, behind `values`, decoded from the key alone. -/
def StoredRecord.pushKeyValues (record : StoredRecord) (values : List Value) :
    Result (List Value) := do
  let (components, offset) ← readComponents record.key 0 record.layout.keyTypes
  if offset ≠ record.key.length then
    .error (storageCorrupt "A stored row key contains trailing bytes after its primary key")
  else return values ++ components.map (fun component => component.2.intoValue)

def pushChangedKey (reader : StorageReader) (schema : TableDefinition) (change : RowChange)
    (values : List Value) : Result (List Value) :=
  match change with
  | .upsert _ row => .ok (values ++ keyValues schema row.row)
  | .delete _ key => .ok (values ++ keyValues schema key.row)
  | .put table key _ => pushPlannedKey table key
  | .remove table key => pushPlannedKey table key
where
  /-- The values of the key of a row planned as its record. -/
  pushPlannedKey (table : String) (key : List UInt8) : Result (List Value) :=
    match reader.recordLayout table with
    | none => .error unplannedRecord
    | some layout => do
      (← StoredRecord.new schema layout key emptyRecord).pushKeyValues values

/-- The encoding of the key a change reports. A planned map that cannot be encoded is ordered
first. -/
def encodedChangedKey (schema : TableDefinition) : RowChange → List UInt8
  | .put _ key _ => key
  | .remove _ key => key
  | .upsert _ row => (encodePrimaryKey schema row.row).toOption.getD []
  | .delete _ key => (encodePrimaryKey schema key.row).toOption.getD []

/-! ### A statement's changes -/

/-- The encoded key that is at hand for a change, without encoding one. -/
def heldKey : RowChange → Option PreviousRow → Option (List UInt8)
  | .put _ key _, _ => some key
  | .remove _ key, _ => some key
  | _, some (.read (some (.stored key _))) => some key
  | _, _ => none

/-- Whether the changes are all to `table` and their keys, all at hand, strictly ascend from the last
one before them. -/
def keysAscend (table : String) (last : Option (List UInt8)) :
    List RowChange → List PreviousRow → Bool
  | [], _ => true
  | change :: changes, previous =>
    match heldKey change previous.head? with
    | none => false
    | some key =>
      if change.table ≠ table ∨ last.any (fun last => key ≤ last) then false
      else keysAscend table (some key) changes previous.tail

def exceedsChangedKeys (changes : List RowChange) (previous : List PreviousRow) : Bool :=
  match changes[maxChangedKeysPerTable]? with
  | none => false
  | some first => keysAscend first.table none changes previous

structure EncodedKey where
  table : String
  key : List UInt8
  change : RowChange

/-- What the changed keys are sorted by. -/
def EncodedKey.place (encoded : EncodedKey) : String ×ₗ List UInt8 :=
  toLex (encoded.table, encoded.key)

/-- A table's schema, the last one read if it is that. -/
def schemaOf (reader : StorageReader) (last : Option TableDefinition) (table : String) :
    Result TableDefinition :=
  match last with
  | some schema => if schema.name = table then .ok schema else reader.tableSchema table
  | none => reader.tableSchema table

/-- The changes with their encoded keys, and the last schema read. -/
def encodeChanges (reader : StorageReader) :
    Option TableDefinition → List RowChange → Result (List EncodedKey × Option TableDefinition)
  | last, [] => .ok ([], last)
  | last, change :: changes => do
    let schema ← schemaOf reader last change.table
    let (encoded, last) ← encodeChanges reader (some schema) changes
    return (⟨change.table, encodedChangedKey schema change, change⟩ :: encoded, last)

def pushChangedKeys (reader : StorageReader) (schema : TableDefinition) :
    List EncodedKey → List Value → Result (List Value)
  | [], values => .ok values
  | changed :: rest, values => do
    pushChangedKeys reader schema rest (← pushChangedKey reader schema changed.change values)

/-- The loop over the tables' runs of changed keys, of which none is empty. -/
def reportTables (reader : StorageReader) :
    Option TableDefinition → List (List EncodedKey) → ChangedKeys → Result ChangedKeys
  | _, [], keys => .ok keys
  | last, [] :: rest, keys => reportTables reader last rest keys
  | last, (first :: more) :: rest, keys =>
    if (first :: more).length > maxChangedKeysPerTable then reportTables reader last rest keys
    else do
      let schema ← schemaOf reader last first.table
      let values ← pushChangedKeys reader schema (first :: more) []
      reportTables reader (some schema) rest (keys.insert ⟨schema, values⟩)

/-- The primary keys that planned changes touch, table by table, but for tables with too many of
them. -/
def changedKeys (sort : UnstableSort EncodedKey EncodedKey.place) (reader : StorageReader)
    (changes : List RowChange) (previous : List PreviousRow) : Result ChangedKeys :=
  match changes with
  | [change] => do
    let schema ← reader.tableSchema change.table
    let values ← pushChangedKey reader schema change []
    return ChangedKeys.insert .new ⟨schema, values⟩
  | changes =>
    if exceedsChangedKeys changes previous then .ok .new
    else do
      let (encoded, last) ← encodeChanges reader none changes
      reportTables reader last
        (runs EncodedKey.table (firsts EncodedKey.place (sort.sort encoded))) .new

end TinyJoin
