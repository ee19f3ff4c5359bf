import Mathlib.Data.List.AList
import TinyJoin.Estimates
import TinyJoin.NameMap
import TinyJoin.NodeFormat

/-! The committed database as its readers see it: each table's rows and each index's entries in the
leaves of their trees, which a cursor presents one after another. -/
namespace TinyJoin

/-! ### Trees -/

/-- A leaf's entry, with whether its value is held in the leaf or in an overflow chain. -/
structure TreeEntry where
  key : List UInt8
  value : List UInt8
  inlined : Bool
deriving DecidableEq

abbrev Leaf : Type := List TreeEntry

/-- The leaves of a tree, in key order. -/
abbrev Tree : Type := List Leaf

namespace Tree

def get (tree : Tree) (key : List UInt8) : Result (Option (List UInt8)) := do
  validateKey key
  return (tree.flatten.find? (fun entry => entry.key == key)).map (fun entry => entry.value)

/-- How many of a leaf's entries have keys below `bound`. -/
def lowerBound (leaf : Leaf) (bound : List UInt8) : Nat :=
  (leaf.takeWhile (fun entry => entry.key < bound)).length

/-- How many of a leaf's entries lie before a cursor sought to `bound`. -/
def seekIndex (leaf : Leaf) (bound : Option (List UInt8)) (backward : Bool) : Nat :=
  match bound, backward with
  | some bound, _ => lowerBound leaf bound
  | none, false => 0
  | none, true => leaf.length

/-- The leaves a cursor moves to, each with how many of its entries lie before the cursor: forward
from `bound`, or backward from before it. A leaf with nothing left for the cursor is passed over. -/
def cursor (tree : Tree) (bound : Option (List UInt8)) (backward : Bool) :
    Result (List (Leaf × Nat)) := do
  match bound with
  | some bound => validateKey bound
  | none => pure ()
  let leaves := if backward then tree.reverse else tree
  return (leaves.map (fun leaf => (leaf, seekIndex leaf bound backward))).filter
    (fun place => if backward then 0 < place.2 else place.2 < place.1.length)

/-- The entries left for a cursor in its leaf, with their positions, as it meets them. -/
def remaining (leaf : Leaf) (start : Nat) (backward : Bool) : List (TreeEntry × Nat) :=
  if backward then ((leaf.zipIdx).take start).reverse else (leaf.zipIdx).drop start

/-- Where a leaf holds `keys`, which are in ascending order, at or after `low`; and the keys above
its last, which a later leaf may hold. -/
def positionsFrom (leaf : Leaf) (last : List UInt8) :
    Nat → List (List UInt8) → List Nat × List (List UInt8)
  | _, [] => ([], [])
  | low, key :: keys =>
    if key ≤ last then
      let low := low + lowerBound (leaf.drop low) key
      if (leaf[low]?).map (fun entry => entry.key) = some key then
        let (positions, rest) := positionsFrom leaf last (low + 1) keys
        (low :: positions, rest)
      else positionsFrom leaf last low keys
    else ([], key :: keys)

def leafPositions (leaf : Leaf) (start : Nat) (keys : List (List UInt8)) :
    List Nat × List (List UInt8) :=
  match leaf.getLast? with
  | some last => positionsFrom leaf last.key start keys
  | none => ([], keys)

end Tree

/-! ### Ranges of keys -/

inductive VisitControl where
  | continued | stop
deriving DecidableEq

inductive VisitOutcome where
  | complete | stopped
deriving DecidableEq

inductive KeyOrder where
  | ascending | descending
deriving DecidableEq

/-- Inclusive bounds on the leading component of a table's keys. -/
structure KeyRange where
  lower : Option (List UInt8)
  upper : Option (List UInt8)
deriving DecidableEq

namespace KeyRange

def start (range : KeyRange) : List UInt8 := range.lower.getD []

/-- A bound's bytes, last first, with the last that can be incremented incremented. -/
def incremented : List UInt8 → Option (List UInt8)
  | [] => none
  | last :: rest => if last < 255 then some ((last + 1) :: rest).reverse else incremented rest

/-- Just past every key whose leading component is at or below the upper bound. -/
def stop (range : KeyRange) : Option (List UInt8) :=
  range.upper.bind (fun upper => incremented upper.reverse)

def contains (range : KeyRange) (component : List UInt8) : Bool :=
  range.lower.all (fun lower => lower ≤ component) &&
    range.upper.all (fun upper => component ≤ upper)

end KeyRange

/-- The first component of a key. -/
def leadingKeyComponent (key : List UInt8) (dataType : ColumnType) : Result (List UInt8) := do
  return key.take (← componentEnd key 0 dataType)

/-! ### The catalog -/

structure PagedTable where
  schema : TableDefinition
  layout : RecordLayout
  treeId : Nat
  root : Option Tree
  rowCount : Nat

structure PagedIndex where
  definition : IndexDefinition
  treeId : Nat
  root : Option Tree
  entryCount : Nat

namespace PagedTable

def record (table : PagedTable) (key value : List UInt8) : Result StoredRecord :=
  StoredRecord.new table.schema table.layout key value

def leadingKeyType (table : PagedTable) : ColumnType := table.layout.keyTypes.headD .json

/-- The table's entries, in key order. -/
def entries (table : PagedTable) : List TreeEntry := (table.root.getD []).flatten

end PagedTable

structure PagedStorage where
  revision : Nat
  recoveryRequired : Bool
  tables : NameMap PagedTable
  indexes : NameMap PagedIndex

/-- A row's stored entry, a map of it, or only what it is charged as. -/
inductive HeldRow where
  | map (row : RowMap)
  | stored (key value : List UInt8)
  | measured (bytes : Nat)

def unkeptRow : EngineError :=
  ⟨"INTERNAL_ERROR", "A row planning measured without keeping it was read"⟩

/-- A predicate resolved against a table: what its tests say of a stored record's bytes, if they can
read it, whether it must still judge a row they accept, and whether it accepts a row. -/
structure Filter where
  storedTests : TableDefinition → RecordLayout → List UInt8 → Option Bool
  judges : TableDefinition → RecordLayout → Bool
  accepts : StoredRecord → Result Bool

/-- What a visit calls, over the state its callbacks share: the charge to the reader's work, the
charge of scanned rows, and the visitor. -/
structure Callbacks (σ : Type) where
  charge : Nat → σ → Result σ
  scanned : Nat → σ → Result σ
  visitor : StoredRecord → σ → Result (VisitControl × σ)

/-! ### Visiting rows -/

section Visits
variable {σ : Type}

/-- What the pass over a leaf's cells leaves: the entries it accepts, each with whether the filter
must still judge it, how many it skipped and examined, and whether it came to the range's end. -/
structure LeafPass where
  accepted : List (TreeEntry × Bool)
  skipped : Nat
  examined : Nat
  ended : Bool

/-- Whether a key lies within a range, if there is one. -/
def withinRange (keyType : ColumnType) (range : Option KeyRange) (key : List UInt8) :
    Result Bool :=
  match range with
  | none => .ok true
  | some range => do return range.contains (← leadingKeyComponent key keyType)

def passLeaf (keyType : ColumnType) (range : Option KeyRange)
    (passes : List UInt8 → Option Bool) :
    List (TreeEntry × Nat) → List Nat → LeafPass → Result LeafPass
  | [], _, pass => .ok pass
  | (entry, position) :: cells, skips, pass =>
    if skips.head? = some position then
      passLeaf keyType range passes cells skips.tail { pass with skipped := pass.skipped + 1 }
    else if entry.inlined then do
      if ← withinRange keyType range entry.key then
        let accepted := match passes entry.value with
          | some false => pass.accepted
          | some true => pass.accepted ++ [(entry, false)]
          | none => pass.accepted ++ [(entry, true)]
        passLeaf keyType range passes cells skips
          { pass with accepted, examined := pass.examined + 1 }
      else return { pass with ended := true }
    else
      -- A value that overflows its leaf is left to the filter.
      passLeaf keyType range passes cells skips
        { pass with accepted := pass.accepted ++ [(entry, true)], examined := pass.examined + 1 }

/-- Whether a filter accepts a row it must judge; it accepts any row it need not. -/
def acceptsRow (filter : Option Filter) (judged : Bool) (row : StoredRecord) : Result Bool :=
  match filter with
  | some filter => if judged then filter.accepts row else .ok true
  | none => .ok true

/-- Whether an entry the pass left unchecked, as its value overflows its leaf, is past the range. -/
def endsVisit (table : PagedTable) (range : Option KeyRange) (entry : TreeEntry) : Result Bool :=
  if entry.inlined then .ok false
  else do return !(← withinRange table.leadingKeyType range entry.key)

/-- Presents the entries a pass accepted; the outcome is one that ends the visit there. -/
def presentLeaf (table : PagedTable) (range : Option KeyRange) (filter : Option Filter)
    (judged : Bool) (calls : Callbacks σ) :
    List (TreeEntry × Bool) → σ → Result (Option VisitOutcome × σ)
  | [], s => .ok (none, s)
  | (entry, flagged) :: entries, s => do
    if ← endsVisit table range entry then return (some .complete, s)
    else
      let row ← table.record entry.key entry.value
      if !(← acceptsRow filter (judged || flagged) row) then
        presentLeaf table range filter judged calls entries s
      else
        let (control, s) ← calls.visitor row s
        if control = .stop then return (some .stopped, s)
        else presentLeaf table range filter judged calls entries s

/-- The rows of the leaves a cursor moves to, except those of `except`, in ascending order. -/
def visitLeaves (table : PagedTable) (range : Option KeyRange) (backward : Bool)
    (filter : Option Filter) (calls : Callbacks σ) :
    List (Leaf × Nat) → List (List UInt8) → σ → Result (VisitOutcome × σ)
  | [], _, s => .ok (.complete, s)
  | (leaf, start) :: leaves, except, s => do
    let (skips, except) := Tree.leafPositions leaf start except
    -- Without a filter there are no tests, which every record passes.
    let passes := fun value => match filter with
      | some filter => filter.storedTests table.schema table.layout value
      | none => some true
    let judged := (filter.map (fun filter => filter.judges table.schema table.layout)).getD false
    let pass ← passLeaf table.leadingKeyType range passes (Tree.remaining leaf start backward) skips
      ⟨[], 0, 0, false⟩
    let s ← calls.charge (pass.examined + pass.skipped) s
    let s ← calls.scanned pass.examined s
    let (outcome, s) ← presentLeaf table range filter judged calls pass.accepted s
    match outcome with
    | some outcome => return (outcome, s)
    | none =>
      if pass.ended then return (.complete, s)
      else visitLeaves table range backward filter calls leaves except s

namespace PagedStorage

def recoveryRequiredError : EngineError :=
  ⟨"RECOVERY_REQUIRED", "The paged database has an unknown commit outcome; " ++
    "reopen its page device before continuing"⟩

def ensureReady (storage : PagedStorage) : Result Unit :=
  if storage.recoveryRequired then .error recoveryRequiredError else .ok ()

def table (storage : PagedStorage) (name : String) : Result PagedTable :=
  match storage.tables.get name with
  | some table => .ok table
  | none => .error (.tableNotFound name)

/-- The leaves a visit comes to, from the end of its range that its order starts at. -/
def openVisit (tree : Tree) (range : Option KeyRange) (order : KeyOrder) :
    Result (List (Leaf × Nat)) :=
  match order with
  | .ascending => tree.cursor (some ((range.map KeyRange.start).getD [])) false
  | .descending => tree.cursor (range.bind KeyRange.stop) true

def visitRowsWhere (storage : PagedStorage) (table : String) (range : Option KeyRange)
    (order : KeyOrder) (except : List (List UInt8)) (filter : Option Filter)
    (calls : Callbacks σ) (s : σ) : Result (VisitOutcome × σ) := do
  storage.ensureReady
  let table ← storage.table table
  match table.root with
  | none => return (.complete, s)
  | some tree =>
    let leaves ← openVisit tree range order
    visitLeaves table range (order = .descending) filter calls leaves except s

/-- The committed row the encoded primary key `key` holds in `table`, as its stored entry. -/
def committedEntryOf (storage : PagedStorage) (table : PagedTable) (key : List UInt8) :
    Result (Option (List UInt8)) := do
  storage.ensureReady
  match table.root with
  | none => return none
  | some tree =>
    match ← tree.get key with
    | none => return none
    | some value =>
      -- The record is opened, so that one no reader could open is refused here.
      let _ ← table.record key value
      return some value

def committedEntry (storage : PagedStorage) (table : String) (key : List UInt8) :
    Result (Option (List UInt8)) := do
  storage.ensureReady
  storage.committedEntryOf (← storage.table table) key

def visitEntry (storage : PagedStorage) (table : PagedTable) (key : List UInt8)
    (visitor : StoredRecord → σ → Result (VisitControl × σ)) (s : σ) :
    Result (VisitOutcome × σ) := do
  storage.ensureReady
  match table.root with
  | none => return (.complete, s)
  | some tree =>
    match ← tree.get key with
    | none => return (.complete, s)
    | some value =>
      let (control, s) ← visitor (← table.record key value) s
      return (if control = .stop then .stopped else .complete, s)

def lookupPrimaryKey (json : SerdeJson) (storage : PagedStorage) (table : String) (key : Row) :
    Result (Option Row) := do
  storage.ensureReady
  let table ← storage.table table
  let key ← encodePrimaryKey table.schema key
  match table.root with
  | none => return none
  | some tree =>
    match ← tree.get key with
    | none => return none
    | some value => return some (← (← table.record key value).toRow json)

def tableRowCount (storage : PagedStorage) (table : String) : Result Nat := do
  storage.ensureReady
  return (← storage.table table).rowCount

end PagedStorage
end Visits

/-! ### Unique indexes -/

/-- A unique-index value that one changed row claims, and the committed rows already holding it. -/
structure UniqueClaim where
  treeId : Nat
  prefixBytes : List UInt8
  owners : List (List UInt8)
deriving DecidableEq

structure ChangeCost where
  usage : PagedWriteUsage
  claims : List UniqueClaim
deriving DecidableEq

/-- A changed row as a write set measures it, with its estimated bytes; a delete planned by its key
has the key's two estimates instead. -/
inductive ChangeRow where
  | map (row : RowMap) (bytes : Nat)
  | record (value : List UInt8) (bytes : Nat)
  | key (bytes batchBytes : Nat)

def encodeComponentRef (key : List UInt8) (dataType : ColumnType) (value : ValueRef)
    (table column : String) : Result (List UInt8) :=
  match dataType, value with
  | .boolean, .boolean b => .ok (key ++ [if b then 1 else 0])
  | .integer, .integer i =>
    if i.natAbs ≤ maxSafeInteger then .ok (pushIntegerComponent key i)
    else encodeComponent key dataType value.intoValue table column
  | .float, .float f =>
    if f.isFinite then .ok (pushFloatComponent key f)
    else encodeComponent key dataType value.intoValue table column
  | .text, .text s => .ok (pushTextComponent key s)
  | _, _ => encodeComponent key dataType value.intoValue table column

def indexColumnPositions (schema : TableDefinition) : List String → Result (List Nat)
  | [] => .ok []
  | column :: columns =>
    match schema.columns.findIdx? (fun item => item.name == column) with
    | none => .error (.invalidChange s!"Row for `{schema.name}` is missing key column `{column}`")
    | some position => do return position :: (← indexColumnPositions schema columns)

def encodeRecordIndexPrefixFrom (json : SerdeJson) (record : StoredRecord) :
    List UInt8 → List Nat → Result (Option (List UInt8))
  | key, [] => .ok (some key)
  | key, position :: positions => do
    let value ← record.column json position
    if value.isNull then return none
    else
      let column := record.schema.columns.getD position ⟨"", .json, true, none⟩
      let key ← encodeComponentRef key column.dataType value record.schema.name column.name
      validateKeySize key
      encodeRecordIndexPrefixFrom json record key positions

def encodeRecordIndexPrefix (json : SerdeJson) (positions : List Nat) (record : StoredRecord) :
    Result (Option (List UInt8)) :=
  encodeRecordIndexPrefixFrom json record [] positions

def secondaryIndexEntryMatchesPrefix (entry bytes : List UInt8) : Bool :=
  decide (entry.length > bytes.length) && bytes.isPrefixOf entry

def uniqueViolation (index : String) : EngineError :=
  .constraintViolation s!"Index `{index}` would contain duplicate values"

/-- The primary keys the entries of an index's tuple carry, from the first that may be one. -/
def indexPrimaryKeys (definition : IndexDefinition) (bytes : List UInt8) :
    List TreeEntry → List (List UInt8) → Result (List (List UInt8))
  | [], found => .ok found
  | entry :: entries, found =>
    if !secondaryIndexEntryMatchesPrefix entry.key bytes then .ok found
    else if entry.value ≠ [] then
      .error (storageCorrupt
        s!"Secondary index `{definition.name}` contains a non-empty value")
    else do
      (validateKeySize entry.key).mapError asStorageCorruption
      let found := found ++ [entry.key.drop bytes.length]
      if definition.unique && found.length > 1 then
        .error (storageCorrupt s!"Unique index `{definition.name}` contains duplicate values")
      else indexPrimaryKeys definition bytes entries found

def committedIndexPrimaryKeys (index : PagedIndex) (bytes : List UInt8) :
    Result (List (List UInt8)) :=
  match index.root with
  | none => .ok []
  | some tree => do
    validateKey bytes
    indexPrimaryKeys index.definition bytes
      (tree.flatten.dropWhile (fun entry => entry.key < bytes)) []

namespace PagedStorage
variable (json : SerdeJson)

def tableIndexes (storage : PagedStorage) (table : String) : List PagedIndex :=
  storage.indexes.values.filter (fun index => index.definition.table == table)

def catalogOperations (storage : PagedStorage) (table : String) : Nat :=
  1 + (storage.tableIndexes table).length

def uniqueViolationIn (storage : PagedStorage) (treeId : Nat) : EngineError :=
  uniqueViolation
    (((storage.indexes.values.find? (fun index => index.treeId == treeId)).map
      (fun index => index.definition.name)).getD "unknown")

/-- The claims of a row's values in unique indexes, whose tuples `tuple` reads, and the bytes that
preparing them takes with the `bytes` before. -/
def rowClaims (tuple : IndexDefinition → Result (Option (List UInt8))) (key : List UInt8) :
    List PagedIndex → Nat → List UniqueClaim → Result (Nat × List UniqueClaim)
  | [], bytes, claims => .ok (bytes, claims)
  | index :: indexes, bytes, claims => do
    match ← tuple index.definition with
    | none => rowClaims tuple key indexes bytes claims
    | some prefixBytes =>
      let owners ← committedIndexPrimaryKeys index prefixBytes
      let bytes := bytes + (prefixBytes.length + key.length + 64) +
        (owners.map List.length).sum
      rowClaims tuple key indexes bytes (claims ++ [⟨index.treeId, prefixBytes, owners⟩])

/-- A record no reader could open is refused before anything is counted. -/
def openChange (table : PagedTable) (key : List UInt8) : ChangeRow → Result Unit
  | .record value _ => do
    let _ ← table.record key value
    return ()
  | _ => .ok ()

def changeWriteBytes (table : PagedTable) (definitions : List IndexDefinition) (isDelete : Bool)
    (key : List UInt8) : ChangeRow → Result Nat
  | .map row bytes =>
    preflightRowChange table.schema.name table.schema row bytes isDelete definitions 0
  | .record value bytes => do
    preflightRecordChange json table.schema.name (← table.record key value) bytes definitions 0
  | .key bytes _ => chargeRowWrite table.schema.name bytes 0

def changeBatchBytes (table : PagedTable) (key : List UInt8) : ChangeRow → Result Nat
  | .map row _ => estimatedBatchRowBytes row
  | .record value _ => do estimatedRecordBatchBytes json (← table.record key value)
  | .key _ batchBytes => .ok batchBytes

def baseBatchBytes (table : PagedTable) : Option HeldRow → Result Nat
  | none => .ok 0
  | some (.map base) => estimatedBatchRowBytes base
  | some (.stored key value) => do estimatedRecordBatchBytes json (← table.record key value)
  | some (.measured _) => .error unkeptRow

/-- The tuple a change's row has in an index. -/
def changeTuple (table : PagedTable) (key : List UInt8) (row : ChangeRow)
    (definition : IndexDefinition) : Result (Option (List UInt8)) :=
  match row with
  | .map row _ => encodeSecondaryIndexPrefix table.schema definition row.row
  | .record value _ => do
    encodeRecordIndexPrefix json (← indexColumnPositions table.schema definition.columns)
      (← table.record key value)
  | .key _ _ => .ok none

def changeClaims (table : PagedTable) (indexes : List PagedIndex) (row : ChangeRow)
    (isDelete : Bool) (key : List UInt8) (preparedBytes : Nat) :
    Result (Nat × List UniqueClaim) :=
  if isDelete then .ok (preparedBytes, [])
  else rowClaims (changeTuple json table key row) key
    (indexes.filter (fun index => index.definition.unique)) preparedBytes []

def changeCostIn (storage : PagedStorage) (table : PagedTable) (indexes : List PagedIndex)
    (row : ChangeRow) (isDelete : Bool) (key : List UInt8) (base : Option HeldRow) :
    Result ChangeCost := do
  storage.ensureReady
  let tableName := table.schema.name
  openChange table key row
  let changes ← preflightChange tableName 0
  let writeBytes ← changeWriteBytes json table (indexes.map (fun index => index.definition))
    isDelete key row
  let rowBytes ← changeBatchBytes json table key row
  let inputBytes := textLength tableName + rowBytes + 64
  let baseBytes ← baseBatchBytes json table base
  let nextBytes := if isDelete then 0 else rowBytes
  let (preparedBytes, claims) ← changeClaims json table indexes row isDelete key
    (key.length + baseBytes + nextBytes + 96)
  ensureBatchBytes inputBytes
  ensureBatchBytes preparedBytes
  return ⟨⟨⟨changes, writeBytes⟩, inputBytes, preparedBytes, 1 + 2 * indexes.length⟩, claims⟩

/-- The tuple a row has in an index. -/
def heldTuple (table : PagedTable) (definition : IndexDefinition) :
    HeldRow → Result (Option (List UInt8))
  | .map row => encodeSecondaryIndexPrefix table.schema definition row.row
  | .stored key value => do
    encodeRecordIndexPrefix json (← indexColumnPositions table.schema definition.columns)
      (← table.record key value)
  | .measured _ => .error unkeptRow

/-- The unique-index values a stored row holds. -/
def uniqueValuesIn (table : PagedTable) (row : HeldRow) :
    List PagedIndex → Result (List (Nat × List UInt8))
  | [] => .ok []
  | index :: indexes => do
    let prefixBytes ← heldTuple json table index.definition row
    let values ← uniqueValuesIn table row indexes
    return (prefixBytes.map (fun bytes => (index.treeId, bytes))).toList ++ values

def uniqueValues (storage : PagedStorage) (tableName : String) (row : HeldRow) :
    Result (List (Nat × List UInt8)) := do
  let table ← storage.table tableName
  uniqueValuesIn json table row
    ((storage.tableIndexes tableName).filter (fun index => index.definition.unique))

end PagedStorage
end TinyJoin
