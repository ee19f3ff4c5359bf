import TinyJoin.DataModification
import TinyJoin.StagedView

/-! How a script writes the changes that a statement planned for a table: folded by key, checked against
its unique indexes, and written in key order to its tree and its indexes' trees. -/
namespace TinyJoin

def maxSqlScriptOperations : Nat := 1000000

def chargeOperations (operations count : Nat) : Result Nat :=
  if operations + count > maxSqlScriptOperations then
    .error ⟨"TRANSACTION_TOO_LARGE", "A SQL script cannot require more than " ++
      s!"{maxSqlScriptOperations} row, index, and join operations"⟩
  else .ok (operations + count)

/-- A script's database as its statements have left it, and the operations that they took. -/
structure ScriptCandidate where
  storage : PagedStorage
  operations : Nat

/-! ### Batches of a tree -/

/-- Each key of a batch, with the value it is given, or none. -/
abbrev Batch : Type := List (List UInt8 × Option (List UInt8))

structure BtreeBatch where
  root : Option Tree
  inserted : Nat
  removed : Nat

namespace Tree

def newValue (key value : List UInt8) : TreeEntry :=
  ⟨key, value, decide (value.length ≤ maxBtreeInlineValueBytes ∧
    key.length + value.length ≤ maxBtreeInlineEntryBytes)⟩

/-- A tree's entries with a batch merged into them. -/
def mergeEntries (entries : List TreeEntry) : Batch → List TreeEntry
  | [] => entries
  | (key, value) :: batch =>
    entries.takeWhile (fun entry => entry.key < key) ++
      ((value.map (newValue key)).toList ++
        mergeEntries ((entries.dropWhile (fun entry => entry.key < key)).dropWhile
          (fun entry => entry.key == key)) batch)

def validateBatchFrom : Option (List UInt8) → Batch → Result Unit
  | _, [] => .ok ()
  | before, (key, value) :: batch => do
    validateKey key
    match value with
    | some value => validateValue value
    | none => pure ()
    if before.any (fun before => key ≤ before) then
      .error ⟨"INVALID_PAGED_ARGUMENT", "A B-tree batch must be sorted by strictly increasing key"⟩
    else validateBatchFrom (some key) batch

/-- Applies a batch to a tree. The entries it leaves are divided into leaves elsewhere, which says
nothing of what its keys hold: they stand in one here. -/
def apply (root : Option Tree) (batch : Batch) : Result BtreeBatch := do
  validateBatchFrom none batch
  let entries := (root.getD []).flatten
  let held := fun key => entries.any (fun entry => entry.key == key)
  let merged := mergeEntries entries batch
  return {
    root := if merged.isEmpty then none else some [merged]
    inserted := batch.countP (fun change => change.2.isSome && !held change.1)
    removed := batch.countP (fun change => change.2.isNone && held change.1) }

end Tree

def adjustedCount (current inserted deleted : Nat) (kind : String) : Result Nat :=
  if deleted ≤ current then .ok (current - deleted + inserted)
  else .error (storageCorrupt s!"A {kind} count overflowed or underflowed")

section Writing
variable (json : SerdeJson)

/-! ### Before a change is made -/

def preflightChangeBytes (table : PagedTable) (definitions : List IndexDefinition)
    (batchBytes : Nat) : RowChange → Result Nat
  | .upsert name row => do
    preflightRowChange name table.schema row (← estimatedRowBytes row) false definitions batchBytes
  | .delete name key => do
    preflightRowChange name table.schema key (← estimatedRowBytes key) true definitions batchBytes
  | .put name key record => do
    let record ← table.record key record
    preflightRecordChange json name record (← estimatedRecordBytes json record) definitions
      batchBytes
  | .remove name key => do
    chargeRowWrite name (← estimatedKeyBytes (← table.record key emptyRecord)) batchBytes

def preflightRowChanges (storage : PagedStorage) (definitions : List IndexDefinition) :
    Nat → List RowChange → Result Nat
  | batchBytes, [] => .ok batchBytes
  | batchBytes, change :: changes =>
    match validateCatalogNameBound change.table with
    | .error error => .error (.invalidChange error.message)
    | .ok () => do
      let table ← storage.table change.table
      let batchBytes ← preflightChangeBytes json table definitions batchBytes change
      preflightRowChanges storage definitions batchBytes changes

def preflightRowWriteSet (storage : PagedStorage) (definitions : List IndexDefinition)
    (changes : List RowChange) : Result RowWriteUsage :=
  if changes.length > maxRowWriteChanges then
    .error (rowWriteLimitError
      s!"A row write-set cannot contain more than {maxRowWriteChanges} changes")
  else do return ⟨changes.length, ← preflightRowChanges json storage definitions 0 changes⟩

/-! ### Changes by key -/

/-- A row that a statement changes, and whether one of its changes writes a row, which makes a second
write of its key a conflict. -/
structure PlannedChange where
  row : ChangedRow
  written : Bool

/-- What the loop over a statement's changes has planned so far. -/
structure Writing where
  changes : KeyedRows PlannedChange
  retained : Nat
  operations : Nat

/-- The record that a key holds, charged as one read. -/
def lookupRecord (operations : Nat) (table : PagedTable) (key : List UInt8) :
    Result (Option (List UInt8) × Nat) :=
  match table.root with
  | none => .ok (none, operations)
  | some tree => do
    let operations ← chargeOperations operations 1
    return (← tree.get key, operations)

/-- The row that a change's key held: the row planning read, or the row the key holds. -/
def previousRow (operations : Nat) (table : PagedTable) (key : List UInt8) :
    PreviousRow → Result (Option HeldRow × Nat)
  -- Charged as the lookup it replaces.
  | .read row => do return (row, ← chargeOperations operations 1)
  | .unread => do
    let (value, operations) ← lookupRecord operations table key
    match value with
    | none => return (none, operations)
    | some value =>
      let _ ← table.record key value
      return (some (.stored key value), operations)

/-- The record that a change leaves, and what it is charged as: the map it was planned as. -/
def nextRecord (table : PagedTable) (key : List UInt8) :
    PatchRow → Result (Option (List UInt8) × Nat)
  | .delete _ => .ok (none, 0)
  | .remove => .ok (none, 0)
  | .map row => do
    let record ← encodeRow json table.schema row.row
    return (some record, ← estimatedRowBytes row)
  | .record record => do
    return (some record, ← estimatedRecordBytes json (← table.record key record))

def plannedBytes (table : PagedTable) (key : List UInt8) : Option (List UInt8) → Result Nat
  | some record => do estimatedRecordBytes json (← table.record key record)
  | none => .ok 0

def replaceRetained (retained previousBytes nextBytes : Nat) : Result Nat :=
  if previousBytes ≤ retained then do
    ensureBatchBytes (retained - previousBytes + nextBytes)
    return retained - previousBytes + nextBytes
  else .error batchTooLarge

/-- One change of a statement. -/
def writeChange (storage : PagedStorage) (table : PagedTable) (writing : Writing)
    (change : RowChange × PreviousRow) : Result Writing := do
  let (name, row, encoded) := change.1.parts
  let key ← PagedTransaction.changeKey storage name row encoded change.2
  let keyed := writing.changes.observe key
  match keyed.getMut key with
  | some slot =>
    let planned := (keyed.rows[slot]?).map Prod.snd
    if !row.isDelete && planned.any (fun planned => planned.written) then
      .error (PagedTransaction.duplicateKeyError name)
    else do
      let (next, nextBytes) ← nextRecord json table key row
      let previousBytes ← plannedBytes json table key (planned.bind (fun planned => planned.row.next))
      let retained ← replaceRetained writing.retained previousBytes nextBytes
      let changes := keyed.modify slot (fun planned =>
        ⟨⟨planned.row.old, next⟩, planned.written || !row.isDelete⟩)
      return { writing with changes, retained }
  | none => do
    let (next, nextBytes) ← nextRecord json table key row
    let (old, operations) ← previousRow writing.operations table key change.2
    let oldBytes ← baseBytes json table old
    let retained := writing.retained + key.length + oldBytes + nextBytes + 96
    ensureBatchBytes retained
    return ⟨keyed.insert key ⟨⟨old, next⟩, !row.isDelete⟩, retained, operations⟩

/-! ### Unique indexes -/

/-- The primary keys of an index's entries for a tuple, each entry charged as one operation. -/
def candidatePrimaryKeys (definition : IndexDefinition) (bytes : List UInt8) :
    List TreeEntry → Nat → List (List UInt8) → Result (List (List UInt8) × Nat)
  | [], operations, found => .ok (found, operations)
  | entry :: entries, operations, found => do
    let operations ← chargeOperations operations 1
    if !secondaryIndexEntryMatchesPrefix entry.key bytes then return (found, operations)
    else if entry.value ≠ [] then
      .error (storageCorrupt
        s!"Secondary index `{definition.name}` contains a non-empty value")
    else
      (validateKeySize entry.key).mapError asStorageCorruption
      let found := found ++ [entry.key.drop bytes.length]
      if definition.unique && found.length > 1 then
        .error (storageCorrupt s!"Unique index `{definition.name}` contains duplicate values")
      else candidatePrimaryKeys definition bytes entries operations found

def candidateIndexKeys (index : PagedIndex) (bytes : List UInt8) (operations : Nat) :
    Result (List (List UInt8) × Nat) :=
  match index.root with
  | none => .ok ([], operations)
  | some tree => do
    validateKey bytes
    candidatePrimaryKeys index.definition bytes
      (tree.flatten.dropWhile (fun entry => entry.key < bytes)) operations []

/-- Whether the row that holds a tuple gives it up. -/
def givesUp (table : PagedTable) (positions : List Nat)
    (changes : List (List UInt8 × ChangedRow)) (bytes owner : List UInt8) : Result Bool :=
  match (changes.find? (fun change => change.1 == owner)).map (fun change => change.2.next) with
  | none => .ok false
  | some none => .ok true
  | some (some record) => do
    return (← encodeRecordIndexPrefix json positions (← table.record owner record)) != some bytes

def checkOwners (table : PagedTable) (index : PagedIndex) (positions : List Nat)
    (changes : List (List UInt8 × ChangedRow)) (key bytes : List UInt8) :
    List (List UInt8) → Nat → Result Nat
  | [], retained => .ok retained
  | owner :: owners, retained => do
    let retained := retained + owner.length
    ensureBatchBytes retained
    if owner = key then checkOwners table index positions changes key bytes owners retained
    else if ← givesUp json table positions changes bytes owner then
      checkOwners table index positions changes key bytes owners retained
    else .error (uniqueViolation index.definition.name)

/-- The loop over a table's changed rows, in key order, whose tuples of an index are to be ones that
no other row holds or takes. -/
def checkTuples (table : PagedTable) (index : PagedIndex) (positions : List Nat)
    (changes : List (List UInt8 × ChangedRow)) :
    List (List UInt8 × ChangedRow) → List (List UInt8) → Nat → Nat → Result (Nat × Nat)
  | [], _, retained, operations => .ok (retained, operations)
  | (key, change) :: rest, taken, retained, operations =>
    match change.next with
    | none => checkTuples table index positions changes rest taken retained operations
    | some record => do
      match ← encodeRecordIndexPrefix json positions (← table.record key record) with
      | none => checkTuples table index positions changes rest taken retained operations
      | some bytes =>
        let retained := retained + (bytes.length + key.length + 64)
        ensureBatchBytes retained
        if bytes ∈ taken then .error (uniqueViolation index.definition.name)
        else
          let (owners, operations) ← candidateIndexKeys index bytes operations
          let retained ← checkOwners json table index positions changes key bytes owners retained
          checkTuples table index positions changes rest (bytes :: taken) retained operations

def validateChangedUniqueIndexes (table : PagedTable) (changes : List (List UInt8 × ChangedRow)) :
    List PagedIndex → Nat → Nat → Result (Nat × Nat)
  | [], retained, operations => .ok (retained, operations)
  | index :: indexes, retained, operations => do
    let positions ← indexColumnPositions table.schema index.definition.columns
    let (retained, operations) ←
      checkTuples json table index positions changes changes [] retained operations
    validateChangedUniqueIndexes table changes indexes retained operations

/-! ### Writing the trees -/

/-- The entry that a stored row has in an index. -/
def recordIndexEntry (positions : List Nat) (record : StoredRecord) :
    Result (Option (List UInt8)) := do
  match ← encodeRecordIndexPrefix json positions record with
  | none => return none
  | some tuple =>
    validateKeySize (tuple ++ record.key)
    return some (tuple ++ record.key)

def heldIndexEntry (table : PagedTable) (definition : IndexDefinition) (positions : List Nat) :
    Option HeldRow → Result (Option (List UInt8))
  | none => .ok none
  | some (.map row) => do
    return (← encodeSecondaryIndexEntry table.schema definition row.row).map Prod.fst
  | some (.stored key value) => do recordIndexEntry json positions (← table.record key value)
  -- Planning measures a row in place of holding it only when its table has no index.
  | some (.measured _) => .error unkeptRow

def nextIndexEntry (table : PagedTable) (positions : List Nat) (key : List UInt8) :
    Option (List UInt8) → Result (Option (List UInt8))
  | none => .ok none
  | some record => do recordIndexEntry json positions (← table.record key record)

/-- The entries that an index loses and gains, each with whether it is gained. -/
def indexEntries (table : PagedTable) (definition : IndexDefinition) (positions : List Nat) :
    List (List UInt8 × ChangedRow) → Result (List (List UInt8 × Bool))
  | [] => .ok []
  | (key, change) :: changes => do
    let old ← heldIndexEntry json table definition positions change.old
    let next ← nextIndexEntry json table positions key change.next
    let rest ← indexEntries table definition positions changes
    if old = next then return rest
    else return old.toList.map (fun entry => (entry, false)) ++
      next.toList.map (fun entry => (entry, true)) ++ rest

def applyIndexEntries (index : PagedIndex) (entries : List (List UInt8 × Bool)) :
    Result PagedIndex :=
  if entries.isEmpty then .ok index
  else do
    let order := LazyOrder.sortKeyed
      (fun position => ((entries[position]?).map Prod.fst).getD []) (List.range entries.length)
    let batch := (order.filterMap (fun position => entries[position]?)).map
      (fun entry => (entry.1, if entry.2 then some [] else none))
    let inserted := entries.countP (fun entry => entry.2)
    let removed := entries.length - inserted
    let applied ← Tree.apply index.root batch
    if applied.removed ≠ removed then
      .error (storageCorrupt
        s!"Index `{index.definition.name}` is missing an entry for a candidate row")
    else if applied.inserted ≠ inserted then
      .error (storageCorrupt
        s!"Index `{index.definition.name}` already holds an entry for a candidate row")
    else do
      let entryCount ← adjustedCount index.entryCount inserted removed "index entry"
      return { index with root := applied.root, entryCount }

def applyIndexes (table : PagedTable) (name : String) (changes : List (List UInt8 × ChangedRow)) :
    List (String × PagedIndex) → Result (List (String × PagedIndex))
  | [] => .ok []
  | (indexName, index) :: indexes =>
    if index.definition.table == name then do
      let positions ← indexColumnPositions table.schema index.definition.columns
      let entries ← indexEntries json table index.definition positions changes
      let index ← applyIndexEntries index entries
      return (indexName, index) :: (← applyIndexes table name changes indexes)
    else do return (indexName, index) :: (← applyIndexes table name changes indexes)

/-- The batch that a table's changed rows are written with. -/
def changedBatch (changes : List (List UInt8 × ChangedRow)) : Batch :=
  changes.map (fun change => (change.1, change.2.next))

/-- Writes a table's changed rows, which are in key order, and its indexes' entries for them. -/
def applyRowChanges (storage : PagedStorage) (name : String)
    (changes : List (List UInt8 × ChangedRow)) : Result PagedStorage := do
  let table ← storage.table name
  let inserted := changes.countP (fun change => change.2.old.isNone && change.2.next.isSome)
  let removed := changes.countP (fun change => change.2.old.isSome && change.2.next.isNone)
  let applied ← Tree.apply table.root (changedBatch changes)
  if applied.inserted ≠ inserted ∨ applied.removed ≠ removed then
    .error (storageCorrupt s!"Table `{name}` does not hold the rows its changes replace")
  else do
    let rowCount ← adjustedCount table.rowCount inserted removed "table row"
    let table := { table with root := applied.root, rowCount }
    let indexes ← applyIndexes json table name changes storage.indexes.entries
    return { storage with
      tables := storage.tables.put (storage.tables.position name) name table
      indexes := ⟨indexes⟩ }

def namesOneTable (table : String) (changes : List RowChange) : Result Unit :=
  if changes.any (fun change => change.table != table) then
    .error ⟨"INTERNAL_ERROR", "A statement's changes name more than one table"⟩
  else .ok ()

/-- Applies a statement's planned changes, which change one table. -/
def applyChanges (candidate : ScriptCandidate) (changes : List RowChange)
    (previous : List PreviousRow) : Result ScriptCandidate :=
  match changes with
  | [] => .ok candidate
  | first :: _ => do
    let name := first.table
    let storage := candidate.storage
    let definitions := storage.indexes.values.map (fun index => index.definition)
    let _ ← preflightRowWriteSet json storage definitions changes
    namesOneTable name changes
    let operations ← chargeOperations candidate.operations
      (((storage.tableIndexes name).length * 2 + 1) * changes.length)
    let table ← storage.table name
    let writing ← (PagedTransaction.withPrevious changes previous).foldlM
      (writeChange json storage table) ⟨.empty, 0, operations⟩
    let rows := writing.changes.intoSorted.map (fun row => (row.1, row.2.row))
    let (_, operations) ← validateChangedUniqueIndexes json table rows
      ((storage.tableIndexes name).filter (fun index => index.definition.unique))
      writing.retained writing.operations
    return ⟨← applyRowChanges json storage name rows, operations⟩

/-- A statement's changes by the tables they are of, each table's in order. -/
def changesByTable : List (RowChange × PreviousRow) →
    List (String × List (RowChange × PreviousRow)) →
    List (String × List (RowChange × PreviousRow))
  | [], groups => groups
  | change :: changes, groups =>
    let name := change.1.table
    changesByTable changes
      (if groups.any (fun group => group.1 == name) then
        groups.map (fun group => if group.1 == name then (group.1, group.2 ++ [change]) else group)
      else groups ++ [(name, [change])])

/-- Applies a statement's changes, which its foreign keys' actions may extend to other tables, a table
at a time. -/
def applyChangesByTable (candidate : ScriptCandidate) (changes : List RowChange)
    (previous : List PreviousRow) : Result ScriptCandidate :=
  match changes with
  | [] => .ok candidate
  | first :: _ =>
    if changes.all (fun change => change.table == first.table) then
      applyChanges json candidate changes previous
    else
      (changesByTable (PagedTransaction.withPrevious changes previous) []).foldlM
        (fun candidate group =>
          applyChanges json candidate (group.2.map Prod.fst) (group.2.map Prod.snd)) candidate

end Writing
end TinyJoin
