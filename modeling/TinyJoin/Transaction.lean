import TinyJoin.Lib.Indexed
import TinyJoin.Overlay

/-! A transaction over the committed database: what it stages, statement by statement, with the
totals it keeps, and the view its reads see. -/
namespace TinyJoin

def maxTransactionKeys : Nat := 100000
def maxTransactionBytes : Nat := 16 * 1024 * 1024
def overlayEntryBytes : Nat := 128

def transactionTooLarge : EngineError :=
  ⟨"TRANSACTION_TOO_LARGE", s!"A transaction cannot retain more than {maxTransactionBytes} bytes"⟩

def writeConflict (expected actual : Nat) : EngineError :=
  ⟨"WRITE_CONFLICT",
    s!"Transaction revision {expected} does not match current revision {actual}"⟩

/-! ### A statement's changes -/

inductive RowChange where
  | upsert (table : String) (row : RowMap)
  | delete (table : String) (key : RowMap)
  | put (table : String) (key record : List UInt8)
  | remove (table : String) (key : List UInt8)

/-- The row planning read for a change, or that it read none for it. -/
inductive PreviousRow where
  | unread
  | read (row : Option HeldRow)

def PreviousRow.readNothing : PreviousRow → Bool
  | .read none => true
  | _ => false

/-- A statement's change to one key, as planning made it. -/
inductive PatchRow where
  | map (row : RowMap)
  | record (record : List UInt8)
  | delete (key : RowMap)
  | remove

def PatchRow.isDelete : PatchRow → Bool
  | .delete _ => true
  | .remove => true
  | _ => false

/-- A change's table, its row, and the encoded key it brings, if it brings one. -/
def RowChange.parts : RowChange → String × PatchRow × Option (List UInt8)
  | .upsert table row => (table, .map row, none)
  | .delete table key => (table, .delete key, none)
  | .put table key record => (table, .record record, some key)
  | .remove table key => (table, .remove, some key)

/-- The last of a statement's changes to one key, with the committed row the key holds. -/
structure PatchChange where
  base : Option HeldRow
  row : PatchRow
  upserted : Bool
  replacedDelete : Bool

/-- One table's part of a statement's patch: where its overlay is or goes, its entries in key order,
and how many more deletes and changed rows the table has with them. -/
structure PatchTable where
  table : String
  place : Except Nat Nat
  entries : List (List UInt8 × OverlayEntry)
  deletes : Int
  changed : Int

def PatchTable.entry (patched : PatchTable) (key : List UInt8) : Option OverlayEntry :=
  (patched.entries.find? (fun entry => entry.1 == key)).map Prod.snd

structure OverlayPatch where
  tables : List PatchTable
  replaces : Bool
  found : Option Probing.Probe

/-- A patch's entries, each with its table. -/
def OverlayPatch.entries (patch : OverlayPatch) : List (PatchTable × List UInt8 × OverlayEntry) :=
  patch.tables.flatMap (fun patched => patched.entries.map (fun entry => (patched, entry)))

/-! ### The transaction -/

abbrev ClaimSlot : Type := Nat × List UInt8

def OverlayEntry.claimSlots (entry : OverlayEntry) : List ClaimSlot :=
  match entry.cost with
  | some cost => cost.claims.map (fun claim => (claim.treeId, claim.prefixBytes))
  | none => []

/-- Unique-index values, each with the primary key of the row claiming it, if one does. -/
abbrev Claims : Type := AList (fun _ : ClaimSlot => Option (List UInt8))

structure Totals where
  overlayKeys : Nat
  overlayBytes : Nat
  usage : PagedWriteUsage
  changedTables : List (String × Nat)
  claims : Claims
  released : Nat

structure PagedTransaction where
  baseRevision : Nat
  tables : NameMap TableOverlay
  touchedTables : List String
  totals : Totals

def tableCount (counts : List (String × Nat)) (table : String) : Option Nat :=
  (counts.find? (fun count => count.1 == table)).map Prod.snd

/-- A table's count of changed rows once `changed` is applied to it. -/
def changedCount (counts : List (String × Nat)) (table : String) (changed : Int) : Nat :=
  ((((tableCount counts table).getD 0 : Nat) : Int) + changed).toNat

def retainEntry (keys retained bytes : Nat) : Result (Nat × Nat) :=
  if keys + 1 > maxTransactionKeys then
    .error ⟨"TRANSACTION_TOO_LARGE",
      s!"A transaction cannot retain more than {maxTransactionKeys} row keys"⟩
  else if retained + bytes ≤ maxTransactionBytes then .ok (keys + 1, retained + bytes)
  else .error transactionTooLarge

def retainedBytes (table : String) (key : List UInt8) (baseBytes nextBytes : Nat) : Nat :=
  textLength table + key.length + baseBytes + nextBytes + overlayEntryBytes

def heldRowBytes (json : SerdeJson) (table : PagedTable) : HeldRow → Result Nat
  | .map row => estimatedRowBytes row
  | .stored key value => do estimatedRecordBytes json (← table.record key value)
  | .measured bytes => .ok bytes

/-- Whether the staged record differs from the committed row. Records are canonical, so equal rows
have equal records. -/
def recordChanged (json : SerdeJson) (schema : TableDefinition) :
    Option HeldRow → Option (List UInt8) → Result Bool
  | none, none => .ok false
  | some (.stored _ value), some next => .ok (value != next)
  | some (.map base), some next => do return (← encodeRow json schema base.row) != next
  | _, _ => .ok true

/-- The record a change writes, with the map it is measured as, if it has one. -/
def patchRecord (json : SerdeJson) (table : PagedTable) (key : List UInt8) :
    PatchRow → Result (Option (List UInt8) × Option RowMap)
  | .map row => do return (some (← encodeRow json table.schema row.row), some row)
  | .delete key => .ok (none, some key)
  | .record record => .ok (some record, none)
  | .remove =>
    if (table.layout.keyEstimates table.schema).isSome then .ok (none, none)
    else do
      return (none, some (keyRowMap table.schema (← table.layout.keyRow table.schema key)))

/-- A change as a write set measures it. -/
def changeRow (json : SerdeJson) (table : PagedTable) (key : List UInt8)
    (map : Option RowMap) (next : Option (List UInt8)) : Result (ChangeRow × Nat) :=
  match map, next, table.layout.keyEstimates table.schema with
  | some row, _, _ => do
    let bytes ← estimatedRowBytes row
    return (.map row bytes, bytes)
  | none, some record, _ => do
    let bytes ← estimatedRecordBytes json (← table.record key record)
    return (.record record bytes, bytes)
  | none, none, some (bytes, batchBytes) => .ok (.key bytes batchBytes, bytes)
  -- A change without a map is a record, or a delete its table's layout measures.
  | none, none, none => .ok (.key 0 0, 0)

def baseBytes (json : SerdeJson) (table : PagedTable) : Option HeldRow → Result Nat
  | some base => heldRowBytes json table base
  | none => .ok 0

/-- What a changed row costs its write set. -/
def entryCost (json : SerdeJson) (storage : PagedStorage) (table : PagedTable)
    (indexes : List PagedIndex) (key : List UInt8) (change : PatchChange) (changed : Bool)
    (measured : ChangeRow) : Result (Option ChangeCost) :=
  if changed then
    some <$> storage.changeCostIn json table indexes measured change.row.isDelete key change.base
  else .ok none

/-- The overlay entry a statement's last change to a key leaves. -/
def overlayEntry (json : SerdeJson) (storage : PagedStorage) (table : PagedTable)
    (indexes : List PagedIndex) (key : List UInt8) (change : PatchChange) :
    Result OverlayEntry := do
  let (next, map) ← patchRecord json table key change.row
  let changed ← recordChanged json table.schema change.base next
  let baseBytes ← baseBytes json table change.base
  let (measured, rowBytes) ← changeRow json table key map next
  let nextBytes := if change.row.isDelete then 0 else rowBytes
  let retained := retainedBytes table.schema.name key baseBytes nextBytes
  let cost ← entryCost json storage table indexes key change changed measured
  return ⟨⟨change.base, next⟩, changed, retained, cost⟩

namespace PagedTransaction
variable (json : SerdeJson)

def new (baseRevision : Nat) : PagedTransaction :=
  ⟨baseRevision, .new, [], ⟨0, 0, .zero, [], ∅, 0⟩⟩

def table (transaction : PagedTransaction) (table : String) : Option TableOverlay :=
  transaction.tables.get table

def ensureBaseRevision (transaction : PagedTransaction) (storage : PagedStorage) : Result Unit :=
  if storage.revision = transaction.baseRevision then .ok ()
  else .error (writeConflict transaction.baseRevision storage.revision)

/-! ### Building a patch -/

/-- The committed row of a change's key: that of the entry it replaces, or else the row planning
read, or else the row the key holds. -/
def changeBase (storage : PagedStorage) (table : String) (key : List UInt8)
    (replaced : Option OverlayEntry) (held : PreviousRow) : Result (Option HeldRow) :=
  match replaced, held with
  | some entry, _ => .ok entry.row.old
  | none, .read row => .ok row
  | none, .unread => do
    return (← storage.committedEntry table key).map (HeldRow.stored key)

/-- A statement's first change to `key`, from the committed row of the entry it replaces, or else
the row planning read, or else the row the key holds; and where the key was looked for among the
staged keys, if it was. -/
def firstChange (storage : PagedStorage) (staged : Option TableOverlay) (table : String)
    (key : List UInt8) (held : PreviousRow) (row : PatchRow) :
    Result (PatchChange × Option Probing.Probe) := do
  let isDelete := row.isDelete
  -- A key planning read no row for can be staged only by a delete.
  let hasDeletes := staged.any (fun overlay => 0 < overlay.deletes)
  let unstaged := !isDelete && !hasDeletes && held.readNothing
  let found := if unstaged then none else staged.map (fun overlay => overlay.find key)
  let replaced := staged.bind (fun overlay => found.bind overlay.entryAt)
  let replacedDelete := replaced.any (fun entry => entry.row.next.isNone)
  let base ← changeBase storage table key replaced held
  return (⟨base, row, !isDelete, replacedDelete⟩, found)

/-- The encoded key of a change. A stored row planning held is the row the change's key holds. -/
def changeKey (storage : PagedStorage) (table : String) (row : PatchRow)
    (encoded : Option (List UInt8)) (held : PreviousRow) : Result (List UInt8) :=
  match encoded, held, row with
  | some key, _, _ => .ok key
  | none, .read (some (.stored key _)), _ => .ok key
  | none, _, .map row => do encodePrimaryKey (← storage.table table).schema row.row
  | none, _, .delete row => do encodePrimaryKey (← storage.table table).schema row.row
  -- A record or a removal comes with its key.
  | none, _, _ => .ok []

/-- Each table's changes so far, in name order, and whether any replaces a staged entry. -/
structure Patching where
  patched : List (String × KeyedRows PatchChange)
  replaces : Bool

def duplicateKeyError (table : String) : EngineError :=
  .constraintViolation
    s!"SQL statement would write canonical primary key in `{table}` more than once"

/-- The place of a table among those a patch changes, which it joins if it is not there. -/
def patchPlace (patched : List (String × KeyedRows PatchChange)) (table : String) :
    List (String × KeyedRows PatchChange) × Nat :=
  let position := (patched.takeWhile (fun entry => entry.1 < table)).length
  if (patched[position]?).map Prod.fst = some table then (patched, position)
  else (patched.insertIdx position (table, .empty), position)

/-- One change of a statement of several. -/
def patchChange (transaction : PagedTransaction) (storage : PagedStorage) (patching : Patching)
    (change : RowChange × PreviousRow) : Result Patching := do
  let (table, row, encoded) := change.1.parts
  let key ← changeKey storage table row encoded change.2
  let (patched, position) := patchPlace patching.patched table
  let keyed := (((patched[position]?).map Prod.snd).getD .empty).observe key
  match keyed.getMut key with
  | some slot =>
    let upserted := ((keyed.rows[slot]?).map (fun row => row.2.upserted)).getD false
    if !row.isDelete && upserted then .error (duplicateKeyError table)
    else
      let keyed := keyed.modify slot (fun planned =>
        { planned with upserted := planned.upserted || !row.isDelete, row })
      return { patching with patched := patched.set position (table, keyed) }
  | none =>
    let staged := transaction.table table
    let (planned, found) ← firstChange storage staged table key change.2 row
    let replaces := patching.replaces || found.any (fun probe => probe.isOk)
    return ⟨patched.set position (table, keyed.insert key planned), replaces⟩

/-- A table's entries, in key order, and how many more deletes it has with them. -/
def patchEntries (storage : PagedStorage) (table : PagedTable) (indexes : List PagedIndex) :
    List (List UInt8 × PatchChange) → Result (List (List UInt8 × OverlayEntry) × Int)
  | [] => .ok ([], 0)
  | (key, change) :: changes => do
    let entry ← overlayEntry json storage table indexes key change
    let (entries, deletes) ← patchEntries storage table indexes changes
    return ((key, entry) :: entries,
      (if change.row.isDelete then 1 else 0) - (if change.replacedDelete then 1 else 0) + deletes)

def patchTables (transaction : PagedTransaction) (storage : PagedStorage) :
    List (String × KeyedRows PatchChange) → Result (List PatchTable)
  | [] => .ok []
  | (table, changes) :: patched => do
    let (entries, deletes) ← patchEntries json storage (← storage.table table)
      (storage.tableIndexes table) changes.intoSorted
    let tables ← patchTables transaction storage patched
    return ⟨table, transaction.tables.position table, entries, deletes, 0⟩ :: tables

/-- Each change with what planning read for it. -/
def withPrevious : List RowChange → List PreviousRow → List (RowChange × PreviousRow)
  | [], _ => []
  | change :: changes, previous =>
    (change, previous.headD .unread) :: withPrevious changes previous.tail

def patchChanges (transaction : PagedTransaction) (storage : PagedStorage) :
    Patching → List (RowChange × PreviousRow) → Result Patching
  | patching, [] => .ok patching
  | patching, change :: changes => do
    patchChanges transaction storage (← transaction.patchChange storage patching change) changes

/-- The overlay entries a statement's changes produce. A statement's only change needs nothing
merged with it. -/
def patch (transaction : PagedTransaction) (storage : PagedStorage) (changes : List RowChange)
    (previous : List PreviousRow) : Result OverlayPatch :=
  match withPrevious changes previous with
  | [(change, held)] => do
    let (table, row, encoded) := change.parts
    let key ← changeKey storage table row encoded held
    let place := transaction.tables.position table
    let staged := match place with
      | .ok place => transaction.tables.atPosition place
      | .error _ => none
    let (planned, found) ← firstChange storage staged table key held row
    let paged ← storage.table table
    let entry ← overlayEntry json storage paged (storage.tableIndexes table) key planned
    let deletes : Int :=
      (if row.isDelete then 1 else 0) - (if planned.replacedDelete then 1 else 0)
    return ⟨[⟨table, place, [(key, entry)], deletes, 0⟩], found.any (fun probe => probe.isOk), found⟩
  | changes => do
    let patching ← transaction.patchChanges storage ⟨[], false⟩ changes
    return ⟨← patchTables json transaction storage patching.patched, patching.replaces, none⟩

/-! ### Validating a patch -/

/-- What a validated patch changes in the totals. -/
structure TotalsChange where
  overlayKeys : Nat
  overlayBytes : Nat
  usage : PagedWriteUsage
  released : List ClaimSlot
  claimed : Claims

/-- What an overlay retains and what its write set costs. -/
structure Shares where
  overlayKeys : Nat
  overlayBytes : Nat
  usage : PagedWriteUsage

/-- The entries staged for a table of a patch, where the patch found them. -/
def stagedFor (transaction : PagedTransaction) (patched : PatchTable) : Option TableOverlay :=
  match patched.place with
  | .ok place => transaction.tables.atPosition place
  | .error _ => none

/-- The entries a patch's table replaces. -/
def replacedEntries (transaction : PagedTransaction) (patched : PatchTable) : List OverlayEntry :=
  match transaction.stagedFor patched with
  | some overlay => patched.entries.filterMap (fun entry => overlay.get entry.1)
  | none => []

def takeOut (shares : Shares) (entry : OverlayEntry) : Shares where
  overlayKeys := shares.overlayKeys - 1
  overlayBytes := shares.overlayBytes - entry.retained
  usage := match entry.cost with
    | some cost => shares.usage.minus cost.usage
    | none => shares.usage

def costed (entries : List OverlayEntry) : Int :=
  (entries.countP (fun entry => entry.cost.isSome) : Nat)

def addCost (usage : PagedWriteUsage) : Option ChangeCost → Result PagedWriteUsage
  | some cost => usage.plus cost.usage
  | none => .ok usage

def addShare : Shares → List OverlayEntry → Result Shares
  | shares, [] => .ok shares
  | shares, entry :: entries => do
    let (overlayKeys, overlayBytes) ←
      retainEntry shares.overlayKeys shares.overlayBytes entry.retained
    let usage ← addCost shares.usage entry.cost
    addShare ⟨overlayKeys, overlayBytes, usage⟩ entries

/-- The row holding a unique value: one that claims it in the patch, or one that claimed it before
and does not give it up. -/
def holder (transaction : PagedTransaction) (released : List ClaimSlot) (claimed : Claims)
    (slot : ClaimSlot) : Option (List UInt8) :=
  ((claimed.lookup slot).join).or
    (if released.contains slot then none else (transaction.totals.claims.lookup slot).join)

/-- Whether the transaction changes a row, once the patch is in place. -/
def changesRow (transaction : PagedTransaction) (patched : PatchTable) (key : List UInt8) : Bool :=
  ((patched.entry key).or
      ((transaction.stagedFor patched).bind (fun overlay => overlay.get key))).any
    (fun entry => entry.cost.isSome)

def claimValues (transaction : PagedTransaction) (storage : PagedStorage)
    (released : List ClaimSlot) (patched : PatchTable) (key : List UInt8) :
    List UniqueClaim → Claims → Result Claims
  | [], claimed => .ok claimed
  | claim :: claims, claimed =>
    let slot := (claim.treeId, claim.prefixBytes)
    if (transaction.holder released claimed slot).any (fun holder => holder != key) ||
        claim.owners.any (fun owner => owner != key && !transaction.changesRow patched owner) then
      .error (storage.uniqueViolationIn claim.treeId)
    else claimValues transaction storage released patched key claims
      (claimed.insert slot (some key))

/-- The claims of the patch's entries, each with the table it is in. -/
def claimEntries (transaction : PagedTransaction) (storage : PagedStorage)
    (released : List ClaimSlot) :
    List (PatchTable × List UInt8 × OverlayEntry) → Claims → Result Claims
  | [], claimed => .ok claimed
  | (patched, key, entry) :: entries, claimed => do
    let claims := (entry.cost.map (fun cost => cost.claims)).getD []
    claimEntries transaction storage released entries
      (← transaction.claimValues storage released patched key claims claimed)

/-- Fails if a row changed back to its committed state holds a value another row claims. -/
def checkValues (transaction : PagedTransaction) (storage : PagedStorage)
    (released : List ClaimSlot) (claimed : Claims) (key : List UInt8) :
    List ClaimSlot → Result Unit
  | [] => .ok ()
  | slot :: slots =>
    if (transaction.holder released claimed slot).any (fun holder => holder != key) then
      .error (storage.uniqueViolationIn slot.1)
    else checkValues transaction storage released claimed key slots

def checkRestored (transaction : PagedTransaction) (storage : PagedStorage)
    (released : List ClaimSlot) (claimed : Claims) :
    List (PatchTable × List UInt8 × OverlayEntry) → Result Unit
  | [] => .ok ()
  | (patched, key, entry) :: entries =>
    match entry.cost, entry.row.old with
    | none, some base => do
      let slots ← storage.uniqueValues json patched.table base
      transaction.checkValues storage released claimed key slots
      checkRestored transaction storage released claimed entries
    | _, _ => checkRestored transaction storage released claimed entries

/-- The operations charged once for each table with changed rows once the patch is in place. -/
def patchOperations (transaction : PagedTransaction) (storage : PagedStorage)
    (tables : List PatchTable) : Nat :=
  let counted := transaction.totals.changedTables
  let changed := fun table => ((tables.find? (fun patched => patched.table == table)).map
    (fun patched => patched.changed)).getD 0
  ((counted.filter (fun count => (count.2 : Int) + changed count.1 ≠ 0)).map
      (fun count => storage.catalogOperations count.1)).sum +
    ((tables.filter (fun patched =>
        (tableCount counted patched.table).isNone && 0 < patched.changed)).map
      (fun patched => storage.catalogOperations patched.table)).sum

def validatePatch (transaction : PagedTransaction) (storage : PagedStorage)
    (patch : OverlayPatch) : Result (OverlayPatch × TotalsChange) := do
  let totals := transaction.totals
  -- A patch of new keys, such as an insert's, replaces nothing.
  let replaced := fun patched =>
    if patch.replaces then transaction.replacedEntries patched else []
  let out := patch.tables.flatMap replaced
  let shares ← addShare (out.foldl takeOut ⟨totals.overlayKeys, totals.overlayBytes, totals.usage⟩)
    (patch.entries.map (fun entry => entry.2.2))
  let tables := patch.tables.map (fun patched => { patched with
    changed := costed (patched.entries.map Prod.snd) - costed (replaced patched) })
  let patch := { patch with tables }
  let released := out.flatMap OverlayEntry.claimSlots
  let claimed ← transaction.claimEntries storage released patch.entries ∅
  transaction.checkRestored json storage released claimed patch.entries
  let _ ← shares.usage.withOperations (transaction.patchOperations storage tables)
  return (patch, ⟨shares.overlayKeys, shares.overlayBytes, shares.usage, released, claimed⟩)

/-! ### Staging a statement -/

def countChanged (counts : List (String × Nat)) (patched : PatchTable) : List (String × Nat) :=
  let count := changedCount counts patched.table patched.changed
  if (tableCount counts patched.table).isSome then
    counts.map (fun entry => if entry.1 == patched.table then (entry.1, count) else entry)
  else if 0 < count then
    counts.insertIdx (counts.takeWhile (fun entry => entry.1 < patched.table)).length
      (patched.table, count)
  else counts

def touch (touched : List String) (table : String) : List String :=
  let position := (touched.takeWhile (fun name => name < table)).length
  if touched[position]? = some table then touched else touched.insertIdx position table

/-- Installs one table's part of a patch in the overlay found for it, or in a new one. -/
def installTable (transaction : PagedTransaction) (found : Option Probing.Probe)
    (patched : PatchTable) : PagedTransaction :=
  let overlay := ((transaction.stagedFor patched).getD .empty).install patched.entries
    patched.deletes found
  { transaction with
    tables := transaction.tables.put patched.place patched.table overlay
    touchedTables := if patched.place.isOk then transaction.touchedTables
      else touch transaction.touchedTables patched.table }

/-- Installs a patch's tables, the first of the list last, so that each is installed where its
overlay was found. -/
def installTables (transaction : PagedTransaction) (found : Option Probing.Probe) :
    List PatchTable → PagedTransaction
  | [] => transaction
  | patched :: tables => (transaction.installTables found tables).installTable found patched

/-- Gives up claims, counting those given up. -/
def releaseClaims (claims : Claims) (released : Nat) : List ClaimSlot → Claims × Nat
  | [] => (claims, released)
  | slot :: slots =>
    if (claims.lookup slot).isSome then releaseClaims (claims.insert slot none) (released + 1) slots
    else releaseClaims claims released slots

/-- Adds claims, each in place of the value's holder. -/
def extendClaims (claims claimed : Claims) : Claims :=
  claimed.entries.foldl (fun claims claim => claims.insert claim.1 claim.2) claims

def stage (transaction : PagedTransaction) (storage : PagedStorage) (changes : List RowChange)
    (previous : List PreviousRow) : Result PagedTransaction := do
  transaction.ensureBaseRevision storage
  if changes.isEmpty then return transaction
  else
    let patch ← transaction.patch json storage changes previous
    let (patch, change) ← transaction.validatePatch json storage patch
    let totals := transaction.totals
    let changedTables := patch.tables.foldl countChanged totals.changedTables
    let installed := transaction.installTables patch.found patch.tables
    let (claims, released) := releaseClaims totals.claims totals.released change.released.dedup
    let claims := extendClaims claims change.claimed
    -- Values given up are left in place, and the map rebuilt once they are many.
    let (claims, released) :=
      if released > 64 && released > claims.entries.length / 2 then
        (Indexed.retain claims (fun _ holder => holder.isSome), 0)
      else (claims, released)
    return { installed with
      totals := ⟨change.overlayKeys, change.overlayBytes, change.usage, changedTables, claims,
        released⟩ }

/-- The transaction once an ordered walk of a table's staged rows has put them in order. -/
def merged (transaction : PagedTransaction) (table : String) : PagedTransaction :=
  match transaction.tables.position table with
  | .ok place =>
    match transaction.tables.atPosition place with
    | some overlay => { transaction with tables := transaction.tables.setAt place overlay.merged }
    | none => transaction
  | .error _ => transaction

end PagedTransaction

/-! ### Reading through a transaction -/

/-- A reader of the committed database and what a transaction has staged over it, which charges
its work to a budget among the state its callbacks share, if it has one. -/
structure PagedReadView (σ : Type) where
  storage : PagedStorage
  transaction : Option PagedTransaction
  work : Option (Nat → σ → Result σ)

/-- A primary key to look a row up by: a map of its columns, or their values in key order. -/
inductive PrimaryKey where
  | ofRow (row : Row)
  | ofValues (values : List Value)

def encodeKeyValues (schema : TableDefinition) : List UInt8 → List (String × Value) →
    Result (List UInt8)
  | key, [] => .ok key
  | key, (column, value) :: columns => do
    let dataType ← schemaColumnType schema column
    let key ← encodeComponent key dataType value schema.name column
    validateKeySize key
    encodeKeyValues schema key columns

def PrimaryKey.encode (schema : TableDefinition) : PrimaryKey → Result (List UInt8)
  | .ofRow row => encodePrimaryKey schema row
  | .ofValues values => encodeKeyValues schema [] (schema.primaryKey.zip values)

namespace PagedReadView
variable {σ : Type}

def ensureBaseRevision (view : PagedReadView σ) : Result Unit :=
  match view.transaction with
  | some transaction => transaction.ensureBaseRevision view.storage
  | none => .ok ()

def chargeWork (view : PagedReadView σ) (operations : Nat) (s : σ) : Result σ :=
  match view.work with
  | some work => work operations s
  | none => .ok s

def overlay (view : PagedReadView σ) (table : String) : Option TableOverlay :=
  view.transaction.bind (fun transaction => transaction.table table)

/-- Visits the row of a primary key: the row staged there, if one is, or else the committed row. -/
def visitKey (view : PagedReadView σ) (table : String) (key : PrimaryKey)
    (visitor : StoredRecord → σ → Result (VisitControl × σ)) (s : σ) :
    Result (VisitOutcome × σ) := do
  view.ensureBaseRevision
  let s ← view.chargeWork 1 s
  let paged ← view.storage.table table
  let key ← key.encode paged.schema
  match (view.overlay table).bind (fun overlay => overlay.get key) with
  | some entry =>
    match entry.row.next with
    | some record =>
      let (control, s) ← visitor (← paged.record key record) s
      return (if control = .stop then .stopped else .complete, s)
    | none => return (.complete, s)
  | none => view.storage.visitEntry paged key visitor s

/-- Presents the staged rows that differ from their committed ones. -/
def presentStaged (view : PagedReadView σ) (paged : PagedTable) (filter : Option Filter)
    (calls : Callbacks σ) :
    List (List UInt8 × OverlayEntry) → σ → Result (VisitOutcome × σ)
  | [], s => .ok (.complete, s)
  | (key, entry) :: entries, s => do
    let s ← view.chargeWork 1 s
    if !entry.changed then presentStaged view paged filter calls entries s
    else
      match entry.row.next with
      | none => presentStaged view paged filter calls entries s
      | some record =>
        let s ← calls.scanned 1 s
        let row ← paged.record key record
        if !(← acceptsRow filter true row) then presentStaged view paged filter calls entries s
        else
          let (control, s) ← calls.visitor row s
          if control = .stop then return (.stopped, s)
          else presentStaged view paged filter calls entries s

/-- Visits the table's rows as the transaction sees them: the committed rows, except those the
transaction replaced, and then the rows it staged. -/
def visitRowsWhere (view : PagedReadView σ) (table : String) (range : Option KeyRange)
    (order : KeyOrder) (filter : Option Filter) (scanned : Nat → σ → Result σ)
    (visitor : StoredRecord → σ → Result (VisitControl × σ)) (s : σ) :
    Result (VisitOutcome × σ) := do
  view.ensureBaseRevision
  let calls : Callbacks σ := ⟨view.chargeWork, scanned, visitor⟩
  match view.overlay table with
  | none => view.storage.visitRowsWhere table range order [] filter calls s
  | some overlay =>
    let replaced := (overlay.ordered.filter (fun row => row.2.changed)).map Prod.fst
    let (outcome, s) ←
      view.storage.visitRowsWhere table none .ascending replaced filter calls s
    if outcome = .stopped then return (.stopped, s)
    else view.presentStaged (← view.storage.table table) filter calls overlay.ordered s

def readsCommitted (view : PagedReadView σ) (table : String) : Bool :=
  match view.transaction with
  | none => true
  | some transaction => (tableCount transaction.totals.changedTables table).getD 0 = 0

def visitTable (view : PagedReadView σ) (table : String)
    (visitor : StoredRecord → σ → Result (VisitControl × σ)) (s : σ) :
    Result (VisitOutcome × σ) :=
  view.visitRowsWhere table none .ascending none (fun _ s => .ok s) visitor s

def visitTableWhere (view : PagedReadView σ) (table : String) (filter : Filter)
    (scanned : Nat → σ → Result σ) (visitor : StoredRecord → σ → Result (VisitControl × σ))
    (s : σ) : Result (VisitOutcome × σ) :=
  view.visitRowsWhere table none .ascending (some filter) scanned visitor s

def visitTableRange (view : PagedReadView σ) (table : String) (range : KeyRange)
    (order : KeyOrder) (visitor : StoredRecord → σ → Result (VisitControl × σ)) (s : σ) :
    Result (VisitOutcome × σ) :=
  view.visitRowsWhere table (some range) order none (fun _ s => .ok s) visitor s

def visitsIndexes (view : PagedReadView σ) (table : String) : Bool := view.readsCommitted table

/-- A table's row count with its staged entries counted in. -/
def countStaged : List (List UInt8 × OverlayEntry) → Nat → Result Nat
  | [], count => .ok count
  | (_, entry) :: entries, count =>
    match entry.row.old.isSome, entry.row.next.isSome with
    | false, true => countStaged entries (count + 1)
    | true, false =>
      if count = 0 then
        .error ⟨"STORAGE_CORRUPT",
          "A transaction delete exceeds the committed table row count"⟩
      else countStaged entries (count - 1)
    | _, _ => countStaged entries count

def tableRowCount (view : PagedReadView σ) (table : String) : Result Nat := do
  view.ensureBaseRevision
  let count ← view.storage.tableRowCount table
  match view.overlay table with
  | some overlay => countStaged overlay.ordered count
  | none => return count

/-- The row a transaction stages for a primary key, if it stages one or none there. -/
def lookupStaged (json : SerdeJson) (view : PagedReadView σ) (table : String) (key : Row) :
    Result (Option (Option Row)) :=
  match view.transaction with
  | none => .ok none
  | some transaction => do
    let paged ← view.storage.table table
    let encodedKey ← encodePrimaryKey paged.schema key
    match (transaction.table table).bind (fun overlay => overlay.get encodedKey) with
    | none => return none
    | some entry =>
      match entry.row.next with
      | none => return some none
      | some record => return some (some (← (← paged.record encodedKey record).toRow json))

def lookupPrimaryKey (json : SerdeJson) (view : PagedReadView σ) (table : String) (key : Row)
    (s : σ) : Result (Option Row × σ) := do
  view.ensureBaseRevision
  let s ← view.chargeWork 1 s
  match ← view.lookupStaged json table key with
  | some row => return (row, s)
  | none => return (← view.storage.lookupPrimaryKey json table key, s)

def visitPrimaryKey (view : PagedReadView σ) (table : String) (key : Row)
    (visitor : StoredRecord → σ → Result (VisitControl × σ)) (s : σ) :
    Result (VisitOutcome × σ) :=
  view.visitKey table (.ofRow key) visitor s

def visitPrimaryKeyValues (view : PagedReadView σ) (table : String) (values : List Value)
    (visitor : StoredRecord → σ → Result (VisitControl × σ)) (s : σ) :
    Result (VisitOutcome × σ) :=
  view.visitKey table (.ofValues values) visitor s

def holdsEncodedKey (view : PagedReadView σ) (table : String) (key : List UInt8) (s : σ) :
    Result (Bool × σ) := do
  view.ensureBaseRevision
  let s ← view.chargeWork 1 s
  match (view.overlay table).bind (fun overlay => overlay.get key) with
  | some entry => return (entry.row.next.isSome, s)
  | none => return ((← view.storage.committedEntry table key).isSome, s)

/-- The record a key holds, as a writer keeps it. -/
def heldEncodedKey (view : PagedReadView σ) (table : String) (key : List UInt8) (s : σ) :
    Result (Option (List UInt8) × σ) := do
  view.ensureBaseRevision
  let s ← view.chargeWork 1 s
  let paged ← view.storage.table table
  match (view.overlay table).bind (fun overlay => overlay.get key) with
  | some entry =>
    match entry.row.next with
    | some record =>
      let _ ← paged.record key record
      return (some record, s)
    | none => return (none, s)
  | none => return (← view.storage.committedEntryOf paged key, s)

end PagedReadView
end TinyJoin
