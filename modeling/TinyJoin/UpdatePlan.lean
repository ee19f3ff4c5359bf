import TinyJoin.DataModification

/-! Planning an UPDATE: the row that each matching row is replaced with, where it goes, and the changes
that put them all there. -/
namespace TinyJoin

/-- What a column is assigned. -/
inductive Assigned where
  | default
  | expression (expression : Expression)

/-! ### Assignments -/

section Assignments
variable (json : SerdeJson)

/-- The columns that are given one value for every row, with their values, and those whose value is
worked out from each row, with their expressions. -/
def resolveAssignments (schema : TableDefinition) (table : String) :
    List (String × Assigned) → Result (List (String × Value) × List (String × Expression))
  | [] => .ok ([], [])
  | (column, .default) :: assignments => do
    let value ← columnDefault schema column
    let (resolved, computed) ← resolveAssignments schema table assignments
    return ((column, value) :: resolved, computed)
  | (column, .expression expression) :: assignments =>
    if expression.readsRow then do
      let definition ← columnDefinition schema column table
      checkAssignment expression definition table
        (fun column => do return (← columnDefinition schema column table).dataType)
      let (resolved, computed) ← resolveAssignments schema table assignments
      return (resolved, (column, expression) :: computed)
    else do
      let value ← constant expression
      let (resolved, computed) ← resolveAssignments schema table assignments
      return ((column, value) :: resolved, computed)

def assignmentBytesFrom (limits : TextLimits) (schema : TableDefinition) (table : String) :
    Nat → List (String × Value) → Result Nat
  | bytes, [] => .ok bytes
  | bytes, (column, value) :: assignments => do
    let definition ← columnDefinition schema column table
    definition.validateValue json limits value table
    let valueBytes ← estimatedValueBytes json value
    assignmentBytesFrom limits schema table
      (bytes + (textLength column * 2 + (valueBytes * 2 + 64))) assignments

end Assignments

/-! ### Rows rewritten as records -/

/-- What rewriting rows straight into records needs, where no assignment can change a row's key or
needs the row, and nothing is returned. -/
structure RecordUpdate where
  layout : RecordLayout
  /-- Each column's assigned value, by schema position. -/
  assigned : List (Option Value)
  /-- The most JSON text that a row can take apart from its stored values. -/
  bound : Nat

namespace RecordUpdate

/-- The assigned values by schema position, unless one is of a key column. -/
def assignedFrom (schema : TableDefinition) :
    List (Option Value) → List (String × Value) → Option (List (Option Value))
  | assigned, [] => some assigned
  | assigned, (name, value) :: assignments =>
    match schema.columns.findIdx? (fun column => column.name == name) with
    | some position =>
      if name ∈ schema.primaryKey then none
      else assignedFrom schema (assigned.set position (some value)) assignments
    | none => none

/-- The loop that adds up the bounds of the columns' values. Only encoding a JSON value that a row
keeps measures it. -/
def boundFrom : Nat → List (ColumnDefinition × Option Value) → Option Nat
  | bound, [] => some bound
  | bound, (column, value) :: columns => do
    let valueBound ← match value with
      | some value => jsonScalarBound value
      | none =>
        if column.dataType = .json then none else jsonScalarBound (column.default.getD .null)
    boundFrom (bound + valueBound) columns

def new (reader : StorageReader) (schema : TableDefinition) (assignments : List (String × Value))
    (returning : Option (List String)) : Option RecordUpdate := do
  let layout ← (reader.recordLayout schema.name).filter (fun _ => returning.isNone)
  let assigned ← assignedFrom schema (List.replicate schema.columns.length none) assignments
  let bound ← boundFrom (rowJsonOverhead schema) (schema.columns.zip assigned)
  return ⟨layout, assigned, bound⟩

/-- Whether the row's JSON text, with the assigned values, cannot pass the row limit. -/
def fits (plan : RecordUpdate) (record : StoredRecord) : Bool :=
  decide ((record.key.length + record.value.length) * 6 + plan.assigned.length * 25 + plan.bound ≤
    maxLogicalRowBytes)

/-- The stored record that a row is read from, where the row can be planned as one. -/
def record (plan : RecordUpdate) (row : RowRef) : Option StoredRecord :=
  row.stored.filter plan.fits

end RecordUpdate

/-! ### Planning the rows -/

/-- What a matching row is replaced with. -/
inductive UpdatedRow where
  /-- A row planned as a map: its old key's columns, its new key, and itself. -/
  | map (oldPrimaryKey : RowMap) (newKey : List UInt8) (newRow : RowMap)
  /-- A row that keeps its key, planned as the record it is rewritten with. -/
  | record (record : List UInt8)

structure PlannedUpdate where
  oldKey : List UInt8
  /-- The row being updated, where it is kept for the writer. -/
  oldRow : Option HeldRow
  next : UpdatedRow

def PlannedUpdate.newKey (update : PlannedUpdate) : List UInt8 :=
  match update.next with
  | .map _ newKey _ => newKey
  | .record _ => update.oldKey

/-- What an UPDATE is found to do before it reads a row. -/
structure UpdatePlan where
  table : String
  schema : TableDefinition
  limits : TextLimits
  resolved : List (String × Value)
  computed : List (String × Expression)
  assignmentBytes : Nat
  records : Option RecordUpdate
  returning : Option (List String)

/-- What the loop over the matching rows has planned so far. -/
structure Updating where
  updates : List PlannedUpdate
  kept : Nat
  returned : List RowMap
  workBytes : Nat
  resultBytes : Nat

section Planning
variable (json : SerdeJson)

/-- The values of expressions over a row as it was. -/
def computeValues (table : String) (row : RowMap) :
    List (String × Expression) → Result (List (String × Value))
  | [] => .ok []
  | (column, expression) :: computed => do
    let value ← evaluate (fun name _ => rowColumn row name table) expression
    return (column, value) :: (← computeValues table row computed)

def insertValues (row : RowMap) (values : List (String × Value)) : RowMap :=
  values.foldl (fun row value => row.insert value.1 value.2) row

/-- The row that a matching row's map is replaced with, and what it is charged at with its old key. -/
def updateMap (plan : UpdatePlan) (row : RowMap) : Result (UpdatedRow × Nat × Nat) := do
  let oldPrimaryKey ← primaryKeyRow plan.schema row
  let values ← computeValues plan.table row plan.computed
  let newRow ← normalizeRow json plan.limits plan.schema
    (insertValues (insertValues row plan.resolved) values)
  let keyBytes ← primaryTupleBytes plan.schema newRow.row 0 plan.schema.primaryKey
  ensureStorageKeyBytes keyBytes
  let newKey ← encodePrimaryKey plan.schema newRow.row
  return (.map oldPrimaryKey newKey newRow, ← estimatedRowBytes newRow,
    ← estimatedRowBytes oldPrimaryKey)

/-- The record that a matching row's is replaced with, which keeps its key. -/
def updateRecord (plan : UpdatePlan) (records : RecordUpdate) (oldKey : List UInt8)
    (record : StoredRecord) : Result (UpdatedRow × Nat × Nat) := do
  let next ← encodeUpdatedRecord json record records.assigned
  let bytes ← estimatedRecordBytes json
    (← StoredRecord.new plan.schema records.layout oldKey next)
  return (.record next, bytes, ← estimatedKeyBytes record)

/-- Takes a row that returns something into the rows returned. -/
def returnRow (plan : UpdatePlan) (updating : Updating) : UpdatedRow → Result Updating
  | .map _ _ newRow =>
    match plan.returning with
    | some columns => do
      let resultBytes ← retainReturnedRow json updating.resultBytes newRow columns
      let row ← projectReturningRow newRow columns plan.table
      return { updating with resultBytes, returned := updating.returned ++ [row] }
    | none => .ok updating
  | .record _ => .ok updating

/-- A row that moves takes a second change. -/
def retainMoved (current : Nat) (table : String) (update : PlannedUpdate) : Result Nat :=
  if update.oldKey ≠ update.newKey then retainDmlChange current table else .ok current

/-- Takes the row that a matching row is replaced with into the plan, which keeps what the row was
where there is room for it. -/
def planUpdated (plan : UpdatePlan) (updating : Updating) (row : RowRef) (oldKey : List UInt8)
    (replaced : Result (UpdatedRow × Nat × Nat)) : Result Updating := do
  let heldBytes ← row.heldBytes
  let fitting := keptFits updating.kept heldBytes
  let (next, nextBytes, keyBytes) ← replaced
  let update : PlannedUpdate := ⟨oldKey, if fitting.1 then some row.hold else none, next⟩
  let workBytes := updating.workBytes + nextBytes + keyBytes +
    (oldKey.length + (update.newKey.length + 192))
  ensureDmlWorkBytes workBytes
  let workBytes ← retainDmlChange workBytes plan.table
  let workBytes ← retainMoved workBytes plan.table update
  let updating ← returnRow json plan { updating with kept := fitting.2, workBytes } next
  return { updating with updates := updating.updates ++ [update] }

/-- What the visitor makes of one matching row. -/
def planRow (plan : UpdatePlan) (updating : Updating) (row : RowRef) : Result Updating :=
  if updating.updates.length = maxDmlChangedRows then .error dmlChangedRowsError
  else
    match plan.records.bind (fun records => (records.record row).map (fun record => (records, record)))
    with
    | some (records, record) => do
      let oldRowBytes ← estimatedRecordBytes json record
      ensureDmlWorkBytes (updating.workBytes + (oldRowBytes * 3 + (plan.assignmentBytes + 256)))
      let oldKey ← row.encodedKey plan.schema
      planUpdated json plan updating row oldKey (updateRecord json plan records oldKey record)
    | none => do
      let map ← row.toRow json plan.schema
      let oldRowBytes ← estimatedRowBytes map
      ensureDmlWorkBytes (updating.workBytes + (oldRowBytes * 3 + (plan.assignmentBytes + 256)))
      let oldKey ← row.encodedKey plan.schema
      planUpdated json plan updating row oldKey (updateMap json plan map)

def prepareUpdate (reader : DmlReader) (table : String) (assignments : List (String × Assigned))
    (returning : Option (List String)) : Result UpdatePlan := do
  let schema ← reader.tableSchema table
  validateNamedColumns schema (assignments.map Prod.fst)
  validateProjection schema returning
  let (resolved, computed) ← resolveAssignments schema table assignments
  let limits := reader.textLimits table
  let assignmentBytes ← assignmentBytesFrom json limits schema table 0 resolved
  ensureDmlWorkBytes assignmentBytes
  let records := if computed.isEmpty then
      RecordUpdate.new reader.toStorageReader schema resolved returning
    else none
  return { table, schema, limits, resolved, computed, assignmentBytes, records, returning }

def planRows (plan : UpdatePlan) (visit : Visit) : Result Updating :=
  visit.fold (planRow json plan) ⟨[], 0, [], 0, 0⟩

/-! ### Where the rows go -/

/-- The loop over the rows' new keys, of which each is to be one that no other row takes and that no
row stays at. New keys are distinct, so that one among the old keys is an updated row's. -/
def checkDestinations (reader : DmlReader) (table : String) :
    List PlannedUpdate → List (List UInt8) → List (List UInt8) → Result Unit
  | [], _, _ => .ok ()
  | update :: updates, oldKeys, destinations =>
    if update.newKey ∈ destinations then .error (duplicatePrimaryKey "UPDATE of" table)
    else
      match update.next with
      | .map _ newKey newRow =>
        if newKey ≠ update.oldKey ∧ newKey ∉ oldKeys then do
          if ← reader.holdsPrimaryKey table newRow then
            .error (duplicatePrimaryKey "UPDATE of" table)
          else
            checkDestinations reader table updates (newKey :: oldKeys) (newKey :: destinations)
        else checkDestinations reader table updates oldKeys (update.newKey :: destinations)
      | .record _ => checkDestinations reader table updates oldKeys (update.newKey :: destinations)

/-- Rows that all keep their keys, each visited once, collide with none. -/
def checkKeys (reader : DmlReader) (table : String) (updates : List PlannedUpdate) : Result Unit :=
  if updates.any (fun update => decide (update.newKey ≠ update.oldKey)) then
    checkDestinations reader table updates (updates.map PlannedUpdate.oldKey) []
  else .ok ()

/-! ### The changes -/

namespace PlannedUpdate

def read (update : PlannedUpdate) : PreviousRow :=
  match update.oldRow with
  | some row => .read (some row)
  | none => .unread

/-- The delete of a row that moves from its old key. -/
def deleted (table : String) (update : PlannedUpdate) : Option (RowChange × PreviousRow) :=
  match update.next with
  | .map oldPrimaryKey newKey _ =>
    if update.oldKey ≠ newKey then some (.delete table oldPrimaryKey, update.read) else none
  | .record _ => none

/-- The write of a row. What a new key holds is left for the writer to read. -/
def upserted (table : String) (update : PlannedUpdate) : RowChange × PreviousRow :=
  match update.next with
  | .map _ newKey newRow =>
    (.upsert table newRow, if update.oldKey ≠ newKey then .unread else update.read)
  | .record record => (.put table update.oldKey record, update.read)

end PlannedUpdate

/-- The places of the two changes of each row that moves, behind `deletes` and `upserts` of the rows
before. -/
def movedFrom (table : String) : Nat → Nat → List PlannedUpdate → List (Nat × Nat)
  | _, _, [] => []
  | deletes, upserts, update :: updates =>
    if (update.deleted table).isSome then
      (deletes, upserts) :: movedFrom table (deletes + 1) (upserts + 1) updates
    else movedFrom table deletes (upserts + 1) updates

/-- Deletes of the rows that move come before the writes. -/
def plannedChanges (table : String) (updates : List PlannedUpdate) :
    List (RowChange × PreviousRow) :=
  updates.filterMap (PlannedUpdate.deleted table) ++ updates.map (PlannedUpdate.upserted table)

def planUpdate (reader : DmlReader) (table : String) (assignments : List (String × Assigned))
    (visit : Visit) (returning : Option (List String)) : Result PlannedDml := do
  let plan ← prepareUpdate json reader table assignments returning
  let updating ← planRows json plan visit
  let updates := updating.updates
  checkKeys reader table updates
  let changes := plannedChanges table updates
  let deletes := (updates.filterMap (PlannedUpdate.deleted table)).length
  let rowCount := updates.length
  let tables := if rowCount > 0 then [table] else []
  return {
    outcome := ⟨"UPDATE", rowCount, updating.returned, tables, decide (rowCount > 0)⟩
    changes := changes.map Prod.fst
    previous := changes.map Prod.snd
    moved := movedFrom table 0 deletes updates }

end Planning
end TinyJoin
