import TinyJoin.Aggregates

/-! An aggregate query over the rows of a visit: its groups, which are found by the hash of their values and
ordered in the end by their keys, and the rows that it returns of them. -/
namespace TinyJoin

/-- The bytes of a group's key. -/
def groupKeyBytes (parts : List (List Char)) : List UInt8 :=
  textBytes (String.ofList (encodeGroupKey parts))

structure Group where
  values : List GroupValue
  /-- The group's encoded key, whose bytes order as the key does. -/
  key : List UInt8
  state : GroupState

/-- A query's groups, in the order in which they were found. -/
structure Groups where
  entries : List Group
  /-- Each group's position, by the hash of its values. -/
  index : UInt64 → List Nat

/-- A candidate row of a query's predicate, and whether the predicate's filter accepts it. -/
structure Candidate where
  row : VisitedRow
  accepted : Bool

/-- The candidates that a visit presents, in order, and the error that it ends with, if it does not come to
the end of them. -/
structure CandidateVisit where
  candidates : List Candidate
  failure : Option EngineError

structure QueryResult where
  fields : List ResultField
  rows : List RowMap

section Queries
variable (json : SerdeJson) (hash : List GroupValue → UInt64) (schema : TableDefinition)

/-! ### Groups -/

def readGroupValue (row : VisitedRow) (column : SourceColumn) : Result GroupValue := do
  groupValue column.dataType column.name (← row.get json schema column.index)

def groupHash (columns : List SourceColumn) (row : VisitedRow) : Result UInt64 := do
  return hash (← columns.mapM (readGroupValue json schema row))

def readKeyPart (row : VisitedRow) (column : SourceColumn) : Result (List Char) := do
  groupKeyPartOf column.dataType column.name (← row.get json schema column.index)

def groupKey (columns : List SourceColumn) (row : VisitedRow) : Result (List UInt8) := do
  return groupKeyBytes (← columns.mapM (readKeyPart json schema row))

/-- Whether a row's values are those of a group, read up to the first that is not. -/
def hasValues (row : VisitedRow) : List (SourceColumn × GroupValue) → Result Bool
  | [] => .ok true
  | (column, value) :: rest => do
    let read ← readGroupValue json schema row column
    if read = value then hasValues row rest else return false

namespace Groups

/-- The first of some positions whose group the row belongs to, with the group. -/
def search (groups : Groups) (columns : List SourceColumn) (row : VisitedRow) :
    List Nat → Result (Option (Nat × Group))
  | [] => .ok none
  | position :: positions =>
    match groups.entries[position]? with
    | none => search groups columns row positions -- no position is past the last group
    | some group => do
      if ← hasValues json schema row (columns.zip group.values) then
        return some (position, group)
      else search groups columns row positions

def find (groups : Groups) (columns : List SourceColumn) (row : VisitedRow) :
    Result (Option (Nat × Group)) := do
  let hashed ← groupHash json hash schema columns row
  groups.search json schema columns row (groups.index hashed)

def insert (groups : Groups) (columns : List SourceColumn) (row : VisitedRow) (key : List UInt8)
    (state : GroupState) : Result Groups := do
  let values ← columns.mapM (readGroupValue json schema row)
  let hashed ← groupHash json hash schema columns row
  return ⟨groups.entries ++ [⟨values, key, state⟩], fun other =>
    if other = hashed then groups.index other ++ [groups.entries.length] else groups.index other⟩

def set (groups : Groups) (position : Nat) (group : Group) : Groups :=
  { groups with entries := groups.entries.set position group }

def keyAt (groups : Groups) (position : Nat) : List UInt8 :=
  ((groups.entries[position]?).map Group.key).getD []

def intoStates (groups : Groups) : List GroupState :=
  (LazyOrder.sortKeyed groups.keyAt (List.range groups.entries.length)).filterMap
    (fun position => (groups.entries[position]?).map Group.state)

end Groups

def groupKeyInputBytes (row : VisitedRow) : Nat → List SourceColumn → Result Nat
  | bytes, [] => .ok bytes
  | bytes, column :: columns => do
    let value ← row.get json schema column.index
    groupKeyInputBytes row
      (bytes + 16 + textLength column.name * 2 + (← incomingBytes value) * 14) columns

def ensureGroupKeyInputBudget (columns : List SourceColumn) (row : VisitedRow) : Result Unit := do
  ensureWorkBudget (← groupKeyInputBytes json schema row 32 columns)

/-! ### The visit -/

/-- What the visit has come to: the one group of a query that groups by nothing, or else its groups, what
they are charged, and the rows scanned. -/
structure Aggregating where
  global : Option GroupState
  groups : Groups
  workingBytes : Nat
  scanned : Nat

namespace Aggregating

def start (plan : AggregatePlan) : Result Aggregating :=
  if plan.groupBy.isEmpty then do
    let state ← GroupState.new json schema plan none
    ensureWorkBudget state.estimatedBytes
    return ⟨some state, ⟨[], fun _ => []⟩, state.estimatedBytes, 0⟩
  else .ok ⟨none, ⟨[], fun _ => []⟩, 0, 0⟩

def scan (s : Aggregating) : Result Aggregating :=
  if s.scanned + 1 > maxScanRows then .error scanLimitError
  else .ok { s with scanned := s.scanned + 1 }

variable (plan : AggregatePlan) (columns : List SourceColumn)

/-- The first row of a group. -/
def addGroup (s : Aggregating) (row : VisitedRow) : Result Aggregating :=
  let count := s.groups.entries.length
  let aggregateCount := plan.items.countP (fun item => item.expression.isAggregate)
  if count ≥ maxGroups then .error groupLimitError
  else if (count + 1) * aggregateCount > maxAggregateCells then .error cellLimitError
  else do
    ensureGroupKeyInputBudget json schema columns row
    let key ← groupKey json schema columns row
    let state ← GroupState.new json schema plan (some row)
    let charge := 256 + key.length * 2 + (← state.estimatedBytesAfter json schema row)
    ensureWorkBudget (s.workingBytes + charge)
    let state ← state.update json schema row
    let groups ← s.groups.insert json hash schema columns row key state
    return { s with groups := groups, workingBytes := s.workingBytes + charge }

def add (s : Aggregating) (row : VisitedRow) : Result Aggregating :=
  match s.global with
  | some state => do
    let (state, total) ← state.updateWithin json schema row s.workingBytes
    return { s with global := some state, workingBytes := total }
  | none => do
    match ← s.groups.find json hash schema columns row with
    | some (position, group) =>
      let (state, total) ← group.state.updateWithin json schema row s.workingBytes
      let groups := s.groups.set position { group with state := state }
      return { s with groups := groups, workingBytes := total }
    | none => s.addGroup json hash schema plan columns row

def visit (s : Aggregating) (candidate : Candidate) : Result Aggregating := do
  let s ← s.scan
  if candidate.accepted then s.add json hash schema plan columns candidate.row else return s

def states (s : Aggregating) : List GroupState :=
  match s.global with
  | some state => [state]
  | none => s.groups.intoStates

end Aggregating
end Queries

/-! ### Results -/

/-- The loop over the items, each aggregate's with the next of the accumulators, which are as many. -/
def projectItems (groupedValues : RowMap) :
    List SelectItem → List AggregateAccumulator → RowMap → Result RowMap
  | [], _, projected => .ok projected
  | item :: items, aggregates, projected =>
    match item.expression with
    | .column column =>
      match groupedValues.row column with
      | some value => projectItems groupedValues items aggregates (projected.insert item.output value)
      | none => .error (.invalidQuery s!"Grouped column `{column}` has no representative row")
    | .aggregate _ _ =>
      match aggregates with
      | [] => .ok projected
      | aggregate :: aggregates => do
        let value ← aggregate.finish
        projectItems groupedValues items aggregates (projected.insert item.output value)

def projectGroup (plan : AggregatePlan) (state : GroupState) : Result RowMap :=
  projectItems state.groupedValues plan.items state.aggregates ⟨[]⟩

def projectedItemBytes (groupedValues : RowMap) :
    List SelectItem → List AggregateAccumulator → Nat → Result Nat
  | [], _, bytes => .ok bytes
  | item :: items, aggregates, bytes =>
    let bytes := bytes + 64 + textLength item.output * 2
    match item.expression with
    | .column column =>
      match groupedValues.row column with
      | some value =>
        projectedItemBytes groupedValues items aggregates (bytes + ownedValueBytes value * 2)
      | none => .error (.columnNotFound column "aggregate group")
    | .aggregate _ _ =>
      match aggregates with
      | [] => .ok bytes
      | aggregate :: aggregates =>
        projectedItemBytes groupedValues items aggregates (bytes + aggregate.resultValueBytes * 2)

def projectedRowBytes (plan : AggregatePlan) (state : GroupState) : Result Nat :=
  projectedItemBytes state.groupedValues plan.items state.aggregates 32

def projectStates (plan : AggregatePlan) : Nat → List GroupState → Result (List RowMap)
  | _, [] => .ok []
  | resultBytes, state :: states => do
    let next := resultBytes + (← projectedRowBytes plan state)
    ensureResultBudget next
    let row ← projectGroup plan state
    return row :: (← projectStates plan next states)

/-! ### Ordering rows -/

/-- The order of two values neither of which is NULL, those of different kinds being equal. -/
def compareValues : Value → Value → Ordering
  | .number left, .number right => compareOfLessAndEq left.asF64.scaled right.asF64.scaled
  | .string left, .string right => compareOfLessAndEq left right
  | .bool left, .bool right => compareOfLessAndEq left right
  | _, _ => .eq

/-- Where an explicit null placement is independent of the direction. -/
def compareOrdered (left right : Value) (direction : OrderDirection) (nulls : NullOrder) : Ordering :=
  let nullsFirst : Bool := match nulls with
    | .first => true
    | .last => false
    | .default => decide (direction = .desc)
  match left.isNull, right.isNull with
  | true, true => .eq
  | true, false => if nullsFirst then .lt else .gt
  | false, true => if nullsFirst then .gt else .lt
  | false, false =>
    if direction = .desc then (compareValues left right).swap else compareValues left right

def compareTerms (left right : RowMap) : List OrderBy → Ordering
  | [] => .eq
  | term :: terms =>
    match compareOrdered ((left.row term.column).getD .null) ((right.row term.column).getD .null)
        term.direction term.nulls with
    | .eq => compareTerms left right terms
    | ordering => ordering

/-- The rows in the order of some terms, ties in the order in which they came. -/
def sortRowsBy (rows : List RowMap) (orderBy : List OrderBy) : List RowMap :=
  if orderBy.isEmpty then rows
  else rows.mergeSort (fun left right => compareTerms left right orderBy != .gt)

/-- What ORDER BY, OFFSET and LIMIT make of the rows. -/
def orderedWindow (plan : AggregatePlan) (rows : List RowMap) : List RowMap :=
  let rows := (sortRowsBy rows plan.orderBy).drop plan.offset
  match plan.limit with
  | some limit => rows.take limit
  | none => rows

def executeAggregate (json : SerdeJson) (hash : List GroupValue → UInt64) (schema : TableDefinition)
    (plan : AggregatePlan) (visit : CandidateVisit) : Result QueryResult := do
  validatePlan plan schema
  let fields ← resultFields plan schema
  if plan.limit = some 0 then return ⟨fields, []⟩
  else do
    let s ← Aggregating.start json schema plan
    let columns ← plan.groupBy.mapM (fun column => SourceColumn.new schema column plan.table)
    let _ ← readColumns plan schema
    let s ← visit.candidates.foldlM (Aggregating.visit json hash schema plan columns) s
    match visit.failure with
    | some error => .error error
    | none => do
      let rows ← projectStates plan 0 s.states
      return ⟨fields, orderedWindow plan rows⟩

end TinyJoin
