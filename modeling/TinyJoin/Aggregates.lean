import TinyJoin.GroupKeys
import TinyJoin.Lib.LazyOrder
import TinyJoin.VisitedRows

/-! Aggregate queries: rows grouped by the values of some columns, and what is counted, summed and selected
of each group, within budgets of groups, of bytes and of rows. Sizes are natural numbers, as in every
estimate; the floats that a table holds are finite. -/
namespace TinyJoin

def maxAggregates : Nat := 64
def maxGroups : Nat := 100000
def maxAggregateCells : Nat := 1000000
def maxScanRows : Nat := 1000000
def maxAggregateWorkBytes : Nat := 16 * 1024 * 1024
def maxAggregateResultBytes : Nat := 16 * 1024 * 1024

def EngineError.unsupportedSql (message : String) : EngineError := ⟨"UNSUPPORTED_SQL", message⟩

def workLimitError : EngineError :=
  ⟨"QUERY_WORK_LIMIT_EXCEEDED",
    s!"An aggregate query cannot retain more than {maxAggregateWorkBytes} bytes of working state"⟩
def resultLimitError : EngineError :=
  ⟨"QUERY_WORK_LIMIT_EXCEEDED",
    s!"An aggregate query cannot materialize more than {maxAggregateResultBytes} bytes of results"⟩
def scanLimitError : EngineError :=
  ⟨"QUERY_WORK_LIMIT_EXCEEDED", s!"An aggregate query cannot scan more than {maxScanRows} rows"⟩
def groupLimitError : EngineError :=
  .invalidQuery s!"A grouped query cannot produce more than {maxGroups} groups"
def cellLimitError : EngineError :=
  .invalidQuery s!"A grouped query cannot materialize more than {maxAggregateCells} aggregate cells"
def numericOverflow (message : String) : EngineError := ⟨"NUMERIC_OVERFLOW", message⟩

def ensureWorkBudget (bytes : Nat) : Result Unit :=
  if bytes > maxAggregateWorkBytes then .error workLimitError else .ok ()

def ensureResultBudget (bytes : Nat) : Result Unit :=
  if bytes > maxAggregateResultBytes then .error resultLimitError else .ok ()

def checkedSub (left right : Nat) : Result Nat :=
  if right ≤ left then .ok (left - right) else .error workLimitError

def replaceBudgetCharge (total previous next : Nat) : Result Nat := do
  let total ← checkedSub total previous
  ensureWorkBudget (total + next)
  return total + next

/-! ### Plans -/

inductive AggregateFunction where
  | count | sum | avg | min | max
deriving DecidableEq

def AggregateFunction.name : AggregateFunction → String
  | .count => "count"
  | .sum => "sum"
  | .avg => "avg"
  | .min => "min"
  | .max => "max"

inductive AggregateArgument where
  | star
  | column (name : String)

inductive SelectExpression where
  | column (name : String)
  | aggregate (function : AggregateFunction) (argument : AggregateArgument)

structure SelectItem where
  expression : SelectExpression
  output : String

inductive OrderDirection where
  | asc | desc
deriving DecidableEq

inductive NullOrder where
  | default | first | last

structure OrderBy where
  column : String
  direction : OrderDirection
  nulls : NullOrder

structure AggregatePlan where
  table : String
  /-- `SELECT DISTINCT`, planned as a grouping by every projected column with no aggregates. -/
  distinct : Bool
  items : List SelectItem
  /-- Whether the outputs are keyed by position because their names repeat. -/
  positional : Bool
  /-- The columns that the plan's predicate names. -/
  predicateColumns : List String
  groupBy : List String
  orderBy : List OrderBy
  limit : Option Nat
  offset : Nat

def SelectExpression.isAggregate : SelectExpression → Bool
  | .aggregate _ _ => true
  | .column _ => false

def validateAggregate (function : AggregateFunction) (argument : AggregateArgument)
    (schema : TableDefinition) (table : String) : Result Unit :=
  match argument with
  | .star =>
    if function = .count then .ok ()
    else .error (.unsupportedSql "Only COUNT accepts `*` as an aggregate argument")
  | .column column => do
    let definition ← columnDefinition schema column table
    let supported := match function with
      | .count => true
      | .sum | .avg => decide (definition.dataType ∈ [ColumnType.integer, .float])
      | .min | .max => decide (definition.dataType ∈ [ColumnType.integer, .float, .text])
    if supported then .ok ()
    else .error (.typeMismatch (s!"{function.name} cannot aggregate " ++
      s!"{columnTypeName definition.dataType} column `{column}` in `{table}`"))

/-- The loop over the grouping columns, `groups` being those before. -/
def validateGroups (plan : AggregatePlan) (schema : TableDefinition) :
    List String → List String → Result Unit
  | _, [] => .ok ()
  | groups, column :: columns =>
    if column ∈ groups then
      .error (.invalidQuery s!"GROUP BY names column `{column}` more than once")
    else do
      let definition ← columnDefinition schema column plan.table
      if definition.dataType = .json then
        let cannot := if plan.distinct then "compared by SELECT DISTINCT" else "grouped"
        .error (.typeMismatch s!"JSON column `{column}` in `{plan.table}` cannot be {cannot}")
      else validateGroups plan schema (column :: groups) columns

def validateExpression (plan : AggregatePlan) (schema : TableDefinition) (aggregateCount : Nat) :
    SelectExpression → Result Nat
  | .column column => do
    let _ ← columnDefinition schema column plan.table
    if column ∈ plan.groupBy then return aggregateCount
    else .error (.invalidQuery
      s!"Column `{column}` must appear in GROUP BY or be used in an aggregate")
  | .aggregate function argument =>
    if aggregateCount + 1 > maxAggregates then
      .error (.invalidQuery s!"A query cannot contain more than {maxAggregates} aggregate calls")
    else do
      validateAggregate function argument schema plan.table
      return aggregateCount + 1

/-- The loop over the items, `outputs` being the outputs of those before. -/
def validateItems (plan : AggregatePlan) (schema : TableDefinition) :
    List String → Nat → List SelectItem → Result Unit
  | _, _, [] => .ok ()
  | outputs, aggregateCount, item :: items =>
    if item.output ∈ outputs then
      .error (.invalidQuery (s!"SELECT produces output column `{item.output}` more than once; " ++
        "use distinct AS aliases"))
    else do
      let aggregateCount ← validateExpression plan schema aggregateCount item.expression
      validateItems plan schema (item.output :: outputs) aggregateCount items

def validateOrder (plan : AggregatePlan) : List OrderBy → Result Unit
  | [] => .ok ()
  | order :: orders =>
    if order.column ∈ plan.items.map SelectItem.output then validateOrder plan orders
    else .error (.columnNotFound order.column "aggregate output")

/-- The checks of a plan behind those of its predicate. -/
def validatePlan (plan : AggregatePlan) (schema : TableDefinition) : Result Unit := do
  validateGroups plan schema [] plan.groupBy
  validateItems plan schema [] 0 plan.items
  validateOrder plan plan.orderBy

def ColumnType.postgresOid : ColumnType → UInt32
  | .boolean => 16
  | .integer => 20
  | .float => 701
  | .text => 25
  | .json => 114

def aggregateArgumentType (schema : TableDefinition) (table : String) :
    AggregateArgument → Result ColumnType
  | .star => .error (.unsupportedSql "Only COUNT accepts `*` as an aggregate argument")
  | .column column => do return (← columnDefinition schema column table).dataType

def expressionType (schema : TableDefinition) (table : String) :
    SelectExpression → Result ColumnType
  | .column column => do return (← columnDefinition schema column table).dataType
  | .aggregate .count _ => .ok .integer
  | .aggregate .avg _ => .ok .float
  | .aggregate _ argument => aggregateArgumentType schema table argument

/-- The name of an output, behind the position that keys it where names repeat. -/
def fieldName (output : String) (positional : Bool) : String :=
  if positional then String.ofList (output.toList.drop 3) else output

def resultField (plan : AggregatePlan) (schema : TableDefinition) (item : SelectItem) :
    Result ResultField := do
  let dataType ← expressionType schema plan.table item.expression
  return ⟨fieldName item.output plan.positional, dataType.postgresOid⟩

def resultFields (plan : AggregatePlan) (schema : TableDefinition) :
    Result (List ResultField) := plan.items.mapM (resultField plan schema)

/-- A column that an aggregate reads: its name, its position in the schema, and its type. -/
structure SourceColumn where
  name : String
  index : Nat
  dataType : ColumnType

def SourceColumn.new (schema : TableDefinition) (column table : String) : Result SourceColumn :=
  match schema.columns.findIdx? (fun definition => definition.name == column) with
  | some index => .ok ⟨column, index,
      ((schema.columns[index]?).map (fun definition => definition.dataType)).getD .json⟩
  | none => .error (.columnNotFound column table)

def SelectExpression.readColumns : SelectExpression → List String
  | .column name => [name]
  | .aggregate _ (.column name) => [name]
  | .aggregate _ .star => []

/-- The schema position of every column that the plan reads from a row. -/
def readColumns (plan : AggregatePlan) (schema : TableDefinition) : Result (List Nat) :=
  (plan.groupBy ++ plan.items.flatMap (fun item => item.expression.readColumns) ++
    plan.predicateColumns).mapM
    (fun name => do return (← SourceColumn.new schema name plan.table).index)

/-! ### Sizes of values -/

mutual
def ownedValueBytes : Value → Nat
  | .null => 16
  | .bool _ => 16
  | .number _ => 16
  | .string s => 24 + textLength s
  | .array values => 32 + ownedElementBytes values
  | .object entries => 32 + ownedEntryBytes entries

def ownedElementBytes : List Value → Nat
  | [] => 0
  | value :: values => 32 + ownedValueBytes value + ownedElementBytes values

def ownedEntryBytes : List (String × Value) → Nat
  | [] => 0
  | (key, value) :: entries =>
    64 + textLength key * 2 + ownedValueBytes value + ownedEntryBytes entries
end

def incomingBytes (value : ValueRef) : Result Nat :=
  value.ownedBytes (fun value => .ok (ownedValueBytes value))

/-! ### Accumulators -/

namespace F64

/-- Adds a finite number to a sum. One that has left the finite range stays out of it. -/
def accumulate (sum number : F64) : F64 := if sum.isFinite then sum.add number else sum

def average (sum : F64) (count : Nat) : F64 :=
  if sum.isFinite then sum.div (ofNat count) else sum

/-- `Option<f64>::partial_cmp`, of finite floats. -/
def partialCmp : Option F64 → Option F64 → Ordering
  | some left, some right => compareOfLessAndEq left.scaled right.scaled
  | none, none => .eq
  | none, some _ => .lt
  | some _, none => .gt

end F64

/-- The order of two texts. The code expects both values to be text. -/
def compareText : Option String → Option String → Ordering
  | some left, some right => compareOfLessAndEq left right
  | _, _ => .eq

def compareTyped (dataType : ColumnType) (left right : Value) : Ordering :=
  match dataType with
  | .integer | .float => F64.partialCmp left.asF64 right.asF64
  | .text => compareText left.asStr right.asStr
  | _ => .eq

def ValueRef.numberInput : ValueRef → Option F64
  | .integer i => some (.ofInt i)
  | .float f => some f
  | _ => none

def extremumOrdering (dataType : ColumnType) (incoming : ValueRef) (selected : Value) : Ordering :=
  match dataType, incoming with
  | dataType, .json incoming => compareTyped dataType incoming selected
  | .integer, incoming => F64.partialCmp incoming.numberInput selected.asF64
  | .float, incoming => F64.partialCmp incoming.numberInput selected.asF64
  | .text, .text incoming => compareText (some incoming) selected.asStr
  | _, _ => .eq

/-- Whether a non-null input replaces the selected minimum or maximum. -/
def replacesExtremum (dataType : ColumnType) (incoming : ValueRef) (selected : Option Value)
    (minimum : Bool) : Bool :=
  match selected with
  | none => true
  | some selected =>
    extremumOrdering dataType incoming selected == (if minimum then .lt else .gt)

def integerInput : ValueRef → Result Int
  | .integer i => .ok i
  | .json value => integerInputValue value
  | _ => .error (.typeMismatch "Expected a typed integer value")

def floatInput : ValueRef → Result F64
  | .float f => .ok f
  | .integer i => .ok (.ofInt i)
  | .json value =>
    match value.asF64 with
    | some f => .ok f
    | none => .error (.typeMismatch "Expected a typed float value")
  | _ => .error (.typeMismatch "Expected a typed float value")

def averageInput (dataType : ColumnType) (value : ValueRef) : Result F64 :=
  if dataType = .integer then do return .ofInt (← integerInput value) else floatInput value

def finiteNumber (value : F64) (operation : String) : Result Value :=
  if h : value.isFinite = true then .ok (.number (.float ⟨value, h⟩))
  else .error (numericOverflow s!"{operation} produced a non-finite result")

inductive AggregateAccumulator where
  | count (column : Option SourceColumn) (count : Nat)
  | integerSum (column : SourceColumn) (sum : Int) (seen : Bool)
  | floatSum (column : SourceColumn) (sum : F64) (seen : Bool)
  | average (column : SourceColumn) (sum : F64) (count : Nat)
  | extremum (column : SourceColumn) (value : Option Value) (minimum : Bool)

section Reading
variable (json : SerdeJson) (schema : TableDefinition)

/-- The column's value in `row`, unless it is NULL. -/
def SourceColumn.nonNull (column : SourceColumn) (row : VisitedRow) : Result (Option ValueRef) := do
  let value ← row.get json schema column.index
  return if value.isNull then none else some value

def SourceColumn.counts (row : VisitedRow) : Option SourceColumn → Result Bool
  | none => .ok true
  | some column => do return (← column.nonNull json schema row).isSome

end Reading

namespace AggregateAccumulator

def new (function : AggregateFunction) (argument : AggregateArgument) (schema : TableDefinition) :
    Result AggregateAccumulator :=
  match argument, function with
  | .star, .count => .ok (.count none 0)
  | .star, _ => .error (.unsupportedSql "Only COUNT accepts `*` as an aggregate argument")
  | .column name, function => do
    let column ← SourceColumn.new schema name schema.name
    match function with
    | .count => return .count (some column) 0
    | .sum =>
      return if column.dataType = .integer then .integerSum column 0 false
        else .floatSum column F64.zero false
    | .avg => return .average column F64.zero 0
    | .min => return .extremum column none true
    | .max => return .extremum column none false

def isExtremum : AggregateAccumulator → Bool
  | extremum _ _ _ => true
  | _ => false

/-- `u64::checked_add(1)`. -/
def nextCount (count : Nat) (message : String) : Result Nat :=
  if count + 1 < 2 ^ 64 then .ok (count + 1) else .error (numericOverflow message)

/-- `i128::checked_add`. -/
def nextSum (sum input : Int) : Result Int :=
  if -(2 ^ 127) ≤ sum + input ∧ sum + input < 2 ^ 127 then .ok (sum + input)
  else .error (numericOverflow "SUM result overflowed")

section Reading
variable (json : SerdeJson) (schema : TableDefinition)

def update (row : VisitedRow) : AggregateAccumulator → Result AggregateAccumulator
  | count column n => do
    if ← SourceColumn.counts json schema row column then
      return count column (← nextCount n "COUNT result overflowed")
    else return count column n
  | integerSum column sum seen => do
    match ← column.nonNull json schema row with
    | some value => return integerSum column (← nextSum sum (← integerInput value)) true
    | none => return integerSum column sum seen
  | floatSum column sum seen => do
    match ← column.nonNull json schema row with
    | some value => return floatSum column (sum.accumulate (← floatInput value)) true
    | none => return floatSum column sum seen
  | average column sum n => do
    match ← column.nonNull json schema row with
    | some value =>
      let sum := sum.accumulate (← averageInput column.dataType value)
      return average column sum (← nextCount n "AVG count overflowed")
    | none => return average column sum n
  | extremum column selected minimum => do
    match ← column.nonNull json schema row with
    | some value =>
      return if replacesExtremum column.dataType value selected minimum then
        extremum column (some value.intoValue) minimum
      else extremum column selected minimum
    | none => return extremum column selected minimum

def finish : AggregateAccumulator → Result Value
  | count _ n =>
    if n > maxSafeInteger then
      .error (numericOverflow "COUNT exceeds TinyJoin's safe-integer range")
    else .ok (.number (.posInt (UInt64.ofNat n)))
  | integerSum _ sum seen =>
    if !seen then .ok .null
    else if -(maxSafeInteger : Int) ≤ sum ∧ sum ≤ maxSafeInteger then .ok (.ofI64 sum)
    else .error (numericOverflow "SUM exceeds TinyJoin's safe-integer range")
  | floatSum _ sum seen => if seen then finiteNumber sum "SUM" else .ok .null
  | average _ sum n => if n = 0 then .ok .null else finiteNumber (sum.average n) "AVG"
  | extremum _ value _ => .ok (value.getD .null)

def column : AggregateAccumulator → Option SourceColumn
  | count column _ => column
  | integerSum column _ _ | floatSum column _ _ | average column _ _ | extremum column _ _ =>
    some column

def selected : AggregateAccumulator → Option Value
  | extremum _ value _ => value
  | _ => none

def estimatedBytes (aggregate : AggregateAccumulator) : Nat :=
  96 + (match aggregate.column with
    | some column => textLength column.name * 2
    | none => 0) +
    (match aggregate.selected with
    | some value => ownedValueBytes value * 2
    | none => 0)

def estimatedBytesAfter (row : VisitedRow) (aggregate : AggregateAccumulator) : Result Nat :=
  match aggregate with
  | extremum column selected minimum => do
    match ← column.nonNull json schema row with
    | none => return aggregate.estimatedBytes
    | some incoming =>
      if replacesExtremum column.dataType incoming selected minimum then
        let bytes ← match selected with
          | some selected => checkedSub aggregate.estimatedBytes (ownedValueBytes selected * 2)
          | none => .ok aggregate.estimatedBytes
        return bytes + (← incomingBytes incoming) * 2
      else return aggregate.estimatedBytes
  | _ => .ok aggregate.estimatedBytes

def resultValueBytes : AggregateAccumulator → Nat
  | extremum _ (some value) _ => ownedValueBytes value
  | _ => 16

end Reading
end AggregateAccumulator

/-! ### The state of a group -/

structure GroupState where
  groupedValues : RowMap
  aggregates : List AggregateAccumulator
  /-- Whether the state's size is settled once it exists: only an extremum's value can grow. -/
  settled : Bool

namespace GroupState
variable (json : SerdeJson) (schema : TableDefinition)

def addItem (table : String) (representative : Option VisitedRow) (state : GroupState)
    (item : SelectItem) : Result GroupState :=
  match item.expression with
  | .column column =>
    match representative with
    | none => .error (.invalidQuery s!"Grouped column `{column}` has no representative row")
    | some row => do
      let source ← SourceColumn.new schema column table
      let value ← row.get json schema source.index
      return { state with groupedValues := state.groupedValues.insert column value.intoValue }
  | .aggregate function argument => do
    let aggregate ← AggregateAccumulator.new function argument schema
    return { state with aggregates := state.aggregates ++ [aggregate] }

def new (plan : AggregatePlan) (representative : Option VisitedRow) : Result GroupState := do
  let state ← plan.items.foldlM (addItem json schema plan.table representative) ⟨⟨[]⟩, [], true⟩
  return { state with settled := state.aggregates.all (fun aggregate => !aggregate.isExtremum) }

def update (state : GroupState) (row : VisitedRow) : Result GroupState := do
  return { state with aggregates := ← state.aggregates.mapM (·.update json schema row) }

def groupedBytes (state : GroupState) : Nat :=
  (state.groupedValues.entries.map
    (fun entry => 96 + textLength entry.1 * 2 + ownedValueBytes entry.2 * 2)).sum

def estimatedBytes (state : GroupState) : Nat :=
  state.groupedBytes + (state.aggregates.map (fun aggregate => aggregate.estimatedBytes)).sum

def estimatedBytesAfter (state : GroupState) (row : VisitedRow) : Result Nat := do
  let bytes ← state.aggregates.mapM (·.estimatedBytesAfter json schema row)
  return state.groupedBytes + bytes.sum

/-- Adds a row to the state, charging any growth to a budget that holds `total` bytes, whose new total
comes with it. -/
def updateWithin (state : GroupState) (row : VisitedRow) (total : Nat) :
    Result (GroupState × Nat) :=
  if state.settled then do return (← state.update json schema row, total)
  else do
    let after ← state.estimatedBytesAfter json schema row
    let total ← replaceBudgetCharge total state.estimatedBytes after
    return (← state.update json schema row, total)

end GroupState

end TinyJoin
