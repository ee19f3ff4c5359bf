import TinyJoin.AggregateQuery
import TinyJoin.FloatOrder
import TinyJoin.Lib.Grouping

/-! What an aggregate query means of the rows that its predicate accepts: the classes of the rows whose
grouping values are equal, in an order that these values tell, and what is counted, summed and selected
of each class. Values are taken without the sign of a float zero. -/
namespace TinyJoin

/-- A row's value of a column, but for the sign of a float zero. -/
def Row.plain (row : Row) (column : String) : Value := ((row column).getD .null).dropZeroSign

/-- The values of a column that an aggregate reads, which are those that are not NULL, in the order of the
rows. -/
def inputs (rows : List Row) (column : String) : List Value :=
  (rows.map (fun row => row.plain column)).filter (fun value => !value.isNull)

/-- Whether one value of a type stands before another. -/
def Value.Before (dataType : ColumnType) (left right : Value) : Prop :=
  ∃ a b, KeyValue.ofValue dataType left = some a ∧ KeyValue.ofValue dataType right = some b ∧
    a.compare b = .lt

/-! ### Aggregates -/

def countValue (count : Nat) : Result Value :=
  if count > maxSafeInteger then
    .error (numericOverflow "COUNT exceeds TinyJoin's safe-integer range")
  else .ok (.ofI64 count)

def integerTotal (values : List Value) : Int :=
  (values.map (fun value => (safeInteger value).getD 0)).sum

/-- The sum of some numbers as they are added one after another, each time rounded. -/
def floatTotal (values : List Value) : F64 :=
  (values.map (fun value => value.asF64.getD F64.zero)).foldl F64.accumulate F64.zero

def integerSumValue (values : List Value) : Result Value :=
  if values.isEmpty then .ok .null
  else if (integerTotal values).natAbs ≤ maxSafeInteger then .ok (.ofI64 (integerTotal values))
  else .error (numericOverflow "SUM exceeds TinyJoin's safe-integer range")

def floatSumValue (values : List Value) : Result Value :=
  if values.isEmpty then .ok .null
  else (finiteNumber (floatTotal values) "SUM").map Value.dropZeroSign

def averageValue (values : List Value) : Result Value :=
  if values.isEmpty then .ok .null
  else (finiteNumber ((floatTotal values).average values.length) "AVG").map Value.dropZeroSign

/-- The least of some values, or the greatest, or NULL where there is none. -/
def IsExtremum (dataType : ColumnType) (minimum : Bool) (values : List Value) (outcome : Result Value) :
    Prop :=
  if values = [] then outcome = .ok .null
  else ∃ value ∈ values, outcome = .ok value ∧ ∀ other ∈ values,
    if minimum then ¬other.Before dataType value else ¬value.Before dataType other

/-- What an aggregate comes to over some rows: a value, or the failure of one that is out of range. -/
def Meaning (schema : TableDefinition) (rows : List Row) (outcome : Result Value) :
    AggregateFunction → AggregateArgument → Prop
  | .count, .star => outcome = countValue rows.length
  | .count, .column name => outcome = countValue (inputs rows name).length
  | .sum, .column name => outcome =
      if schemaColumnType schema name = .ok .integer then integerSumValue (inputs rows name)
      else floatSumValue (inputs rows name)
  | .avg, .column name => outcome = averageValue (inputs rows name)
  | .min, .column name => ∃ dataType, schemaColumnType schema name = .ok dataType ∧
      IsExtremum dataType true (inputs rows name) outcome
  | .max, .column name => ∃ dataType, schemaColumnType schema name = .ok dataType ∧
      IsExtremum dataType false (inputs rows name) outcome
  | _, .star => False

/-- Whether an output is the same in whatever order the rows come: all are but the sums and the averages
that floats are added to. -/
def SelectExpression.Steady (schema : TableDefinition) : SelectExpression → Prop
  | .column _ => True
  | .aggregate .avg _ => False
  | .aggregate .sum (.column name) => schemaColumnType schema name = .ok .integer
  | .aggregate _ _ => True

/-! ### Groups -/

/-- Rows group together where their grouping values are equal. -/
def SameGroup (plan : AggregatePlan) (row other : Row) : Prop :=
  ∀ column ∈ plan.groupBy, row.plain column = other.plain column

/-- The grouped value that a value is, but for the sign of a float zero. -/
def GroupValue.ofValue : Value → GroupValue
  | .bool b => .boolean b
  | .number (.float f) => .float f.val.bits
  | .number n => .integer (n.asI64.getD 0)
  | .string s => .text s
  | _ => .null

/-- Where a group stands among the others, which its grouping values alone tell. -/
def groupRank (plan : AggregatePlan) (row : Row) : List UInt8 :=
  groupKeyBytes (plan.groupBy.map (fun column => (GroupValue.ofValue (row.plain column)).part))

open Classical in
/-- The groups of a plan over some rows: their classes, each once and in order, or all of the rows where
the plan groups by nothing. -/
structure GroupsOf (plan : AggregatePlan) (rows : List Row) (groups : List (List Row)) : Prop where
  whole : plan.groupBy = [] → groups = [rows]
  classes : plan.groupBy ≠ [] → ∀ group ∈ groups, ∃ row ∈ rows,
    group = rows.filter (fun other => SameGroup plan row other)
  every : ∀ row ∈ rows, ∃ group ∈ groups, row ∈ group
  ordered : groups.Pairwise (fun group other => ∀ row ∈ group, ∀ row' ∈ other,
    groupRank plan row < groupRank plan row')

/-- What an item returns of a group, but for the sign of a float zero. -/
def SelectItem.Returns (schema : TableDefinition) (group : List Row) (value : Value)
    (item : SelectItem) : Prop :=
  match item.expression with
  | .column name => ∀ row ∈ group, value.dropZeroSign = row.plain name
  | .aggregate function argument =>
    Meaning schema group (.ok value.dropZeroSign) function argument

/-- What a plan returns of a group: each item's value, under its output. -/
def Projects (schema : TableDefinition) (plan : AggregatePlan) (group : List Row) (projected : RowMap) :
    Prop :=
  ∀ item ∈ plan.items, ∃ value, projected.row item.output = some value ∧
    item.Returns schema group value

/-- The rows that a plan returns: those of its groups, as its ORDER BY, OFFSET and LIMIT leave them. -/
def Answers (schema : TableDefinition) (plan : AggregatePlan) (rows : List Row)
    (result : List RowMap) : Prop :=
  ∃ groups projected, GroupsOf plan rows groups ∧
    List.Forall₂ (Projects schema plan) groups projected ∧ result = orderedWindow plan projected

/-- The failure of an aggregate whose value over some group is out of range. -/
def Overflows (schema : TableDefinition) (plan : AggregatePlan) (rows : List Row)
    (error : EngineError) : Prop :=
  ∃ groups, GroupsOf plan rows groups ∧ ∃ group ∈ groups, ∃ item ∈ plan.items,
    ∃ function argument, item.expression = .aggregate function argument ∧
      Meaning schema group (.error error) function argument

end TinyJoin
