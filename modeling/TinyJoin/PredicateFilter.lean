import TinyJoin.Predicates

/-! A predicate resolved to column positions, as executors evaluate it against rows as storage presents
them, and the tests of stored records that are compiled from it. -/
namespace TinyJoin
namespace Query

/-- A comparison of a column with a constant. -/
abbrev ColumnTest : Type := ComparisonOperator × Value

inductive FilterNode where
  | comparison (column : Nat) (name : String) (operator : ComparisonOperator) (value : Value)
  /-- Adjacent comparisons of one column under `AND`, with their bounds as `f64`s when every one is a
  number, and the inclusive range of integers they accept when every one is an integer. -/
  | comparisons (column : Nat) (name : String) (tests : List ColumnTest)
      (bounds : List (ComparisonOperator × F64)) (integers : Option (Int × Int))
  | isNull (column : Nat) (negated : Bool)
  | isIn (column : Nat) (name : String) (values : List Value)
  /-- Without a pattern, which or whose escape is `NULL`, every row's result is unknown. -/
  | like (column : Nat) (pattern : Option LikePattern)
  | and (nodes : List FilterNode)
  | or (nodes : List FilterNode)
  | not (node : FilterNode)
  | expressions (left : Expression) (operator : ComparisonOperator) (right : Expression)
      (columns : List (String × Nat))

/-- A test of one column of a stored record, compiled from a term that compares it with constants. -/
inductive RecordTest where
  | integerRange (column : Nat) (low high : Int) (default : Bool)
  | like (column : Nat) (pattern : LikePattern) (default : Bool)
  | textEquals (column : Nat) (text : String) (default : Bool)
  | isNull (column : Nat) (negated : Bool)

/-! ### Bounds -/

/-- Each bound of a run of comparisons as an `f64`, or none unless every bound is a number. -/
def numericBounds (tests : List ColumnTest) : List (ComparisonOperator × F64) :=
  (tests.mapM (fun (test : ColumnTest) =>
    test.2.asF64.map (fun bound => (test.1, bound)))).getD []

def minI64 : Int := -(2 ^ 63)
def maxI64 : Int := 2 ^ 63 - 1

/-- The loop of `integer_range`. -/
def narrowIntegers : List ColumnTest → Int → Int → Option (Int × Int)
  | [], low, high => some (low, high)
  | (operator, value) :: tests, low, high => do
    let bound ← value.asI64
    match operator with
    | .eq => narrowIntegers tests (max low bound) (min high bound)
    | .gte => narrowIntegers tests (max low bound) high
    | .lte => narrowIntegers tests low (min high bound)
    | .gt => if bound = maxI64 then some (1, 0) else narrowIntegers tests (max low (bound + 1)) high
    | .lt => if bound = minI64 then some (1, 0) else narrowIntegers tests low (min high (bound - 1))
    | .neq => none

/-- The inclusive range of integers a run of comparisons accepts, which is empty when none does, or none
unless every bound is an integer and no test is `<>`. -/
def integerRange (tests : List ColumnTest) : Option (Int × Int) := narrowIntegers tests minI64 maxI64

/-! ### Resolving a predicate -/

/-- A node behind those before it under `AND`: a comparison of the column that the last compares joins
it. -/
def joinNode (nodes : List FilterNode) : FilterNode → List FilterNode
  | .comparison column name operator value =>
    match nodes.getLast? with
    | some (.comparisons previous named tests bounds integers) =>
      if previous = column then
        nodes.dropLast ++ [.comparisons previous named (tests ++ [(operator, value)]) bounds integers]
      else nodes ++ [.comparison column name operator value]
    | some (.comparison previous _ first bound) =>
      if previous = column then
        nodes.dropLast ++ [.comparisons column name [(first, bound), (operator, value)] [] none]
      else nodes ++ [.comparison column name operator value]
    | _ => nodes ++ [.comparison column name operator value]
  | node => nodes ++ [node]

def FilterNode.withBounds : FilterNode → FilterNode
  | .comparisons column name tests _ _ =>
    .comparisons column name tests (numericBounds tests) (integerRange tests)
  | node => node

/-- `AND` over one node is that node. -/
def andNodes : List FilterNode → FilterNode
  | [node] => node
  | nodes => .and nodes

/-- A `LIKE`'s pattern, unless it or its escape is `NULL`. -/
def compiledPattern (pattern : Value) (escape : Option Value) (caseInsensitive : Bool) :
    Option LikePattern :=
  match pattern, likeEscape escape with
  | .string pattern, some escape => some (.new pattern escape caseInsensitive)
  | _, _ => none

section Resolving
variable (position : String → Result Nat)

def resolveNames : List String → Result (List (String × Nat))
  | [] => .ok []
  | name :: names => do
    let column ← position name
    return (name, column) :: (← resolveNames names)

mutual

def FilterNode.new : Predicate → Result FilterNode
  | .comparison column operator value => do
    return .comparison (← position column) column operator value
  | .isNull column negated => do return .isNull (← position column) negated
  | .isIn column values => do return .isIn (← position column) column values
  | .like column pattern escape caseInsensitive => do
    return .like (← position column) (compiledPattern pattern escape caseInsensitive)
  | .and predicates => do
    let nodes ← FilterNode.children predicates
    return andNodes ((nodes.foldl joinNode []).map FilterNode.withBounds)
  | .or predicates => do return .or (← FilterNode.children predicates)
  | .not predicate => do return .not (← FilterNode.new predicate)
  | .expressions left operator right => do
    return .expressions left operator right
      (← resolveNames position (left.columnNames ++ right.columnNames))
  | .subquery _ => .error unresolvedSubquery

def FilterNode.children : List Predicate → Result (List FilterNode)
  | [] => .ok []
  | predicate :: predicates => do
    let node ← FilterNode.new predicate
    return node :: (← FilterNode.children predicates)

end

end Resolving

/-! ### Record tests -/

section Compiling
variable (schema : TableDefinition)

def columnType (column : Nat) : Option ColumnType :=
  (schema.columns[column]?).map (fun definition => definition.dataType)

def columnDefault (column : Nat) : Option Value :=
  (schema.columns[column]?).bind (fun definition => definition.default)

def integerTest (column : Nat) (range : Int × Int) : RecordTest :=
  .integerRange column range.1 range.2
    (((columnDefault schema column).bind Value.asI64).any
      (fun value => range.1 ≤ value && value ≤ range.2))

mutual

/-- The record tests that evaluate a node's terms, and whether they evaluate it entirely. Under `AND`, a
row must pass every term, so each that compiles is a test even when another does not. -/
def FilterNode.compileTests : FilterNode → List RecordTest × Bool
  | .comparison column _ operator value =>
    if columnType schema column = some .integer then
      match integerRange [(operator, value)] with
      | some range => ([integerTest schema column range], true)
      | none => ([], false)
    else
      match operator, value with
      | .eq, .string text =>
        if columnType schema column = some .text then
          ([.textEquals column text
            (((columnDefault schema column).bind Value.asStr).any (fun value => value == text))], true)
        else ([], false)
      | _, _ => ([], false)
  | .comparisons column _ _ _ (some range) =>
    if columnType schema column = some .integer then ([integerTest schema column range], true)
    else ([], false)
  | .like column (some pattern) =>
    if columnType schema column = some .text then
      ([.like column pattern
        (((columnDefault schema column).bind Value.asStr).any (likeMatches pattern))], true)
    else ([], false)
  | .isNull column negated => ([.isNull column negated], true)
  | .and nodes => FilterNode.compileAll nodes
  | _ => ([], false)

def FilterNode.compileAll : List FilterNode → List RecordTest × Bool
  | [] => ([], true)
  | node :: nodes =>
    let (tests, decided) := node.compileTests
    let (more, all) := FilterNode.compileAll nodes
    (tests ++ more, decided && all)

end

end Compiling

/-! ### Evaluation -/

/-- How a column's value is ordered against a constant that is not `NULL`, if the two can be ordered. -/
def orderingWith : ValueRef → Value → Option Ordering
  | .integer left, .number right => (F64.ofInt left).compare right.asF64
  | .float left, .number right => left.compare right.asF64
  | .text left, .string right => some (compareOfLessAndEq left right)
  | .boolean left, .bool right => some (compareOfLessAndEq left right)
  | _, _ => none

/-- Whether values so ordered satisfy an operator. Values that cannot be ordered are unequal. -/
def orderedTruth (operator : ComparisonOperator) (ordering : Option Ordering) (table column : String) :
    Result Truth :=
  match operator, ordering with
  | .eq, ordering => .ok (.ofBool (ordering == some .eq))
  | .neq, ordering => .ok (.ofBool (ordering != some .eq))
  | operator, some ordering => .ok (.ofBool (accepts operator ordering))
  | _, none => .error (comparisonError table column)

/-- `evaluate_comparison`, for a column value read from a row. -/
def compareToValue (left : ValueRef) (right : Value) (operator : ComparisonOperator)
    (table column : String) : Result Truth :=
  match left with
  | .json left => evaluateComparison left right operator table column
  | left =>
    if left.isNull || right.isNull then .ok .unknown
    else orderedTruth operator (orderingWith left right) table column

/-- A column's value as the number it compares as. -/
def comparedNumber : ValueRef → Option F64
  | .integer value => some (.ofInt value)
  | .float value => some value
  | _ => none

/-- Whether a number satisfies bounds, unless it cannot be ordered against one. -/
def matchBounds (left : F64) : List (ComparisonOperator × F64) → Bool → Option Bool
  | [], matched => some matched
  | (operator, right) :: bounds, matched =>
    if matched then do
      matchBounds left bounds (accepts operator (← left.compare right))
    else matchBounds left bounds false

/-- The comparisons as they combine under `AND`, in order. -/
def compareEach (actual : ValueRef) (table name : String) (tests : List ColumnTest) : Result Truth :=
  Truth.conjunction false (tests.map (fun test => compareToValue actual test.2 test.1 table name))

def evaluateComparisons (actual : ValueRef) (table name : String) (tests : List ColumnTest)
    (bounds : List (ComparisonOperator × F64)) (integers : Option (Int × Int)) : Result Truth :=
  match actual, integers with
  | .integer value, some (low, high) => .ok (.ofBool (low ≤ value && value ≤ high))
  | actual, _ =>
    match (comparedNumber actual).bind (fun left =>
        if bounds.isEmpty then none else matchBounds left bounds true) with
    | some matched => .ok (.ofBool matched)
    | none => compareEach actual table name tests

section Evaluating
variable (read : Nat → Result ValueRef) (table : String)

def evaluateLikeNode (pattern : LikePattern) : ValueRef → Truth
  | .text text => .ofBool (likeMatches pattern text)
  | .json (.string text) => .ofBool (likeMatches pattern text)
  | _ => .unknown

/-- The value of a column an expression names, among those the node resolved. -/
def readNamed (columns : List (String × Nat)) (name : String) : Result Value :=
  match columns.find? (fun column => column.1 == name) with
  | none => .error (.columnNotFound name table)
  | some (_, index) => do return (← read index).intoValue

mutual

def FilterNode.evaluate : FilterNode → Result Truth
  | .comparison column name operator value => do
    let actual ← read column
    match actual, value.asI64 with
    | .integer left, some right => return .ofBool (accepts operator (compareOfLessAndEq left right))
    | actual, _ => compareToValue actual value operator table name
  | .comparisons column name tests bounds integers => do
    evaluateComparisons (← read column) table name tests bounds integers
  | .isNull column negated => do return .ofBool ((← read column).isNull ^^ negated)
  | .isIn column name values => do
    let actual ← read column
    Truth.disjunction false (values.map (fun value => compareToValue actual value .eq table name))
  | .like column pattern =>
    match pattern with
    | none => .ok .unknown
    | some pattern => do return evaluateLikeNode pattern (← read column)
  | .and nodes => Truth.conjunction false (FilterNode.evaluateAll nodes)
  | .or nodes => Truth.disjunction false (FilterNode.evaluateAll nodes)
  | .not node => do return (← node.evaluate).not
  | .expressions left operator right columns => do
    let named := fun name _ => readNamed read table columns name
    let left ← TinyJoin.evaluate named left
    evaluateComparison left (← TinyJoin.evaluate named right) operator table ""

def FilterNode.evaluateAll : List FilterNode → List (Result Truth)
  | [] => []
  | node :: nodes => node.evaluate :: FilterNode.evaluateAll nodes

end

end Evaluating

/-! ### Filters -/

structure Filter where
  node : Option FilterNode
  table : String
  tests : List RecordTest
  decided : Bool

namespace Filter

/-- Where the schema has a column. -/
def position (schema : TableDefinition) (table column : String) : Result Nat :=
  match schema.columns.findIdx? (fun definition => definition.name == column) with
  | some position => .ok position
  | none => .error (.columnNotFound column table)

def new (predicate : Option Predicate) (schema : TableDefinition) (table : String) : Result Filter :=
  match predicate with
  | none => .ok ⟨none, table, [], true⟩
  | some predicate => do
    let node ← FilterNode.new (position schema table) predicate
    let (tests, decided) := node.compileTests schema
    return ⟨some node, table, tests, decided⟩

/-- Whether a row, whose columns `read` gives, makes the predicate true. -/
def matchesRow (filter : Filter) (read : Nat → Result ValueRef) : Result Bool :=
  match filter.node with
  | none => .ok true
  | some node => do return (← node.evaluate read filter.table) == .true

end Filter

end Query
end TinyJoin
