import TinyJoin.Expressions
import TinyJoin.Lib.Kleene
import TinyJoin.LikePattern

/-! `WHERE` predicates over one row: what each is worth on a row held as a map, which is true, false or
unknown, and the check of the columns they name. -/
namespace TinyJoin

/-! ### Numbers as they compare -/

namespace F64

def isNan (f : F64) : Bool := decide (infinite < f.magnitude)

/-- `partial_cmp` -/
def compare (left right : F64) : Option Ordering :=
  if left.isNan || right.isNan then none else some (compareOfLessAndEq left.scaled right.scaled)

end F64

/-- `serde_json`'s `==` on numbers, of one kind. -/
def Number.same : Number → Number → Bool
  | .posInt left, .posInt right => left == right
  | .negInt left, .negInt right => left.val == right.val
  | .float left, .float right => left.val.compare right.val == some .eq
  | _, _ => false

mutual

/-- `serde_json`'s `==` -/
def Value.same : Value → Value → Bool
  | .null, .null => true
  | .bool left, .bool right => left == right
  | .number left, .number right => left.same right
  | .string left, .string right => left == right
  | .array left, .array right => Value.sameElements left right
  | .object left, .object right => Value.sameEntries left right
  | _, _ => false

def Value.sameElements : List Value → List Value → Bool
  | [], [] => true
  | left :: lefts, right :: rights => left.same right && Value.sameElements lefts rights
  | _, _ => false

def Value.sameEntries : List (String × Value) → List (String × Value) → Bool
  | [], [] => true
  | (name, left) :: lefts, (other, right) :: rights =>
    name == other && left.same right && Value.sameEntries lefts rights
  | _, _ => false

end

namespace Query

/-! ### Predicates -/

inductive ComparisonOperator where
  | eq | neq | lt | lte | gt | gte
deriving DecidableEq

inductive Predicate where
  | comparison (column : String) (operator : ComparisonOperator) (value : Value)
  | isNull (column : String) (negated : Bool)
  | isIn (column : String) (values : List Value)
  /-- `LIKE`, or `ILIKE` when `caseInsensitive`. -/
  | like (column : String) (pattern : Value) (escape : Option Value) (caseInsensitive : Bool)
  | and (predicates : List Predicate)
  | or (predicates : List Predicate)
  | not (predicate : Predicate)
  /-- A comparison of two columns, or of a value worked out from the row. -/
  | expressions (left : Expression) (operator : ComparisonOperator) (right : Expression)
  /-- `column IN (SELECT ...)`, until its query is run. -/
  | subquery (column : String)

/-- Whether a value ordered as `ordering` against a bound satisfies `operator`. -/
def accepts (operator : ComparisonOperator) (ordering : Ordering) : Bool :=
  match operator with
  | .eq => ordering == .eq
  | .neq => ordering != .eq
  | .lt => ordering == .lt
  | .lte => ordering != .gt
  | .gt => ordering == .gt
  | .gte => ordering != .lt

/-! ### Evaluation -/

def unresolvedSubquery : EngineError :=
  ⟨"INTERNAL_ERROR", "A subquery was not run before the rows it filters were read"⟩

def comparisonError (table column : String) : EngineError :=
  .typeMismatch
    s!"Values compared with column `{column}` in `{table}` must have compatible scalar types"

def valuesEqual : Value → Value → Bool
  | .number left, .number right => left.asF64.compare right.asF64 == some .eq
  | left, right => left.same right

def compareValues (table column : String) : Value → Value → Result Ordering
  | .number left, .number right =>
    match left.asF64.compare right.asF64 with
    | some ordering => .ok ordering
    | none => .error (comparisonError table column)
  | .string left, .string right => .ok (compareOfLessAndEq left right)
  | .bool left, .bool right => .ok (compareOfLessAndEq left right)
  | _, _ => .error (comparisonError table column)

def evaluateComparison (left right : Value) (operator : ComparisonOperator)
    (table column : String) : Result Truth :=
  if left.isNull || right.isNull then .ok .unknown
  else
    match operator with
    | .eq => .ok (.ofBool (valuesEqual left right))
    | .neq => .ok (.ofBool !valuesEqual left right)
    | operator => do return .ofBool (accepts operator (← compareValues table column left right))

/-- The escape character of a `LIKE`, if it has one, or `none` where it is `NULL`. -/
def likeEscape : Option Value → Option (Option Char)
  | none => some (some '\\')
  | some (.string escape) => some escape.toList.head?
  | some _ => none

/-- Whether a text matches. Only a slice inside a character would give nothing, which a valid pattern
never takes. -/
def likeMatches (pattern : LikePattern) (text : String) : Bool := (pattern.matchesText text).getD false

def rowColumn (row : Row) (table column : String) : Result Value :=
  match row column with
  | some value => .ok value
  | none => .error (.columnNotFound column table)

def evaluateLike (text pattern : Value) (escape : Option Value) (caseInsensitive : Bool) : Truth :=
  match text, pattern, likeEscape escape with
  | .string text, .string pattern, some escape =>
    .ofBool (likeMatches (.new pattern escape caseInsensitive) text)
  | _, _, _ => .unknown

mutual

/-- What a predicate is worth on a row held as a map. -/
def evaluatePredicate (row : Row) (table : String) : Predicate → Result Truth
  | .comparison column operator value => do
    evaluateComparison (← rowColumn row table column) value operator table column
  | .isNull column negated => do
    return .ofBool ((← rowColumn row table column).isNull ^^ negated)
  | .isIn column values => do
    let actual ← rowColumn row table column
    Truth.disjunction false (values.map (fun value => evaluateComparison actual value .eq table column))
  | .like column pattern escape caseInsensitive => do
    return evaluateLike (← rowColumn row table column) pattern escape caseInsensitive
  | .and predicates => Truth.conjunction false (evaluatePredicates row table predicates)
  | .or predicates => Truth.disjunction false (evaluatePredicates row table predicates)
  | .not predicate => do return (← evaluatePredicate row table predicate).not
  | .expressions left operator right => do
    let read := fun column _ => rowColumn row table column
    let left ← evaluate read left
    evaluateComparison left (← evaluate read right) operator table ""
  | .subquery _ => .error unresolvedSubquery

def evaluatePredicates (row : Row) (table : String) : List Predicate → List (Result Truth)
  | [] => []
  | predicate :: predicates =>
    evaluatePredicate row table predicate :: evaluatePredicates row table predicates

end

/-! ### Columns -/

def columnDefinition (schema : TableDefinition) (column table : String) : Result ColumnDefinition :=
  match schema.columns.find? (fun definition => definition.name == column) with
  | some definition => .ok definition
  | none => .error (.columnNotFound column table)

end Query

/-- The name of each column an expression reads. -/
def Expression.columnNames : Expression → List String
  | .value _ => []
  | .column name => [name]
  | .excluded name => [name]
  | .negate operand => operand.columnNames
  | .binary _ left right => left.columnNames ++ right.columnNames

namespace Query

def checkColumn (schema : TableDefinition) (table column : String) : Result Unit :=
  if schema.columns.any (fun item => item.name == column) then .ok ()
  else .error (.columnNotFound column table)

mutual

def validatePredicateColumns (schema : TableDefinition) (table : String) : Predicate → Result Unit
  | .comparison column _ _ => checkColumn schema table column
  | .isNull column _ => checkColumn schema table column
  | .isIn column _ => checkColumn schema table column
  | .like column _ _ _ => checkColumn schema table column
  | .subquery column => checkColumn schema table column
  | .and predicates => validateColumnsOf schema table predicates
  | .or predicates => validateColumnsOf schema table predicates
  | .not predicate => validatePredicateColumns schema table predicate
  | .expressions left _ right =>
    (left.columnNames ++ right.columnNames).forM (fun name => do
      let _ ← columnDefinition schema name table)

def validateColumnsOf (schema : TableDefinition) (table : String) : List Predicate → Result Unit
  | [] => .ok ()
  | predicate :: predicates => do
    validatePredicateColumns schema table predicate
    validateColumnsOf schema table predicates

end

mutual

/-- Whether the subqueries of a predicate have been run, each of which is then an `IN`. -/
def Predicate.resolved : Predicate → Bool
  | .and predicates => allResolved predicates
  | .or predicates => allResolved predicates
  | .not predicate => predicate.resolved
  | .subquery _ => false
  | _ => true

def allResolved : List Predicate → Bool
  | [] => true
  | predicate :: predicates => predicate.resolved && allResolved predicates

end

end Query
end TinyJoin
