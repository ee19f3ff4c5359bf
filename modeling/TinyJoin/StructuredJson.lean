import TinyJoin.Structured

/-! What a statement's result holds of its fields and of the rows it changed, and the texts of its
integers. -/
namespace TinyJoin

structure ResultField where
  name : String
  dataTypeId : UInt32

/-- One table's changed primary keys: the values of one key after another. -/
structure TableKeys where
  schema : TableDefinition
  values : List Value

namespace TableKeys

def table (keys : TableKeys) : String := keys.schema.name

def columns (keys : TableKeys) : List String := keys.schema.primaryKey

/-- `values.chunks(width)`, for a width of at least one. -/
def chunks (width : Nat) : List Value → List (List Value)
  | [] => []
  | value :: rest => (value :: rest.take (width - 1)) :: chunks width (rest.drop (width - 1))
termination_by values => values.length
decreasing_by
  rw [List.length_drop, List.length_cons]
  omega

/-- Each key's values, in the order of the columns. -/
def keys (keys : TableKeys) : List (List Value) := chunks (max keys.columns.length 1) keys.values

end TableKeys

namespace Structured

/-- A text of JSON. -/
abbrev Json : Type := List Char

namespace Json

/-- `itoa`'s text of an unsigned integer. -/
def format (value : Nat) : List Char := Nat.toDigits 10 value

/-- `itoa`'s text of a signed integer. -/
def formatSigned (value : Int) : List Char :=
  if value < 0 then '-' :: format value.natAbs else format value.natAbs

/-- A digit of `HEX`. -/
def hex (digit : Nat) : Char := "0123456789abcdef".toList.getD digit '0'

end Json
end Structured
end TinyJoin
