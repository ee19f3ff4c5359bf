import TinyJoin.FloatOrder

/-! What an expression's type says of the values it gives. A type is found before any row is read, by
the kinds of the literals and the types of the columns; a value is found for each row, by what its
operands turn out to be. The two classify numbers differently only past the range of `i64`, where an
integer that an operator takes counts as a float. -/
namespace TinyJoin

/-! ### Quotients that are finite -/

namespace F64

section Operators
variable {f g : F64} {one : Nat}

end Operators
end F64

/-! ### What a type says -/

/-- What a row's columns give: NULL, or a value as a column of the type holds it. -/
def ReadsTyped (columnType : String → Result ColumnType) (column : String → Bool → Result Value) :
    Prop :=
  ∀ name excluded dataType, columnType name = .ok dataType → ∃ value,
    column name excluded = .ok value ∧ (value.isNull = true ∨ value.holds dataType = true)

section Operators
variable {operator : Operator} {left right : Option ColumnType} {given : Option ColumnType}

end Operators

section Applied
variable {operator : Operator} {left right : Number}

end Applied

section Sound
variable {operator : Operator} {leftType rightType given : Option ColumnType} {left right : Value}

end Sound

section Typing
variable {columnType : String → Result ColumnType} {column : String → Bool → Result Value}

end Typing

/-- `9223372036854775808`, which no `i64` holds, before an operator and a small integer. -/
def oversized (operator : Operator) (right : UInt64) : Expression :=
  .binary operator (.value (.number (.posInt 9223372036854775808))) (.value (.number (.posInt right)))

end TinyJoin
