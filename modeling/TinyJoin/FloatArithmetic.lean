import TinyJoin.Value

/-! Arithmetic on finite `f64`s: the exact result, rounded to the nearest `f64`, ties to even. -/
namespace TinyJoin
namespace F64

/-- A quotient rounded to the nearest whole number, ties to even. -/
def roundedQuotient (numerator denominator : Nat) : Nat :=
  let kept := numerator / denominator
  let rest := numerator % denominator
  if 2 * rest > denominator ∨ (2 * rest = denominator ∧ kept % 2 = 1) then kept + 1 else kept

/-- The magnitude of an infinity. -/
def infinite : Nat := 2047 * 2 ^ 52

/-- The `f64` nearest to a quotient, in units of `2 ^ -1074`. A magnitude's bits are its 53 leading
bits, with the exponent of the unit they count above them. -/
def ofQuotient (negative : Bool) (numerator denominator : Nat) : F64 :=
  let exponent := Nat.log2 (numerator / denominator) - 52
  let magnitude := exponent * 2 ^ 52 + roundedQuotient numerator (denominator * 2 ^ exponent)
  let rounded : F64 := ⟨UInt64.ofNat (min magnitude infinite)⟩
  if negative then neg rounded else rounded

/-- A sum that is zero is negative only where both operands are. -/
def add (left right : F64) : F64 :=
  let sum := left.scaled + right.scaled
  let negative := if sum = 0 then left.isNegative && right.isNegative else decide (sum < 0)
  ofQuotient negative sum.natAbs 1

def sub (left right : F64) : F64 := left.add right.neg

def mul (left right : F64) : F64 :=
  ofQuotient (left.isNegative != right.isNegative)
    (scaledMagnitude left.magnitude * scaledMagnitude right.magnitude) (2 ^ 1074)

/-- The divisor is not zero. -/
def div (left right : F64) : F64 :=
  ofQuotient (left.isNegative != right.isNegative)
    (scaledMagnitude left.magnitude * 2 ^ 1074) (scaledMagnitude right.magnitude)

end F64
end TinyJoin
