import TinyJoin.Lib.Bytes

/-! The data the storage codec reads and writes: JSON values as `serde_json` holds them, the five
column types, and the parts of a table's definition that decide how its rows are stored.
An `f64` is its bit pattern; what it denotes is `F64.scaled`, in units of the least positive
`f64`. A row is the partial map its `BTreeMap` denotes. -/
namespace TinyJoin
open Bytes

structure EngineError where
  code : String
  message : String
deriving DecidableEq, Repr

abbrev Result (α : Type) : Type := Except EngineError α

inductive ColumnType where
  | boolean | integer | float | text | json
deriving DecidableEq, Repr

structure F64 where
  bits : UInt64
deriving DecidableEq, Repr

namespace F64

def signBit : UInt64 := (1 : UInt64) <<< (63 : UInt64)

def isNegative (f : F64) : Bool := f.bits &&& signBit != 0

/-- The bits without the sign: exponent and fraction. -/
def magnitude (f : F64) : Nat := f.bits.toNat % 2 ^ 63

def isFinite (f : F64) : Bool := f.magnitude / 2 ^ 52 != 2047

/-- Whether the value equals zero, of either sign. -/
def isZero (f : F64) : Bool := f.magnitude == 0

/-- What a magnitude denotes, in units of `2 ^ -1074`. -/
def scaledMagnitude (m : Nat) : Nat :=
  if m / 2 ^ 52 = 0 then m else (2 ^ 52 + m % 2 ^ 52) * 2 ^ (m / 2 ^ 52 - 1)

/-- What a finite `f64` denotes, in units of `2 ^ -1074`. -/
def scaled (f : F64) : Int :=
  if f.isNegative then -(scaledMagnitude f.magnitude : Int) else scaledMagnitude f.magnitude

def zero : F64 := ⟨0⟩

/-- A natural number below `2 ^ 64` as the nearest `f64`, ties to even. -/
def ofNat (n : Nat) : F64 :=
  if n = 0 then zero
  else
    let exponent := Nat.log2 n
    if exponent ≤ 52 then
      ⟨UInt64.ofNat ((exponent + 1023) * 2 ^ 52 + (n * 2 ^ (52 - exponent) - 2 ^ 52))⟩
    else
      let unit := 2 ^ (exponent - 52)
      let kept := n / unit
      let rest := n % unit
      let rounded :=
        if 2 * rest > unit ∨ (2 * rest = unit ∧ kept % 2 = 1) then kept + 1 else kept
      ⟨UInt64.ofNat ((exponent + 1023) * 2 ^ 52 + (rounded - 2 ^ 52))⟩

def neg (f : F64) : F64 := ⟨f.bits ^^^ signBit⟩

def ofInt (i : Int) : F64 := if i < 0 then neg (ofNat i.natAbs) else ofNat i.natAbs

end F64

/-- A JSON number: a `u64`, a negative `i64`, or a finite `f64`. -/
inductive Number where
  | posInt (n : UInt64)
  | negInt (i : {i : Int // -(2 ^ 63) ≤ i ∧ i < 0})
  | float (f : {f : F64 // f.isFinite = true})
deriving DecidableEq

namespace Number

def asU64 : Number → Option Nat
  | posInt n => some n.toNat
  | _ => none

def asI64 : Number → Option Int
  | posInt n => if n.toNat < 2 ^ 63 then some n.toNat else none
  | negInt i => some i.val
  | float _ => none

def asF64 : Number → F64
  | posInt n => F64.ofNat n.toNat
  | negInt i => F64.ofInt i.val
  | float f => f.val

def isF64 : Number → Bool
  | float _ => true
  | _ => false

end Number

inductive Value where
  | null
  | bool (b : Bool)
  | number (n : Number)
  | string (s : String)
  | array (values : List Value)
  | object (entries : List (String × Value))

namespace Value

def isNull : Value → Bool
  | null => true
  | _ => false

def asBool : Value → Option Bool
  | bool b => some b
  | _ => none

def asU64 : Value → Option Nat
  | number n => n.asU64
  | _ => none

def asI64 : Value → Option Int
  | number n => n.asI64
  | _ => none

def asF64 : Value → Option F64
  | number n => some n.asF64
  | _ => none

def asStr : Value → Option String
  | string s => some s
  | _ => none

def isF64 : Value → Bool
  | number n => n.isF64
  | _ => false

def isNumber : Value → Bool
  | number _ => true
  | _ => false

/-- `Value::from(i64)`, for an integer in the range of `i64`. -/
def ofI64 (i : Int) : Value :=
  if h : -(2 ^ 63) ≤ i ∧ i < 0 then number (.negInt ⟨i, h⟩)
  else number (.posInt (UInt64.ofNat i.toNat))

/-- `Value::from(f64)`: a number that is not finite is `Null`. -/
def ofF64 (f : F64) : Value :=
  if h : f.isFinite = true then number (.float ⟨f, h⟩) else null

end Value

abbrev Row : Type := String → Option Value

namespace Row

def empty : Row := fun _ => none

def insert (row : Row) (name : String) (value : Value) : Row :=
  fun other => if other = name then some value else row other

@[simp] lemma insert_same (row : Row) (name : String) (value : Value) :
    row.insert name value name = some value := by
  simp [insert]

lemma insert_other {row : Row} {name other : String} {value : Value} (h : other ≠ name) :
    row.insert name value other = row other := by
  simp [insert, h]

end Row

structure ColumnDefinition where
  name : String
  dataType : ColumnType
  nullable : Bool
  default : Option Value

structure TableDefinition where
  name : String
  primaryKey : List String
  columns : List ColumnDefinition

structure IndexDefinition where
  name : String
  table : String
  columns : List String
  unique : Bool

inductive ValueRef where
  | null
  | boolean (b : Bool)
  | integer (i : Int)
  | float (f : F64)
  | text (s : String)
  | json (v : Value)

namespace ValueRef

def fromValue (value : Value) (dataType : ColumnType) : ValueRef :=
  match dataType, value with
  | _, .null => null
  | .boolean, .bool b => boolean b
  | .integer, .number n => (n.asI64.map integer).getD (json value)
  | .float, .number n => if n.isF64 then float n.asF64 else json value
  | .text, .string s => text s
  | _, _ => json value

def isNull : ValueRef → Bool
  | null => true
  | json v => v.isNull
  | _ => false

def intoValue : ValueRef → Value
  | null => .null
  | boolean b => .bool b
  | integer i => .ofI64 i
  | float f => .ofF64 f
  | text s => .string s
  | json v => v

end ValueRef

def maxSafeInteger : Nat := 9007199254740991

def safeInteger (value : Value) : Option Int :=
  match value.asU64.filter (fun n => decide (n ≤ maxSafeInteger)) with
  | some n => some n
  | none => value.asI64.filter
      (fun i => decide (-(maxSafeInteger : Int) ≤ i ∧ i ≤ maxSafeInteger))

/-- The UTF-8 bytes of a text. -/
def textBytes (s : String) : List UInt8 := s.toByteArray.data.toList

/-- `std::str::from_utf8`. -/
def fromUtf8 (bytes : List UInt8) : Option String := String.fromUTF8? bytes.toByteArray

lemma fromUtf8_textBytes (s : String) : fromUtf8 (textBytes s) = some s := by
  have hba : (textBytes s).toByteArray = s.toByteArray := by
    apply ByteArray.ext
    apply Array.ext'
    simp [textBytes]
  unfold fromUtf8 String.fromUTF8?
  rw [hba, dif_pos s.isValidUTF8]
  rfl

lemma textBytes_of_fromUtf8 {bytes : List UInt8} {s : String} (h : fromUtf8 bytes = some s) :
    textBytes s = bytes := by
  unfold fromUtf8 String.fromUTF8? at h
  split at h
  · cases h
    simp [textBytes, String.fromUTF8]
  · cases h

lemma textBytes_eq_flatMap (s : String) : textBytes s = s.toList.flatMap String.utf8EncodeChar := by
  rw [textBytes, ← String.utf8Encode_toList, List.utf8Encode]
  simp

end TinyJoin
