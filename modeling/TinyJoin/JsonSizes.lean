import TinyJoin.Expressions
import TinyJoin.Lib.Effect

/-! How long the JSON text of a value is, as the checks on a row measure it without writing it. A string
escapes its quotes, its backslashes and its control characters, each as shortly as JSON lets it. -/
namespace TinyJoin

/-! ### JSON text -/

def hexByteDigit (digit : UInt8) : UInt8 := if digit < 10 then 0x30 + digit else 0x57 + digit

/-- A byte of a string, escaped where it has to be. -/
def escapedByte (byte : UInt8) : List UInt8 :=
  if byte = 0x22 then [0x5c, 0x22]
  else if byte = 0x5c then [0x5c, 0x5c]
  else if byte = 0x08 then [0x5c, 0x62]
  else if byte = 0x0c then [0x5c, 0x66]
  else if byte = 0x0a then [0x5c, 0x6e]
  else if byte = 0x0d then [0x5c, 0x72]
  else if byte = 0x09 then [0x5c, 0x74]
  else if byte ≤ 0x1f then
    [0x5c, 0x75, 0x30, 0x30, hexByteDigit (byte / 16), hexByteDigit (byte % 16)]
  else [byte]

def jsonStringText (value : String) : List UInt8 :=
  0x22 :: ((textBytes value).flatMap escapedByte ++ [0x22])

def decimalText (n : Nat) : List UInt8 :=
  if n ≥ 10 then decimalText (n / 10) ++ [UInt8.ofNat (0x30 + n % 10)]
  else [UInt8.ofNat (0x30 + n)]

/-- What stands before an item but the first. -/
def jsonComma (index : Nat) : List UInt8 := if index ≠ 0 then [0x2c] else []

section Text
variable (json : SerdeJson)

def jsonNumberText : Number → List UInt8
  | .posInt n => decimalText n.toNat
  | .negInt i => 0x2d :: decimalText i.val.natAbs
  | .float f => json.numberText (.float f)

mutual

/-- The compact text of a value. -/
def jsonText : Value → List UInt8
  | .null => textBytes "null"
  | .bool false => textBytes "false"
  | .bool true => textBytes "true"
  | .number number => jsonNumberText json number
  | .string value => jsonStringText value
  | .array values => 0x5b :: (jsonElementsText 0 values ++ [0x5d])
  | .object entries => 0x7b :: (jsonEntriesText 0 entries ++ [0x7d])

def jsonElementsText (index : Nat) : List Value → List UInt8
  | [] => []
  | value :: values =>
    jsonComma index ++ jsonText value ++ jsonElementsText (index + 1) values

def jsonEntriesText (index : Nat) : List (String × Value) → List UInt8
  | [] => []
  | (key, value) :: entries =>
    jsonComma index ++ jsonStringText key ++ [0x3a] ++ jsonText value
      ++ jsonEntriesText (index + 1) entries

end

/-! ### Lengths -/

lemma length_escapedByte (byte : UInt8) : (escapedByte byte).length = 1 + escapeBytes byte := by
  unfold escapedByte escapeBytes
  split_ifs <;> simp_all

lemma length_jsonStringText (value : String) :
    (jsonStringText value).length = encodedJsonStringBytes value := by
  have hbytes (bytes : List UInt8) :
      (bytes.flatMap escapedByte).length = bytes.length + (bytes.map escapeBytes).sum := by
    induction bytes with
    | nil => rfl
    | cons byte bytes ih =>
      rw [List.flatMap_cons, List.length_append, ih, length_escapedByte, List.map_cons, List.sum_cons,
        List.length_cons]
      omega
  rw [jsonStringText, List.length_cons, List.length_append, hbytes, List.length_singleton,
    encodedJsonStringBytes, textLength]

lemma length_decimalText (n : Nat) : (decimalText n).length = decimalDigits n := by
  induction n using decimalText.induct with
  | case1 n h ih =>
    rw [decimalText, decimalDigits, if_pos h, if_pos h, List.length_append, ih]
    rfl
  | case2 n h => rw [decimalText, decimalDigits, if_neg h, if_neg h, List.length_singleton]

lemma length_jsonNumberText (n : Number) :
    (jsonNumberText json n).length = encodedJsonNumberBytes json n := by
  cases n with
  | posInt n => exact length_decimalText _
  | negInt i => rw [jsonNumberText, List.length_cons, length_decimalText, encodedJsonNumberBytes, Nat.add_comm]
  | float f => rfl

variable {json}

lemma estimatedScalar_eq_ok {depth bytes n : Nat} (h : estimatedScalar depth bytes = .ok n) :
    depth ≤ maxJsonDepth ∧ n = bytes := by
  unfold estimatedScalar at h
  split at h
  · cases h
  · cases h
    exact ⟨by omega, rfl⟩

lemma add_comma (bytes index : Nat) : (if index ≠ 0 then bytes + 1 else bytes)
    = bytes + (jsonComma index).length := by
  unfold jsonComma
  split <;> rfl

mutual

/-- What is measured is the text's length. -/
lemma encodedJsonBytes_eq {depth n : Nat} : ∀ {value : Value},
    encodedJsonBytes json depth value = .ok n → n = (jsonText json value).length
  | .null, h => (estimatedScalar_eq_ok h).2
  | .bool false, h => (estimatedScalar_eq_ok h).2
  | .bool true, h => (estimatedScalar_eq_ok h).2
  | .number number, h => (estimatedScalar_eq_ok h).2.trans (length_jsonNumberText json number).symm
  | .string value, h => (estimatedScalar_eq_ok h).2.trans (length_jsonStringText value).symm
  | .array values, h => by
    rw [encodedJsonBytes] at h
    split at h
    · next hdepth => exact absurd (estimatedScalar_eq_ok h).1 (by omega)
    · rw [encodedJsonElements_eq h, jsonText, List.length_cons, List.length_append,
        List.length_singleton]
      omega
  | .object entries, h => by
    rw [encodedJsonBytes] at h
    split at h
    · next hdepth => exact absurd (estimatedScalar_eq_ok h).1 (by omega)
    · rw [encodedJsonEntries_eq h, jsonText, List.length_cons, List.length_append,
        List.length_singleton]
      omega

lemma encodedJsonElements_eq {depth bytes index n : Nat} : ∀ {values : List Value},
    encodedJsonElements json depth bytes index values = .ok n →
      n = bytes + (jsonElementsText json index values).length
  | [], h => by
    cases h
    rfl
  | value :: values, h => by
    obtain ⟨length, hvalue, h⟩ := Except.bind_eq_ok.mp h
    have hlength := encodedJsonBytes_eq hvalue
    rw [add_comma] at h
    dsimp only at h
    split at h
    · cases h
    · rw [encodedJsonElements_eq h, jsonElementsText, List.length_append, List.length_append,
        ← hlength]
      omega

lemma encodedJsonEntries_eq {depth bytes index n : Nat} : ∀ {entries : List (String × Value)},
    encodedJsonEntries json depth bytes index entries = .ok n →
      n = bytes + (jsonEntriesText json index entries).length
  | [], h => by
    cases h
    rfl
  | (key, value) :: entries, h => by
    obtain ⟨length, hvalue, h⟩ := Except.bind_eq_ok.mp h
    have hlength := encodedJsonBytes_eq hvalue
    rw [add_comma] at h
    dsimp only at h
    split at h
    · cases h
    · rw [encodedJsonEntries_eq h, jsonEntriesText, List.length_append, List.length_append,
        List.length_append, List.length_append, ← hlength, length_jsonStringText,
        List.length_singleton]
      omega

end

lemma validateJsonValue_eq {value : Value} {n : Nat} (h : validateJsonValue json value = .ok n) :
    n = (jsonText json value).length := by
  obtain ⟨length, hlength, h⟩ := Except.bind_eq_ok.mp h
  split at h
  · cases h
  · cases h
    exact encodedJsonBytes_eq hlength

end Text
end TinyJoin
