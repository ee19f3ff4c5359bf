import TinyJoin.DataModification
import TinyJoin.StructuredJson

/-! The textual keys that a statement tells rows' values apart by: equal values have one key, whatever
form they are read in, and different values of a column have different keys. -/
namespace TinyJoin
open Structured (Json)

/-- `serde_json`'s text of a character in a string. -/
def escapeJsonChar (c : Char) : List Char :=
  if c = '"' then ['\\', '"']
  else if c = '\\' then ['\\', '\\']
  else if c = '\x08' then ['\\', 'b']
  else if c = '\x0c' then ['\\', 'f']
  else if c = '\n' then ['\\', 'n']
  else if c = '\r' then ['\\', 'r']
  else if c = '\t' then ['\\', 't']
  else if c.toNat < 0x20 then
    ['\\', 'u', '0', '0', Json.hex (c.toNat / 16), Json.hex (c.toNat % 16)]
  else [c]

/-- `serde_json::to_string` of a string. -/
def jsonString (text : List Char) : List Char :=
  '"' :: (text.flatMap escapeJsonChar ++ ['"'])

/-- The bits of a float whose zero has no sign. -/
def unsignedZeroBits (number : F64) : UInt64 := if number.isZero then 0 else number.bits

/-- `{:016x}`. -/
def hexBits (bits : UInt64) : List Char :=
  (List.range 16).reverse.map (fun place => Json.hex (bits.toNat / 16 ^ place % 16))

def incompatibleGroupValue (column : String) : EngineError :=
  .typeMismatch s!"Column `{column}` contains a value incompatible with its catalog type"

/-- The integer of a value, as any JSON integer spells one. -/
def integerInputValue (value : Value) : Result Int :=
  match value.asI64, value.asU64 with
  | some i, _ => .ok i
  | none, some n => .ok n
  | none, none => .error (.typeMismatch "Expected a typed integer value")

/-- A grouped value as `groupKeyPart` encodes it. -/
inductive GroupValue where
  | null
  | boolean (b : Bool)
  | integer (i : Int)
  | float (bits : UInt64)
  | text (s : String)
deriving DecidableEq

def groupValue (dataType : ColumnType) (column : String) (value : ValueRef) : Result GroupValue :=
  match dataType, value with
  | _, .null => .ok .null
  | .boolean, .boolean b => .ok (.boolean b)
  | .integer, .integer i => .ok (.integer i)
  | .float, .float f => .ok (.float (unsignedZeroBits f))
  | .text, .text s => .ok (.text s)
  | dataType, .json value =>
    match dataType, value with
    | _, .null => .ok .null
    | .boolean, .bool b => .ok (.boolean b)
    | .integer, value => do return .integer (← integerInputValue value)
    | .float, .number n => .ok (.float (unsignedZeroBits n.asF64))
    | .text, .string s => .ok (.text s)
    | _, _ => .error (incompatibleGroupValue column)
  | _, _ => .error (incompatibleGroupValue column)

def groupKeyPart (dataType : ColumnType) (value : Value) (column : String) :
    Result (List Char) :=
  match dataType, value with
  | _, .null => .ok ['n', 'u', 'l', 'l']
  | .boolean, .bool b => .ok ('b' :: ':' :: (toString b).toList)
  | .integer, value => do return 'i' :: ':' :: Json.formatSigned (← integerInputValue value)
  | .float, .number n => .ok ('f' :: ':' :: hexBits (unsignedZeroBits n.asF64))
  | .text, .string s => .ok ('s' :: ':' :: jsonString s.toList)
  | _, _ => .error (incompatibleGroupValue column)

/-- The key part of a typed value that is read from a row. -/
def groupKeyPartRef (dataType : ColumnType) (value : ValueRef) (column : String) :
    Result (List Char) :=
  match dataType, value with
  | _, .null => .ok ['n', 'u', 'l', 'l']
  | .boolean, .boolean b => .ok ('b' :: ':' :: (toString b).toList)
  | .integer, .integer i => .ok ('i' :: ':' :: Json.formatSigned i)
  | .float, .float f => .ok ('f' :: ':' :: hexBits (unsignedZeroBits f))
  | .text, .text s => .ok ('s' :: ':' :: jsonString s.toList)
  | _, _ => .error (incompatibleGroupValue column)

/-- The key part of a value that is read from a row. -/
def groupKeyPartOf (dataType : ColumnType) (column : String) : ValueRef → Result (List Char)
  | .json value => groupKeyPart dataType value column
  | value => groupKeyPartRef dataType value column

/-- The parts behind the first, each with a comma before it. -/
def commaParts : List (List Char) → List Char
  | [] => []
  | part :: parts => ',' :: (jsonString part ++ commaParts parts)

/-- `serde_json::to_string` of the parts. -/
def encodeGroupKey : List (List Char) → List Char
  | [] => ['[', ']']
  | part :: parts => '[' :: (jsonString part ++ (commaParts parts ++ [']']))

/-! ### Strings -/

/-- The character that a backslash stands before, with what follows it. -/
def readTagged : List Char → Option (Char × List Char)
  | 'u' :: _ :: _ :: a :: b :: rest =>
    some (Char.ofNat ("0123456789abcdef".toList.idxOf a * 16 +
      "0123456789abcdef".toList.idxOf b), rest)
  | 'b' :: rest => some ('\x08', rest)
  | 'f' :: rest => some ('\x0c', rest)
  | 'n' :: rest => some ('\n', rest)
  | 'r' :: rest => some ('\r', rest)
  | 't' :: rest => some ('\t', rest)
  | c :: rest => some (c, rest)
  | [] => none

/-- The character whose text others begin with, and those others. -/
def readEscaped : List Char → Option (Char × List Char)
  | [] => none
  | c :: rest => if c = '\\' then readTagged rest else some (c, rest)

lemma idxOf_hex {digit : Nat} (h : digit < 16) :
    "0123456789abcdef".toList.idxOf (Json.hex digit) = digit := by
  revert digit
  decide

lemma hex_injective {a b : Nat} (ha : a < 16) (hb : b < 16) (h : Json.hex a = Json.hex b) :
    a = b := by
  rw [← idxOf_hex ha, h, idxOf_hex hb]

lemma readEscaped_escape (c : Char) (rest : List Char) :
    readEscaped (escapeJsonChar c ++ rest) = some (c, rest) := by
  unfold escapeJsonChar
  split_ifs with h1 h2 h3 h4 h5 h6 h7 hcontrol
  all_goals try subst_vars; rfl
  · simp only [List.cons_append, List.nil_append, readEscaped, if_true, readTagged,
      idxOf_hex (show c.toNat / 16 < 16 by omega), idxOf_hex (show c.toNat % 16 < 16 by omega),
      Nat.div_add_mod' c.toNat 16, Char.ofNat_toNat]
  · simp only [List.cons_append, List.nil_append, readEscaped, if_neg h2]

lemma escapeJsonChar_cancel {c d : Char} {x y : List Char}
    (h : escapeJsonChar c ++ x = escapeJsonChar d ++ y) : c = d ∧ x = y := by
  have hread := readEscaped_escape c x
  rw [h, readEscaped_escape d y, Option.some.injEq, Prod.mk.injEq] at hread
  exact ⟨hread.1.symm, hread.2.symm⟩

lemma escapeJsonChar_head (c : Char) (x y : List Char) : escapeJsonChar c ++ x ≠ '"' :: y := by
  unfold escapeJsonChar
  split_ifs with h1 <;> simp [h1]

lemma flatMap_escape_cancel {s t : List Char} {x y : List Char}
    (h : s.flatMap escapeJsonChar ++ '"' :: x = t.flatMap escapeJsonChar ++ '"' :: y) :
    s = t ∧ x = y := by
  induction s generalizing t with
  | nil =>
    cases t with
    | nil => exact ⟨rfl, (List.cons.inj h).2⟩
    | cons d t =>
      rw [List.flatMap_cons, List.append_assoc] at h
      exact absurd h.symm (escapeJsonChar_head d _ _)
  | cons c s ih =>
    cases t with
    | nil =>
      rw [List.flatMap_cons, List.append_assoc] at h
      exact absurd h (escapeJsonChar_head c _ _)
    | cons d t =>
      rw [List.flatMap_cons, List.flatMap_cons, List.append_assoc, List.append_assoc] at h
      obtain ⟨rfl, hrest⟩ := escapeJsonChar_cancel h
      obtain ⟨rfl, hx⟩ := ih hrest
      exact ⟨rfl, hx⟩

/-- A string delimits itself. -/
lemma jsonString_cancel {s t x y : List Char} (h : jsonString s ++ x = jsonString t ++ y) :
    s = t ∧ x = y := by
  simp only [jsonString, List.cons_append, List.append_assoc, List.nil_append, List.cons.injEq,
    true_and] at h
  exact flatMap_escape_cancel h

lemma commaParts_cancel {parts parts' : List (List Char)}
    (h : commaParts parts ++ [']'] = commaParts parts' ++ [']']) : parts = parts' := by
  induction parts generalizing parts' with
  | nil =>
    cases parts' with
    | nil => rfl
    | cons part' parts' =>
      rw [commaParts, commaParts, List.nil_append, List.cons_append, List.cons.injEq] at h
      exact absurd h.1 (by decide)
  | cons part parts ih =>
    cases parts' with
    | nil =>
      rw [commaParts, commaParts, List.nil_append, List.cons_append, List.cons.injEq] at h
      exact absurd h.1 (by decide)
    | cons part' parts' =>
      simp only [commaParts, List.cons_append, List.append_assoc, List.cons.injEq, true_and] at h
      obtain ⟨rfl, hrest⟩ := jsonString_cancel h
      rw [ih hrest]

/-- A group key tells its parts. -/
theorem encodeGroupKey_injective : Function.Injective encodeGroupKey := by
  intro parts parts' h
  cases parts with
  | nil =>
    cases parts' with
    | nil => rfl
    | cons part' parts' => simp [encodeGroupKey, jsonString] at h
  | cons part parts =>
    cases parts' with
    | nil => simp [encodeGroupKey, jsonString] at h
    | cons part' parts' =>
      simp only [encodeGroupKey, List.cons.injEq, true_and] at h
      obtain ⟨rfl, hrest⟩ := jsonString_cancel h
      rw [commaParts_cancel hrest]

/-! ### Numbers -/

lemma formatSigned_injective : Function.Injective Json.formatSigned := by
  intro i j h
  have hformat {m n : Nat} (hsame : Json.format m = Json.format n) : m = n := by
    rw [← @Nat.ofDigitChars_ten_toDigits m, ← @Nat.ofDigitChars_ten_toDigits n]
    exact congrArg (fun digits => Nat.ofDigitChars 10 digits 0) hsame
  have hdigit (n : Nat) (rest : List Char) : Json.format n ≠ '-' :: rest := by
    intro hn
    have hmem : '-' ∈ Nat.toDigits 10 n := by
      rw [show Nat.toDigits 10 n = '-' :: rest from hn]
      exact List.mem_cons_self
    exact absurd (@Nat.isDigit_of_mem_toDigits 10 n '-' (by decide) (by decide) hmem) (by decide)
  unfold Json.formatSigned at h
  split_ifs at h with hi hj hj
  · have := hformat (List.cons.inj h).2
    omega
  · exact absurd h.symm (hdigit _ _)
  · exact absurd h (hdigit _ _)
  · have := hformat h
    omega

lemma mod_pow_of_digits {a b : Nat} (k : Nat)
    (h : ∀ place < k, a / 16 ^ place % 16 = b / 16 ^ place % 16) : a % 16 ^ k = b % 16 ^ k := by
  induction k with
  | zero => simp [Nat.mod_one]
  | succ k ih =>
    rw [Nat.pow_succ, Nat.mod_mul, Nat.mod_mul, ih (fun place hplace => h place (by omega)),
      h k (by omega)]

lemma hexBits_injective : Function.Injective hexBits := by
  intro a b h
  have hplace (place : Nat) (hlt : place < 16) :
      a.toNat / 16 ^ place % 16 = b.toNat / 16 ^ place % 16 := by
    have hdigit := List.map_inj_left.mp h place (by simp [hlt])
    exact hex_injective (Nat.mod_lt _ (by decide)) (Nat.mod_lt _ (by decide)) hdigit
  have hsame := mod_pow_of_digits 16 hplace
  have ha := a.toNat_lt
  have hb := b.toNat_lt
  rw [Nat.mod_eq_of_lt (by simpa using ha), Nat.mod_eq_of_lt (by simpa using hb)] at hsame
  exact UInt64.toNat_inj.mp hsame

/-! ### Parts -/

namespace GroupValue

/-- What `groupKeyPart` encodes the value as. -/
def part : GroupValue → List Char
  | null => ['n', 'u', 'l', 'l']
  | boolean b => 'b' :: ':' :: (toString b).toList
  | integer i => 'i' :: ':' :: Json.formatSigned i
  | float bits => 'f' :: ':' :: hexBits bits
  | text s => 's' :: ':' :: jsonString s.toList

theorem part_injective : Function.Injective part := by
  intro a b h
  cases a <;> cases b
  case boolean.boolean p q =>
    revert p q
    decide
  all_goals simp only [part, List.cons.injEq, Char.reduceEq, false_and, true_and] at h
  · rfl
  · rw [formatSigned_injective h]
  · rw [hexBits_injective h]
  · rw [String.toList_injective (jsonString_cancel (congrArg (· ++ []) h)).1]

end GroupValue

/-- A value and its key part are found alike, and fail alike. -/
theorem groupKeyPartOf_eq (dataType : ColumnType) (column : String) (value : ValueRef) :
    groupKeyPartOf dataType column value =
      (groupValue dataType column value).map GroupValue.part := by
  cases value with
  | json v =>
    cases dataType with
    | integer =>
      cases v with
      | null => rfl
      | _ =>
        simp only [groupKeyPartOf, groupKeyPart, groupValue, bind, Except.bind]
        cases integerInputValue _ <;> rfl
    | _ => cases v <;> rfl
  | _ => cases dataType <;> rfl

end TinyJoin
