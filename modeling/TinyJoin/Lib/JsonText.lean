import Mathlib.Algebra.GroupWithZero.Nat
import Mathlib.Data.List.Basic
import TinyJoin.Lib.Utf16

/-! What `JSON.parse` makes of a text, over any type of numbers. An object is its properties in the
order in which a script reads them. -/
namespace JsonText
open Utf16 (units)

abbrev Units : Type := List UInt16

/-- A character of one unit. -/
def unit (c : Char) : UInt16 := UInt16.ofNat c.toNat

inductive Parsed (ν : Type) where
  | null
  | bool (b : Bool)
  | number (x : ν)
  | string (text : Units)
  | array (items : List (Parsed ν))
  | object (entries : List (Units × Parsed ν))

/-! ## Properties -/

def isDigit (u : UInt16) : Bool := decide (0x30 ≤ u.toNat ∧ u.toNat ≤ 0x39)

/-- The number that a property's name spells, if it is one of an array's indices. -/
def arrayIndex (name : Units) : Option Nat :=
  let index := name.foldl (fun n u => 10 * n + (u.toNat - 0x30)) 0
  if name ≠ [] ∧ name.all isDigit ∧ (name.head? = some (unit '0') → name.length = 1) ∧
      index < 2 ^ 32 - 1 then some index
  else none

/-- An array's indices come first, in their order. -/
def place {β : Type} (index : Nat) (entry : Units × β) : List (Units × β) → List (Units × β)
  | [] => [entry]
  | other :: rest =>
    if (arrayIndex other.1).any (fun i => decide (i < index)) then other :: place index entry rest
    else entry :: other :: rest

/-- Defines a property, in its place if the object has one of that name. -/
def define {β : Type} (entries : List (Units × β)) (entry : Units × β) : List (Units × β) :=
  if entries.any (fun other => other.1 == entry.1) then
    entries.map (fun other => if other.1 == entry.1 then entry else other)
  else
    match arrayIndex entry.1 with
    | some index => place index entry entries
    | none => entries ++ [entry]

/-! ## The parser -/

def isWhite (u : UInt16) : Bool :=
  u == unit ' ' || u == unit '\t' || u == unit '\n' || u == unit '\r'

def skipWhite (text : Units) : Units := text.dropWhile isWhite

def hexDigit (u : UInt16) : Option Nat :=
  if isDigit u then some (u.toNat - 0x30)
  else if 0x61 ≤ u.toNat ∧ u.toNat ≤ 0x66 then some (u.toNat - 0x57)
  else if 0x41 ≤ u.toNat ∧ u.toNat ≤ 0x46 then some (u.toNat - 0x37)
  else none

def hexUnit (a b c d : UInt16) : Option UInt16 := do
  let a ← hexDigit a
  let b ← hexDigit b
  let c ← hexDigit c
  let d ← hexDigit d
  return UInt16.ofNat (((16 * a + b) * 16 + c) * 16 + d)

def escaped (u : UInt16) : Option UInt16 :=
  if u = unit '"' ∨ u = unit '\\' ∨ u = unit '/' then some u
  else if u = unit 'b' then some 8
  else if u = unit 'f' then some 12
  else if u = unit 'n' then some (unit '\n')
  else if u = unit 'r' then some (unit '\r')
  else if u = unit 't' then some (unit '\t')
  else none

def prepend {β : Type} (u : UInt16) (read : Option (Units × β)) : Option (Units × β) :=
  read.map fun (text, rest) => (u :: text, rest)

/-- A string, behind its opening quote, and what follows its closing one. -/
def parseString : Units → Option (Units × Units)
  | [] => none
  | u :: rest =>
    if u = unit '"' then some ([], rest)
    else if u = unit '\\' then
      match rest with
      | [] => none
      | e :: rest =>
        if e = unit 'u' then
          match rest with
          | a :: b :: c :: d :: rest => (hexUnit a b c d).bind (prepend · (parseString rest))
          | _ => none
        else (escaped e).bind (prepend · (parseString rest))
    else if u.toNat < 0x20 then none
    else prepend u (parseString rest)

/-- What a number may hold. -/
def isNumberUnit (u : UInt16) : Bool :=
  isDigit u || u == unit '-' || u == unit '+' || u == unit '.' || u == unit 'e' || u == unit 'E'

def isExponent : Units → Bool
  | [] => true
  | e :: rest =>
    let digits :=
      if rest.head? = some (unit '-') ∨ rest.head? = some (unit '+') then rest.tail else rest
    (e == unit 'e' || e == unit 'E') && !digits.isEmpty && digits.all isDigit

def isFraction (text : Units) : Bool :=
  if text.head? = some (unit '.') then
    !(text.tail.takeWhile isDigit).isEmpty && isExponent (text.tail.dropWhile isDigit)
  else isExponent text

/-- Whether the whole of a text spells a number. -/
def isNumber (text : Units) : Bool :=
  let text := if text.head? = some (unit '-') then text.tail else text
  let whole := text.takeWhile isDigit
  !whole.isEmpty && (whole.head? != some (unit '0') || whole.length == 1) &&
    isFraction (text.dropWhile isDigit)

variable {ν : Type}

section Parser
variable (number : Units → ν)

/-- A word, or else a number. -/
def parseScalar (text : Units) : Option (Parsed ν × Units) :=
  if (Utf16.ofString "null").isPrefixOf text then some (.null, text.drop 4)
  else if (Utf16.ofString "true").isPrefixOf text then some (.bool true, text.drop 4)
  else if (Utf16.ofString "false").isPrefixOf text then some (.bool false, text.drop 5)
  else
    let token := text.takeWhile isNumberUnit
    if isNumber token then some (.number (number token), text.dropWhile isNumberUnit) else none

mutual
/-- A value, and what follows it. -/
def parseValue : Nat → Units → Option (Parsed ν × Units)
  | 0, _ => none
  | fuel + 1, text =>
    match skipWhite text with
    | [] => none
    | u :: rest =>
      if u = unit '"' then (parseString rest).map fun (text, rest) => (.string text, rest)
      else if u = unit '[' then
        if (skipWhite rest).head? = some (unit ']') then some (.array [], (skipWhite rest).tail)
        else (parseItems fuel rest).map fun (items, rest) => (.array items, rest)
      else if u = unit '\x7b' then
        if (skipWhite rest).head? = some (unit '\x7d') then some (.object [], (skipWhite rest).tail)
        else (parseMembers fuel [] rest).map fun (entries, rest) => (.object entries, rest)
      else parseScalar number (u :: rest)

/-- One item and those behind it, up to the closing bracket. -/
def parseItems : Nat → Units → Option (List (Parsed ν) × Units)
  | 0, _ => none
  | fuel + 1, text => do
    let (item, rest) ← parseValue fuel text
    match skipWhite rest with
    | [] => none
    | u :: rest =>
      if u = unit ',' then (parseItems fuel rest).map fun (items, rest) => (item :: items, rest)
      else if u = unit ']' then some ([item], rest)
      else none

/-- One member and those behind it, up to the closing brace, defined after the `entries`. -/
def parseMembers : Nat → List (Units × Parsed ν) → Units → Option (List (Units × Parsed ν) × Units)
  | 0, _, _ => none
  | fuel + 1, entries, text =>
    match skipWhite text with
    | [] => none
    | u :: rest =>
      if u = unit '"' then do
        let (name, rest) ← parseString rest
        match skipWhite rest with
        | [] => none
        | u :: rest =>
          if u = unit ':' then do
            let (item, rest) ← parseValue fuel rest
            match skipWhite rest with
            | [] => none
            | u :: rest =>
              if u = unit ',' then parseMembers fuel (define entries (name, item)) rest
              else if u = unit '\x7d' then some (define entries (name, item), rest)
              else none
          else none
      else none
end

/-- `JSON.parse`, or `none` where it throws. -/
def parse (text : Units) : Option (Parsed ν) :=
  match parseValue number (2 * text.length + 1) text with
  | some (value, rest) => if skipWhite rest = [] then some value else none
  | none => none

end Parser

/-! ## Reading what was written -/

/-- The units of some characters. -/
def unitsOf (text : List Char) : Units := text.flatMap units

/-- A text which, up to a closing quote, spells a string. -/
def Spells (body text : Units) : Prop :=
  ∀ rest, parseString (body ++ unit '"' :: rest) = some (text, rest)

def quoted (body : Units) : Units := unit '"' :: (body ++ [unit '"'])

/-- Texts with commas between them. -/
def joined : List Units → Units
  | [] => []
  | [text] => text
  | text :: next :: rest => text ++ unit ',' :: joined (next :: rest)

/-- What a text goes on with behind a value is no more of a number. -/
def Follows (rest : Units) : Prop := ∀ u ∈ rest.head?, isNumberUnit u = false

/-- A text from which a value is read, whatever follows it. -/
def Reads (number : Units → ν) (text : Units) (value : Parsed ν) : Prop :=
  ∀ rest fuel, Follows rest → 2 * text.length ≤ fuel →
    parseValue number fuel (text ++ rest) = some (value, rest)

lemma follows_cons {u : UInt16} {rest : Units} (h : isNumberUnit u = false) :
    Follows (u :: rest) := by
  intro v hv
  rw [← Option.some.inj hv, h]

lemma spells_nil : Spells [] [] := by
  intro rest
  rw [List.nil_append, parseString.eq_def]
  exact if_pos rfl

lemma Spells.append {body body' text text' : Units} (h : ∀ rest s tail,
      parseString rest = some (s, tail) → parseString (body ++ rest) = some (text ++ s, tail))
    (h' : Spells body' text') : Spells (body ++ body') (text ++ text') := by
  intro rest
  rw [List.append_assoc]
  exact h _ _ _ (h' rest)

lemma parseString_plain {u : UInt16} {rest s tail : Units} (hquote : u ≠ unit '"')
    (hslash : u ≠ unit '\\') (hlow : 0x20 ≤ u.toNat) (h : parseString rest = some (s, tail)) :
    parseString (u :: rest) = some (u :: s, tail) := by
  have hnot : ¬u.toNat < 0x20 := Nat.not_lt.mpr hlow
  rw [parseString.eq_def]
  simp only [if_neg hquote, if_neg hslash, if_neg hnot, h]
  rfl

lemma parseString_escaped {e u : UInt16} {rest s tail : Units} (he : escaped e = some u)
    (hne : e ≠ unit 'u') (h : parseString rest = some (s, tail)) :
    parseString (unit '\\' :: e :: rest) = some (u :: s, tail) := by
  have hquote : unit '\\' ≠ unit '"' := by decide
  rw [parseString.eq_def]
  simp only [if_neg hquote, if_pos, if_neg hne, he, h]
  rfl

lemma parseString_hex {a b c d u : UInt16} {rest s tail : Units}
    (hunit : hexUnit a b c d = some u) (h : parseString rest = some (s, tail)) :
    parseString (unit '\\' :: unit 'u' :: a :: b :: c :: d :: rest) = some (u :: s, tail) := by
  have hquote : unit '\\' ≠ unit '"' := by decide
  rw [parseString.eq_def]
  simp only [if_neg hquote, if_pos, hunit, h]
  rfl

/-! ### Numbers -/

lemma isNumberUnit_of_digit {u : UInt16} (h : isDigit u = true) : isNumberUnit u = true := by
  simp only [isNumberUnit, h, Bool.true_or]

lemma forall_mem_of_tail {p : UInt16 → Prop} {text : Units} {u : UInt16} (hu : p u)
    (hhead : text.head? = some u) (h : ∀ v ∈ text.tail, p v) : ∀ v ∈ text, p v := by
  cases text with
  | nil => exact fun _ h => (nomatch h)
  | cons v rest =>
    obtain rfl : v = u := Option.some.inj hhead
    exact List.forall_mem_cons.mpr ⟨hu, h⟩

lemma forall_mem_of_digits {text : Units}
    (h : ∀ u ∈ text.dropWhile isDigit, isNumberUnit u = true) :
    ∀ u ∈ text, isNumberUnit u = true := by
  intro u hu
  rw [← List.takeWhile_append_dropWhile (p := isDigit) (l := text), List.mem_append] at hu
  rcases hu with hwhole | hrest
  · exact isNumberUnit_of_digit (List.all_eq_true.mp List.all_takeWhile u hwhole)
  · exact h u hrest

lemma isExponent_units {text : Units} (h : isExponent text = true) :
    ∀ u ∈ text, isNumberUnit u = true := by
  cases text with
  | nil => exact fun _ h => (nomatch h)
  | cons e rest =>
    rw [isExponent, Bool.and_eq_true, Bool.and_eq_true, Bool.or_eq_true, beq_iff_eq,
      beq_iff_eq] at h
    obtain ⟨⟨he, -⟩, hdigits⟩ := h
    refine List.forall_mem_cons.mpr ⟨by rcases he with rfl | rfl <;> decide, ?_⟩
    split_ifs at hdigits with hsign
    · have htail : ∀ u ∈ rest.tail, isNumberUnit u = true :=
        fun u hu => isNumberUnit_of_digit (List.all_eq_true.mp hdigits u hu)
      rcases hsign with hminus | hplus
      · exact forall_mem_of_tail (by decide) hminus htail
      · exact forall_mem_of_tail (by decide) hplus htail
    · exact fun u hu => isNumberUnit_of_digit (List.all_eq_true.mp hdigits u hu)

lemma isFraction_units {text : Units} (h : isFraction text = true) :
    ∀ u ∈ text, isNumberUnit u = true := by
  rw [isFraction] at h
  split_ifs at h with hpoint
  · rw [Bool.and_eq_true] at h
    exact forall_mem_of_tail (by decide) hpoint (forall_mem_of_digits (isExponent_units h.2))
  · exact isExponent_units h

lemma isNumber_units {text : Units} (h : isNumber text = true) :
    ∀ u ∈ text, isNumberUnit u = true := by
  rw [isNumber, Bool.and_eq_true] at h
  have hunits := forall_mem_of_digits (isFraction_units h.2)
  split_ifs at hunits with hsign
  · exact forall_mem_of_tail (by decide) hsign hunits
  · exact hunits

/-- A number starts with its sign or a digit. -/
lemma isNumber_head {text : Units} (h : isNumber text = true) :
    ∃ u, text.head? = some u ∧ (u = unit '-' ∨ isDigit u = true) := by
  cases text with
  | nil => exact absurd h (by decide)
  | cons u rest =>
    refine ⟨u, rfl, ?_⟩
    by_cases hsign : u = unit '-'
    · exact .inl hsign
    · have hhead : ¬(u :: rest).head? = some (unit '-') := fun h => hsign (Option.some.inj h)
      by_contra hnot
      rw [not_or, Bool.not_eq_true] at hnot
      rw [isNumber, if_neg hhead, List.takeWhile_cons_of_neg (by rw [hnot.2]; exact
        Bool.false_ne_true)] at h
      nomatch h

lemma takeWhile_append {p : UInt16 → Bool} {text rest : Units} (h : ∀ u ∈ text, p u = true)
    (hrest : ∀ u ∈ rest.head?, p u = false) :
    (text ++ rest).takeWhile p = text ∧ (text ++ rest).dropWhile p = rest := by
  rw [List.takeWhile_append_of_pos h, List.dropWhile_append_of_pos h]
  cases rest with
  | nil => exact ⟨List.append_nil _, rfl⟩
  | cons u rest =>
    have hu : ¬p u = true := by
      rw [hrest u rfl]
      exact Bool.false_ne_true
    rw [List.takeWhile_cons_of_neg hu, List.dropWhile_cons_of_neg hu, List.append_nil]
    exact ⟨rfl, rfl⟩

section Reads
variable {number : Units → ν}

lemma reads_scalar {text : Units} {value : Parsed ν} {u : UInt16} (hhead : text.head? = some u)
    (hwhite : isWhite u = false) (hquote : u ≠ unit '"') (hbracket : u ≠ unit '[')
    (hbrace : u ≠ unit '\x7b')
    (h : ∀ rest, Follows rest →
      parseScalar number (text ++ rest) = some (value, rest)) : Reads number text value := by
  obtain ⟨rest', rfl⟩ : ∃ rest', text = u :: rest' := by
    cases text with
    | nil => nomatch hhead
    | cons v rest' => exact ⟨rest', by rw [Option.some.inj hhead]⟩
  intro rest fuel hrest hfuel
  obtain ⟨fuel, rfl⟩ : ∃ n, fuel = n + 1 := Nat.exists_eq_succ_of_ne_zero (by
    rintro rfl
    rw [List.length_cons] at hfuel
    omega)
  have hskip : skipWhite (u :: (rest' ++ rest)) = u :: (rest' ++ rest) :=
    List.dropWhile_cons_of_neg (by rw [hwhite]; exact Bool.false_ne_true)
  rw [List.cons_append, parseValue, hskip]
  simp only [if_neg hquote, if_neg hbracket, if_neg hbrace]
  exact h rest hrest

lemma reads_true : Reads number (Utf16.ofString "true") (.bool true) :=
  reads_scalar (u := unit 't') rfl rfl (by decide) (by decide) (by decide) (fun _ _ => rfl)

lemma reads_false : Reads number (Utf16.ofString "false") (.bool false) :=
  reads_scalar (u := unit 'f') rfl rfl (by decide) (by decide) (by decide) (fun _ _ => rfl)

lemma reads_number {token : Units} (h : isNumber token = true) :
    Reads number token (.number (number token)) := by
  obtain ⟨u, hhead, hu⟩ := isNumber_head h
  have hne : ∀ c, isNumberUnit (unit c) = false → u ≠ unit c := by
    rintro c hc rfl
    rcases hu with hminus | hdigit
    · rw [hminus] at hc
      exact absurd hc (by decide)
    · rw [isNumberUnit_of_digit hdigit] at hc
      exact absurd hc (by decide)
  have hwhite : isWhite u = false := by
    simp only [isWhite, Bool.or_eq_false_iff, beq_eq_false_iff_ne]
    exact ⟨⟨⟨hne ' ' rfl, hne '\t' rfl⟩, hne '\n' rfl⟩, hne '\r' rfl⟩
  refine reads_scalar hhead hwhite (hne _ rfl) (hne _ rfl) (hne _ rfl) (fun rest hrest => ?_)
  obtain ⟨htake, hdrop⟩ := takeWhile_append (isNumber_units h) hrest
  have hword : ∀ {c : Char} {word : Units}, isNumberUnit (unit c) = false →
      (unit c :: word).isPrefixOf (token ++ rest) = false := by
    intro c word hc
    cases token with
    | nil => nomatch hhead
    | cons v token =>
      rw [Option.some.inj hhead, List.cons_append, List.isPrefixOf_cons_cons,
        beq_eq_false_iff_ne.mpr (hne c hc).symm, Bool.false_and]
  have hnull : (Utf16.ofString "null").isPrefixOf (token ++ rest) = false := hword rfl
  have htrue : (Utf16.ofString "true").isPrefixOf (token ++ rest) = false := hword rfl
  have hfalse : (Utf16.ofString "false").isPrefixOf (token ++ rest) = false := hword rfl
  rw [parseScalar, hnull, htrue, hfalse]
  simp only [htake, hdrop, h, if_true, Bool.false_eq_true, if_false]

/-! ### Strings -/

lemma skipWhite_of_not {u : UInt16} {rest : Units} (h : isWhite u = false) :
    skipWhite (u :: rest) = u :: rest :=
  List.dropWhile_cons_of_neg (by rw [h]; exact Bool.false_ne_true)

lemma reads_string {body text : Units} (h : Spells body text) :
    Reads number (quoted body) (.string text) := by
  intro rest fuel _ hfuel
  obtain ⟨fuel, rfl⟩ : ∃ n, fuel = n + 1 := Nat.exists_eq_succ_of_ne_zero (by
    rintro rfl
    rw [quoted, List.length_cons] at hfuel
    omega)
  rw [quoted, List.cons_append, List.append_assoc, List.singleton_append, parseValue,
    skipWhite_of_not (by decide)]
  simp only [if_pos, h rest, Option.map_some]

end Reads

/-! ## Texts that read differently differ -/

/-- A text that two strings' spellings start, up to the closing quote, spells one string. -/
lemma Spells.cancel {body body' text text' rest rest' : Units} (h : Spells body text)
    (h' : Spells body' text') (heq : body ++ unit '"' :: rest = body' ++ unit '"' :: rest') :
    text = text' ∧ rest = rest' := by
  have hread := h rest
  rw [heq, h' rest'] at hread
  exact (Prod.mk.inj (Option.some.inj hread)).imp Eq.symm Eq.symm

lemma Reads.cancel {number : Units → ν} {text text' rest rest' : Units} {value value' : Parsed ν}
    (h : Reads number text value) (h' : Reads number text' value') (hrest : Follows rest)
    (hrest' : Follows rest') (heq : text ++ rest = text' ++ rest') :
    value = value' ∧ rest = rest' := by
  have hread := h rest (2 * text.length + 2 * text'.length) hrest (Nat.le_add_right _ _)
  rw [heq, h' rest' _ hrest' (Nat.le_add_left _ _)] at hread
  exact (Prod.mk.inj (Option.some.inj hread)).imp Eq.symm Eq.symm

end JsonText
