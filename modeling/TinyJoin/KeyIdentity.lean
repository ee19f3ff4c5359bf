import TinyJoin.ResponseText

/-! The primary keys that a change notification lists, which are told apart by their JSON texts. -/
namespace TinyJoin
namespace Changes
open JsonText (Units unit unitsOf quoted joined Reads Parsed Follows)

/-- The texts of a script's finite numbers, of which the two zeros are one. -/
structure NumberText (ν : Type) where
  text : ν → Units
  isNumber : ∀ x, JsonText.isNumber (text x) = true
  injective : Function.Injective text

inductive KeyValue (ν : Type) where
  | bool (b : Bool)
  | number (x : ν)
  | string (s : String)
deriving DecidableEq

/-- A primary key as an object of its columns. -/
abbrev KeyRow (ν : Type) : Type := List (String × KeyValue ν)

/-! ## `JSON.stringify` -/

def escape (c : Char) : List Char :=
  if c = '"' then ['\\', '"']
  else if c = '\\' then ['\\', '\\']
  else if c.toNat = 8 then ['\\', 'b']
  else if c.toNat = 9 then ['\\', 't']
  else if c.toNat = 10 then ['\\', 'n']
  else if c.toNat = 12 then ['\\', 'f']
  else if c.toNat = 13 then ['\\', 'r']
  else if c.toNat < 0x20 then
    ['\\', 'u', '0', '0', Structured.Json.hex (c.toNat / 16), Structured.Json.hex (c.toNat % 16)]
  else [c]

def quote (s : String) : Units := quoted (unitsOf (s.toList.flatMap escape))

section Stringify
variable {ν : Type} (numbers : NumberText ν)

def stringifyValue : KeyValue ν → Units
  | .bool true => Utf16.ofString "true"
  | .bool false => Utf16.ofString "false"
  | .number x => numbers.text x
  | .string s => quote s

def stringifyMember (entry : String × KeyValue ν) : Units :=
  quote entry.1 ++ unit ':' :: stringifyValue numbers entry.2

def stringify (row : KeyRow ν) : Units :=
  unit '\x7b' :: (joined (row.map (stringifyMember numbers)) ++ [unit '\x7d'])

end Stringify

/-! ## No two keys have one text -/

lemma unit_of_toNat {c : Char} {n : Nat} (h : c.toNat = n) : unit c = UInt16.ofNat n := by
  rw [unit, h]

lemma parseString_escape (c : Char) (rest text tail : Units)
    (h : JsonText.parseString rest = some (text, tail)) :
    JsonText.parseString (unitsOf (escape c) ++ rest) = some (Utf16.units c ++ text, tail) := by
  have hshort : ∀ {n : Nat} {e : Char}, c.toNat = n → n < 0x20 →
      JsonText.escaped (unit e) = some (UInt16.ofNat n) → unit e ≠ unit 'u' → e.toNat < 0x80 →
      JsonText.parseString (unitsOf ['\\', e] ++ rest) = some (Utf16.units c ++ text, tail) := by
    intro n e hc hn hescaped hu he
    have hunits : unitsOf ['\\', e] = [unit '\\', unit e] := by
      rw [unitsOf, List.flatMap_cons, List.flatMap_cons, Structured.Json.units_of_lt (by decide),
        Structured.Json.units_of_lt (by omega)]
      rfl
    rw [hunits, Structured.Json.units_of_lt (by omega), unit_of_toNat hc]
    exact JsonText.parseString_escaped hescaped hu h
  rw [escape]
  split_ifs with hquote hslash hback htab hline hform hreturn hlow
  · rw [hquote]
    exact JsonText.parseString_escaped rfl (by decide) h
  · rw [hslash]
    exact JsonText.parseString_escaped rfl (by decide) h
  · exact hshort hback (by decide) rfl (by decide) (by decide)
  · exact hshort htab (by decide) rfl (by decide) (by decide)
  · exact hshort hline (by decide) rfl (by decide) (by decide)
  · exact hshort hform (by decide) rfl (by decide) (by decide)
  · exact hshort hreturn (by decide) rfl (by decide) (by decide)
  · rw [Structured.Json.unitsOf_hex _ hlow, Structured.Json.units_of_lt (by omega)]
    exact JsonText.parseString_hex (Structured.Json.hexUnit_hex _ hlow) h
  · exact Structured.Json.parseString_char hquote hslash hlow h

lemma spells_escape (text : List Char) : JsonText.Spells (unitsOf (text.flatMap escape)) (unitsOf text) := by
  induction text with
  | nil => exact JsonText.spells_nil
  | cons c rest ih =>
    rw [List.flatMap_cons, unitsOf, List.flatMap_append]
    exact JsonText.Spells.append (parseString_escape c) ih

section Injective
variable {ν : Type} {numbers : NumberText ν}

/-- What is read of a value, with its numbers left as texts. -/
def parsed (numbers : NumberText ν) : KeyValue ν → Parsed Units
  | .bool b => .bool b
  | .number x => .number (numbers.text x)
  | .string s => .string (Utf16.ofString s)

lemma parsed_injective : Function.Injective (parsed numbers) := by
  intro value value' h
  cases value with
  | bool b =>
    cases value' with
    | bool b' => cases h; rfl
    | number | string => nomatch h
  | number x =>
    cases value' with
    | number x' => rw [numbers.injective (Parsed.number.inj h)]
    | bool | string => nomatch h
  | string s =>
    cases value' with
    | string s' =>
      have hsame := congrArg Utf16.lossy (Parsed.string.inj h)
      rw [Utf16.lossy_ofString, Utf16.lossy_ofString] at hsame
      rw [hsame]
    | bool | number => nomatch h

lemma reads_stringifyValue (value : KeyValue ν) :
    Reads id (stringifyValue numbers value) (parsed numbers value) := by
  cases value with
  | bool b =>
    cases b with
    | true => exact JsonText.reads_true
    | false => exact JsonText.reads_false
  | number x => exact JsonText.reads_number (numbers.isNumber x)
  | string s => exact JsonText.reads_string (spells_escape s.toList)

lemma stringifyMember_cancel {entry entry' : String × KeyValue ν} {rest rest' : Units}
    (hrest : Follows rest) (hrest' : Follows rest')
    (h : stringifyMember numbers entry ++ rest = stringifyMember numbers entry' ++ rest') :
    entry = entry' ∧ rest = rest' := by
  simp only [stringifyMember, quote, quoted, List.cons_append, List.append_assoc,
    List.cons.injEq, List.nil_append, true_and] at h
  obtain ⟨hname, hbehind⟩ := (spells_escape entry.1.toList).cancel (spells_escape entry'.1.toList) h
  obtain ⟨hvalue, hsame⟩ := (reads_stringifyValue entry.2).cancel (reads_stringifyValue entry'.2)
    hrest hrest' (List.cons.inj hbehind).2
  have hlossy := congrArg Utf16.lossy (show Utf16.ofString entry.1 = Utf16.ofString entry'.1 from hname)
  rw [Utf16.lossy_ofString, Utf16.lossy_ofString] at hlossy
  exact ⟨Prod.ext hlossy (parsed_injective hvalue), hsame⟩

/-- What stands behind the first of some members. -/
def behindFirst (texts : List Units) : Units :=
  if texts = [] then [unit '\x7d'] else unit ',' :: (joined texts ++ [unit '\x7d'])

lemma joined_cons (text : Units) (texts : List Units) :
    joined (text :: texts) ++ [unit '\x7d'] = text ++ behindFirst texts := by
  cases texts with
  | nil => rfl
  | cons next texts =>
    rw [joined, behindFirst, if_neg (List.cons_ne_nil _ _), List.append_assoc, List.cons_append]

lemma follows_behindFirst (texts : List Units) : Follows (behindFirst texts) := by
  rw [behindFirst]
  split
  · exact JsonText.follows_cons rfl
  · exact JsonText.follows_cons rfl

lemma behindFirst_cancel {texts texts' : List Units} (h : behindFirst texts = behindFirst texts') :
    joined texts ++ [unit '\x7d'] = joined texts' ++ [unit '\x7d'] := by
  have hclosing : unit '\x7d' ≠ unit ',' := by decide
  rw [behindFirst, behindFirst] at h
  split_ifs at h with hnil hnil'
  · rw [hnil, hnil']
  · exact absurd (List.cons.inj h).1 hclosing
  · exact absurd (List.cons.inj h).1.symm hclosing
  · exact (List.cons.inj h).2

/-- No member's text starts with what closes the object. -/
lemma closing_ne (entry : String × KeyValue ν) (rest : Units) :
    [unit '\x7d'] ≠ stringifyMember numbers entry ++ rest := by
  intro h
  have hclosing : unit '\x7d' ≠ unit '"' := by decide
  exact hclosing (List.cons.inj h).1

theorem stringify_injective : Function.Injective (stringify numbers) := by
  intro row row' h
  replace h := (List.cons.inj h).2
  induction row generalizing row' with
  | nil =>
    cases row' with
    | nil => rfl
    | cons entry' row' =>
      rw [List.map_cons, joined_cons] at h
      exact absurd h (closing_ne entry' _)
  | cons entry row ih =>
    cases row' with
    | nil =>
      rw [List.map_cons, joined_cons] at h
      exact absurd h.symm (closing_ne entry _)
    | cons entry' row' =>
      rw [List.map_cons, joined_cons, List.map_cons, joined_cons] at h
      obtain ⟨rfl, hbehind⟩ := stringifyMember_cancel (follows_behindFirst _)
        (follows_behindFirst _) h
      rw [ih (behindFirst_cancel hbehind)]

end Injective

end Changes
end TinyJoin
