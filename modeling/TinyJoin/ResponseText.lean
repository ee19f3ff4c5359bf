import TinyJoin.StructuredJson
import TinyJoin.Lib.JsonText

/-! The text of an integer, and of a character that needs no escape, as `JSON.parse` reads them. -/
namespace TinyJoin
namespace Structured
namespace Json
open JsonText (Units unit unitsOf)

/-! ## Strings -/

lemma units_of_lt {c : Char} (h : c.toNat < 0x10000) : Utf16.units c = [unit c] := if_pos h

lemma unit_ne {c d : Char} (hc : c.toNat < 0x10000) (hd : d.toNat < 0x10000) (h : c ≠ d) :
    unit c ≠ unit d := by
  intro heq
  have hnat := congrArg UInt16.toNat heq
  rw [unit, unit, UInt16.toNat_ofNat', UInt16.toNat_ofNat', Nat.mod_eq_of_lt hc,
    Nat.mod_eq_of_lt hd] at hnat
  exact h (Char.toNat_inj.mp hnat)

lemma hexUnit_hex : ∀ n < 0x20, JsonText.hexUnit (unit '0') (unit '0') (unit (hex (n / 16)))
    (unit (hex (n % 16))) = some (UInt16.ofNat n) := by
  decide

lemma unitsOf_hex : ∀ n < 0x20, unitsOf ['\\', 'u', '0', '0', hex (n / 16), hex (n % 16)] =
    [unit '\\', unit 'u', unit '0', unit '0', unit (hex (n / 16)), unit (hex (n % 16))] := by
  decide

/-- A character that needs no escape is read as itself. -/
lemma parseString_char {c : Char} {rest text tail : Units} (hquote : c ≠ '"') (hslash : c ≠ '\\')
    (hlow : ¬c.toNat < 0x20) (h : JsonText.parseString rest = some (text, tail)) :
    JsonText.parseString (unitsOf [c] ++ rest) = some (Utf16.units c ++ text, tail) := by
  have hself : unitsOf [c] = Utf16.units c := List.append_nil _
  rw [hself]
  by_cases hc : c.toNat < 0x10000
  · rw [units_of_lt hc]
    refine JsonText.parseString_plain (unit_ne hc (by decide) hquote)
      (unit_ne hc (by decide) hslash) ?_ h
    rw [unit, UInt16.toNat_ofNat', Nat.mod_eq_of_lt hc]
    omega
  · have hrange := Utf16.char_range c
    have hplain : ∀ {n : Nat} {rest text tail : Units}, 0xd800 ≤ n → n < 0x10000 →
        JsonText.parseString rest = some (text, tail) →
        JsonText.parseString (UInt16.ofNat n :: rest) = some (UInt16.ofNat n :: text, tail) := by
      intro n rest text tail hlo hhi hrest
      have hnat : (UInt16.ofNat n).toNat = n := by
        rw [UInt16.toNat_ofNat', Nat.mod_eq_of_lt hhi]
      have hne : ∀ d : Char, d.toNat < 0x80 → UInt16.ofNat n ≠ unit d := by
        intro d hd heq
        have hsame := congrArg UInt16.toNat heq
        rw [hnat, unit, UInt16.toNat_ofNat', Nat.mod_eq_of_lt (by omega)] at hsame
        omega
      exact JsonText.parseString_plain (hne _ (by decide)) (hne _ (by decide)) (by omega) hrest
    rw [Utf16.units, if_neg hc]
    exact hplain (by omega) (by omega) (hplain (by omega) (by omega) h)

lemma unitsOf_cons {c : Char} (h : c.toNat < 0x10000) (rest : List Char) :
    unitsOf (c :: rest) = unit c :: unitsOf rest := by
  rw [unitsOf, List.flatMap_cons, units_of_lt h]
  rfl

/-! ## Integers -/

lemma toNat_digit {c : Char} (h : c.isDigit = true) : 0x30 ≤ c.toNat ∧ c.toNat ≤ 0x39 :=
  Char.isDigit_iff_toNat.mp h

lemma isDigit_unit {c : Char} (h : c.isDigit = true) : JsonText.isDigit (unit c) = true := by
  have hrange := toNat_digit h
  rw [JsonText.isDigit, decide_eq_true_iff, unit, UInt16.toNat_ofNat', Nat.mod_eq_of_lt (by omega)]
  exact hrange

lemma unitsOf_digits {text : List Char} (h : ∀ c ∈ text, c.isDigit = true) :
    unitsOf text = text.map unit := by
  induction text with
  | nil => rfl
  | cons c rest ih =>
    have hc := toNat_digit (h c List.mem_cons_self)
    rw [unitsOf_cons (by omega), ih (fun d hd => h d (List.mem_cons_of_mem c hd)), List.map_cons]

/-- No number above zero starts with a zero. -/
lemma head_format {n : Nat} (h : 0 < n) : (format n).head? ≠ some '0' := by
  induction n using Nat.strong_induction_on with
  | _ n ih =>
    by_cases hlt : n < 10
    · have hdigits : ∀ k < 10, 0 < k → [Nat.digitChar k].head? ≠ some '0' := by decide
      rw [format, Nat.toDigits_of_lt_base hlt]
      exact hdigits n hlt h
    · have hne : Nat.toDigits 10 (n / 10) ≠ [] := Nat.toDigits_ne_nil
      rw [format, Nat.toDigits_of_base_le (by decide) (by omega), List.head?_append_of_ne_nil _ hne]
      exact ih (n / 10) (by omega) (by omega)

lemma isDigit_of_mem_format {n : Nat} {c : Char} (h : c ∈ format n) : c.isDigit = true :=
  Nat.isDigit_of_mem_toDigits (by decide) (by decide) h

lemma isNumber_format (n : Nat) : JsonText.isNumber (unitsOf (format n)) = true ∧
    JsonText.isNumber (unit '-' :: unitsOf (format n)) = true := by
  have hdigit : ∀ u ∈ unitsOf (format n), JsonText.isDigit u = true := by
    rw [unitsOf_digits (fun c hc => isDigit_of_mem_format hc)]
    intro u hu
    obtain ⟨c, hc, rfl⟩ := List.mem_map.mp hu
    exact isDigit_unit (isDigit_of_mem_format hc)
  have hne : (unitsOf (format n)).isEmpty = false := by
    rw [unitsOf_digits (fun c hc => isDigit_of_mem_format hc), List.isEmpty_eq_false_iff]
    exact fun h => Nat.toDigits_ne_nil (List.map_eq_nil_iff.mp h)
  have hzero : ((unitsOf (format n)).head? != some (unit '0') ||
      (unitsOf (format n)).length == 1) = true := by
    by_cases hpos : 0 < n
    · rw [unitsOf_digits (fun c hc => isDigit_of_mem_format hc), List.head?_map, Bool.or_eq_true]
      left
      rw [bne_iff_ne]
      intro heq
      obtain ⟨c, hc, hunit⟩ := Option.map_eq_some_iff.mp heq
      have hcdigit := toNat_digit (isDigit_of_mem_format (List.mem_of_mem_head? hc))
      by_cases hcz : c = '0'
      · exact head_format hpos (hcz ▸ hc)
      · exact unit_ne (by omega) (by decide) hcz hunit
    · obtain rfl : n = 0 := by omega
      rfl
  have hsign : ¬(unitsOf (format n)).head? = some (unit '-') := fun h =>
    absurd (hdigit _ (List.mem_of_mem_head? h)) (by decide)
  obtain ⟨htake, hdrop⟩ := JsonText.takeWhile_append hdigit
    (show ∀ u ∈ ([] : Units).head?, JsonText.isDigit u = false from fun _ h => (nomatch h))
  rw [List.append_nil] at htake hdrop
  constructor
  · rw [JsonText.isNumber, if_neg hsign, htake, hdrop, hne, hzero]
    rfl
  · rw [JsonText.isNumber, List.head?_cons, if_pos rfl, List.tail_cons, htake, hdrop, hne, hzero]
    rfl

end Json
end Structured
end TinyJoin
