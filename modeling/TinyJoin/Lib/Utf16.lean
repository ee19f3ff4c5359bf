import Mathlib.Data.List.Basic
import Mathlib.Data.Nat.Notation

/-! Strings as UTF-16 code units, and the scalar values they denote. A surrogate outside a pair
denotes the replacement character, as it does when such a string is encoded as UTF-8. -/
namespace Utf16

def isHigh (unit : UInt16) : Bool := decide (0xd800 ≤ unit.toNat ∧ unit.toNat ≤ 0xdbff)
def isLow (unit : UInt16) : Bool := decide (0xdc00 ≤ unit.toNat ∧ unit.toNat ≤ 0xdfff)

def pair (high low : UInt16) : Char :=
  Char.ofNat (0x10000 + (high.toNat - 0xd800) * 0x400 + (low.toNat - 0xdc00))

/-- What a unit denotes outside a pair. -/
def single (unit : UInt16) : Char :=
  if isHigh unit || isLow unit then Char.ofNat 0xfffd else Char.ofNat unit.toNat

def scalars : List UInt16 → List Char
  | [] => []
  | [unit] => [single unit]
  | unit :: next :: rest =>
    if isHigh unit && isLow next then pair unit next :: scalars rest
    else single unit :: scalars (next :: rest)

/-- The units of one character. -/
def units (c : Char) : List UInt16 :=
  if c.toNat < 0x10000 then [UInt16.ofNat c.toNat]
  else
    [UInt16.ofNat (0xd800 + (c.toNat - 0x10000) / 0x400),
      UInt16.ofNat (0xdc00 + (c.toNat - 0x10000) % 0x400)]

/-- The UTF-8 bytes of what the units denote. -/
def utf8 (text : List UInt16) : List UInt8 := (scalars text).flatMap String.utf8EncodeChar

/-- The string that the units denote. -/
def lossy (text : List UInt16) : String := String.ofList (scalars text)

/-- The units of a string. -/
def ofString (s : String) : List UInt16 := s.toList.flatMap units

lemma toNat_ofNat {n : Nat} (h : n.isValidChar) : (Char.ofNat n).toNat = n := by
  rw [Char.ofNat, dif_pos h]
  rfl

lemma char_range (c : Char) : c.toNat < 0xd800 ∨ (0xdfff < c.toNat ∧ c.toNat < 0x110000) := c.valid

lemma scalars_cons {unit : UInt16} {rest : List UInt16} (h : isHigh unit = false) :
    scalars (unit :: rest) = single unit :: scalars rest := by
  cases rest with
  | nil => rfl
  | cons next rest => rw [scalars, h, Bool.false_and, if_neg Bool.false_ne_true]

lemma scalars_units (c : Char) (rest : List UInt16) :
    scalars (units c ++ rest) = c :: scalars rest := by
  have hrange := char_range c
  by_cases hc : c.toNat < 0x10000
  · have hunit : (UInt16.ofNat c.toNat).toNat = c.toNat := by
      rw [UInt16.toNat_ofNat']
      omega
    have hhigh : isHigh (UInt16.ofNat c.toNat) = false := by
      rw [isHigh, hunit, decide_eq_false_iff_not]
      omega
    have hlow : isLow (UInt16.ofNat c.toNat) = false := by
      rw [isLow, hunit, decide_eq_false_iff_not]
      omega
    rw [units, if_pos hc, List.singleton_append, scalars_cons hhigh, single, hhigh, hlow, Bool.or_self,
      if_neg Bool.false_ne_true, hunit, Char.ofNat_toNat]
  · have hfirst : (UInt16.ofNat (0xd800 + (c.toNat - 0x10000) / 0x400)).toNat =
        0xd800 + (c.toNat - 0x10000) / 0x400 := by
      rw [UInt16.toNat_ofNat']
      omega
    have hsecond : (UInt16.ofNat (0xdc00 + (c.toNat - 0x10000) % 0x400)).toNat =
        0xdc00 + (c.toNat - 0x10000) % 0x400 := by
      rw [UInt16.toNat_ofNat']
      omega
    have hhigh : isHigh (UInt16.ofNat (0xd800 + (c.toNat - 0x10000) / 0x400)) = true := by
      rw [isHigh, hfirst, decide_eq_true_iff]
      omega
    have hlow : isLow (UInt16.ofNat (0xdc00 + (c.toNat - 0x10000) % 0x400)) = true := by
      rw [isLow, hsecond, decide_eq_true_iff]
      omega
    have hpair : 0x10000 + (0xd800 + (c.toNat - 0x10000) / 0x400 - 0xd800) * 0x400 +
        (0xdc00 + (c.toNat - 0x10000) % 0x400 - 0xdc00) = c.toNat := by
      omega
    rw [units, if_neg hc, List.cons_append, List.singleton_append, scalars, hhigh, hlow,
      Bool.and_self, if_pos rfl, pair, hfirst, hsecond, hpair, Char.ofNat_toNat]

lemma scalars_flatMap_units (text : List Char) : scalars (text.flatMap units) = text := by
  induction text with
  | nil => rfl
  | cons c text ih => rw [List.flatMap_cons, scalars_units, ih]

/-- A well-formed string denotes itself. -/
@[simp] theorem lossy_ofString (s : String) : lossy (ofString s) = s := by
  rw [lossy, ofString, scalars_flatMap_units, String.ofList_toList]

/-! ## The length in UTF-8 -/

lemma utf8Size_eq (c : Char) : c.utf8Size =
    if c.toNat < 0x80 then 1 else if c.toNat < 0x800 then 2
    else if c.toNat < 0x10000 then 3 else 4 := by
  rw [← String.length_utf8EncodeChar]
  have hval : c.toNat = c.val.toNat := rfl
  rw [hval]
  unfold String.utf8EncodeChar
  grind

lemma single_toNat (unit : UInt16) :
    (single unit).toNat = if isHigh unit || isLow unit then 0xfffd else unit.toNat := by
  have hlt : unit.toNat < 2 ^ 16 := unit.toNat_lt
  rw [single]
  split
  · rfl
  · next h =>
    rw [Bool.or_eq_true, not_or, isHigh, isLow, decide_eq_true_iff, decide_eq_true_iff] at h
    refine toNat_ofNat ?_
    unfold Nat.isValidChar
    omega

lemma utf8Size_single (unit : UInt16) : (single unit).utf8Size =
    if unit.toNat < 0x80 then 1 else if unit.toNat < 0x800 then 2 else 3 := by
  have hlt : unit.toNat < 2 ^ 16 := unit.toNat_lt
  rw [utf8Size_eq, single_toNat]
  by_cases h : (isHigh unit || isLow unit) = true
  · rw [if_pos h]
    rw [Bool.or_eq_true, isHigh, isLow, decide_eq_true_iff, decide_eq_true_iff] at h
    rw [if_neg (by omega : ¬unit.toNat < 0x80), if_neg (by omega : ¬unit.toNat < 0x800)]
    rfl
  · rw [if_neg h, if_pos (by omega : unit.toNat < 0x10000)]

lemma utf8Size_pair {high low : UInt16} (hhigh : isHigh high = true) (hlow : isLow low = true) :
    (pair high low).utf8Size = 4 := by
  rw [isHigh, decide_eq_true_iff] at hhigh
  rw [isLow, decide_eq_true_iff] at hlow
  have hvalid : (0x10000 + (high.toNat - 0xd800) * 0x400 + (low.toNat - 0xdc00)).isValidChar := by
    unfold Nat.isValidChar
    omega
  rw [utf8Size_eq, pair, toNat_ofNat hvalid]
  rw [if_neg (by omega), if_neg (by omega), if_neg (by omega)]

@[simp] lemma utf8_nil : utf8 [] = [] := rfl

lemma utf8_pair {high low : UInt16} {rest : List UInt16} (h : (isHigh high && isLow low) = true) :
    utf8 (high :: low :: rest) = String.utf8EncodeChar (pair high low) ++ utf8 rest := by
  rw [utf8, scalars, if_pos h, List.flatMap_cons, utf8]

lemma utf8_single {unit : UInt16} {rest : List UInt16}
    (h : ∀ next more, rest = next :: more → (isHigh unit && isLow next) = false) :
    utf8 (unit :: rest) = String.utf8EncodeChar (single unit) ++ utf8 rest := by
  cases rest with
  | nil => rw [utf8, scalars, List.flatMap_cons, List.flatMap_nil, utf8_nil]
  | cons next more =>
    rw [utf8, scalars, h next more rfl, if_neg Bool.false_ne_true, List.flatMap_cons, utf8]

/-- A unit takes at most three bytes. -/
lemma length_utf8_le (text : List UInt16) : (utf8 text).length ≤ 3 * text.length := by
  rw [utf8, List.length_flatMap]
  simp only [String.length_utf8EncodeChar]
  induction text using scalars.induct with
  | case1 => exact Nat.zero_le _
  | case2 unit =>
    rw [scalars, List.map_singleton, List.sum_singleton, utf8Size_single]
    split_ifs <;> simp
  | case3 unit next rest h ih =>
    rw [Bool.and_eq_true] at h
    rw [scalars, if_pos (by rw [h.1, h.2]; rfl), List.map_cons, List.sum_cons,
      utf8Size_pair h.1 h.2, List.length_cons, List.length_cons]
    omega
  | case4 unit next rest h ih =>
    have hsize : (single unit).utf8Size ≤ 3 := by
      rw [utf8Size_single]
      split_ifs <;> omega
    rw [scalars, if_neg h, List.map_cons, List.sum_cons, List.length_cons]
    omega

/-- A unit takes at least one byte. -/
lemma length_le_utf8 (text : List UInt16) : text.length ≤ (utf8 text).length := by
  rw [utf8, List.length_flatMap]
  simp only [String.length_utf8EncodeChar]
  induction text using scalars.induct with
  | case1 => exact Nat.zero_le _
  | case2 unit =>
    rw [scalars, List.map_singleton, List.sum_singleton, List.length_singleton]
    exact Char.utf8Size_pos _
  | case3 unit next rest h ih =>
    rw [Bool.and_eq_true] at h
    rw [scalars, if_pos (by rw [h.1, h.2]; rfl), List.map_cons, List.sum_cons,
      utf8Size_pair h.1 h.2, List.length_cons, List.length_cons]
    omega
  | case4 unit next rest h ih =>
    have hsize := Char.utf8Size_pos (single unit)
    rw [scalars, if_neg h, List.map_cons, List.sum_cons, List.length_cons]
    omega

/-- Units below `0x80` are their own bytes. -/
lemma utf8_ascii {text : List UInt16} (h : ∀ unit ∈ text, unit.toNat < 0x80) :
    utf8 text = text.map UInt16.toUInt8 := by
  induction text with
  | nil => rfl
  | cons unit rest ih =>
    have hunit := h unit List.mem_cons_self
    have hhigh : isHigh unit = false := by
      rw [isHigh, decide_eq_false_iff_not]
      omega
    have hlow : isLow unit = false := by
      rw [isLow, decide_eq_false_iff_not]
      omega
    have hto : (single unit).toNat = unit.toNat := by
      rw [single_toNat, hhigh, hlow, Bool.or_self, if_neg Bool.false_ne_true]
    have hencode : String.utf8EncodeChar (single unit) = [unit.toUInt8] := by
      have hval : (single unit).val.toNat = unit.toNat := hto
      unfold String.utf8EncodeChar
      simp only [hval]
      rw [if_pos (by omega : unit.toNat ≤ 127), List.cons.injEq]
      exact ⟨UInt8.toNat_inj.mp (by simp), rfl⟩
    have hsingle : utf8 (unit :: rest) = String.utf8EncodeChar (single unit) ++ utf8 rest :=
      utf8_single (fun _ _ _ => by rw [hhigh, Bool.false_and])
    rw [hsingle, hencode, ih (fun u hu => h u (List.mem_cons_of_mem _ hu)), List.map_cons,
      List.singleton_append]

end Utf16
