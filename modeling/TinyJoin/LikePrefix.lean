import TinyJoin.LikeMatches

/-! The bounds that a pattern's literal prefix sets on the keys of what matches it. -/
namespace TinyJoin
open Codewords Segments Bytes OrderCode

def encodeKeyBound (dataType : ColumnType) (value : Value) : Result (List UInt8) :=
  encodeComponent [] dataType value "" ""

/-- The smallest and the largest components of texts that start with `start`: its escaped bytes, and
those with `0xff` behind them, which UTF-8 never has. -/
def encodeTextPrefixBounds (start : String) : Result (List UInt8 × List UInt8) := do
  let lower ← encodeKeyBound .text (.string start)
  let lower := lower.take (lower.length - 2)
  return (lower, lower ++ [0xff])

namespace LikePattern

lemma encodeComponent_text (text table column : String) :
    encodeComponent [] .text (.string text) table column = .ok (textCode (textBytes text)) :=
  congrArg Except.ok (pushTextComponent_eq [] text)

lemma encodeTextPrefixBounds_eq (start : String) : encodeTextPrefixBounds start =
    .ok (escapeZeros (textBytes start), escapeZeros (textBytes start) ++ [0xff]) := by
  have htake : (textCode (textBytes start)).take ((textCode (textBytes start)).length - 2) =
      escapeZeros (textBytes start) := by
    rw [textCode, List.length_append]
    exact List.take_left' rfl
  rw [encodeTextPrefixBounds, encodeKeyBound, encodeComponent_text]
  change Except.ok (_, _) = _
  rw [htake]

/-- No byte of a text is `0xff`. -/
lemma utf8EncodeChar_lt (c : Char) : ∀ byte ∈ String.utf8EncodeChar c, byte < 0xff := by
  have hofNat {n : Nat} (h : n < 255) : UInt8.ofNat n < 0xff := by
    rw [UInt8.lt_iff_toNat_lt, UInt8.toNat_ofNat']
    exact (Nat.mod_le _ _).trans_lt h
  have hvalid : c.val.toNat < 0x110000 := by
    have hc := c.valid
    simp only [UInt32.isValidChar, Nat.isValidChar] at hc
    omega
  unfold String.utf8EncodeChar
  generalize c.val.toNat = n at hvalid
  dsimp only
  split_ifs <;> simp only [List.forall_mem_cons, List.not_mem_nil, false_implies, implies_true, and_true]
  · exact hofNat (by omega)
  · exact ⟨hofNat (by omega), hofNat (by omega)⟩
  · exact ⟨hofNat (by omega), hofNat (by omega), hofNat (by omega)⟩
  · exact ⟨hofNat (by omega), hofNat (by omega), hofNat (by omega), hofNat (by omega)⟩

lemma textBytes_lt_255 (text : String) : ∀ byte ∈ textBytes text, byte < 0xff := by
  intro byte hbyte
  rw [textBytes_eq_flatMap] at hbyte
  obtain ⟨c, -, hc⟩ := List.mem_flatMap.mp hbyte
  exact utf8EncodeChar_lt c byte hc

/-- What follows a text's start in its key is below `0xff`. -/
lemma textCode_before_255 {rest : List UInt8} (h : ∀ byte ∈ rest, byte < 0xff) :
    Before (textCode rest) [0xff] := by
  cases rest with
  | nil => exact .here (by decide)
  | cons b rest =>
    have hb := h b List.mem_cons_self
    rw [textCode, escapeZeros_cons]
    split
    · exact .here hb
    · exact .here hb

/-- The key of a text that starts with others lies between their bounds. -/
lemma between_bounds {start text : String} (h : start.toList <+: text.toList) :
    escapeZeros (textBytes start) ≤ textCode (textBytes text) ∧
      textCode (textBytes text) ≤ escapeZeros (textBytes start) ++ [0xff] := by
  obtain ⟨rest, hrest⟩ := h
  have hcode : textCode (textBytes text) = escapeZeros (textBytes start) ++ textCode (utf8 rest) := by
    rw [textBytes_eq_utf8, textBytes_eq_utf8, ← hrest, utf8_append, textCode, textCode, escapeZeros,
      List.flatMap_append, List.append_assoc]
    rfl
  rw [hcode]
  have hrest : ∀ byte ∈ utf8 rest, byte < 0xff := by
    intro byte hbyte
    obtain ⟨c, -, hc⟩ := List.mem_flatMap.mp hbyte
    exact utf8EncodeChar_lt c byte hc
  exact ⟨not_lt.mp List.le_append_left, ((textCode_before_255 hrest).prepend _).lt.le⟩

/-! ## The prefix of a pattern -/

lemma exists_literalPrefix (segment : List LikeElement) : ∃ more, segment =
    ((segment.map LikeElement.literal).takeWhile Option.isSome).reduceOption.map .character ++ more := by
  induction segment with
  | nil => exact ⟨[], rfl⟩
  | cons element segment ih =>
    cases element with
    | anyCharacter => exact ⟨_, rfl⟩
    | character character =>
      obtain ⟨more, hmore⟩ := ih
      refine ⟨more, ?_⟩
      exact congrArg (LikeElement.character character :: ·) hmore

lemma isAlpha_eq (c : Char) : c.isAlpha = (decide (c.val ≥ 65 ∧ c.val ≤ 90) ||
    decide (c.val ≥ 97) && decide (c.val ≤ 122)) :=
  rfl

/-- Folding case, only another case of an ASCII letter is taken for a character. -/
lemma eq_of_toLower {expected character : Char} (h : expected.isAlpha = false)
    (hsame : character.toLower = expected.toLower) : character = expected := by
  have hnats : character.toLower.val.toNat = expected.toLower.val.toNat :=
    congrArg (fun c : Char => c.val.toNat) hsame
  rw [toNat_toLower, toNat_toLower] at hnats
  have hletter : ¬(65 ≤ expected.val.toNat ∧ expected.val.toNat ≤ 90) ∧
      ¬(97 ≤ expected.val.toNat ∧ expected.val.toNat ≤ 122) := by
    simp only [isAlpha_eq, Bool.or_eq_false_iff, decide_eq_false_iff_not, Bool.and_eq_false_iff,
      ge_iff_le, UInt32.le_iff_toNat_le, ← not_and_or] at h
    exact h
  refine Char.ext (UInt32.toNat_inj.mp ?_)
  split at hnats
  · next hupper =>
    split at hnats
    · omega
    · omega
  · next hnot =>
    split at hnats
    · omega
    · exact hnats

lemma map_eq_of_fold {fold : Bool} {start part : List Char}
    (same : fold = false ∨ ∀ c ∈ start, c.isAlpha = false)
    (h : part.map (foldCharacter fold) = start.map (foldCharacter fold)) : part = start := by
  induction start generalizing part with
  | nil => exact List.map_eq_nil_iff.mp h
  | cons expected start ih =>
    obtain ⟨character, part, rfl, hfirst, hrest⟩ := List.map_eq_cons_iff.mp h
    rw [List.forall_mem_cons] at same
    rw [ih (same.imp_right And.right) hrest]
    congr 1
    rcases same with rfl | ⟨hletter, -⟩
    · exact hfirst
    · cases fold with
      | false => exact hfirst
      | true => exact eq_of_toLower hletter hfirst

section
variable {escape : Option Char} {fold : Bool} {pattern text : String}

/-- What matches a pattern starts with its literal prefix, unless it may differ in case. -/
lemma prefix_of_like (valid : validPattern escape pattern.toList = true)
    (same : fold = false ∨ ∀ c ∈ (new pattern escape fold).literalPrefix.toList, c.isAlpha = false)
    (h : Like escape fold pattern.toList text.toList) :
    (new pattern escape fold).literalPrefix.toList <+: text.toList := by
  obtain ⟨first, later, part, after, hsegments, hsplit, hfits, -⟩ := (like_iff_matchesAll valid).mp h
  have hprefix : (new pattern escape fold).literalPrefix.toList =
      ((first.map LikeElement.literal).takeWhile Option.isSome).reduceOption := by
    rw [literalPrefix, new, String.toList_ofList, hsegments]
    rfl
  obtain ⟨more, hmore⟩ := exists_literalPrefix first
  rw [← hprefix] at hmore
  have hstart := List.forall₂_take (new pattern escape fold).literalPrefix.toList.length hfits
  rw [hmore, List.take_left' (List.length_map _), fits_literal_iff] at hstart
  have hpart := map_eq_of_fold same hstart
  rw [hsplit, ← hpart]
  exact (List.take_prefix _ _).trans (List.prefix_append _ _)

/-- The matcher, from a text's characters and from its bytes where the pattern has no wildcard for one
character, decides what matches; and what matches has its key between the bounds of the literal prefix,
unless letters of that may differ in case. -/
theorem decides_like (valid : validPattern escape pattern.toList = true) :
    (∃ matched, (new pattern escape fold).matchesText text = some matched ∧
      (matched = true ↔ Like escape fold pattern.toList text.toList)) ∧
    (∃ result, (new pattern escape fold).matchesBytes (textBytes text) = some result ∧
      (result = none ↔ hasAny escape pattern) ∧
      ∀ matched, result = some matched →
        (matched = true ↔ Like escape fold pattern.toList text.toList)) ∧
    ((new pattern escape fold).matchesText text = some true →
      (fold = false ∨ ∀ c ∈ (new pattern escape fold).literalPrefix.toList, c.isAlpha = false) →
      ∃ lower upper component,
        encodeTextPrefixBounds (new pattern escape fold).literalPrefix = .ok (lower, upper) ∧
        (∀ table column, encodeComponent [] .text (.string text) table column = .ok component) ∧
        lower ≤ component ∧ component ≤ upper) := by
  have htext := @matchesText_spec escape fold pattern valid text
  refine ⟨htext, matchesBytes_spec valid text, fun hmatches same => ?_⟩
  obtain ⟨matched, hmatched, hlike⟩ := htext
  have htrue : matched = true := Option.some.inj (hmatched.symm.trans hmatches)
  obtain ⟨hlower, hupper⟩ := between_bounds (prefix_of_like valid same (hlike.mp htrue))
  exact ⟨_, _, _, encodeTextPrefixBounds_eq _, fun table column => encodeComponent_text text table column,
    hlower, hupper⟩

end

theorem decides_like_wildcards :
    validPattern (some '\\') "a%b_".toList = true ∧
      ∃ matched, (new "a%b_" (some '\\') true).matchesText "Axbc" = some matched ∧
        (matched = true ↔ Like (some '\\') true "a%b_".toList "Axbc".toList) :=
  ⟨by decide, (decides_like (by decide)).1⟩

/-- Where case is folded, a text may match whose key lies below the prefix's. -/
theorem folded_below_bounds :
    (new "a" none true).matchesText "A" = some true ∧ validPattern none "a".toList = true ∧
      encodeTextPrefixBounds (new "a" none true).literalPrefix = .ok ([0x61], [0x61, 0xff]) ∧
      encodeComponent [] .text (.string "A") "" "" = .ok [0x41, 0, 1] ∧
      ¬([0x61] : List UInt8) ≤ [0x41, 0, 1] := by
  refine ⟨by decide, by decide, by decide, by decide, by decide⟩

end LikePattern
end TinyJoin
