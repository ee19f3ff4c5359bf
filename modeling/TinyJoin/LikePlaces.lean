import TinyJoin.LikePattern

/-! The places of a literal in a text. An offset is the length of the UTF-8 of what stands before it, and a
literal's bytes stand only where its characters do. -/
namespace TinyJoin
open Codewords Segments Bytes
namespace LikePattern

/-- The UTF-8 bytes of characters. -/
def utf8 (text : List Char) : List UInt8 := text.flatMap String.utf8EncodeChar

lemma utf8_append (a b : List Char) : utf8 (a ++ b) = utf8 a ++ utf8 b := List.flatMap_append

lemma textBytes_eq_utf8 (text : String) : textBytes text = utf8 text.toList := textBytes_eq_flatMap text

lemma utf8_sync : SelfSynchronizing String.utf8EncodeChar UInt8.IsUTF8FirstByte := by
  refine ⟨fun c => ?_, fun c d h => ?_⟩
  · have hfirst (i : Nat) (hi : i < (String.utf8EncodeChar c).length) :
        (String.utf8EncodeChar c)[i].IsUTF8FirstByte ↔ i = 0 :=
      UInt8.isUTF8FirstByte_getElem_utf8EncodeChar
    obtain ⟨b, rest, hcode⟩ := List.exists_cons_of_ne_nil (utf8EncodeChar_ne_nil c)
    refine ⟨b, rest, hcode, ?_, fun x hx => ?_⟩
    · have hzero := (hfirst 0 (by rw [hcode]; exact Nat.zero_lt_succ _)).mpr rfl
      simpa only [hcode, List.getElem_cons_zero] using hzero
    · obtain ⟨i, hi, rfl⟩ := List.mem_iff_getElem.mp hx
      have hlater := (hfirst (i + 1) (by rw [hcode]; exact Nat.succ_lt_succ hi)).not.mpr (Nat.succ_ne_zero i)
      simpa only [hcode, List.getElem_cons_succ] using hlater
  · rcases lt_trichotomy c d with hlt | heq | hlt
    · exact absurd h (OrderCode.Before.not_prefix (utf8EncodeChar_before hlt)).1
    · exact heq
    · exact absurd h (OrderCode.Before.not_prefix (utf8EncodeChar_before hlt)).2

/-! ## Case -/

def foldByte (fold : Bool) (byte : UInt8) : UInt8 := if fold then lowerByte byte else byte
def foldCharacter (fold : Bool) (character : Char) : Char := if fold then character.toLower else character

lemma sameCharacter_iff (fold : Bool) (expected character : Char) :
    SameCharacter fold expected character ↔ foldCharacter fold expected = foldCharacter fold character := by
  cases fold with
  | false => exact or_iff_left fun h => Bool.false_ne_true h.1
  | true => exact ⟨fun h => h.elim (congrArg Char.toLower) And.right, fun h => .inr ⟨rfl, h⟩⟩

lemma same_iff (fold : Bool) (bytes literal : List UInt8) :
    same fold bytes literal = true ↔ bytes.map (foldByte fold) = literal.map (foldByte fold) := by
  cases fold with
  | false =>
    have hid : foldByte false = id := rfl
    rw [hid, List.map_id, List.map_id]
    exact beq_iff_eq
  | true => exact beq_iff_eq

lemma lowerByte_ofNat {n : Nat} (h : n < 256) :
    lowerByte (UInt8.ofNat n) = UInt8.ofNat (if 65 ≤ n ∧ n ≤ 90 then n + 32 else n) := by
  have hn : (UInt8.ofNat n).toNat = n := by
    rw [UInt8.toNat_ofNat']
    exact Nat.mod_eq_of_lt h
  have hrange : (65 ≤ UInt8.ofNat n ∧ UInt8.ofNat n ≤ 90) ↔ 65 ≤ n ∧ n ≤ 90 := by
    rw [UInt8.le_iff_toNat_le, UInt8.le_iff_toNat_le, hn]
    rfl
  rw [lowerByte]
  split
  · next hupper =>
    rw [if_pos (hrange.mp hupper), UInt8.ofNat_add]
    rfl
  · next hnot => rw [if_neg fun h => hnot (hrange.mpr h)]

lemma lowerByte_high {n : Nat} (h : n < 256) (high : 90 < n) :
    lowerByte (UInt8.ofNat n) = UInt8.ofNat n := by
  rw [lowerByte_ofNat h, if_neg fun hupper => absurd hupper.2 (Nat.not_le.mpr high)]

/-- Of the bytes of a character, case changes those alone that are ASCII letters. -/
lemma map_lowerByte_utf8EncodeChar {c : Char} (h : 127 < c.val.toNat) :
    (String.utf8EncodeChar c).map lowerByte = String.utf8EncodeChar c := by
  have hvalid : c.val.toNat < 0x110000 := by
    have hc := c.valid
    simp only [UInt32.isValidChar, Nat.isValidChar] at hc
    omega
  unfold String.utf8EncodeChar
  generalize c.val.toNat = n at h hvalid
  dsimp only
  rw [if_neg (Nat.not_le.mpr h)]
  split_ifs
  · rw [List.map_cons, List.map_singleton, lowerByte_high (by omega) (by omega),
      lowerByte_high (by omega) (by omega)]
  · rw [List.map_cons, List.map_cons, List.map_singleton, lowerByte_high (by omega) (by omega),
      lowerByte_high (by omega) (by omega), lowerByte_high (by omega) (by omega)]
  · rw [List.map_cons, List.map_cons, List.map_cons, List.map_singleton,
      lowerByte_high (by omega) (by omega), lowerByte_high (by omega) (by omega),
      lowerByte_high (by omega) (by omega), lowerByte_high (by omega) (by omega)]

lemma toNat_toLower (c : Char) : c.toLower.val.toNat =
    if 65 ≤ c.val.toNat ∧ c.val.toNat ≤ 90 then c.val.toNat + 32 else c.val.toNat := by
  have hupper : (c.val ≥ 'A'.val ∧ c.val ≤ 'Z'.val) ↔ 65 ≤ c.val.toNat ∧ c.val.toNat ≤ 90 := by
    rw [ge_iff_le, UInt32.le_iff_toNat_le, UInt32.le_iff_toNat_le]
    rfl
  unfold Char.toLower
  split
  · next h =>
    have hrange := hupper.mp h
    rw [if_pos hrange]
    change (c.val + 32).toNat = _
    rw [UInt32.toNat_add]
    change (c.val.toNat + 32) % 2 ^ 32 = _
    exact Nat.mod_eq_of_lt (by omega)
  · next h => rw [if_neg fun hrange => h (hupper.mpr hrange)]

lemma utf8EncodeChar_toLower (c : Char) :
    String.utf8EncodeChar c.toLower = (String.utf8EncodeChar c).map lowerByte := by
  have hsingle {d : Char} (h : d.val.toNat ≤ 127) :
      String.utf8EncodeChar d = [UInt8.ofNat d.val.toNat] := by
    unfold String.utf8EncodeChar
    exact if_pos h
  have hlower := toNat_toLower c
  rcases Nat.lt_or_ge 127 c.val.toNat with hhigh | hlow
  · have hsame : c.toLower = c := by
      rw [if_neg (by omega)] at hlower
      exact Char.ext (UInt32.toNat_inj.mp hlower)
    rw [hsame, map_lowerByte_utf8EncodeChar hhigh]
  · rw [hsingle (d := c.toLower) (by rw [hlower]; split <;> omega), hsingle hlow, List.map_singleton,
      lowerByte_ofNat (by omega), hlower]

lemma utf8_fold (fold : Bool) (text : List Char) :
    utf8 (text.map (foldCharacter fold)) = (utf8 text).map (foldByte fold) := by
  refine flatMap_map_of_comm (fun c => ?_) text
  cases fold with
  | false => exact (List.map_id _).symm
  | true => exact utf8EncodeChar_toLower c

/-! ## Places -/

/-- Whether a literal's bytes stand at an offset. -/
def OccursAt (fold : Bool) (text literal : List UInt8) (offset : Nat) : Prop :=
  ∃ before part after, text = before ++ (part ++ after) ∧ before.length = offset ∧
    part.map (foldByte fold) = literal.map (foldByte fold)

lemma occursAt_cons {fold : Bool} {text rest : List UInt8} {first : UInt8} {offset : Nat} :
    OccursAt fold text (first :: rest) offset ↔
      (∃ byte, text[offset]? = some byte ∧ foldByte fold byte = foldByte fold first) ∧
        OccursAt fold text rest (offset + 1) := by
  constructor
  · rintro ⟨before, part, after, rfl, rfl, hpart⟩
    cases part with
    | nil => exact nomatch hpart
    | cons byte part =>
      obtain ⟨hfirst, hrest⟩ := List.cons.inj hpart
      refine ⟨⟨byte, ?_, hfirst⟩, before ++ [byte], part, after, ?_, ?_, hrest⟩
      · rw [List.getElem?_append_right le_rfl, Nat.sub_self]
        rfl
      · rw [List.append_assoc]
        rfl
      · rw [List.length_append]
        rfl
  · rintro ⟨⟨byte, hbyte, hfirst⟩, before, part, after, rfl, hlength, hpart⟩
    rcases List.eq_nil_or_concat before with rfl | ⟨before, last, rfl⟩
    · exact nomatch hlength
    · rw [List.concat_eq_append, List.length_append, List.length_singleton, Nat.add_right_cancel_iff]
        at hlength
      rw [List.concat_eq_append, List.append_assoc, List.getElem?_append_right hlength.le, hlength,
        Nat.sub_self] at hbyte
      obtain rfl : last = byte := Option.some.inj hbyte
      refine ⟨before, last :: part, after, ?_, hlength, ?_⟩
      · rw [List.concat_eq_append, List.append_assoc]
        rfl
      · rw [List.map_cons, List.map_cons, hfirst, hpart]

lemma occursAt_iff_slice {fold : Bool} {text literal : List UInt8} {offset : Nat}
    (h : offset + literal.length ≤ text.length) :
    OccursAt fold text literal offset ↔
      same fold (slice text offset (offset + literal.length)) literal = true := by
  rw [same_iff, slice, Nat.add_sub_cancel_left]
  constructor
  · rintro ⟨before, part, after, rfl, rfl, hpart⟩
    have hlength : part.length = literal.length := by
      simpa only [List.length_map] using congrArg List.length hpart
    rwa [List.drop_left, ← hlength, List.take_left]
  · intro hpart
    refine ⟨text.take offset, (text.drop offset).take literal.length,
      (text.drop offset).drop literal.length, ?_, ?_, hpart⟩
    · rw [List.take_append_drop, List.take_append_drop]
    · rw [List.length_take]
      omega

lemma OccursAt.within {fold : Bool} {text literal : List UInt8} {offset : Nat}
    (h : OccursAt fold text literal offset) : offset + literal.length ≤ text.length := by
  obtain ⟨before, part, after, rfl, rfl, hpart⟩ := h
  have hlength : part.length = literal.length := by
    simpa only [List.length_map] using congrArg List.length hpart
  rw [List.length_append, List.length_append, ← hlength]
  omega

/-- What a search from `start` finds: the first place from there on, if there is one. -/
def FindsFirst (fold : Bool) (text literal : List UInt8) (start : Nat) (found : Option Nat) : Prop :=
  match found with
  | some offset => OccursAt fold text literal offset ∧ start ≤ offset ∧
      ∀ other, start ≤ other → OccursAt fold text literal other → offset ≤ other
  | none => ∀ other, start ≤ other → ¬OccursAt fold text literal other

lemma FindsFirst.later {fold : Bool} {text literal : List UInt8} {start later : Nat}
    {found : Option Nat} (h : FindsFirst fold text literal later found) (hle : start ≤ later)
    (skipped : ∀ other, start ≤ other → other < later → ¬OccursAt fold text literal other) :
    FindsFirst fold text literal start found := by
  have hlater (other : Nat) (hother : start ≤ other) (hoccurs : OccursAt fold text literal other) :
      later ≤ other := not_lt.mp fun hlt => skipped other hother hlt hoccurs
  cases found with
  | none => exact fun other hother hoccurs => h other (hlater other hother hoccurs) hoccurs
  | some offset =>
    exact ⟨h.1, hle.trans h.2.1, fun other hother hoccurs =>
      h.2.2 other (hlater other hother hoccurs) hoccurs⟩

/-- Where a literal occurs, the bytes in which its first one is looked for have that. -/
lemma OccursAt.first {fold : Bool} {text rest : List UInt8} {first : UInt8} {start other : Nat}
    (h : OccursAt fold text (first :: rest) other) (hstart : start ≤ other) :
    ∃ byte, (slice text start (text.length - rest.length))[other - start]? = some byte ∧
      same fold [byte] [first] = true := by
  obtain ⟨⟨byte, hbyte, hfirst⟩, -⟩ := occursAt_cons.mp h
  have hwithin := h.within
  rw [List.length_cons] at hwithin
  refine ⟨byte, ?_, ?_⟩
  · rw [slice, List.getElem?_take_of_lt (by omega), List.getElem?_drop, Nat.add_sub_of_le hstart, hbyte]
  · rw [same_iff, List.map_singleton, List.map_singleton, hfirst]

/-- The first byte like the literal's from `start` on: no place comes before it, and it is one if the rest
of the literal stands behind it. -/
lemma occursAt_of_findIdx {fold : Bool} {text rest : List UInt8} {first : UInt8} {start offset : Nat}
    (h : (slice text start (text.length - rest.length)).findIdx?
      (fun byte => same fold [byte] [first]) = some offset) :
    (∀ other, start ≤ other → other < start + offset → ¬OccursAt fold text (first :: rest) other) ∧
      (OccursAt fold text (first :: rest) (start + offset) ↔
        same fold (slice text (start + offset + 1) (start + offset + 1 + rest.length)) rest = true) := by
  obtain ⟨hoffset, hfirst, hbefore⟩ := List.findIdx?_eq_some_iff_getElem.mp h
  constructor
  · intro other hstart hother hoccurs
    obtain ⟨byte, hbyte, hsame⟩ := hoccurs.first hstart
    obtain ⟨hlt, rfl⟩ := List.getElem?_eq_some_iff.mp hbyte
    exact hbefore (other - start) (by omega) hsame
  · have hget := List.getElem?_eq_getElem hoffset
    generalize (slice text start (text.length - rest.length))[offset] = byte at hget hfirst
    have hlength := hoffset
    rw [slice, List.length_take, List.length_drop] at hlength
    rw [slice, List.getElem?_take_of_lt (by omega), List.getElem?_drop] at hget
    rw [same_iff, List.map_singleton, List.map_singleton] at hfirst
    rw [occursAt_cons, ← occursAt_iff_slice (by omega)]
    exact and_iff_right ⟨byte, hget, (List.cons.inj hfirst).1⟩

lemma findFrom_finds (fold : Bool) (text : List UInt8) (first : UInt8) (rest : List UInt8) (start : Nat) :
    FindsFirst fold text (first :: rest) start (findFrom fold text first rest start) := by
  fun_induction findFrom fold text first rest start with
  | case1 start within starts hnone =>
    intro other hother hoccurs
    obtain ⟨byte, hbyte, hfirst⟩ := hoccurs.first hother
    have hmem := List.mem_of_getElem? hbyte
    exact absurd hfirst (Bool.eq_false_iff.mp (List.findIdx?_eq_none_iff.mp hnone byte hmem))
  | case2 start within starts offset hsome place hsame =>
    obtain ⟨hbefore, hplace⟩ := occursAt_of_findIdx hsome
    refine ⟨hplace.mpr hsame, Nat.le_add_right _ _, fun other hother hoccurs => ?_⟩
    exact not_lt.mp fun hlt => hbefore other hother hlt hoccurs
  | case3 start within starts offset hsome place hdiffers ih =>
    obtain ⟨hbefore, hplace⟩ := occursAt_of_findIdx hsome
    refine ih.later (by omega) fun other hother hlt hoccurs => ?_
    rcases Nat.lt_succ_iff_lt_or_eq.mp hlt with hearlier | rfl
    · exact hbefore other hother hearlier hoccurs
    · exact hdiffers (hplace.mp hoccurs)
  | case4 start beyond =>
    intro other hother hoccurs
    have hwithin := hoccurs.within
    rw [List.length_cons] at hwithin
    omega

lemma findLiteral_finds (fold : Bool) (text : List UInt8) {literal : List UInt8} (h : literal ≠ []) :
    FindsFirst fold text literal 0 (findLiteral fold text literal) := by
  cases literal with
  | nil => exact absurd rfl h
  | cons first rest => exact findFrom_finds fold text first rest 0

/-! ## Characters -/

def Admits (fold : Bool) (element : LikeElement) (character : Char) : Prop :=
  admits fold element character = true

lemma admits_character (fold : Bool) (expected character : Char) :
    Admits fold (.character expected) character ↔ SameCharacter fold expected character := by
  rw [Admits, admits, SameCharacter, Bool.or_eq_true, beq_iff_eq, Bool.and_eq_true, beq_iff_eq]

/-- Characters that a literal segment fits are the literal's but for case. -/
lemma fits_literal_iff {fold : Bool} {literal part : List Char} :
    List.Forall₂ (Admits fold) (literal.map .character) part ↔
      part.map (foldCharacter fold) = literal.map (foldCharacter fold) := by
  induction literal generalizing part with
  | nil => rw [List.map_nil, List.map_nil, List.forall₂_nil_left_iff, List.map_eq_nil_iff]
  | cons expected literal ih =>
    rw [List.map_cons, List.map_cons, List.forall₂_cons_left_iff]
    constructor
    · rintro ⟨character, rest, hadmits, hrest, rfl⟩
      rw [admits_character, sameCharacter_iff] at hadmits
      rw [List.map_cons, hadmits, ih.mp hrest]
    · intro h
      obtain ⟨character, rest, rfl, hfirst, hrest⟩ := List.map_eq_cons_iff.mp h
      refine ⟨character, rest, ?_, ih.mpr hrest, rfl⟩
      rw [admits_character, sameCharacter_iff, hfirst]

lemma mapM_literal_eq_some {segment : List LikeElement} {literal : List Char} :
    segment.mapM LikeElement.literal = some literal ↔ segment = literal.map .character := by
  induction segment generalizing literal with
  | nil =>
    rw [List.mapM_nil]
    cases literal with
    | nil => exact iff_of_true rfl rfl
    | cons => exact iff_of_false nofun nofun
  | cons element segment ih =>
    rw [List.mapM_cons]
    cases element with
    | anyCharacter =>
      refine iff_of_false nofun fun h => ?_
      cases literal with
      | nil => exact nomatch h
      | cons => exact nomatch (List.cons.inj h).1
    | character character =>
      cases hrest : segment.mapM LikeElement.literal with
      | none =>
        refine iff_of_false (by rw [LikeElement.literal]; exact nofun) fun h => ?_
        cases literal with
        | nil => exact nomatch h
        | cons first literal =>
          have hnone := ih.mpr (List.cons.inj h).2
          rw [hrest] at hnone
          exact nomatch hnone
      | some rest =>
        have hsegment := ih.mp hrest
        change some (character :: rest) = some literal ↔ _
        rw [hsegment]
        constructor
        · intro h
          rw [← Option.some.inj h]
          rfl
        · intro h
          cases literal with
          | nil => exact nomatch h
          | cons first literal =>
            obtain ⟨hfirst, hmore⟩ := List.cons.inj h
            rw [LikeElement.character.inj hfirst,
              List.map_injective_iff.mpr (fun _ _ => LikeElement.character.inj) hmore]

lemma literalOf_eq_some {segment : List LikeElement} {literal : String} :
    literalOf segment = some literal ↔ segment = literal.toList.map .character := by
  rw [literalOf, Option.map_eq_some_iff, ← mapM_literal_eq_some]
  constructor
  · rintro ⟨characters, hsegment, rfl⟩
    rwa [String.toList_ofList]
  · exact fun h => ⟨literal.toList, h, String.ofList_toList⟩

/-- A literal's bytes stand in a text where its characters do. -/
lemma occursAt_utf8 {fold : Bool} {text literal : List Char} {offset : Nat} (h : literal ≠ []) :
    OccursAt fold (utf8 text) (utf8 literal) offset ↔ ∃ gap part after, text = gap ++ (part ++ after) ∧
      (utf8 gap).length = offset ∧
      part.map (foldCharacter fold) = literal.map (foldCharacter fold) := by
  constructor
  · rintro ⟨before, part, after, hsplit, hlength, hpart⟩
    have hfolded : utf8 (text.map (foldCharacter fold)) = before.map (foldByte fold) ++
        (utf8 (literal.map (foldCharacter fold)) ++ after.map (foldByte fold)) := by
      rw [utf8_fold, utf8_fold, hsplit, List.map_append, List.map_append, hpart]
    obtain ⟨gap, rest, htext, hgap, -⟩ := utf8_sync.eq_append_of_infix
      (fun hnil => h (List.map_eq_nil_iff.mp hnil)) hfolded
    obtain ⟨gap, rest, rfl, rfl, hrest⟩ := List.map_eq_append_iff.mp htext
    obtain ⟨part, after, rfl, hsame, -⟩ := List.map_eq_append_iff.mp hrest
    refine ⟨gap, part, after, rfl, ?_, hsame⟩
    have hbytes := congrArg List.length (hgap.trans (utf8_fold fold gap))
    rw [List.length_map, List.length_map] at hbytes
    rw [← hbytes, hlength]
  · rintro ⟨gap, part, after, rfl, hlength, hpart⟩
    refine ⟨utf8 gap, utf8 part, utf8 after, ?_, hlength, ?_⟩
    · rw [utf8_append, utf8_append]
    · rw [← utf8_fold, hpart, utf8_fold]

end LikePattern
end TinyJoin
