import TinyJoin.LikePlaces

/-! Where a pattern's segments are found in a text: each at its first place behind the one before, and the
last at the end. No slice begins inside a character. -/
namespace TinyJoin
open Codewords Segments Bytes
namespace LikePattern

section
variable {fold : Bool} {text : String} {before rest : List Char} {segment : List LikeElement}

/-- Where a segment behind `before` ends in what follows, if it fits there. -/
def EndsAt (fold : Bool) (before rest : List Char) (segment : List LikeElement) (result : Option Nat) :
    Prop :=
  match result with
  | some stop => ∃ part after, rest = part ++ after ∧ List.Forall₂ (Admits fold) segment part ∧
      stop = (utf8 (before ++ part)).length
  | none => ∀ part after, rest = part ++ after → ¬List.Forall₂ (Admits fold) segment part

/-- Where the first place of a segment behind `before` ends, if there is one. -/
def FindsSegment (fold : Bool) (before rest : List Char) (segment : List LikeElement)
    (result : Option Nat) : Prop :=
  match result with
  | some stop => ∃ gap part after, Leftmost (Admits fold) segment rest gap part after ∧
      stop = (utf8 (before ++ (gap ++ part))).length
  | none => ∀ gap part after, rest = gap ++ (part ++ after) →
      ¬List.Forall₂ (Admits fold) segment part

lemma length_utf8_concat (before : List Char) (character : Char) :
    (utf8 (before ++ [character])).length = (utf8 before).length + character.utf8Size := by
  have hsingle : utf8 [character] = String.utf8EncodeChar character := List.flatMap_singleton ..
  rw [utf8_append, List.length_append, hsingle, String.length_utf8EncodeChar]

lemma charsFrom_utf8 (before rest : List Char) :
    charsFrom (before ++ rest) (utf8 before).length = some rest := by
  induction before with
  | nil => exact charsFrom.eq_1 rest
  | cons character before ih =>
    have hlength : (utf8 (character :: before)).length = character.utf8Size + (utf8 before).length := by
      rw [utf8, List.flatMap_cons, List.length_append, String.length_utf8EncodeChar, utf8]
    obtain ⟨size, hsize⟩ := Nat.exists_eq_add_of_lt character.utf8Size_pos
    rw [hlength, List.cons_append, show character.utf8Size + (utf8 before).length =
      (size + (utf8 before).length) + 1 by omega, charsFrom, if_pos (by omega),
      show size + (utf8 before).length + 1 - character.utf8Size = (utf8 before).length by omega, ih]

/-- The part before an offset is the offset's. -/
lemma eq_of_length_utf8 {gap other : List Char} (h : gap ++ other = before ++ rest)
    (hlength : (utf8 gap).length = (utf8 before).length) : gap = before ∧ other = rest := by
  have hgap : gap <+: before ++ rest := ⟨other, h⟩
  have hbefore : before <+: before ++ rest := List.prefix_append _ _
  have hsame : gap = before := (utf8_sync.prefix_of_length_le hgap hbefore hlength.le).eq_of_length_le
    (utf8_sync.prefix_of_length_le hbefore hgap hlength.ge).length_le
  subst hsame
  exact ⟨rfl, List.append_cancel_left h⟩

lemma matchElements_endsAt (before rest : List Char) (segment : List LikeElement) :
    EndsAt fold before rest segment (matchElements fold (utf8 before).length segment rest) := by
  induction segment generalizing before rest with
  | nil => exact ⟨[], rest, rfl, .nil, by rw [List.append_nil]⟩
  | cons element segment ih =>
    cases rest with
    | nil =>
      rintro part after hsplit hfits
      obtain ⟨character, part, -, -, rfl⟩ := List.forall₂_cons_left_iff.mp hfits
      exact nomatch hsplit
    | cons character rest =>
      rw [matchElements]
      split
      · next hadmits =>
        rw [← length_utf8_concat]
        have hrest := ih (before ++ [character]) rest
        cases hresult : matchElements fold (utf8 (before ++ [character])).length segment rest with
        | some stop =>
          rw [hresult] at hrest
          obtain ⟨part, after, rfl, hfits, rfl⟩ := hrest
          refine ⟨character :: part, after, rfl, .cons hadmits hfits, ?_⟩
          rw [List.append_assoc]
          rfl
        | none =>
          rw [hresult] at hrest
          intro part after hsplit hfits
          obtain ⟨first, part, -, hpart, rfl⟩ := List.forall₂_cons_left_iff.mp hfits
          exact hrest part after (List.cons.inj hsplit).2 hpart
      · next hrejects =>
        intro part after hsplit hfits
        obtain ⟨first, part, hadmits, -, rfl⟩ := List.forall₂_cons_left_iff.mp hfits
        obtain ⟨rfl, -⟩ := List.cons.inj hsplit
        exact hrejects hadmits

/-- A literal's bytes stand behind `before` if its characters do. -/
lemma literal_at {literal : List Char} :
    ((utf8 before).length + (utf8 literal).length ≤ (utf8 (before ++ rest)).length ∧
        same fold (slice (utf8 (before ++ rest)) (utf8 before).length
          ((utf8 before).length + (utf8 literal).length)) (utf8 literal) = true) ↔
      ∃ part after, rest = part ++ after ∧
        part.map (foldCharacter fold) = literal.map (foldCharacter fold) := by
  by_cases hnil : literal = []
  · subst hnil
    refine iff_of_true ⟨?_, ?_⟩ ⟨[], rest, rfl, rfl⟩
    · rw [utf8_append, List.length_append]
      exact Nat.le_add_right _ _
    · rw [same_iff, slice, Nat.add_sub_cancel_left]
      rfl
  · have hoccurs := @occursAt_utf8 fold (before ++ rest) literal (utf8 before).length hnil
    constructor
    · rintro ⟨hwithin, hsame⟩
      obtain ⟨gap, part, after, hsplit, hlength, hpart⟩ :=
        hoccurs.mp ((occursAt_iff_slice hwithin).mpr hsame)
      obtain ⟨rfl, hrest⟩ := eq_of_length_utf8 hsplit.symm hlength
      exact ⟨part, after, hrest.symm, hpart⟩
    · rintro ⟨part, after, rfl, hpart⟩
      have hplace := hoccurs.mpr ⟨before, part, after, rfl, rfl, hpart⟩
      exact ⟨hplace.within, (occursAt_iff_slice hplace.within).mp hplace⟩

lemma length_utf8_of_fold_eq {part literal : List Char}
    (h : part.map (foldCharacter fold) = literal.map (foldCharacter fold)) :
    (utf8 part).length = (utf8 literal).length := by
  have hbytes : (utf8 _).length = (utf8 _).length := congrArg (fun text => (utf8 text).length) h
  rwa [utf8_fold, utf8_fold, List.length_map, List.length_map] at hbytes

lemma matchesAt_endsAt (htext : text.toList = before ++ rest) (segment : List LikeElement) :
    ∃ result, matchesAt fold text (utf8 before).length (segment, literalOf segment) = some result ∧
      EndsAt fold before rest segment result := by
  cases hliteral : literalOf segment with
  | none =>
    refine ⟨_, ?_, matchElements_endsAt before rest segment⟩
    rw [matchesAt, htext, charsFrom_utf8]
    rfl
  | some literal =>
    obtain rfl := literalOf_eq_some.mp hliteral
    have hat := @literal_at fold before rest literal.toList
    unfold matchesAt
    simp only [textBytes_eq_utf8, htext]
    split
    · next hhere =>
      obtain ⟨part, after, hsplit, hpart⟩ := hat.mp hhere
      refine ⟨_, rfl, part, after, hsplit, fits_literal_iff.mpr hpart, ?_⟩
      rw [utf8_append, List.length_append, length_utf8_of_fold_eq hpart]
    · next hnot =>
      exact ⟨_, rfl, fun part after hsplit hfits =>
        hnot (hat.mpr ⟨part, after, hsplit, fits_literal_iff.mp hfits⟩)⟩

lemma findPlace_finds (htext : text.toList = before ++ rest) (hnil : segment ≠ []) :
    ∃ result, findPlace fold text (segment, literalOf segment)
        ((charIndices (utf8 before).length rest).map Prod.fst) = some result ∧
      FindsSegment fold before rest segment result := by
  induction rest generalizing before with
  | nil =>
    refine ⟨none, rfl, fun gap part after hsplit hfits => hnil ?_⟩
    obtain ⟨-, hnone⟩ := List.append_eq_nil_iff.mp hsplit.symm
    obtain ⟨rfl, -⟩ := List.append_eq_nil_iff.mp hnone
    exact List.forall₂_nil_right_iff.mp hfits
  | cons character rest ih =>
    obtain ⟨here, hhere, hends⟩ := @matchesAt_endsAt fold text before (character :: rest) htext segment
    rw [charIndices, List.map_cons, findPlace, hhere]
    cases here with
    | some stop =>
      obtain ⟨part, after, hsplit, hfits, hstop⟩ := hends
      exact ⟨some stop, rfl, [], part, after,
        ⟨hsplit, hfits, fun _ _ _ _ _ => Nat.zero_le _⟩, hstop⟩
    | none =>
      have hnext : text.toList = (before ++ [character]) ++ rest := by
        rw [htext, List.append_assoc]
        rfl
      obtain ⟨result, hresult, hfinds⟩ := ih hnext
      rw [length_utf8_concat] at hresult
      refine ⟨result, hresult, ?_⟩
      cases result with
      | some stop =>
        obtain ⟨gap, part, after, hfirst, rfl⟩ := hfinds
        refine ⟨character :: gap, part, after, ⟨congrArg (character :: ·) hfirst.split, hfirst.fits, ?_⟩, ?_⟩
        · intro gap' part' after' hsplit hfits
          cases gap' with
          | nil => exact absurd hfits (hends part' after' hsplit)
          | cons first gap' =>
            exact Nat.succ_le_succ (hfirst.least gap' part' after' (List.cons.inj hsplit).2 hfits)
        · rw [List.append_assoc]
          rfl
      | none =>
        intro gap part after hsplit hfits
        cases gap with
        | nil => exact hends part after hsplit hfits
        | cons first gap => exact hfinds gap part after (List.cons.inj hsplit).2 hfits

lemma sliceFrom_utf8 (before rest : List Char) :
    sliceFrom (utf8 (before ++ rest)) (utf8 before).length = some (utf8 rest) := by
  rw [sliceFrom, utf8_append, List.drop_left, if_pos]
  rw [List.length_append]
  exact Nat.le_add_right _ _

/-- The first place of a literal's bytes is that of its characters. -/
lemma findLiteral_findsSegment {literal : List Char} (hnil : literal ≠ []) (before rest : List Char) :
    FindsSegment fold before rest (literal.map .character)
      ((findLiteral fold (utf8 rest) (utf8 literal)).map fun offset =>
        (utf8 before).length + offset + (utf8 literal).length) := by
  have hbytes : utf8 literal ≠ [] := by
    intro h
    exact hnil (utf8_sync.flatMap_injective (h.trans (List.flatMap_nil).symm))
  have hfinds := findLiteral_finds fold (utf8 rest) hbytes
  cases hfound : findLiteral fold (utf8 rest) (utf8 literal) with
  | none =>
    rw [hfound] at hfinds
    intro gap part after hsplit hfits
    exact hfinds (utf8 gap).length (Nat.zero_le _)
      ((occursAt_utf8 hnil).mpr ⟨gap, part, after, hsplit, rfl, fits_literal_iff.mp hfits⟩)
  | some offset =>
    rw [hfound] at hfinds
    obtain ⟨hoccurs, -, hleast⟩ := hfinds
    obtain ⟨gap, part, after, hsplit, hlength, hpart⟩ := (occursAt_utf8 hnil).mp hoccurs
    refine ⟨gap, part, after, ⟨hsplit, fits_literal_iff.mpr hpart, ?_⟩, ?_⟩
    · intro gap' part' after' hsplit' hfits
      have hle := hleast (utf8 gap').length (Nat.zero_le _)
        ((occursAt_utf8 hnil).mpr ⟨gap', part', after', hsplit', rfl, fits_literal_iff.mp hfits⟩)
      rw [← hlength] at hle
      exact (utf8_sync.prefix_of_length_le ⟨_, hsplit.symm⟩ ⟨_, hsplit'.symm⟩ hle).length_le
    · rw [utf8_append, utf8_append, List.length_append, List.length_append, hlength,
        length_utf8_of_fold_eq hpart]
      exact Nat.add_assoc _ _ _

lemma findSegment_finds (htext : text.toList = before ++ rest) (hnil : segment ≠ []) :
    ∃ result, findSegment fold text (utf8 before).length (segment, literalOf segment) = some result ∧
      FindsSegment fold before rest segment result := by
  cases hliteral : literalOf segment with
  | none =>
    have hplaces := @findPlace_finds fold text before rest segment htext hnil
    rw [hliteral] at hplaces
    unfold findSegment
    rw [htext, charsFrom_utf8]
    exact hplaces
  | some literal =>
    obtain rfl := literalOf_eq_some.mp hliteral
    refine ⟨_, ?_, findLiteral_findsSegment (fun h => hnil (by rw [h]; rfl)) before rest⟩
    unfold findSegment
    simp only [textBytes_eq_utf8, htext, sliceFrom_utf8]
    rfl

/-- A text ends with what the last segment fits, behind what was found. -/
lemma follows_last_iff : Follows (Admits fold) [segment] rest ↔
    ∃ gap part, rest = gap ++ part ∧ List.Forall₂ (Admits fold) segment part := by
  constructor
  · rintro ⟨gap, part, _, hsplit, hfits, rfl⟩
    exact ⟨gap, part, by rw [hsplit, List.append_nil], hfits⟩
  · rintro ⟨gap, part, hsplit, hfits⟩
    exact ⟨gap, part, [], by rw [hsplit, List.append_nil], hfits, rfl⟩

/-- The last segment's start, in characters, decides whether the text ends with it. -/
lemma follows_last_of_split {gap part : List Char} (hsplit : before ++ rest = gap ++ part)
    (hlength : part.length = segment.length) : Follows (Admits fold) [segment] rest ↔
      (utf8 before).length ≤ (utf8 gap).length ∧ List.Forall₂ (Admits fold) segment part := by
  rw [follows_last_iff]
  constructor
  · rintro ⟨between, found, rfl, hfits⟩
    rw [← List.append_assoc] at hsplit
    obtain ⟨rfl, rfl⟩ := List.append_inj' hsplit (hfits.length_eq.symm.trans hlength.symm)
    rw [utf8_append, List.length_append]
    exact ⟨Nat.le_add_right _ _, hfits⟩
  · rintro ⟨hle, hfits⟩
    obtain ⟨between, rfl⟩ := utf8_sync.prefix_of_length_le (List.prefix_append before rest) ⟨part, hsplit.symm⟩ hle
    rw [List.append_assoc] at hsplit
    exact ⟨between, part, List.append_cancel_left hsplit, hfits⟩

lemma charIndices_getElem? (start index : Nat) (characters : List Char) :
    ((charIndices start characters)[index]?).map Prod.fst =
      if index < characters.length then some (start + (utf8 (characters.take index)).length)
      else none := by
  induction characters generalizing start index with
  | nil => rfl
  | cons character characters ih =>
    cases index with
    | zero => rfl
    | succ index =>
      rw [charIndices, List.getElem?_cons_succ, ih, List.length_cons, List.take_succ_cons]
      have hlength : (utf8 (character :: characters.take index)).length =
          character.utf8Size + (utf8 (characters.take index)).length := by
        rw [utf8, List.flatMap_cons, List.length_append, String.length_utf8EncodeChar, utf8]
      rw [hlength, Nat.add_assoc]
      split
      · next h => rw [if_pos (Nat.succ_lt_succ h)]
      · next h => rw [if_neg fun hlt => h (Nat.lt_of_succ_lt_succ hlt)]

lemma length_charIndices (start : Nat) (characters : List Char) :
    (charIndices start characters).length = characters.length := by
  induction characters generalizing start with
  | nil => rfl
  | cons character characters ih => exact congrArg Nat.succ (ih _)

/-- The start of as many characters as a segment with `_` has elements. -/
lemma lastStart_of_any (hliteral : literalOf segment = none) :
    lastStart text (segment, literalOf segment) =
      if segment.length ≤ text.toList.length then
        some (utf8 (text.toList.take (text.toList.length - segment.length))).length
      else none := by
  have hpos : 0 < segment.length := by
    refine List.length_pos_iff.mpr fun hnil => ?_
    rw [hnil] at hliteral
    exact nomatch hliteral
  rw [hliteral, lastStart]
  dsimp only
  by_cases hfits : segment.length ≤ text.toList.length
  · rw [List.getElem?_reverse (by rw [length_charIndices]; omega), length_charIndices,
      charIndices_getElem?, if_pos hfits, if_pos (by omega), Nat.zero_add]
    congr 4
    omega
  · rw [if_neg hfits, List.getElem?_eq_none (by rw [List.length_reverse, length_charIndices]; omega)]
    rfl

/-- A text ends with a literal's characters where it ends with its bytes. -/
lemma literal_last {literal : List Char} :
    Follows (Admits fold) [literal.map .character] rest ↔
      (utf8 literal).length ≤ (utf8 (before ++ rest)).length ∧
      (utf8 before).length ≤ (utf8 (before ++ rest)).length - (utf8 literal).length ∧
      same fold (slice (utf8 (before ++ rest))
        ((utf8 (before ++ rest)).length - (utf8 literal).length)
        ((utf8 (before ++ rest)).length - (utf8 literal).length + (utf8 literal).length))
        (utf8 literal) = true := by
  rw [follows_last_iff]
  constructor
  · rintro ⟨gap, part, rfl, hfits⟩
    have hpart := fits_literal_iff.mp hfits
    have hlength := length_utf8_of_fold_eq hpart
    have htotal : (utf8 (before ++ (gap ++ part))).length =
        (utf8 before).length + (utf8 gap).length + (utf8 literal).length := by
      rw [utf8_append, utf8_append, List.length_append, List.length_append, hlength, Nat.add_assoc]
    have hgap : utf8 (before ++ gap) = utf8 before ++ utf8 gap := utf8_append _ _
    have hplace : ∃ part' after, part = part' ++ after ∧
        part'.map (foldCharacter fold) = literal.map (foldCharacter fold) :=
      ⟨part, [], (List.append_nil part).symm, hpart⟩
    have hat := (@literal_at fold (before ++ gap) part literal).mpr hplace
    rw [hgap, List.length_append, List.append_assoc] at hat
    rw [htotal, Nat.add_sub_cancel]
    exact ⟨Nat.le_add_left _ _, Nat.le_add_right _ _, hat.2⟩
  · rintro ⟨henough, hbefore, hsame⟩
    by_cases hnil : literal = []
    · subst hnil
      exact ⟨rest, [], (List.append_nil rest).symm, .nil⟩
    · have hoccurs := (occursAt_iff_slice (Nat.sub_add_cancel henough).le).mpr hsame
      obtain ⟨gap, part, after, hsplit, hlength, hpart⟩ := (occursAt_utf8 hnil).mp hoccurs
      have hafter : after = [] := by
        have htotal : (utf8 (before ++ rest)).length = (utf8 (gap ++ (part ++ after))).length :=
          congrArg (fun text => (utf8 text).length) hsplit
        rw [utf8_append gap, utf8_append part, List.length_append, List.length_append, hlength,
          length_utf8_of_fold_eq hpart] at htotal
        refine utf8_sync.flatMap_injective (List.length_eq_zero_iff.mp (?_ : (utf8 after).length = 0))
        omega
      rw [hafter, List.append_nil] at hsplit
      rw [← hlength] at hbefore
      obtain ⟨between, rfl⟩ :=
        utf8_sync.prefix_of_length_le (List.prefix_append before rest) ⟨part, hsplit.symm⟩ hbefore
      rw [List.append_assoc] at hsplit
      exact ⟨between, part, List.append_cancel_left hsplit, fits_literal_iff.mpr hpart⟩

/-- Where the last segment is looked for decides whether the text ends with it, behind what was found. -/
lemma matchesLast_spec (htext : text.toList = before ++ rest) (segment : List LikeElement) :
    ∃ matched, matchesLast fold text (utf8 before).length (segment, literalOf segment) = some matched ∧
      (matched = true ↔ Follows (Admits fold) [segment] rest) := by
  cases hliteral : literalOf segment with
  | none =>
    have hstart : lastStart text (segment, literalOf segment) =
        if segment.length ≤ text.toList.length then
          some (utf8 (text.toList.take (text.toList.length - segment.length))).length
        else none := lastStart_of_any hliteral
    rw [hliteral] at hstart
    rw [matchesLast, hstart]
    split
    · next hnone =>
      refine ⟨false, rfl, iff_of_false Bool.false_ne_true fun h => ?_⟩
      obtain ⟨gap, part, rfl, hfits⟩ := follows_last_iff.mp h
      split at hnone
      · cases hnone
      · next hshort =>
        rw [htext, hfits.length_eq, List.length_append, List.length_append] at hshort
        omega
    · next start hsome =>
      split at hsome
      · next henough =>
        obtain rfl := Option.some.inj hsome
        generalize hgap : text.toList.take (text.toList.length - segment.length) = gap
        generalize hpart : text.toList.drop (text.toList.length - segment.length) = part
        have hsplit : text.toList = gap ++ part := by rw [← hgap, ← hpart, List.take_append_drop]
        have hlength : part.length = segment.length := by
          rw [← hpart, List.length_drop]
          omega
        have hlast := @follows_last_of_split fold before rest segment gap part
          (htext.symm.trans hsplit) hlength
        obtain ⟨result, hresult, hends⟩ := @matchesAt_endsAt fold text gap part hsplit segment
        rw [hliteral] at hresult
        split
        · next hbefore =>
          refine ⟨false, rfl, iff_of_false Bool.false_ne_true fun h => ?_⟩
          exact absurd (hlast.mp h).1 (not_le.mpr hbefore)
        · next hbehind =>
          rw [hresult]
          refine ⟨_, rfl, ?_⟩
          rw [beq_iff_eq, hlast, textBytes_eq_utf8, hsplit]
          cases result with
          | none => exact iff_of_false (by simp) fun h => hends part [] (List.append_nil part).symm h.2
          | some stop =>
            obtain ⟨found, more, rfl, hfits, rfl⟩ := hends
            have hmore : more = [] := by
              refine List.length_eq_zero_iff.mp ?_
              rw [List.length_append, ← hfits.length_eq] at hlength
              omega
            rw [hmore, List.append_nil]
            exact iff_of_true rfl ⟨not_lt.mp hbehind, hfits⟩
      · cases hsome
  | some literal =>
    obtain rfl := literalOf_eq_some.mp hliteral
    have hlast := @literal_last fold before rest literal.toList
    unfold matchesLast lastStart matchesAt
    simp only [textBytes_eq_utf8, htext]
    split
    · next hnone =>
      refine ⟨false, rfl, iff_of_false Bool.false_ne_true fun h => ?_⟩
      split at hnone
      · next hshort => exact absurd (hlast.mp h).1 (not_le.mpr hshort)
      · cases hnone
    · next start hsome =>
      split at hsome
      · cases hsome
      · next henough =>
        obtain rfl := Option.some.inj hsome
        rw [Nat.sub_add_cancel (not_lt.mp henough)] at hlast ⊢
        split
        · next hbefore =>
          refine ⟨false, rfl, iff_of_false Bool.false_ne_true fun h => ?_⟩
          exact absurd (hlast.mp h).2.1 (not_le.mpr hbefore)
        · next hbehind =>
          split
          · next hsame =>
            refine ⟨_, rfl, iff_of_true (beq_self_eq_true _) (hlast.mpr ?_)⟩
            exact ⟨not_lt.mp henough, not_lt.mp hbehind, hsame.2⟩
          · next hdiffers =>
            refine ⟨_, rfl, iff_of_false Bool.false_ne_true fun h => ?_⟩
            exact hdiffers ⟨le_rfl, (hlast.mp h).2.2⟩

/-- A segment with its text. -/
def withLiteral (segment : List LikeElement) : List LikeElement × Option String :=
  (segment, literalOf segment)

/-- The search of a pattern's segments, behind the first, decides whether they follow. -/
lemma searchSegments_spec (segment : List LikeElement) (segments : List (List LikeElement))
    (htext : text.toList = before ++ rest) :
    ∃ matched, searchSegments fold text (utf8 before).length (withLiteral segment)
        (segments.map withLiteral) = some matched ∧
      (matched = true ↔ Follows (Admits fold) (segment :: segments) rest) := by
  induction segments generalizing segment before rest with
  | nil => exact matchesLast_spec htext segment
  | cons next segments ih =>
    rw [List.map_cons, searchSegments]
    split
    · next hempty =>
      obtain rfl : segment = [] := List.isEmpty_iff.mp hempty
      rw [follows_nil_cons]
      exact ih next htext
    · next hfull =>
      obtain ⟨found, hfound, hfinds⟩ := @findSegment_finds fold text before rest segment htext
        fun h => hfull (by rw [h]; rfl)
      rw [withLiteral, hfound]
      cases found with
      | none =>
        refine ⟨false, rfl, iff_of_false Bool.false_ne_true ?_⟩
        rintro ⟨gap, part, after, hsplit, hfits, -⟩
        exact hfinds gap part after hsplit hfits
      | some stop =>
        obtain ⟨gap, part, after, hfirst, rfl⟩ := hfinds
        have hbehind : text.toList = (before ++ (gap ++ part)) ++ after := by
          rw [htext, hfirst.split, List.append_assoc, List.append_assoc]
        rw [hfirst.follows_iff]
        exact ih next hbehind

end

end LikePattern
end TinyJoin
