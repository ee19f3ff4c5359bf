import TinyJoin.LikeSegments

/-! The matcher of `LIKE` decides what matches a pattern, from a text's characters or its bytes alone. -/
namespace TinyJoin
open Codewords Segments Bytes
namespace LikePattern

/-! ## What a pattern means -/

/-- A text matches segments: the first at its start, and each other behind any characters. -/
def MatchesAll (fold : Bool) (segments : List (List LikeElement)) (text : List Char) : Prop :=
  ∃ first later part after, segments = first :: later ∧ text = part ++ after ∧
    List.Forall₂ (Admits fold) first part ∧ Follows (Admits fold) later after

section
variable {escape : Option Char} {fold : Bool} {pattern text : List Char}

lemma like_nil_iff : Like escape fold [] text ↔ text = [] :=
  ⟨fun h => by cases h; rfl, fun h => by rw [h]; exact .done⟩

lemma like_escaped_iff {mark literal : Char} (escapes : escape = some mark) :
    Like escape fold (mark :: literal :: pattern) text ↔ ∃ character rest, text = character :: rest ∧
      SameCharacter fold literal character ∧ Like escape fold pattern rest := by
  constructor
  · intro h
    cases h with
    | escaped _ same rest => exact ⟨_, _, rfl, same, rest⟩
    | sequence any plain rest => exact absurd escapes plain
    | any character plain rest => exact absurd escapes plain
    | literal plain _ _ _ _ => exact absurd escapes plain
  · rintro ⟨character, rest, rfl, same, hrest⟩
    exact .escaped escapes same hrest

lemma like_sequence_iff (plain : escape ≠ some '%') :
    Like escape fold ('%' :: pattern) text ↔
      ∃ any rest, text = any ++ rest ∧ Like escape fold pattern rest := by
  constructor
  · intro h
    cases h with
    | escaped escapes _ _ => exact absurd escapes plain
    | sequence any _ rest => exact ⟨any, _, rfl, rest⟩
    | literal _ sequence _ _ _ => exact absurd rfl sequence
  · rintro ⟨any, rest, rfl, hrest⟩
    exact .sequence any plain hrest

lemma like_any_iff (plain : escape ≠ some '_') :
    Like escape fold ('_' :: pattern) text ↔
      ∃ character rest, text = character :: rest ∧ Like escape fold pattern rest := by
  constructor
  · intro h
    cases h with
    | escaped escapes _ _ => exact absurd escapes plain
    | any character _ rest => exact ⟨character, _, rfl, rest⟩
    | literal _ _ any _ _ => exact absurd rfl any
  · rintro ⟨character, rest, rfl, hrest⟩
    exact .any character plain hrest

lemma like_literal_iff {literal : Char} (plain : escape ≠ some literal) (sequence : literal ≠ '%')
    (any : literal ≠ '_') : Like escape fold (literal :: pattern) text ↔ ∃ character rest,
      text = character :: rest ∧ SameCharacter fold literal character ∧
        Like escape fold pattern rest := by
  constructor
  · intro h
    cases h with
    | escaped escapes _ _ => exact absurd escapes plain
    | sequence _ _ _ => exact absurd rfl sequence
    | any _ _ _ => exact absurd rfl any
    | literal _ _ _ same rest => exact ⟨_, _, rfl, same, rest⟩
  · rintro ⟨character, rest, rfl, same, hrest⟩
    exact .literal plain sequence any same hrest

lemma matchesAll_cons {first : List LikeElement} {later : List (List LikeElement)} :
    MatchesAll fold (first :: later) text ↔ ∃ part after, text = part ++ after ∧
      List.Forall₂ (Admits fold) first part ∧ Follows (Admits fold) later after := by
  constructor
  · rintro ⟨_, _, part, after, hsegments, hsplit, hfits, hlater⟩
    obtain ⟨rfl, rfl⟩ := List.cons.inj hsegments
    exact ⟨part, after, hsplit, hfits, hlater⟩
  · rintro ⟨part, after, hsplit, hfits, hlater⟩
    exact ⟨first, later, part, after, rfl, hsplit, hfits, hlater⟩

lemma follows_iff_matchesAll {segments : List (List LikeElement)} (h : segments ≠ []) :
    Follows (Admits fold) segments text ↔
      ∃ gap rest, text = gap ++ rest ∧ MatchesAll fold segments rest := by
  obtain ⟨first, later, rfl⟩ := List.exists_cons_of_ne_nil h
  constructor
  · rintro ⟨gap, part, after, hsplit, hfits, hlater⟩
    exact ⟨gap, part ++ after, hsplit, matchesAll_cons.mpr ⟨part, after, rfl, hfits, hlater⟩⟩
  · rintro ⟨gap, _, hsplit, hrest⟩
    obtain ⟨part, after, rfl, hfits, hlater⟩ := matchesAll_cons.mp hrest
    exact ⟨gap, part, after, hsplit, hfits, hlater⟩

lemma segmentsFrom_ne_nil (segment : List LikeElement) : segmentsFrom escape segment pattern ≠ [] := by
  fun_induction segmentsFrom escape segment pattern with
  | case1 => exact List.cons_ne_nil _ _
  | case2 => exact List.cons_ne_nil _ _
  | case3 _ _ _ _ _ ih => exact ih
  | case4 => exact List.cons_ne_nil _ _
  | case5 _ _ _ _ ih => exact ih
  | case6 _ _ _ _ _ _ ih => exact ih

lemma validPattern_plain {character : Char} (plain : some character ≠ escape) :
    validPattern escape (character :: pattern) = validPattern escape pattern := by
  rw [validPattern.eq_def]
  exact if_neg plain

/-- A text that begins with what a segment fits, the last of it for one more element. -/
lemma exists_fits_concat {segment : List LikeElement} {element : LikeElement} {P : List Char → Prop} :
    (∃ part after, text = part ++ after ∧ List.Forall₂ (Admits fold) (segment ++ [element]) part ∧
        P after) ↔
      ∃ part after, text = part ++ after ∧ List.Forall₂ (Admits fold) segment part ∧
        ∃ character rest, after = character :: rest ∧ Admits fold element character ∧ P rest := by
  constructor
  · rintro ⟨part, after, hsplit, hfits, hafter⟩
    rw [← List.forall₂_reverse_iff, List.reverse_append, List.reverse_singleton,
      List.singleton_append, List.forall₂_cons_left_iff] at hfits
    obtain ⟨character, most, hadmits, hmost, hreverse⟩ := hfits
    obtain rfl : part = most.reverse ++ [character] := by
      rw [← List.reverse_cons, ← hreverse, List.reverse_reverse]
    refine ⟨most.reverse, character :: after, ?_, ?_, character, after, rfl, hadmits, hafter⟩
    · rw [hsplit, List.append_assoc]
      rfl
    · rwa [← List.forall₂_reverse_iff, List.reverse_reverse]
  · rintro ⟨part, _, hsplit, hfits, character, rest, rfl, hadmits, hrest⟩
    refine ⟨part ++ [character], rest, ?_, List.rel_append hfits (.cons hadmits .nil), hrest⟩
    rw [hsplit, List.append_assoc]
    rfl

/-- A pattern's segments, behind the one that has been begun, are matched where what that one fits is
followed by a match of the pattern. -/
lemma matchesAll_segmentsFrom (valid : validPattern escape pattern = true)
    (segment : List LikeElement) :
    MatchesAll fold (segmentsFrom escape segment pattern) text ↔ ∃ part after, text = part ++ after ∧
      List.Forall₂ (Admits fold) segment part ∧ Like escape fold pattern after := by
  fun_induction segmentsFrom escape segment pattern generalizing text with
  | case1 segment =>
    rw [matchesAll_cons]
    exact exists_congr fun part => exists_congr fun after =>
      and_congr_right' (and_congr_right' like_nil_iff.symm)
  | case2 segment character escapes =>
    rw [validPattern, if_pos escapes] at valid
    exact nomatch valid
  | case3 segment character escapes escaped rest ih =>
    rw [validPattern, if_pos escapes] at valid
    rw [ih valid, exists_fits_concat]
    refine exists_congr fun part => exists_congr fun after =>
      and_congr_right' (and_congr_right' ?_)
    rw [like_escaped_iff escapes.symm]
    exact exists_congr fun character => exists_congr fun rest =>
      and_congr_right' (and_congr_left' (admits_character ..))
  | case4 segment rest plain ih =>
    rw [validPattern_plain plain] at valid
    rw [matchesAll_cons]
    refine exists_congr fun part => exists_congr fun after =>
      and_congr_right' (and_congr_right' ?_)
    rw [like_sequence_iff fun h => plain h.symm, follows_iff_matchesAll (segmentsFrom_ne_nil [])]
    refine exists_congr fun gap => exists_congr fun behind => and_congr_right' ?_
    rw [ih valid]
    constructor
    · rintro ⟨part, after, rfl, hfits, hlike⟩
      rwa [List.forall₂_nil_left_iff.mp hfits]
    · exact fun h => ⟨[], behind, rfl, .nil, h⟩
  | case5 segment rest plain notSequence ih =>
    rw [validPattern_plain plain] at valid
    rw [ih valid, exists_fits_concat]
    refine exists_congr fun part => exists_congr fun after =>
      and_congr_right' (and_congr_right' ?_)
    rw [like_any_iff fun h => plain h.symm]
    exact exists_congr fun character => exists_congr fun rest => and_congr_right' (and_iff_right rfl)
  | case6 segment character rest plain notSequence notAny ih =>
    rw [validPattern_plain plain] at valid
    rw [ih valid, exists_fits_concat]
    refine exists_congr fun part => exists_congr fun after =>
      and_congr_right' (and_congr_right' ?_)
    rw [like_literal_iff (fun h => plain h.symm) notSequence notAny]
    exact exists_congr fun character => exists_congr fun rest =>
      and_congr_right' (and_congr_left' (admits_character ..))

/-- A segment fits a text's start in one way. -/
lemma matchesAll_of_endsAt {first : List LikeElement} {later : List (List LikeElement)}
    {part after : List Char} (hsplit : text = part ++ after)
    (hfits : List.Forall₂ (Admits fold) first part) :
    MatchesAll fold (first :: later) text ↔ Follows (Admits fold) later after := by
  rw [matchesAll_cons]
  constructor
  · rintro ⟨part', after', hsplit', hfits', hlater⟩
    obtain ⟨-, rfl⟩ := List.append_inj (hsplit.symm.trans hsplit')
      (hfits.length_eq.symm.trans hfits'.length_eq)
    exact hlater
  · exact fun hlater => ⟨part, after, hsplit, hfits, hlater⟩

/-- The segments of a pattern decide whether a text matches it. -/
lemma matchesSegments_of_segments {segments : List (List LikeElement)} {text : String}
    (hne : segments ≠ []) :
    ∃ matched, matchesSegments ⟨segments, segments.map literalOf, fold⟩ text = some matched ∧
      (matched = true ↔ MatchesAll fold segments text.toList) := by
  have hzip : segments.zip (segments.map literalOf) = segments.map withLiteral :=
    (List.map_prod_left_eq_zip ..).symm
  obtain ⟨first, later, rfl⟩ := List.exists_cons_of_ne_nil hne
  obtain ⟨here, hhere, hends⟩ := @matchesAt_endsAt fold text [] text.toList rfl first
  change matchesAt fold text 0 (withLiteral first) = some here at hhere
  unfold matchesSegments
  rw [hzip]
  cases later with
  | nil =>
    simp only [List.map_cons, List.map_nil, hhere]
    refine ⟨_, rfl, ?_⟩
    rw [beq_iff_eq, textBytes_eq_utf8]
    cases here with
    | none =>
      refine iff_of_false nofun fun h => ?_
      obtain ⟨part, after, hsplit, hfits, -⟩ := matchesAll_cons.mp h
      exact hends part after hsplit hfits
    | some stop =>
      obtain ⟨part, after, hsplit, hfits, rfl⟩ := hends
      rw [matchesAll_of_endsAt hsplit hfits, hsplit, List.nil_append, utf8_append, List.length_append,
        Option.some.injEq]
      constructor
      · intro h
        refine utf8_sync.flatMap_injective (List.length_eq_zero_iff.mp (?_ : (utf8 after).length = 0))
        omega
      · rintro ⟨⟩
        rfl
  | cons second more =>
    simp only [List.map_cons, hhere]
    cases here with
    | none =>
      refine ⟨false, rfl, iff_of_false Bool.false_ne_true fun h => ?_⟩
      obtain ⟨part, after, hsplit, hfits, -⟩ := matchesAll_cons.mp h
      exact hends part after hsplit hfits
    | some stop =>
      obtain ⟨part, after, hsplit, hfits, rfl⟩ := hends
      rw [matchesAll_of_endsAt hsplit hfits]
      exact searchSegments_spec second more hsplit

/-- A text matches a pattern where it matches the pattern's segments. -/
lemma like_iff_matchesAll (valid : validPattern escape pattern = true) :
    Like escape fold pattern text ↔ MatchesAll fold (segmentsFrom escape [] pattern) text := by
  rw [matchesAll_segmentsFrom valid]
  constructor
  · exact fun h => ⟨[], text, rfl, .nil, h⟩
  · rintro ⟨part, after, hsplit, hfits, h⟩
    rw [List.forall₂_nil_left_iff.mp hfits] at hsplit
    rwa [hsplit]

lemma matchesSegments_spec {pattern text : String} (valid : validPattern escape pattern.toList = true) :
    ∃ matched, (new pattern escape fold).matchesSegments text = some matched ∧
      (matched = true ↔ Like escape fold pattern.toList text.toList) := by
  rw [like_iff_matchesAll valid]
  exact matchesSegments_of_segments (segmentsFrom_ne_nil [])

end

/-! ## From bytes alone -/

/-- A segment of a literal's characters, with the literal. -/
def literalSegment (literal : String) : List LikeElement × Option String :=
  (literal.toList.map .character, some literal)

section
variable {fold : Bool} {text : String}

lemma matchesAt_literal (start : Nat) (literal : String) :
    matchesAt fold text start (literalSegment literal) = some
      (if start + (textBytes literal).length ≤ (textBytes text).length ∧
        same fold (slice (textBytes text) start (start + (textBytes literal).length))
          (textBytes literal) = true then some (start + (textBytes literal).length) else none) := by
  unfold matchesAt literalSegment
  dsimp only
  split
  · rfl
  · rfl

lemma matchesLast_literal (cursor : Nat) (last : String) :
    matchesLast fold text cursor (literalSegment last) =
      searchLiterals fold (textBytes text) cursor (textBytes last) [] := by
  rw [matchesLast, searchLiterals, lastStart, literalSegment]
  dsimp only
  by_cases hshort : (textBytes text).length < (textBytes last).length
  · rw [if_pos hshort, if_pos hshort]
  · have hstop := Nat.sub_add_cancel (not_lt.mp hshort)
    rw [if_neg hshort, if_neg hshort]
    dsimp only
    rw [← literalSegment, matchesAt_literal, hstop]
    split
    · next hbefore => rw [decide_eq_false (not_le.mpr hbefore), Bool.false_and]
    · next hbehind =>
      rw [decide_eq_true (not_lt.mp hbehind), Bool.true_and, slice,
        List.take_of_length_le (by rw [List.length_drop])]
      split
      · next hsame => rw [hsame.2]; exact congrArg some (beq_self_eq_true _)
      · next hdiffers =>
        rw [Bool.eq_false_iff.mpr fun hsame => hdiffers ⟨le_rfl, hsame⟩]
        rfl

lemma searchSegments_literals (cursor : Nat) (literal : String) (literals : List String) :
    searchSegments fold text cursor (literalSegment literal) (literals.map literalSegment) =
      searchLiterals fold (textBytes text) cursor (textBytes literal) (literals.map textBytes) := by
  induction literals generalizing cursor literal with
  | nil => exact matchesLast_literal cursor literal
  | cons next literals ih =>
    have hempty : (literalSegment literal).1.isEmpty = (textBytes literal).isEmpty := by
      rw [Bool.eq_iff_iff, List.isEmpty_iff, List.isEmpty_iff, literalSegment, List.map_eq_nil_iff,
        textBytes_eq_utf8]
      exact ⟨fun h => by rw [h]; rfl, fun h => utf8_sync.flatMap_injective h⟩
    rw [List.map_cons, List.map_cons, searchSegments, searchLiterals, hempty]
    split
    · exact ih cursor next
    · rw [findSegment, literalSegment]
      dsimp only
      cases sliceFrom (textBytes text) cursor with
      | none => rfl
      | some rest =>
        simp only [Option.bind_eq_bind, Option.bind_some, Option.pure_def]
        cases findLiteral fold rest (textBytes literal) with
        | none => rfl
        | some offset => exact ih _ next

lemma literalOf_eq_none_iff {segment : List LikeElement} :
    literalOf segment = none ↔ .anyCharacter ∈ segment := by
  constructor
  · intro hnone
    by_contra hmem
    have hliteral : ∃ literal : List Char, segment = literal.map .character := by
      clear hnone
      induction segment with
      | nil => exact ⟨[], rfl⟩
      | cons element segment ih =>
        rw [List.mem_cons, not_or] at hmem
        obtain ⟨literal, rfl⟩ := ih hmem.2
        cases element with
        | anyCharacter => exact absurd rfl hmem.1
        | character character => exact ⟨character :: literal, rfl⟩
    obtain ⟨literal, hliteral⟩ := hliteral
    have hsome := literalOf_eq_some.mpr (hliteral.trans (by rw [String.toList_ofList (l := literal)]))
    exact nomatch hnone.symm.trans hsome
  · intro hmem
    refine Option.eq_none_iff_forall_ne_some.mpr fun literal hliteral => ?_
    rw [literalOf_eq_some.mp hliteral, List.mem_map] at hmem
    obtain ⟨_, _, h⟩ := hmem
    exact nomatch h

lemma matchesBytes_literalSegments (literals : List String) :
    matchesBytes ⟨(literals.map literalSegment).map Prod.fst, literals.map some, fold⟩ (textBytes text) =
      (matchesSegments ⟨(literals.map literalSegment).map Prod.fst, literals.map some, fold⟩ text).map
        some := by
  have hzip : ((literals.map literalSegment).map Prod.fst).zip (literals.map some) =
      literals.map literalSegment := by
    rw [List.map_map, List.zip_map', List.map_congr_left fun _ _ => rfl]
    rfl
  have hall : ((literals.map some).any Option.isNone) = false := by
    rw [List.any_map, List.any_eq_false]
    exact fun _ _ h => nomatch h
  have hbytes : (literals.map some).map (fun literal => textBytes (literal.getD "")) =
      literals.map textBytes := by
    rw [List.map_map]
    rfl
  unfold matchesBytes matchesSegments
  dsimp only
  rw [hzip, hall, if_neg Bool.false_ne_true, hbytes]
  have hslice (stop : Nat) : slice (textBytes text) 0 stop = (textBytes text).take stop := rfl
  cases literals with
  | nil => rfl
  | cons first literals =>
    cases literals with
    | nil =>
      simp only [List.map_cons, List.map_nil, matchesAt_literal, Nat.zero_add, hslice]
      change some (some _) = some (some _)
      congr 2
      by_cases hlength : (textBytes text).length = (textBytes first).length
      · rw [← hlength, List.take_length, beq_self_eq_true, Bool.true_and]
        split
        · next hsame => rw [hsame.2]; exact (beq_self_eq_true _).symm
        · next hdiffers => exact Bool.eq_false_iff.mpr fun hsame => hdiffers ⟨le_rfl, hsame⟩
      · rw [beq_eq_false_iff_ne.mpr hlength, Bool.false_and]
        split
        · exact (beq_eq_false_iff_ne.mpr fun h => hlength (Option.some.inj h).symm).symm
        · rfl
    | cons second more =>
      simp only [List.map_cons, matchesAt_literal, Nat.zero_add, hslice]
      by_cases hstarts : (textBytes first).length ≤ (textBytes text).length ∧
          same fold ((textBytes text).take (textBytes first).length) (textBytes first) = true
      · rw [if_pos hstarts, if_neg]
        · exact congrArg (Option.map some) (searchSegments_literals _ second more).symm
        · rw [not_or, not_lt, not_not]
          exact hstarts
      · rw [if_neg hstarts, if_pos]
        · rfl
        · rwa [← not_le, ← not_and_or]

/-- Judged from its bytes, a text matches literals as it does otherwise. -/
lemma matchesBytes_literals {segments : List (List LikeElement)}
    (h : ∀ segment ∈ segments, .anyCharacter ∉ segment) :
    matchesBytes ⟨segments, segments.map literalOf, fold⟩ (textBytes text) =
      (matchesSegments ⟨segments, segments.map literalOf, fold⟩ text).map some := by
  have hsome (segment : List LikeElement) (hmem : segment ∈ segments) :
      literalOf segment = some ((literalOf segment).getD "") := by
    cases hliteral : literalOf segment with
    | none => exact absurd (literalOf_eq_none_iff.mp hliteral) (h segment hmem)
    | some literal => rfl
  have hall := @matchesBytes_literalSegments fold text
    (segments.map fun segment => (literalOf segment).getD "")
  have hliterals : (segments.map fun segment => (literalOf segment).getD "").map some =
      segments.map literalOf := by
    rw [List.map_map]
    exact List.map_congr_left fun segment hmem => (hsome segment hmem).symm
  have hsegments : ((segments.map fun segment => (literalOf segment).getD "").map literalSegment).map
      Prod.fst = segments := by
    rw [List.map_map, List.map_map]
    refine (List.map_congr_left fun segment hmem => ?_).trans (List.map_id segments)
    exact (literalOf_eq_some.mp (hsome segment hmem)).symm
  rwa [hliterals, hsegments] at hall

/-- Whether a pattern has a wildcard for one character. -/
def hasAny (escape : Option Char) (pattern : String) : Prop :=
  ∃ segment ∈ segmentsFrom escape [] pattern.toList, .anyCharacter ∈ segment

lemma matchesBytes_eq_none {segments : List (List LikeElement)} {bytes : List UInt8}
    (h : ∃ segment ∈ segments, .anyCharacter ∈ segment) :
    matchesBytes ⟨segments, segments.map literalOf, fold⟩ bytes = some none := by
  obtain ⟨segment, hmem, hany⟩ := h
  rw [matchesBytes, if_pos]
  rw [List.any_map, List.any_eq_true]
  exact ⟨segment, hmem, Option.isNone_iff_eq_none.mpr (literalOf_eq_none_iff.mpr hany)⟩

end

section
variable {escape : Option Char} {fold : Bool} {pattern : String}

lemma matchesBytes_spec (valid : validPattern escape pattern.toList = true) (text : String) :
    ∃ result, (new pattern escape fold).matchesBytes (textBytes text) = some result ∧
      (result = none ↔ hasAny escape pattern) ∧
      ∀ matched, result = some matched →
        (matched = true ↔ Like escape fold pattern.toList text.toList) := by
  by_cases hany : hasAny escape pattern
  · exact ⟨none, matchesBytes_eq_none hany, iff_of_true rfl hany, nofun⟩
  · obtain ⟨matched, hmatched, hlike⟩ := @matchesSegments_spec escape fold pattern text valid
    refine ⟨some matched, ?_, iff_of_false nofun hany, fun _ h => Option.some.inj h ▸ hlike⟩
    have hbytes := @matchesBytes_literals fold text (segmentsFrom escape [] pattern.toList)
      fun segment hmem hmember => hany ⟨segment, hmem, hmember⟩
    change matchesSegments ⟨_, _, fold⟩ text = some matched at hmatched
    rw [hmatched] at hbytes
    exact hbytes

lemma matchesText_spec (valid : validPattern escape pattern.toList = true) (text : String) :
    ∃ matched, (new pattern escape fold).matchesText text = some matched ∧
      (matched = true ↔ Like escape fold pattern.toList text.toList) := by
  obtain ⟨result, hresult, -, hlike⟩ := @matchesBytes_spec escape fold pattern valid text
  rw [matchesText, hresult]
  cases result with
  | none => exact matchesSegments_spec valid
  | some matched => exact ⟨matched, rfl, hlike matched rfl⟩

end

end LikePattern
end TinyJoin
