import TinyJoin.Lexemes
import TinyJoin.KeyOrder

/-! Splitting a script agrees with the lexer: where both read the same comments, white space and
dollar signs, a script is cut behind the semicolons outside parentheses, and nowhere else. -/
namespace TinyJoin
namespace SqlScript
open Lexer

/-! ### Characters and their bytes -/

lemma encode_ascii {c : Char} (h : c.toNat < 128) : String.utf8EncodeChar c = [byte c] := by
  have hle : c.val.toNat ≤ 127 := Nat.le_of_lt_succ h
  unfold String.utf8EncodeChar
  rw [if_pos hle]
  rfl

lemma encode_high {c : Char} (h : 128 ≤ c.toNat) :
    ∀ b ∈ String.utf8EncodeChar c, 128 ≤ b.toNat := by
  have hlt : ¬c.val.toNat ≤ 127 := Nat.not_le.mpr h
  unfold String.utf8EncodeChar
  rw [if_neg hlt]
  split_ifs
  all_goals
    simp only [List.forall_mem_cons, List.not_mem_nil, false_imp_iff, implies_true, and_true,
      UInt8.toNat_ofNat']
    omega

lemma byte_toNat {c : Char} (h : c.toNat < 128) : (byte c).toNat = c.toNat := by
  rw [byte, UInt8.toNat_ofNat']
  omega

lemma byte_inj {c d : Char} (hc : c.toNat < 128) (hd : d.toNat < 128) : byte c = byte d ↔ c = d := by
  constructor
  · intro h
    have := congrArg UInt8.toNat h
    rw [byte_toNat hc, byte_toNat hd] at this
    exact Char.toNat_inj.mp this
  · exact congrArg byte

lemma ne_byte {b : UInt8} {d : Char} (hb : 128 ≤ b.toNat) (hd : d.toNat < 128) : b ≠ byte d := by
  rintro rfl
  rw [byte_toNat hd] at hb
  omega

lemma head_utf8 {text : Text} {d : Char} (hd : d.toNat < 128) :
    (utf8 text).head? = some (byte d) ↔ text.head? = some d := by
  cases text with
  | nil => exact ⟨fun h => (nomatch h), fun h => (nomatch h)⟩
  | cons c text =>
    rw [utf8_cons, List.head?_cons, Option.some.injEq]
    rcases Nat.lt_or_ge c.toNat 128 with hc | hc
    · rw [encode_ascii hc, List.singleton_append, List.head?_cons, Option.some.injEq,
        byte_inj hc hd]
    · obtain ⟨b, bs, hbs⟩ := List.exists_cons_of_ne_nil (utf8EncodeChar_ne_nil c)
      have hb : 128 ≤ b.toNat := encode_high hc b (by rw [hbs]; exact List.mem_cons_self)
      rw [hbs, List.cons_append, List.head?_cons, Option.some.injEq]
      constructor
      · exact fun h => absurd h (ne_byte hb hd)
      · rintro rfl
        omega

lemma utf8_cons_ascii {c : Char} (h : c.toNat < 128) (text : Text) :
    utf8 (c :: text) = byte c :: utf8 text := by
  rw [utf8_cons, encode_ascii h, List.singleton_append]

/-! ### Where the lexer and the splitter read the same -/

/-- The white space that the splitter knows. -/
def AsciiWhite (c : Char) : Prop := c ∈ [' ', '\t', '\n', '\x0c', '\r']

instance (c : Char) : Decidable (AsciiWhite c) := by
  unfold AsciiWhite
  infer_instance

/-- The white space before the next comment or token is ASCII white space, and what follows the
first carriage return of the next comment, if that is a line comment, is too. -/
def RoundAgrees (text : Text) : Prop :=
  (∀ c ∈ text.takeWhile isWhitespace, AsciiWhite c) ∧
    (startsWith '-' '-' (text.dropWhile isWhitespace) = true →
      ∀ c ∈ ((text.dropWhile isWhitespace).takeWhile (· != '\n')).dropWhile (· != '\r'),
        AsciiWhite c)

/-- What stands before the next token is white space and comments that both read the same. -/
inductive GapAgrees : Text → Prop where
  | stop {text rest : Text} : skipStep text = .ok (.inl rest) → RoundAgrees text → GapAgrees text
  | round {text next : Text} : skipStep text = .ok (.inr next) → RoundAgrees text →
    GapAgrees next → GapAgrees text

/-- The text of a lexeme. -/
def text (l : Lexeme) : Text := l.start.take (l.start.length - l.rest.length)

/-- A number with the character behind it holds no `--`, and no dollar sign of an unquoted
identifier opens a dollar-quoted body. -/
def LexemeAgrees (l : Lexeme) : Prop :=
  match l.token with
  | .number _ => ¬['-', '-'] <:+: text l ++ l.rest.take 1
  | .identifier _ false => ∀ a b, text l = a ++ '$' :: b → ¬opensDollar '$' (b ++ l.rest)
  | _ => True

/-- The lexer and the splitter read the same in all of a text but its dollar-quoted bodies. -/
def Agree (text : Text) (lexemes : List Lexeme) : Prop :=
  GapAgrees text ∧ ∀ l ∈ lexemes, LexemeAgrees l ∧ GapAgrees l.rest

/-! ### The pieces of a script -/

def nextDepth (depth : Nat) : Token → Nat
  | .lParen => depth + 1
  | .rParen => depth - 1
  | _ => depth

/-- The pieces of a text cut behind the semicolons outside parentheses, without those that hold no
other token. The piece in hand is `start` up to the next lexeme, and `holds` whether it holds one. -/
def pieces (start : Text) (depth : Nat) (holds : Bool) : List Lexeme → List Text
  | [] => if holds then [start] else []
  | l :: more =>
    if l.token = .semicolon ∧ depth = 0 then
      if holds then start.take (start.length - l.rest.length) :: pieces l.rest 0 false more
      else pieces l.rest 0 false more
    else
      pieces start (nextDepth depth l.token) (holds || decide (l.token ≠ .semicolon)) more

/-- The most parentheses that are open at once. -/
def deepest (depth : Nat) : List Lexeme → Nat
  | [] => depth
  | l :: more => max depth (deepest (nextDepth depth l.token) more)

structure WithinLimits (text : Text) (lexemes : List Lexeme) : Prop where
  bytes : (utf8 text).length ≤ maxSqlScriptBytes
  statements : (pieces text 0 false lexemes).length ≤ maxSqlScriptStatements
  nesting : deepest 0 lexemes ≤ maxParenthesisDepth

/-! ### Scanning bytes -/

section Scan
variable {state next : SplitState} {rest : Script} {b : UInt8}

lemma splitStep_eq_scan (hrest : state.rest = b :: rest) (h : state.scan b rest = .ok next) :
    Loop.Round splitStep state next := by
  rw [Loop.Round, splitStep, hrest]
  exact Except.map_eq_ok.mpr ⟨next, h, rfl⟩

lemma rounds_scan (h : (state.passed (b :: rest)).scan b rest = .ok next) :
    Loop.Rounds splitStep (state.passed (b :: rest)) next :=
  .single (splitStep_eq_scan rfl h)

lemma scan_plain (hb : b ∉ [byte '\'', byte '"', byte '(', byte ')', byte ';'])
    (hwhite : isAsciiWhitespace b = false) (hdash : b = byte '-' → rest.head? ≠ some (byte '-'))
    (hslash : b = byte '/' → rest.head? ≠ some (byte '*'))
    (hdollar : b = byte '$' → dollarDelimiter rest = none) :
    state.scan b rest = .ok (state.seen rest) := by
  simp only [List.mem_cons, List.not_mem_nil, or_false, not_or] at hb
  obtain ⟨hstring, hname, hopen, hclose, hend⟩ := hb
  rw [SplitState.scan, if_neg hstring, if_neg hname, if_neg (fun h => hdash h.1 h.2),
    if_neg (fun h => hslash h.1 h.2)]
  by_cases hb : b = byte '$'
  · rw [if_pos hb, hdollar hb]
  · rw [if_neg hb, if_neg hopen, if_neg hclose, if_neg (fun h => hend h.1),
      if_neg (fun h => h.elim (fun h => by rw [hwhite] at h; cases h) hend)]

lemma scan_high (hb : 128 ≤ b.toNat) : state.scan b rest = .ok (state.seen rest) := by
  have hne (d : Char) (hd : d.toNat < 128) : b ≠ byte d := ne_byte hb hd
  refine scan_plain ?_ ?_ (fun h => absurd h (hne '-' (by decide)))
    (fun h => absurd h (hne '/' (by decide))) (fun h => absurd h (hne '$' (by decide)))
  · simp only [List.mem_cons, List.not_mem_nil, or_false, not_or]
    exact ⟨hne _ (by decide), hne _ (by decide), hne _ (by decide), hne _ (by decide),
      hne _ (by decide)⟩
  · rw [Bool.eq_false_iff]
    intro h
    simp only [isAsciiWhitespace, Bool.or_eq_true, beq_iff_eq] at h
    rcases h with (((rfl | rfl) | rfl) | rfl) | rfl
    all_goals exact absurd hb (by decide)

/-- The bytes of a character outside ASCII are part of a statement. -/
lemma rounds_high (state : SplitState) {bytes : Script} (hne : bytes ≠ []) (hbytes : ∀ b ∈ bytes, 128 ≤ b.toNat) :
    Loop.Rounds splitStep (state.passed (bytes ++ rest)) (state.seen rest) := by
  induction bytes generalizing state with
  | nil => exact absurd rfl hne
  | cons b bytes ih =>
    rw [List.forall_mem_cons] at hbytes
    have hround : Loop.Rounds splitStep (state.passed (b :: (bytes ++ rest)))
        (state.seen (bytes ++ rest)) := rounds_scan (scan_high hbytes.1)
    cases bytes with
    | nil => exact hround
    | cons d bytes =>
      exact hround.trans (ih (state.seen rest) (List.cons_ne_nil _ _) hbytes.2)

end Scan

/-! ### Scanning characters -/

section Characters
variable (state : SplitState) {rest : Text} {c : Char}

/-- A character that is part of a statement and starts nothing of its own. -/
structure Plain (c : Char) (rest : Text) : Prop where
  ordinary : c ∉ ['\'', '"', '(', ')', ';']
  notWhite : ¬AsciiWhite c
  dash : c = '-' → rest.head? ≠ some '-'
  slash : c = '/' → rest.head? ≠ some '*'
  dollar : ¬opensDollar c rest

lemma isAsciiWhitespace_byte (hc : c.toNat < 128) :
    isAsciiWhitespace (byte c) = true ↔ AsciiWhite c := by
  simp only [isAsciiWhitespace, Bool.or_eq_true, beq_iff_eq, AsciiWhite, List.mem_cons,
    List.not_mem_nil, or_false, or_assoc]
  exact or_congr (byte_inj hc (d := ' ') (by decide))
    (or_congr (byte_inj hc (d := '\t') (by decide)) (or_congr (byte_inj hc (d := '\n') (by decide))
      (or_congr (byte_inj hc (d := '\x0c') (by decide)) (byte_inj hc (d := '\r') (by decide)))))

lemma rounds_plain (h : Plain c rest) :
    Loop.Rounds splitStep (state.passed (utf8 (c :: rest))) (state.seen (utf8 rest)) := by
  rcases Nat.lt_or_ge c.toNat 128 with hc | hc
  · rw [utf8_cons_ascii hc]
    have hne (d : Char) (hd : d.toNat < 128) (hcd : c ≠ d) : byte c ≠ byte d :=
      fun h => hcd ((byte_inj hc hd).mp h)
    have hord := h.ordinary
    simp only [List.mem_cons, List.not_mem_nil, or_false, not_or] at hord
    refine rounds_scan (scan_plain ?_ ?_ ?_ ?_ ?_)
    · simp only [List.mem_cons, List.not_mem_nil, or_false, not_or]
      exact ⟨hne _ (by decide) hord.1, hne _ (by decide) hord.2.1, hne _ (by decide) hord.2.2.1,
        hne _ (by decide) hord.2.2.2.1, hne _ (by decide) hord.2.2.2.2⟩
    · rw [Bool.eq_false_iff]
      exact fun hwhite => h.notWhite ((isAsciiWhitespace_byte hc).mp hwhite)
    · intro hdash
      rw [Ne, head_utf8 (by decide)]
      exact h.dash ((byte_inj hc (by decide)).mp hdash)
    · intro hslash
      rw [Ne, head_utf8 (by decide)]
      exact h.slash ((byte_inj hc (by decide)).mp hslash)
    · intro hdollar
      rw [← Option.not_isSome_iff_eq_none]
      exact fun hopens => h.dollar ⟨(byte_inj hc (by decide)).mp hdollar, hopens⟩
  · rw [utf8_cons]
    exact rounds_high state (utf8EncodeChar_ne_nil c) (encode_high hc)

/-- A word whose every character is plain where it stands. -/
lemma rounds_word {word : Text} (hne : word ≠ [])
    (h : ∀ a c b, word = a ++ c :: b → Plain c (b ++ rest)) :
    Loop.Rounds splitStep (state.passed (utf8 (word ++ rest))) (state.seen (utf8 rest)) := by
  induction word generalizing state with
  | nil => exact absurd rfl hne
  | cons c word ih =>
    have hround : Loop.Rounds splitStep (state.passed (utf8 (c :: (word ++ rest))))
        (state.seen (utf8 (word ++ rest))) := rounds_plain state (h [] c word rfl)
    cases word with
    | nil => exact hround
    | cons d word =>
      refine hround.trans (ih (state.seen []) (List.cons_ne_nil _ _) ?_)
      intro a c' b hword
      exact h (c :: a) c' b (by rw [hword]; rfl)

lemma rounds_word_cons {word : Text} (hc : Plain c (word ++ rest))
    (h : ∀ a d b, word = a ++ d :: b → Plain d (b ++ rest)) :
    Loop.Rounds splitStep (state.passed (utf8 (c :: (word ++ rest)))) (state.seen (utf8 rest)) := by
  have hplain : ∀ a d b, c :: word = a ++ d :: b → Plain d (b ++ rest) := by
    intro a d b hword
    cases a with
    | nil =>
      obtain ⟨rfl, rfl⟩ := List.cons.inj hword
      exact hc
    | cons e a => exact h a d b (List.cons.inj hword).2
  exact rounds_word state (List.cons_ne_nil _ _) hplain

lemma rounds_white {white : Text} (h : ∀ c ∈ white, AsciiWhite c) :
    Loop.Rounds splitStep (state.passed (utf8 (white ++ rest))) (state.passed (utf8 rest)) := by
  induction white with
  | nil => exact .refl
  | cons c white ih =>
    rw [List.forall_mem_cons] at h
    have hc : c.toNat < 128 := by
      have := h.1
      simp only [AsciiWhite, List.mem_cons, List.not_mem_nil, or_false] at this
      rcases this with rfl | rfl | rfl | rfl | rfl
      all_goals decide
    have hscan (rest : Script) : (state.passed (byte c :: rest)).scan (byte c) rest =
        .ok (state.passed rest) := by
      have := h.1
      simp only [AsciiWhite, List.mem_cons, List.not_mem_nil, or_false] at this
      rcases this with rfl | rfl | rfl | rfl | rfl
      all_goals rfl
    rw [List.cons_append, utf8_cons_ascii hc]
    exact (rounds_scan (hscan _)).trans (ih h.2)

end Characters

/-! ### Quoted parts and comments -/

lemma skip_high {α : Type} {f : Script → α} (hf : ∀ b r, 128 ≤ b.toNat → f (b :: r) = f r)
    {bytes rest : Script} (hbytes : ∀ b ∈ bytes, 128 ≤ b.toNat) : f (bytes ++ rest) = f rest := by
  induction bytes with
  | nil => rfl
  | cons b bytes ih =>
    rw [List.forall_mem_cons] at hbytes
    rw [List.cons_append, hf b _ hbytes.1, ih hbytes.2]

section Regions
variable {quote : UInt8} {description : String} {depth : Nat} {b : UInt8} {rest : Script}

lemma scanQuoted_other (hb : b ≠ quote) :
    scanQuoted quote description (b :: rest) = scanQuoted quote description rest := by
  cases rest with
  | nil => simp only [scanQuoted, if_neg hb]
  | cons d rest => rw [scanQuoted, if_neg hb]

lemma scanQuoted_doubled :
    scanQuoted quote description (quote :: quote :: rest) = scanQuoted quote description rest := by
  rw [scanQuoted, if_pos rfl, if_pos rfl]

lemma scanQuoted_end (h : rest.head? ≠ some quote) :
    scanQuoted quote description (quote :: rest) = .ok rest := by
  cases rest with
  | nil => rw [scanQuoted, if_pos rfl]
  | cons d rest =>
    have hd : d ≠ quote := fun hd => h (congrArg some hd)
    rw [scanQuoted, if_pos rfl, if_neg hd]

lemma scanBlockComment_other (hopen : ¬(b = byte '/' ∧ rest.head? = some (byte '*')))
    (hclose : ¬(b = byte '*' ∧ rest.head? = some (byte '/'))) :
    scanBlockComment (depth + 1) (b :: rest) = scanBlockComment (depth + 1) rest := by
  cases rest with
  | nil => simp only [scanBlockComment]
  | cons d rest =>
    rw [List.head?_cons, Option.some.injEq] at hopen hclose
    rw [scanBlockComment, if_neg hopen, if_neg hclose]

lemma scanBlockComment_high (hb : 128 ≤ b.toNat) :
    scanBlockComment (depth + 1) (b :: rest) = scanBlockComment (depth + 1) rest :=
  scanBlockComment_other (fun h => ne_byte hb (by decide) h.1) (fun h => ne_byte hb (by decide) h.1)

end Regions

/-- The splitter finds the end of a quoted part where the lexer does. -/
lemma scanQuoted_utf8 {quote : Char} (hquote : quote.toNat < 128) {description description' : String}
    {text value rest : Text} (h : quoted quote description text = .ok (value, rest)) :
    scanQuoted (byte quote) description' (utf8 text) = .ok (utf8 rest) := by
  have hskip {c : Char} {text : Text} (hc : c ≠ quote) :
      scanQuoted (byte quote) description' (utf8 (c :: text)) =
        scanQuoted (byte quote) description' (utf8 text) := by
    rcases Nat.lt_or_ge c.toNat 128 with hlow | hhigh
    · rw [utf8_cons_ascii hlow]
      exact scanQuoted_other (fun h => hc ((byte_inj hlow hquote).mp h))
    · rw [utf8_cons]
      exact skip_high (fun b r hb => scanQuoted_other (ne_byte hb hquote)) (encode_high hhigh)
  fun_induction quoted quote description text generalizing value with
  | case1 => cases h
  | case2 =>
    obtain ⟨-, rfl⟩ := Prod.mk.inj (Except.ok.inj h)
    rw [utf8_cons_ascii hquote]
    exact scanQuoted_end (Option.some_ne_none _).symm
  | case3 => cases h
  | case4 text ih =>
    obtain ⟨⟨value', after⟩, hrest, h⟩ := Except.bind_eq_ok.mp h
    obtain ⟨-, rfl⟩ := Prod.mk.inj (Except.ok.inj h)
    rw [utf8_cons_ascii hquote, utf8_cons_ascii hquote, scanQuoted_doubled]
    exact ih hrest
  | case5 d text hd =>
    obtain ⟨-, rfl⟩ := Prod.mk.inj (Except.ok.inj h)
    rw [utf8_cons_ascii hquote]
    exact scanQuoted_end (fun h => hd (Option.some.inj ((head_utf8 hquote).mp h)))
  | case6 c d text hc ih =>
    obtain ⟨⟨value', after⟩, hrest, h⟩ := Except.bind_eq_ok.mp h
    obtain ⟨-, rfl⟩ := Prod.mk.inj (Except.ok.inj h)
    rw [hskip hc]
    exact ih hrest

/-- The splitter finds the end of a block comment where the lexer does. -/
lemma scanBlockComment_utf8 {depth : Nat} {text rest : Text} (h : skipBlock depth text = .ok rest) :
    scanBlockComment depth (utf8 text) = .ok (utf8 rest) := by
  fun_induction skipBlock depth text with
  | case1 text =>
    obtain rfl := Except.ok.inj h
    rw [scanBlockComment]
  | case2 => cases h
  | case3 depth c ih => cases h
  | case4 => cases h
  | case5 depth c d text hopen hdepth ih =>
    obtain ⟨rfl, rfl⟩ := hopen
    have hdepth' : ¬maxCommentDepth < depth + 2 := hdepth
    rw [utf8_cons_ascii (by decide), utf8_cons_ascii (by decide), scanBlockComment,
      if_pos ⟨rfl, rfl⟩, if_neg hdepth']
    exact ih h
  | case6 depth c d text hopen hclose ih =>
    obtain ⟨rfl, rfl⟩ := hclose
    rw [utf8_cons_ascii (by decide), utf8_cons_ascii (by decide), scanBlockComment,
      if_neg (by decide), if_pos ⟨rfl, rfl⟩]
    exact ih h
  | case7 depth c d text hopen hclose ih =>
    rw [← ih h]
    rcases Nat.lt_or_ge c.toNat 128 with hlow | hhigh
    · have hpair {a e : Char} (ha : a.toNat < 128) (he : e.toNat < 128) (hne : ¬(c = a ∧ d = e)) :
          ¬(byte c = byte a ∧ (utf8 (d :: text)).head? = some (byte e)) := by
        rintro ⟨hca, hde⟩
        exact hne ⟨(byte_inj hlow ha).mp hca, Option.some.inj ((head_utf8 he).mp hde)⟩
      rw [utf8_cons_ascii hlow]
      exact scanBlockComment_other (hpair (by decide) (by decide) hopen)
        (hpair (by decide) (by decide) hclose)
    · rw [utf8_cons]
      exact skip_high (fun b r hb => scanBlockComment_high hb) (encode_high hhigh)

/-- The splitter ends a line comment at its first line break of either kind. -/
lemma scanLineComment_utf8 {body rest : Text} (hbody : ∀ c ∈ body, c ≠ '\n' ∧ c ≠ '\r')
    (hrest : ∀ c ∈ rest.head?, c = '\n' ∨ c = '\r') :
    scanLineComment (utf8 (body ++ rest)) = utf8 rest := by
  induction body with
  | nil =>
    cases rest with
    | nil => rfl
    | cons c rest =>
      rcases hrest c rfl with rfl | rfl
      · rw [List.nil_append, utf8_cons_ascii (by decide)]
        rfl
      · rw [List.nil_append, utf8_cons_ascii (by decide)]
        rfl
  | cons c body ih =>
    rw [List.forall_mem_cons] at hbody
    rw [← ih hbody.2, List.cons_append]
    rcases Nat.lt_or_ge c.toNat 128 with hlow | hhigh
    · have hline : byte c ≠ byte '\n' := fun h => hbody.1.1 ((byte_inj hlow (by decide)).mp h)
      have hreturn : byte c ≠ byte '\r' := fun h => hbody.1.2 ((byte_inj hlow (by decide)).mp h)
      rw [utf8_cons_ascii hlow, scanLineComment, List.dropWhile_cons_of_pos]
      · rfl
      · rw [Bool.and_eq_true, bne_iff_ne, bne_iff_ne]
        exact ⟨hline, hreturn⟩
    · rw [utf8_cons]
      refine skip_high (fun b r hb => ?_) (encode_high hhigh)
      rw [scanLineComment, List.dropWhile_cons_of_pos]
      · rfl
      · rw [Bool.and_eq_true, bne_iff_ne, bne_iff_ne]
        exact ⟨ne_byte hb (by decide), ne_byte hb (by decide)⟩

/-! ### What stands before a token -/

section Gaps
variable (state : SplitState) {text next rest : Text}

lemma rounds_white_text (h : RoundAgrees text) :
    Loop.Rounds splitStep (state.passed (utf8 text))
      (state.passed (utf8 (text.dropWhile isWhitespace))) := by
  have happ := List.takeWhile_append_dropWhile (p := isWhitespace) (l := text)
  conv_lhs => rw [← happ]
  exact rounds_white state h.1

lemma rounds_comment (h : skipStep text = .ok (.inr next)) (hagrees : RoundAgrees text) :
    Loop.Rounds splitStep (state.passed (utf8 text)) (state.passed (utf8 next)) := by
  refine (rounds_white_text state hagrees).trans ?_
  rcases skipStep_cases h with ⟨line, hline, hnext⟩ | ⟨block, after, hblock, hafter, hnext⟩ |
      ⟨_, _, hnext⟩
  · obtain rfl := Sum.inr.inj hnext
    rw [hline, utf8_cons_ascii (by decide), utf8_cons_ascii (by decide)]
    have hcomment : ∀ c ∈ (line.takeWhile (· != '\n')).dropWhile (· != '\r'), AsciiWhite c := by
      have := hagrees.2 (by rw [hline]; rfl)
      rw [hline] at this
      exact this
    have hsplit : line = (line.takeWhile (· != '\n')).takeWhile (· != '\r') ++
        ((line.takeWhile (· != '\n')).dropWhile (· != '\r') ++ line.dropWhile (· != '\n')) := by
      rw [← List.append_assoc, List.takeWhile_append_dropWhile, List.takeWhile_append_dropWhile]
    have hscan : scanLineComment (utf8 line) =
        utf8 ((line.takeWhile (· != '\n')).dropWhile (· != '\r') ++ line.dropWhile (· != '\n')) := by
      conv_lhs => rw [hsplit]
      refine scanLineComment_utf8 ?_ ?_
      · intro c hc
        have hreturn := List.all_eq_true.mp (List.all_takeWhile (l := line.takeWhile (· != '\n'))) c hc
        have hline := List.all_eq_true.mp (List.all_takeWhile (l := line)) c
          ((List.takeWhile_prefix _).subset hc)
        exact ⟨bne_iff_ne.mp hline, bne_iff_ne.mp hreturn⟩
      · intro c hc
        cases hwhite : (line.takeWhile (· != '\n')).dropWhile (· != '\r') with
        | nil =>
          rw [hwhite, List.nil_append] at hc
          have := head_dropWhile _ _ c hc
          exact .inl (by simpa using this)
        | cons d white =>
          rw [hwhite] at hc
          obtain rfl : d = c := Option.some.inj hc
          have := head_dropWhile (· != '\r') (line.takeWhile (· != '\n')) d (by rw [hwhite]; rfl)
          exact .inr (by simpa using this)
    have hround : Loop.Rounds splitStep (state.passed (byte '-' :: byte '-' :: utf8 line))
        (state.passed (scanLineComment (utf8 line))) := .single (splitStep_eq_scan rfl rfl)
    rw [hscan] at hround
    exact hround.trans (rounds_white state hcomment)
  · obtain rfl := Sum.inr.inj hnext
    rw [hblock, utf8_cons_ascii (by decide), utf8_cons_ascii (by decide)]
    refine .single (splitStep_eq_scan rfl ?_)
    exact Except.map_eq_ok.mpr ⟨utf8 next, scanBlockComment_utf8 hafter, rfl⟩
  · cases hnext

lemma rounds_gap (hagrees : GapAgrees text) (h : skipIgnored text = .ok rest) :
    Loop.Rounds splitStep (state.passed (utf8 text)) (state.passed (utf8 rest)) := by
  induction hagrees with
  | stop hstop hround =>
    rw [skipIgnored_of_stop hstop] at h
    obtain rfl := Except.ok.inj h
    rcases skipStep_cases hstop with ⟨_, _, hnext⟩ | ⟨_, _, _, _, hnext⟩ | ⟨_, _, hnext⟩
    · cases hnext
    · cases hnext
    · rw [Sum.inl.inj hnext]
      exact rounds_white_text state hround
  | round hnext hround _ ih =>
    rw [skipIgnored_of_round hnext] at h
    exact (rounds_comment state hnext hround).trans (ih h)

end Gaps

/-! ### Tokens -/

/-- Where skipping ends there is neither white space nor a comment. -/
structure Stops (text : Text) : Prop where
  notWhite : ∀ c ∈ text.head?, isWhitespace c = false
  noLine : startsWith '-' '-' text = false
  noBlock : startsWith '/' '*' text = false

lemma stops_of_skipIgnored {text rest : Text} (h : skipIgnored text = .ok rest) : Stops rest := by
  refine Loop.run_induction (P := fun _ => Stops rest) ?_ (fun _ _ _ _ hstops => hstops) h
  intro text hstop
  rcases skipStep_cases hstop with ⟨_, _, hnext⟩ | ⟨_, _, _, _, hnext⟩ | ⟨hline, hblock, hnext⟩
  · cases hnext
  · cases hnext
  · obtain rfl := Sum.inl.inj hnext
    exact ⟨head_dropWhile _ _, hline, hblock⟩

lemma Stops.dash {c : Char} {rest : Text} (h : Stops (c :: rest)) (hc : c = '-') :
    rest.head? ≠ some '-' := by
  obtain rfl := hc
  intro hd
  obtain ⟨d, rest, rfl⟩ := List.exists_cons_of_ne_nil (List.ne_nil_of_mem (List.mem_of_mem_head? hd))
  obtain rfl : d = '-' := Option.some.inj hd
  exact absurd (startsWith_eq_true.mpr ⟨rest, rfl⟩) (Bool.eq_false_iff.mp h.noLine)

lemma Stops.slash {c : Char} {rest : Text} (h : Stops (c :: rest)) (hc : c = '/') :
    rest.head? ≠ some '*' := by
  obtain rfl := hc
  intro hd
  obtain ⟨d, rest, rfl⟩ := List.exists_cons_of_ne_nil (List.ne_nil_of_mem (List.mem_of_mem_head? hd))
  obtain rfl : d = '*' := Option.some.inj hd
  exact absurd (startsWith_eq_true.mpr ⟨rest, rfl⟩) (Bool.eq_false_iff.mp h.noBlock)

lemma isWhitespace_of_ascii {c : Char} (h : AsciiWhite c) : isWhitespace c = true := by
  simp only [AsciiWhite, List.mem_cons, List.not_mem_nil, or_false] at h
  rcases h with rfl | rfl | rfl | rfl | rfl
  all_goals decide

/-- The characters of words that start nothing of their own wherever they stand. -/
def isOrdinary (c : Char) : Bool :=
  c.isAlphanum || 128 ≤ c.toNat || c ∈ ['_', '.', '+', '*', ',', '%', '|', '=', '!', '<', '>', ':']

lemma plain_of_ordinary {c : Char} {rest : Text} (h : isOrdinary c = true) : Plain c rest := by
  have hne (d : Char) (hd : isOrdinary d = false) : c ≠ d := by
    rintro rfl
    rw [hd] at h
    cases h
  refine ⟨?_, ?_, fun hc => absurd hc (hne _ (by decide)), fun hc => absurd hc (hne _ (by decide)),
    fun hc => absurd hc.1 (hne _ (by decide))⟩
  · simp only [List.mem_cons, List.not_mem_nil, or_false, not_or]
    exact ⟨hne _ (by decide), hne _ (by decide), hne _ (by decide), hne _ (by decide),
      hne _ (by decide)⟩
  · simp only [AsciiWhite, List.mem_cons, List.not_mem_nil, or_false, not_or]
    exact ⟨hne _ (by decide), hne _ (by decide), hne _ (by decide), hne _ (by decide),
      hne _ (by decide)⟩

lemma plain_of_dash {rest : Text} (h : rest.head? ≠ some '-') : Plain '-' rest :=
  ⟨by decide, by decide, fun _ => h, fun hc => absurd hc (by decide),
    fun hc => absurd hc.1 (by decide)⟩

lemma plain_of_dollar {rest : Text} (h : ¬opensDollar '$' rest) : Plain '$' rest :=
  ⟨by decide, by decide, fun hc => absurd hc (by decide), fun hc => absurd hc (by decide), h⟩

lemma ordinary_of_digit {c : Char} (h : c.isDigit = true) : isOrdinary c = true := by
  rw [isOrdinary, Char.isAlphanum, h, Bool.or_true]
  rfl

lemma ordinary_of_start {c : Char} (h : isIdentifierStart c = true) : isOrdinary c = true := by
  rw [isIdentifierStart, Bool.or_eq_true, Bool.or_eq_true, beq_iff_eq] at h
  rw [isOrdinary, Bool.or_eq_true, Bool.or_eq_true, Char.isAlphanum, Bool.or_eq_true]
  rcases h with (rfl | h) | h
  · exact .inr (by decide)
  · exact .inl (.inl (.inl h))
  · exact .inl (.inr h)

lemma ordinary_of_continue {c : Char} (h : isIdentifierContinue c = true) :
    isOrdinary c = true ∨ c = '$' := by
  rw [isIdentifierContinue, Bool.or_eq_true, Bool.or_eq_true, beq_iff_eq] at h
  rcases h with (h | h) | h
  · exact .inl (ordinary_of_start h)
  · exact .inl (ordinary_of_digit h)
  · exact .inr h

/-- A scanner that takes characters of one kind only. -/
def Takes (p : Char → Prop) (scan : Text → Text) : Prop :=
  ∀ text, ∃ word, text = word ++ scan text ∧ ∀ c ∈ word, p c

lemma takes_dropWhile {p : Char → Bool} {q : Char → Prop} (h : ∀ c, p c = true → q c) :
    Takes q (List.dropWhile p) := by
  intro text
  refine ⟨text.takeWhile p, List.takeWhile_append_dropWhile.symm, fun c hc => h c ?_⟩
  exact List.all_eq_true.mp (List.all_takeWhile (l := text)) c hc

lemma Takes.comp {p : Char → Prop} {first second : Text → Text} (hfirst : Takes p first)
    (hsecond : Takes p second) : Takes p (fun text => second (first text)) := by
  intro text
  obtain ⟨a, ha, hpa⟩ := hfirst text
  obtain ⟨b, hb, hpb⟩ := hsecond (first text)
  refine ⟨a ++ b, by rw [List.append_assoc, ← hb, ← ha], fun c hc => ?_⟩
  exact (List.mem_append.mp hc).elim (hpa c) (hpb c)

lemma takes_part {p q : Char → Prop} [DecidablePred p] {scan part : Text → Text} (hscan : Takes q scan)
    (hnil : part [] = []) (hpart : ∀ c rest, part (c :: rest) = if p c then scan rest else c :: rest)
    (hp : ∀ c, p c → q c) : Takes q part := by
  intro text
  cases text with
  | nil => exact ⟨[], by rw [hnil]; rfl, fun _ h => (nomatch h)⟩
  | cons c rest =>
    rw [hpart]
    split_ifs with hc
    · obtain ⟨word, hword, hq⟩ := hscan rest
      refine ⟨c :: word, by rw [List.cons_append, ← hword], ?_⟩
      exact List.forall_mem_cons.mpr ⟨hp c hc, hq⟩
    · exact ⟨[], rfl, fun _ h => (nomatch h)⟩

lemma takes_numberEnd : Takes (fun c => isOrdinary c = true ∨ c = '-') numberEnd := by
  have hdigits : Takes (fun c => isOrdinary c = true ∨ c = '-') (List.dropWhile Char.isDigit) :=
    takes_dropWhile (fun c hc => .inl (ordinary_of_digit hc))
  have hid : Takes (fun c => isOrdinary c = true ∨ c = '-') id :=
    fun text => ⟨[], rfl, fun _ h => (nomatch h)⟩
  have hsign : Takes (fun c => isOrdinary c = true ∨ c = '-') (skipChar (· == '-')) :=
    takes_part (p := fun c => (c == '-') = true) hid rfl (fun _ _ => rfl)
      (fun c hc => .inr (beq_iff_eq.mp hc))
  have hexponentSign :
      Takes (fun c => isOrdinary c = true ∨ c = '-') (skipChar (fun s => s == '+' || s == '-')) := by
    refine takes_part (p := fun s => (s == '+' || s == '-') = true) hid rfl (fun _ _ => rfl) ?_
    intro c hc
    rw [Bool.or_eq_true, beq_iff_eq, beq_iff_eq] at hc
    rcases hc with rfl | rfl
    · exact .inl (by decide)
    · exact .inr rfl
  have hfraction : Takes (fun c => isOrdinary c = true ∨ c = '-') skipFraction :=
    takes_part hdigits rfl (fun _ _ => rfl) (by rintro c rfl; exact .inl (by decide))
  have hexponent : Takes (fun c => isOrdinary c = true ∨ c = '-') skipExponent :=
    takes_part (hexponentSign.comp hdigits) rfl (fun _ _ => rfl)
      (by rintro c (rfl | rfl) <;> exact .inl (by decide))
  exact ((hsign.comp hdigits).comp hfraction).comp hexponent

lemma text_append {a rest : Text} {t : Token} : text ⟨a ++ rest, t, rest⟩ = a := by
  rw [text, List.length_append, Nat.add_sub_cancel, List.take_left]

/-- A token outside ASCII punctuation and quotes is a word of plain characters. -/
lemma rounds_token (state : SplitState) {c : Char} {rest after : Text} {t : Token}
    (hstops : Stops (c :: rest)) (hdollar : ¬opensDollar c rest)
    (htoken : token c rest = .ok (t, after)) (hagrees : LexemeAgrees ⟨c :: rest, t, after⟩)
    (ht : t ≠ .lParen ∧ t ≠ .rParen ∧ t ≠ .semicolon) :
    Loop.Rounds splitStep (state.passed (utf8 (c :: rest))) (state.seen (utf8 after)) := by
  have hnotWhite : ¬AsciiWhite c := by
    intro hwhite
    have := hstops.notWhite c rfl
    rw [isWhitespace_of_ascii hwhite] at this
    cases this
  have hquoted {quote : Char} {description description' : String} {value : Text}
      (hquote : quote.toNat < 128) (h : quoted quote description rest = .ok (value, after))
      (hscan : ∀ r, (state.passed (byte quote :: r)).scan (byte quote) r =
        state.seen <$> scanQuoted (byte quote) description' r) :
      Loop.Rounds splitStep (state.passed (utf8 (quote :: rest))) (state.seen (utf8 after)) := by
    rw [utf8_cons_ascii hquote]
    refine rounds_scan ((hscan _).trans ?_)
    exact Except.map_eq_ok.mpr ⟨utf8 after, scanQuoted_utf8 hquote h, rfl⟩
  rw [token] at htoken
  split at htoken
  · next t' both hsymbol =>
    obtain ⟨rfl, hafter⟩ := Prod.mk.inj (Except.ok.inj htoken)
    rcases symbol_cases hsymbol with ⟨-, ⟨-, h⟩ | ⟨-, h⟩ | ⟨-, h⟩⟩ | ⟨hc, -, -, -, hboth⟩
    · exact absurd h ht.1
    · exact absurd h ht.2.1
    · exact absurd h ht.2.2
    · have hplain : Plain c rest := by
        refine ⟨?_, hnotWhite, hstops.dash, hstops.slash, hdollar⟩
        simp only [symbolChars, List.mem_cons, List.not_mem_nil, or_false] at hc
        rcases hc with rfl | rfl | rfl | rfl | rfl | rfl | rfl | rfl | rfl | rfl | rfl | rfl
        all_goals decide
      cases both with
      | false =>
        obtain rfl : rest = after := hafter
        exact rounds_plain state hplain
      | true =>
        obtain ⟨d, hd, hnext⟩ := hboth rfl
        obtain ⟨d', rest, rfl⟩ :=
          List.exists_cons_of_ne_nil (List.ne_nil_of_mem (List.mem_of_mem_head? hnext))
        obtain rfl : d' = d := Option.some.inj hnext
        obtain rfl : rest = after := hafter
        refine (rounds_plain state hplain).trans (rounds_plain (state.seen []) ?_)
        simp only [List.mem_cons, List.not_mem_nil, or_false] at hd
        rcases hd with rfl | rfl | rfl | rfl
        all_goals exact plain_of_ordinary (by decide)
  · next hsymbol =>
    split_ifs at htoken with hname hstring hplace hnumber hminus hident
    · obtain ⟨⟨value, after'⟩, hvalue, h⟩ := Except.bind_eq_ok.mp htoken
      obtain ⟨-, rfl⟩ := Prod.mk.inj (Except.ok.inj h)
      obtain rfl := hname
      exact hquoted (by decide) hvalue (fun _ => rfl)
    · obtain ⟨⟨value, after'⟩, hvalue, h⟩ := Except.bind_eq_ok.mp htoken
      obtain ⟨-, rfl⟩ := Prod.mk.inj (Except.ok.inj h)
      obtain rfl := hstring
      exact hquoted (by decide) hvalue (fun _ => rfl)
    · obtain ⟨-, rfl⟩ := Prod.mk.inj (Except.ok.inj htoken)
      obtain rfl := hplace.1
      obtain ⟨word, hword, hdigits⟩ := takes_dropWhile (p := Char.isDigit) (fun _ => id) rest
      rw [hword] at hdollar
      conv_lhs => rw [hword]
      refine rounds_word_cons state (plain_of_dollar hdollar) ?_
      rintro a d b rfl
      exact plain_of_ordinary (ordinary_of_digit (hdigits d (by simp)))
    · obtain ⟨rfl, hafter⟩ := Prod.mk.inj (Except.ok.inj htoken)
      obtain ⟨word, hword, hchars⟩ := takes_numberEnd (c :: rest)
      rw [hafter] at hword
      rw [hword] at hagrees ⊢
      have hne : word ≠ [] := by
        rintro rfl
        have hend : numberEnd (c :: rest) <:+ rest := numberEnd_suffix (hnumber.imp_right And.left)
        have := hend.length_le
        rw [hafter, ← List.nil_append after, ← hword, List.length_cons] at this
        omega
      refine rounds_word state hne ?_
      rintro a d b rfl
      rcases hchars d (by simp) with hd | rfl
      · exact plain_of_ordinary hd
      · refine plain_of_dash (fun hd => hagrees ?_)
        rw [text_append]
        cases b with
        | nil =>
          obtain ⟨e, after, rfl⟩ :=
            List.exists_cons_of_ne_nil (List.ne_nil_of_mem (List.mem_of_mem_head? hd))
          obtain rfl : e = '-' := Option.some.inj hd
          exact ⟨a, [], by simp⟩
        | cons e b =>
          obtain rfl : e = '-' := Option.some.inj hd
          exact ⟨a, b ++ after.take 1, by simp⟩
    · obtain ⟨-, rfl⟩ := Prod.mk.inj (Except.ok.inj htoken)
      obtain rfl := hminus
      exact rounds_plain state (plain_of_dash (hstops.dash rfl))
    · obtain ⟨rfl, hafter⟩ := Prod.mk.inj (Except.ok.inj htoken)
      obtain ⟨word, hword, hchars⟩ := takes_dropWhile (p := isIdentifierContinue) (fun _ => id) rest
      rw [hafter] at hword
      subst hword
      have hword : ∀ a b, c :: word = a ++ '$' :: b → ¬opensDollar '$' (b ++ after) := by
        have : LexemeAgrees ⟨(c :: word) ++ after, _, after⟩ := hagrees
        rw [LexemeAgrees, text_append] at this
        exact this
      refine rounds_word_cons state (plain_of_ordinary (ordinary_of_start hident)) ?_
      rintro a d b rfl
      rcases ordinary_of_continue (hchars d (by simp)) with hd | rfl
      · exact plain_of_ordinary hd
      · exact plain_of_dollar (hword (c :: a) b rfl)
    · obtain ⟨-, rfl⟩ := Prod.mk.inj (Except.ok.inj htoken)
      refine rounds_plain state ⟨?_, hnotWhite, hstops.dash, hstops.slash, hdollar⟩
      simp only [List.mem_cons, List.not_mem_nil, or_false, not_or]
      refine ⟨hstring, hname, ?_, ?_, ?_⟩
      all_goals
        rintro rfl
        cases hsymbol

/-! ### The statements of a script are its pieces -/

lemma rounds_body (state : SplitState) {rest after : Text} {delimiter body : Script}
    (hopens : dollarDelimiter (utf8 rest) = some (delimiter, body))
    (hscan : scanDollarQuote delimiter body = .ok (utf8 after)) :
    Loop.Rounds splitStep (state.passed (utf8 ('$' :: rest))) (state.seen (utf8 after)) := by
  rw [utf8_cons_ascii (by decide)]
  refine rounds_scan ?_
  have hscan' : (state.passed (byte '$' :: utf8 rest)).scan (byte '$') (utf8 rest) =
      state.seen <$> scanDollarQuote delimiter body := by
    have hdash : byte '$' ≠ byte '-' := by decide
    have hslash : byte '$' ≠ byte '/' := by decide
    rw [SplitState.scan, if_neg (by decide), if_neg (by decide), if_neg fun h => hdash h.1,
      if_neg fun h => hslash h.1, if_pos rfl, hopens]
    rfl
  rw [hscan']
  exact Except.map_eq_ok.mpr ⟨_, hscan, rfl⟩

/-- What the splitter holds between two lexemes. -/
def stateAt (statements : List Text) (start rest : Text) (depth : Nat) (holds : Bool) : SplitState :=
  ⟨statements.map utf8, utf8 start, utf8 rest, depth, holds⟩

lemma deepest_ge (depth : Nat) (lexemes : List Lexeme) : depth ≤ deepest depth lexemes := by
  cases lexemes with
  | nil => exact Nat.le_refl _
  | cons l more => exact Nat.le_max_left _ _

lemma length_utf8_append (a b : Text) : (utf8 (a ++ b)).length = (utf8 a).length + (utf8 b).length := by
  rw [utf8_append, List.length_append]

/-- Bytes up to a suffix are those of the text up to it. -/
lemma take_utf8 {start rest : Text} (h : rest <:+ start) :
    (utf8 start).take ((utf8 start).length - (utf8 rest).length) =
      utf8 (start.take (start.length - rest.length)) := by
  obtain ⟨a, rfl⟩ := h
  rw [length_utf8_append, Nat.add_sub_cancel, utf8_append, List.take_left, List.length_append,
    Nat.add_sub_cancel, List.take_left]

/-- From between two lexemes on, the splitter makes the pieces of the text. -/
lemma run_pieces {statements : List Text} {start text : Text} {depth : Nat} {holds : Bool}
    {lexemes : List Lexeme} (h : Lexes true text lexemes) (hagree : Agree text lexemes)
    (hstart : text <:+ start)
    (hcount : statements.length + (pieces start depth holds lexemes).length ≤
      maxSqlScriptStatements)
    (hnest : deepest depth lexemes ≤ maxParenthesisDepth) (hholds : depth ≠ 0 → holds = true) :
    Loop.run (fun state => state.rest.length) splitStep splitStep_shrinks
        (stateAt statements start text depth holds) =
      .ok ((statements ++ pieces start depth holds lexemes).map utf8) := by
  induction h generalizing statements start depth holds with
  | @done text hskip =>
    have hgap : Loop.Rounds splitStep (stateAt statements start text depth holds)
        (stateAt statements start [] depth holds) :=
      rounds_gap (stateAt statements start text depth holds) hagree.1 hskip
    rw [Loop.run_of_rounds hgap]
    refine Loop.run_of_stop ?_
    cases holds with
    | false =>
      rw [pieces, if_neg Bool.false_ne_true, List.append_nil]
      rfl
    | true =>
      rw [pieces, if_pos rfl] at hcount ⊢
      have hlt : ¬statements.length = maxSqlScriptStatements := by
        rw [List.length_singleton] at hcount
        omega
      have hpush : pushStatement (statements.map utf8) (utf8 start) =
          .ok ((statements ++ [start]).map utf8) := by
        rw [pushStatement, List.length_map, if_neg hlt, List.map_append]
        rfl
      exact Except.map_eq_ok.mpr ⟨_, hpush, rfl⟩
  | @token text rest after c t more hskip hdollar htoken hmore ih =>
    have hgap : Loop.Rounds splitStep (stateAt statements start text depth holds)
        (stateAt statements start (c :: rest) depth holds) :=
      rounds_gap (stateAt statements start text depth holds) hagree.1 hskip
    have hagrees := hagree.2 _ List.mem_cons_self
    have hagree' : Agree after more :=
      ⟨hagrees.2, fun l hl => hagree.2 l (List.mem_cons_of_mem _ hl)⟩
    have hsuffix : after <:+ start :=
      (((token_suffix htoken).trans (List.suffix_cons _ _)).trans (skipIgnored_suffix hskip)).trans
        hstart
    have hone {next : SplitState} (hc : c.toNat < 128)
        (h : (stateAt statements start (c :: rest) depth holds).scan (byte c) (utf8 rest) = .ok next) :
        Loop.Rounds splitStep (stateAt statements start (c :: rest) depth holds) next :=
      .single (splitStep_eq_scan (utf8_cons_ascii hc rest) h)
    rw [Loop.run_of_rounds hgap]
    by_cases hsingle : t = .lParen ∨ t = .rParen ∨ t = .semicolon
    · obtain ⟨rfl, ⟨rfl, rfl⟩ | ⟨rfl, rfl⟩ | ⟨rfl, rfl⟩⟩ := token_single htoken hsingle
      · have hpieces : pieces start depth holds (⟨'(' :: after, .lParen, after⟩ :: more) =
            pieces start (depth + 1) true more := by
          rw [pieces, if_neg (fun h => by cases h.1)]
          simp [nextDepth]
        have hdeep : ¬maxParenthesisDepth < depth + 1 := by
          have := (deepest_ge (depth + 1) more).trans ((Nat.le_max_right _ _).trans hnest)
          omega
        have hscan : (stateAt statements start ('(' :: after) depth holds).scan (byte '(')
            (utf8 after) = .ok (stateAt statements start after (depth + 1) true) := if_neg hdeep
        rw [hpieces] at hcount ⊢
        rw [Loop.run_of_rounds (hone (by decide) hscan)]
        exact ih hagree' hsuffix hcount ((Nat.le_max_right _ _).trans hnest) (fun _ => rfl)
      · have hpieces : pieces start depth holds (⟨')' :: after, .rParen, after⟩ :: more) =
            pieces start (depth - 1) true more := by
          rw [pieces, if_neg (fun h => by cases h.1)]
          simp [nextDepth]
        have hscan : (stateAt statements start (')' :: after) depth holds).scan (byte ')')
            (utf8 after) = .ok (stateAt statements start after (depth - 1) true) := rfl
        rw [hpieces] at hcount ⊢
        rw [Loop.run_of_rounds (hone (by decide) hscan)]
        exact ih hagree' hsuffix hcount ((Nat.le_max_right _ _).trans hnest) (fun _ => rfl)
      · have hnest' : deepest depth more ≤ maxParenthesisDepth := (Nat.le_max_right _ _).trans hnest
        by_cases hdepth : depth = 0
        · subst hdepth
          have hscan : (stateAt statements start (';' :: after) 0 holds).scan (byte ';')
              (utf8 after) = (stateAt statements start (';' :: after) 0 holds).terminate
                (utf8 after) := rfl
          rw [pieces, if_pos ⟨rfl, rfl⟩] at hcount ⊢
          rw [SplitState.terminate] at hscan
          cases holds with
          | false =>
            rw [if_neg Bool.false_ne_true] at hcount ⊢
            rw [Loop.run_of_rounds (hone (by decide) hscan)]
            exact ih hagree' (List.suffix_refl _) hcount hnest' (fun h => absurd rfl h)
          | true =>
            rw [if_pos rfl, List.length_cons] at hcount
            rw [if_pos rfl]
            have hpush : pushStatement (statements.map utf8)
                ((utf8 start).take ((utf8 start).length - (utf8 after).length)) =
                .ok ((statements ++ [start.take (start.length - after.length)]).map utf8) := by
              rw [pushStatement, List.length_map, if_neg (by omega), take_utf8 hsuffix,
                List.map_append]
              rfl
            have hnext := hscan.trans (Except.bind_eq_ok.mpr ⟨_, hpush, rfl⟩)
            rw [Loop.run_of_rounds (hone (by decide) hnext)]
            refine (ih hagree' (List.suffix_refl _) ?_ hnest' (fun h => absurd rfl h)).trans ?_
            · have hcount' : statements.length + ((pieces after 0 false more).length + 1) ≤
                  maxSqlScriptStatements := hcount
              rw [List.length_append, List.length_singleton]
              omega
            · rw [List.append_assoc, List.singleton_append]
        · have hheld := hholds hdepth
          subst hheld
          have hpieces : pieces start depth true (⟨';' :: after, .semicolon, after⟩ :: more) =
              pieces start depth true more := by
            rw [pieces, if_neg (fun h => hdepth h.2)]
            rfl
          have hscan : (stateAt statements start (';' :: after) depth true).scan (byte ';')
              (utf8 after) = .ok (stateAt statements start after depth true) :=
            if_neg (fun h : byte ';' = byte ';' ∧ depth = 0 => hdepth h.2)
          rw [hpieces] at hcount ⊢
          rw [Loop.run_of_rounds (hone (by decide) hscan)]
          exact ih hagree' hsuffix hcount hnest' hholds
    · have hword : Loop.Rounds splitStep (stateAt statements start (c :: rest) depth holds)
          (stateAt statements start after depth true) :=
        rounds_token (stateAt statements start rest depth holds) (stops_of_skipIgnored hskip)
          (hdollar rfl) htoken hagrees.1 (by simpa [not_or] using hsingle)
      have hdepth : nextDepth depth t = depth := by
        cases t <;> simp [nextDepth] at hsingle ⊢
      have hpieces : pieces start depth holds (⟨c :: rest, t, after⟩ :: more) =
          pieces start depth true more := by
        have hne : t ≠ .semicolon := fun h => hsingle (.inr (.inr h))
        rw [pieces, if_neg (fun h => hne h.1), hdepth, decide_eq_true hne, Bool.or_true]
      rw [deepest, hdepth] at hnest
      rw [hpieces] at hcount ⊢
      rw [Loop.run_of_rounds hword]
      exact ih hagree' hsuffix hcount ((Nat.le_max_right _ _).trans hnest) (fun _ => rfl)
  | @body text rest after delimiter body more _ hskip hopens hscan hsuffix hmore ih =>
    have hgap : Loop.Rounds splitStep (stateAt statements start text depth holds)
        (stateAt statements start ('$' :: rest) depth holds) :=
      rounds_gap (stateAt statements start text depth holds) hagree.1 hskip
    have hagrees := hagree.2 _ List.mem_cons_self
    have hagree' : Agree after more :=
      ⟨hagrees.2, fun l hl => hagree.2 l (List.mem_cons_of_mem _ hl)⟩
    have hbody : Loop.Rounds splitStep (stateAt statements start ('$' :: rest) depth holds)
        (stateAt statements start after depth true) :=
      rounds_body (stateAt statements start rest depth holds) hopens hscan
    have hpieces : pieces start depth holds (⟨'$' :: rest, .other, after⟩ :: more) =
        pieces start depth true more := by
      rw [pieces, if_neg (fun h => by cases h.1)]
      simp [nextDepth]
    rw [hpieces] at hcount ⊢
    rw [Loop.run_of_rounds hgap, Loop.run_of_rounds hbody]
    refine ih hagree' ?_ hcount ((Nat.le_max_right _ _).trans hnest) (fun _ => rfl)
    exact ((hsuffix.trans (List.suffix_cons _ _)).trans (skipIgnored_suffix hskip)).trans hstart

/-! ### The pieces' own lexemes -/

def tokens (lexemes : List Lexeme) : List Token := lexemes.map (fun l => l.token)

lemma tokens_append (a b : List Lexeme) : tokens (a ++ b) = tokens a ++ tokens b := List.map_append

/-- Token lists without their semicolons. -/
def unterminated (tokens : List Token) : List Token := tokens.filter (· ≠ .semicolon)

lemma unterminated_append (a b : List Token) :
    unterminated (a ++ b) = unterminated a ++ unterminated b := List.filter_append _ _

/-- Pieces have lexemes, which together are the text's up to semicolons. -/
def Covers (dollars : Bool) (pieces : List Text) (whole : List Token) : Prop :=
  ∃ lexed, List.Forall₂ (Lexes dollars) pieces lexed ∧
    unterminated (tokens lexed.flatten) = unterminated whole ∧
    ∀ lexemes ∈ lexed, lexemes.length ≤ whole.length

/-- The lexemes of a piece in hand come before the ones the text still has. -/
lemma covers_pieces {dollars : Bool} {start : Text} {before lexemes : List Lexeme} {depth : Nat}
    {holds : Bool} (h : Lexes dollars start (before ++ lexemes))
    (hholds : holds = false → unterminated (tokens before) = []) :
    Covers dollars (pieces start depth holds lexemes) (tokens (before ++ lexemes)) := by
  induction lexemes generalizing start before depth holds with
  | nil =>
    rw [List.append_nil] at h ⊢
    cases holds with
    | false => exact ⟨[], .nil, (hholds rfl).symm, fun _ h => (nomatch h)⟩
    | true =>
      refine ⟨[before], .cons h .nil, ?_, ?_⟩
      · rw [List.flatten_singleton]
      · rw [List.forall_mem_singleton, tokens, List.length_map]
  | cons l more ih =>
    rw [pieces]
    split_ifs with hcut hheld
    · obtain ⟨hmore, -⟩ := h.exists_split
      obtain ⟨y, lexemes, hstart, hlexes, htokens⟩ := h.cut hcut.1
      have hpiece : start.take (start.length - l.rest.length) = y ++ [';'] := by
        rw [hstart, List.append_cons, List.length_append, Nat.add_sub_cancel, List.take_left]
      have hnext : Covers dollars (pieces l.rest 0 false more) (tokens ([] ++ more)) :=
        ih hmore (fun _ => rfl)
      obtain ⟨lexed, hlexed, hcovers, hlengths⟩ := hnext
      have hlexemes : tokens lexemes = tokens before ++ [.semicolon] := htokens
      refine ⟨lexemes :: lexed, .cons (hpiece ▸ hlexes) hlexed, ?_, ?_⟩
      · rw [List.flatten_cons, tokens_append, unterminated_append, hcovers, hlexemes]
        simp [tokens, unterminated, hcut.1]
      · have hlength := congrArg List.length hlexemes
        simp only [tokens, List.nil_append, List.length_map, List.length_append, List.length_cons,
          List.length_nil] at hlength hlengths ⊢
        rw [List.forall_mem_cons]
        exact ⟨by omega, fun ls hls => (hlengths ls hls).trans (by omega)⟩
    · obtain ⟨hmore, -⟩ := h.exists_split
      have hnext : Covers dollars (pieces l.rest 0 false more) (tokens ([] ++ more)) :=
        ih hmore (fun _ => rfl)
      obtain ⟨lexed, hlexed, hcovers, hlengths⟩ := hnext
      refine ⟨lexed, hlexed, ?_, ?_⟩
      · rw [hcovers, tokens_append, unterminated_append, tokens_append, unterminated_append,
          hholds (Bool.eq_false_iff.mpr hheld)]
        simp [tokens, unterminated, hcut.1]
      · simp only [tokens, List.nil_append, List.length_map, List.length_append,
          List.length_cons] at hlengths ⊢
        exact fun ls hls => (hlengths ls hls).trans (by omega)
    · rw [List.append_cons] at h ⊢
      refine ih h (fun hnot => ?_)
      obtain ⟨hheld, hsemicolon⟩ := Bool.or_eq_false_iff.mp hnot
      have hl : l.token = .semicolon := by simpa using hsemicolon
      rw [tokens_append, unterminated_append, hholds hheld]
      simp [tokens, unterminated, hl]

/-! ### Scripts -/

/-- No dollar sign that a token starts with opens a dollar-quoted body. -/
def NoBodies (lexemes : List Lexeme) : Prop :=
  ∀ l ∈ lexemes, ∀ c rest, l.start = c :: rest → ¬opensDollar c rest

lemma lexes_of_noBodies {text : Text} {lexemes : List Lexeme} (h : Lexes false text lexemes)
    (hnone : NoBodies lexemes) : Lexes true text lexemes := by
  induction h with
  | done hskip => exact .done hskip
  | token hskip _ htoken _ ih =>
    have hnone' := List.forall_mem_cons.mp hnone
    exact .token hskip (fun _ => hnone'.1 _ _ rfl) htoken (ih hnone'.2)
  | body hdollars => cases hdollars

lemma split_pieces {text : Text} {lexemes : List Lexeme} (h : Lexes true text lexemes)
    (hlimits : WithinLimits text lexemes) (hagree : Agree text lexemes) :
    split (utf8 text) = .ok ((pieces text 0 false lexemes).map utf8) := by
  rw [split, if_neg (Nat.not_lt.mpr hlimits.bytes)]
  have hcount : ([] : List Text).length + (pieces text 0 false lexemes).length ≤
      maxSqlScriptStatements := by
    rw [List.length_nil, Nat.zero_add]
    exact hlimits.statements
  exact run_pieces h hagree (List.suffix_refl _) hcount hlimits.nesting (fun h => absurd rfl h)

lemma tokenize_pieces {pieces : List Text} {whole : List Token} (h : Covers false pieces whole)
    (hwhole : whole.length ≤ maxSqlTokens) :
    ∃ lists, List.Forall₂ (fun piece list => tokenize piece = .ok list) pieces lists ∧
      unterminated lists.flatten = unterminated whole := by
  obtain ⟨lexed, hlexed, hcovers, hlengths⟩ := h
  refine ⟨lexed.map tokens, ?_, ?_⟩
  · clear hcovers
    induction hlexed with
    | nil => exact .nil
    | cons hlexes _ ih =>
      rw [List.forall_mem_cons] at hlengths
      exact .cons (tokenize_of_lexes hlexes (hlengths.1.trans hwhole)) (ih hlengths.2)
  · rw [← hcovers, tokens, List.map_flatten]
    rfl

/-- A script is cut behind the semicolons outside parentheses, and the pieces that hold another
token are kept: with dollar-quoted bodies read as one token each, and as the lexer alone reads it
where there are none. -/
theorem script_split_agrees_with_lexer :
    (∀ text lexemes, Lexes true text lexemes → WithinLimits text lexemes → Agree text lexemes →
      split (utf8 text) = .ok ((pieces text 0 false lexemes).map utf8) ∧
        Covers true (pieces text 0 false lexemes) (tokens lexemes)) ∧
    ∀ text list, tokenize text = .ok list →
      ∃ lexemes, Lexes false text lexemes ∧ tokens lexemes = list ∧
        (WithinLimits text lexemes → Agree text lexemes → NoBodies lexemes →
          split (utf8 text) = .ok ((pieces text 0 false lexemes).map utf8) ∧
          ∃ lists, List.Forall₂ (fun piece list => tokenize piece = .ok list)
              (pieces text 0 false lexemes) lists ∧
            unterminated lists.flatten = unterminated list) := by
  constructor
  · intro text lexemes hlexes hlimits hagree
    have hcovers : Covers true (pieces text 0 false lexemes) (tokens ([] ++ lexemes)) :=
      covers_pieces hlexes (fun _ => rfl)
    exact ⟨split_pieces hlexes hlimits hagree, hcovers⟩
  · intro text list hlist
    obtain ⟨lexemes, hlexes, rfl⟩ := tokenize_eq_ok hlist
    refine ⟨lexemes, hlexes, rfl, fun hlimits hagree hnone => ?_⟩
    have hcovers : Covers false (pieces text 0 false lexemes) (tokens ([] ++ lexemes)) :=
      covers_pieces hlexes (fun _ => rfl)
    exact ⟨split_pieces (lexes_of_noBodies hlexes hnone) hlimits hagree,
      tokenize_pieces hcovers (length_le_of_tokenize hlist)⟩

lemma stops_cons {c : Char} {rest : Text} (hwhite : isWhitespace c = false)
    (hline : startsWith '-' '-' (c :: rest) = false)
    (hblock : startsWith '/' '*' (c :: rest) = false) : Stops (c :: rest) where
  notWhite := by
    intro d hd
    rw [← Option.some.inj hd, hwhite]
  noLine := hline
  noBlock := hblock

lemma Stops.roundAgrees {c : Char} {rest : Text} (h : Stops (c :: rest)) :
    RoundAgrees (c :: rest) := by
  have hwhite : isWhitespace c = false := h.notWhite c rfl
  have hnone : ¬isWhitespace c = true := by
    rw [hwhite]
    exact Bool.false_ne_true
  constructor
  · intro d hd
    rw [List.takeWhile_cons_of_neg hnone] at hd
    nomatch hd
  · intro hline
    rw [List.dropWhile_cons_of_neg hnone, h.noLine] at hline
    nomatch hline

lemma skipIgnored_self {c : Char} {rest : Text} (h : Stops (c :: rest)) :
    skipIgnored (c :: rest) = .ok (c :: rest) := by
  have hwhite : (c :: rest).dropWhile isWhitespace = c :: rest :=
    List.dropWhile_cons_of_neg (by rw [h.notWhite c rfl]; exact Bool.false_ne_true)
  have hline : startsWith '-' '-' ((c :: rest).dropWhile isWhitespace) = false := by
    rw [hwhite, h.noLine]
  have hblock : startsWith '/' '*' ((c :: rest).dropWhile isWhitespace) = false := by
    rw [hwhite, h.noBlock]
  rw [skipIgnored_of_stop (skipStep_stop hline hblock), hwhite]

lemma Stops.gapAgrees {c : Char} {rest : Text} (h : Stops (c :: rest)) : GapAgrees (c :: rest) := by
  have hwhite : (c :: rest).dropWhile isWhitespace = c :: rest :=
    List.dropWhile_cons_of_neg (by rw [h.notWhite c rfl]; exact Bool.false_ne_true)
  have hstop : skipStep (c :: rest) = .ok (.inl (c :: rest)) := by
    rw [skipStep_stop (by rw [hwhite, h.noLine]) (by rw [hwhite, h.noBlock]), hwhite]
  exact .stop hstop h.roundAgrees

lemma gapAgrees_nil : GapAgrees [] :=
  .stop (skipStep_stop rfl rfl) ⟨fun _ h => (nomatch h), fun h => (nomatch h)⟩

/-- The lexemes of `1;(;)`. -/
def oneAndParentheses : List Lexeme :=
  [⟨['1', ';', '(', ';', ')'], .number "1", [';', '(', ';', ')']⟩,
    ⟨[';', '(', ';', ')'], .semicolon, ['(', ';', ')']⟩, ⟨['(', ';', ')'], .lParen, [';', ')']⟩,
    ⟨[';', ')'], .semicolon, [')']⟩, ⟨[')'], .rParen, []⟩]

lemma lexes_oneAndParentheses : Lexes false ['1', ';', '(', ';', ')'] oneAndParentheses := by
  refine .token (skipIgnored_self (stops_cons rfl rfl rfl)) (fun h => (nomatch h)) rfl ?_
  refine .token (skipIgnored_self (stops_cons rfl rfl rfl)) (fun h => (nomatch h)) rfl ?_
  refine .token (skipIgnored_self (stops_cons rfl rfl rfl)) (fun h => (nomatch h)) rfl ?_
  refine .token (skipIgnored_self (stops_cons rfl rfl rfl)) (fun h => (nomatch h)) rfl ?_
  refine .token (skipIgnored_self (stops_cons rfl rfl rfl)) (fun h => (nomatch h)) rfl ?_
  exact .done (skipIgnored_of_stop (skipStep_stop rfl rfl))

lemma agree_oneAndParentheses : Agree ['1', ';', '(', ';', ')'] oneAndParentheses := by
  refine ⟨(stops_cons rfl rfl rfl).gapAgrees, ?_⟩
  simp only [oneAndParentheses, List.forall_mem_cons]
  have hnumber : LexemeAgrees
      ⟨['1', ';', '(', ';', ')'], .number "1", [';', '(', ';', ')']⟩ := by
    rw [LexemeAgrees]
    decide
  exact ⟨⟨hnumber, (stops_cons rfl rfl rfl).gapAgrees⟩,
    ⟨trivial, (stops_cons rfl rfl rfl).gapAgrees⟩, ⟨trivial, (stops_cons rfl rfl rfl).gapAgrees⟩,
    ⟨trivial, (stops_cons rfl rfl rfl).gapAgrees⟩, ⟨trivial, gapAgrees_nil⟩,
    fun _ h => (nomatch h)⟩

lemma noBodies_oneAndParentheses : NoBodies oneAndParentheses := by
  intro l hl c rest hstart hopens
  have hhead : l.start.head? = some '$' := by
    rw [hstart, List.head?_cons, hopens.1]
  have hall : ∀ l ∈ oneAndParentheses, l.start.head? ≠ some '$' := by decide
  exact hall l hl hhead

theorem script_split_agrees_with_lexer_parentheses :
    split (utf8 ['1', ';', '(', ';', ')']) = .ok [utf8 ['1', ';'], utf8 ['(', ';', ')']] ∧
      ∃ lists, List.Forall₂ (fun piece list => tokenize piece = .ok list)
          [['1', ';'], ['(', ';', ')']] lists ∧
        unterminated lists.flatten = [.number "1", .lParen, .rParen] := by
  have htokenize := tokenize_of_lexes lexes_oneAndParentheses (by decide)
  obtain ⟨lexemes, hlexes, -, h⟩ := script_split_agrees_with_lexer.2 _ _ htokenize
  obtain rfl := hlexes.unique lexes_oneAndParentheses
  exact h ⟨by decide, by decide, by decide⟩ agree_oneAndParentheses noBodies_oneAndParentheses

/-- The splitter reads `$$;$$` as one body, in which the lexer reads a semicolon. -/
theorem split_keeps_dollar_body_whole :
    ¬∀ text list, tokenize text = .ok list → ∃ lexemes, Lexes false text lexemes ∧
      (WithinLimits text lexemes →
        split (utf8 text) = .ok ((pieces text 0 false lexemes).map utf8)) := by
  intro h
  have hlexes : Lexes false ['$', '$', ';', '$', '$']
      [⟨['$', '$', ';', '$', '$'], .other, ['$', ';', '$', '$']⟩,
        ⟨['$', ';', '$', '$'], .other, [';', '$', '$']⟩, ⟨[';', '$', '$'], .semicolon, ['$', '$']⟩,
        ⟨['$', '$'], .other, ['$']⟩, ⟨['$'], .other, []⟩] := by
    refine .token (skipIgnored_self (stops_cons rfl rfl rfl)) (fun h => (nomatch h)) rfl ?_
    refine .token (skipIgnored_self (stops_cons rfl rfl rfl)) (fun h => (nomatch h)) rfl ?_
    refine .token (skipIgnored_self (stops_cons rfl rfl rfl)) (fun h => (nomatch h)) rfl ?_
    refine .token (skipIgnored_self (stops_cons rfl rfl rfl)) (fun h => (nomatch h)) rfl ?_
    refine .token (skipIgnored_self (stops_cons rfl rfl rfl)) (fun h => (nomatch h)) rfl ?_
    exact .done (skipIgnored_of_stop (skipStep_stop rfl rfl))
  have hbody : Lexes true ['$', '$', ';', '$', '$'] [⟨['$', '$', ';', '$', '$'], .other, []⟩] :=
    .body rfl (skipIgnored_self (stops_cons rfl rfl rfl)) rfl rfl List.nil_suffix
      (.done (skipIgnored_of_stop (skipStep_stop rfl rfl)))
  have hagree : Agree ['$', '$', ';', '$', '$'] [⟨['$', '$', ';', '$', '$'], .other, []⟩] :=
    ⟨(stops_cons rfl rfl rfl).gapAgrees, List.forall_mem_singleton.mpr ⟨trivial, gapAgrees_nil⟩⟩
  obtain ⟨lexemes, hlexes', hcut⟩ := h _ _ (tokenize_of_lexes hlexes (by decide))
  obtain rfl := hlexes'.unique hlexes
  have hwhole := split_pieces hbody ⟨by decide, by decide, by decide⟩ hagree
  have hsame := hwhole.symm.trans (hcut ⟨by decide, by decide, by decide⟩)
  exact absurd (congrArg List.length (Except.ok.inj hsame)) (by decide)

end SqlScript
end TinyJoin
