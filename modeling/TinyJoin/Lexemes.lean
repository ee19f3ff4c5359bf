import TinyJoin.SqlScript

/-! A text as a sequence of lexemes: the tokens the lexer reads, each with the text it starts at and
the text that follows it. Reading dollar-quoted bodies is optional, since a script's splitter knows
them and the lexer does not. A text cut behind a semicolon has the lexemes it had up to there. -/
namespace TinyJoin
namespace Lexer
open SqlScript

/-- The UTF-8 bytes of a text. -/
def utf8 (text : Text) : Script := text.flatMap String.utf8EncodeChar

@[simp] lemma utf8_nil : utf8 [] = [] := rfl

lemma utf8_cons (c : Char) (text : Text) : utf8 (c :: text) = String.utf8EncodeChar c ++ utf8 text :=
  rfl

lemma utf8_append (a b : Text) : utf8 (a ++ b) = utf8 a ++ utf8 b := List.flatMap_append

structure Lexeme where
  start : Text
  token : Token
  rest : Text

/-- Whether a character opens a dollar-quoted body, as the splitter reads one. -/
def opensDollar (c : Char) (rest : Text) : Prop :=
  c = '$' ∧ (dollarDelimiter (utf8 rest)).isSome

instance (c : Char) (rest : Text) : Decidable (opensDollar c rest) := by
  unfold opensDollar
  infer_instance

/-- A text has these lexemes. Where dollar-quoted bodies are read, each is one token of no other
kind. -/
inductive Lexes (dollars : Bool) : Text → List Lexeme → Prop where
  | done {text : Text} : skipIgnored text = .ok [] → Lexes dollars text []
  | token {text rest after : Text} {c : Char} {t : Token} {more : List Lexeme} :
    skipIgnored text = .ok (c :: rest) → (dollars = true → ¬opensDollar c rest) →
    token c rest = .ok (t, after) → Lexes dollars after more →
    Lexes dollars text (⟨c :: rest, t, after⟩ :: more)
  | body {text rest after : Text} {delimiter body : Script} {more : List Lexeme} :
    dollars = true → skipIgnored text = .ok ('$' :: rest) →
    dollarDelimiter (utf8 rest) = some (delimiter, body) →
    scanDollarQuote delimiter body = .ok (utf8 after) → after <:+ rest →
    Lexes dollars after more → Lexes dollars text (⟨'$' :: rest, .other, after⟩ :: more)

/-- A text has one list of lexemes. -/
lemma Lexes.unique {text : Text} {lexemes lexemes' : List Lexeme} (h : Lexes false text lexemes)
    (h' : Lexes false text lexemes') : lexemes = lexemes' := by
  induction h generalizing lexemes' with
  | done hskip =>
    cases h' with
    | done => rfl
    | token hskip' => cases hskip.symm.trans hskip'
    | body hdollars => cases hdollars
  | token hskip _ htoken _ ih =>
    cases h' with
    | done hskip' => cases hskip.symm.trans hskip'
    | token hskip' _ htoken' hmore' =>
      obtain ⟨rfl, rfl⟩ := List.cons.inj (Except.ok.inj (hskip.symm.trans hskip'))
      obtain ⟨rfl, rfl⟩ := Prod.mk.inj (Except.ok.inj (htoken.symm.trans htoken'))
      rw [ih hmore']
    | body hdollars => cases hdollars
  | body hdollars => cases hdollars

/-! ### The lexer reads exactly the lexemes without dollar-quoted bodies -/

lemma exists_lexes_of_run {text : Text} {before tokens : List Token}
    (h : Loop.run (fun state => state.1.length) tokenizeStep tokenizeStep_shrinks (text, before) =
      .ok tokens) :
    ∃ lexemes, Lexes false text lexemes ∧
      tokens = before ++ lexemes.map (fun lexeme => lexeme.token) := by
  refine Loop.run_induction (P := fun state => ∃ lexemes, Lexes false state.1 lexemes ∧
    tokens = state.2 ++ lexemes.map (fun lexeme => lexeme.token)) ?_ ?_ h
  · rintro ⟨text, before⟩ hstop
    rcases tokenizeStep_eq_ok.mp hstop with ⟨hread, hnext⟩ | ⟨t, rest, -, -, hnext⟩
    · cases hnext
      exact ⟨[], .done (nextToken_eq_none.mp hread), (List.append_nil _).symm⟩
    · cases hnext
  · rintro ⟨text, before⟩ state hround - ⟨lexemes, hlexes, htokens⟩
    rcases tokenizeStep_eq_ok.mp hround with ⟨-, hnext⟩ | ⟨t, rest, hread, -, hnext⟩
    · cases hnext
    · cases hnext
      obtain ⟨c, after, hskip, htoken⟩ := nextToken_eq_some.mp hread
      refine ⟨⟨c :: after, t, rest⟩ :: lexemes, .token hskip (fun h => (nomatch h)) htoken hlexes, ?_⟩
      rw [htokens, List.append_assoc]
      rfl

lemma run_of_lexes {text : Text} {before : List Token} {lexemes : List Lexeme}
    (h : Lexes false text lexemes) (hlimit : before.length + lexemes.length ≤ maxSqlTokens) :
    Loop.run (fun state => state.1.length) tokenizeStep tokenizeStep_shrinks (text, before) =
      .ok (before ++ lexemes.map (fun lexeme => lexeme.token)) := by
  induction h generalizing before with
  | done hskip =>
    rw [List.map_nil, List.append_nil]
    exact Loop.run_of_stop (tokenizeStep_eq_ok.mpr (.inl ⟨nextToken_eq_none.mpr hskip, rfl⟩))
  | @token text rest after c t more hskip hdollar htoken hmore ih =>
    rw [List.length_cons] at hlimit
    have hread : nextToken text = .ok (some (t, after)) :=
      nextToken_eq_some.mpr ⟨c, rest, hskip, htoken⟩
    rw [Loop.run_of_round (tokenizeStep_eq_ok.mpr (.inr ⟨t, after, hread, by omega, rfl⟩)),
      ih (by rw [List.length_append, List.length_singleton]; omega), List.append_assoc]
    rfl
  | body hdollars => cases hdollars

lemma tokenize_eq_ok {text : Text} {tokens : List Token} (h : tokenize text = .ok tokens) :
    ∃ lexemes, Lexes false text lexemes ∧ tokens = lexemes.map (fun lexeme => lexeme.token) := by
  obtain ⟨lexemes, hlexes, htokens⟩ := exists_lexes_of_run h
  exact ⟨lexemes, hlexes, htokens⟩

lemma tokenize_of_lexes {text : Text} {lexemes : List Lexeme} (h : Lexes false text lexemes)
    (hlimit : lexemes.length ≤ maxSqlTokens) :
    tokenize text = .ok (lexemes.map (fun lexeme => lexeme.token)) :=
  run_of_lexes h (by simpa using hlimit)

/-- A result within the token limit. -/
lemma length_le_of_run {text : Text} {before tokens : List Token}
    (hbefore : before.length ≤ maxSqlTokens)
    (h : Loop.run (fun state => state.1.length) tokenizeStep tokenizeStep_shrinks (text, before) =
      .ok tokens) : tokens.length ≤ maxSqlTokens := by
  refine Loop.run_induction
    (P := fun state => state.2.length ≤ maxSqlTokens → tokens.length ≤ maxSqlTokens) ?_ ?_ h hbefore
  · rintro ⟨text, before⟩ hstop hle
    rcases tokenizeStep_eq_ok.mp hstop with ⟨-, hnext⟩ | ⟨t, rest, -, -, hnext⟩
    · cases hnext
      exact hle
    · cases hnext
  · rintro ⟨text, before⟩ state hround - ih -
    rcases tokenizeStep_eq_ok.mp hround with ⟨-, hnext⟩ | ⟨t, rest, -, hlt, hnext⟩
    · cases hnext
    · cases hnext
      exact ih (by rw [List.length_append, List.length_singleton]; omega)

lemma length_le_of_tokenize {text : Text} {tokens : List Token} (h : tokenize text = .ok tokens) :
    tokens.length ≤ maxSqlTokens := length_le_of_run (Nat.zero_le _) h

/-! ### A text cut behind a semicolon -/

/-- One text is the other up to a semicolon of it. -/
def CutAt (text cut : Text) : Prop := ∃ y v, text = y ++ ';' :: v ∧ cut = y ++ [';']

namespace CutAt
variable {text cut : Text}

lemma append (h : CutAt text cut) (a : Text) : CutAt (a ++ text) (a ++ cut) := by
  obtain ⟨y, v, rfl, rfl⟩ := h
  exact ⟨a ++ y, v, by rw [List.append_assoc], by rw [List.append_assoc]⟩

lemma head_eq (h : CutAt text cut) : cut.head? = text.head? := by
  obtain ⟨y, v, rfl, rfl⟩ := h
  cases y <;> rfl

lemma startsWith_eq (h : CutAt text cut) {c d : Char} (hc : c ≠ ';') :
    startsWith c d cut = startsWith c d text := by
  obtain ⟨y, v, rfl, rfl⟩ := h
  match y with
  | [] =>
    rw [Bool.eq_iff_iff, startsWith_eq_true, startsWith_eq_true]
    constructor
    · rintro ⟨rest, h⟩
      exact absurd (List.cons.inj h).1.symm hc
    · rintro ⟨rest, h⟩
      exact absurd (List.cons.inj h).1.symm hc
  | [a] => rfl
  | a :: b :: y => rfl

end CutAt

lemma dropWhile_append_eq_iff {α : Type} {p : α → Bool} {a r : List α} :
    (a ++ r).dropWhile p = r ↔ (∀ c ∈ a, p c = true) ∧ ∀ c ∈ r.head?, p c = false := by
  induction a with
  | nil =>
    cases r with
    | nil => simp
    | cons c r =>
      rw [List.nil_append]
      constructor
      · intro h
        refine ⟨fun _ hc => (nomatch hc), ?_⟩
        rintro _ ⟨⟩
        rw [Bool.eq_false_iff]
        intro hp
        rw [List.dropWhile_cons_of_pos hp] at h
        have := length_dropWhile_le p r
        rw [h, List.length_cons] at this
        omega
      · rintro ⟨-, hp⟩
        exact List.dropWhile_cons_of_neg (by rw [hp c rfl]; exact Bool.false_ne_true)
  | cons c a ih =>
    rw [List.cons_append, List.forall_mem_cons]
    by_cases hp : p c = true
    · rw [List.dropWhile_cons_of_pos hp, ih]
      exact ⟨fun h => ⟨⟨hp, h.1⟩, h.2⟩, fun h => ⟨h.1.2, h.2⟩⟩
    · rw [List.dropWhile_cons_of_neg hp]
      refine ⟨fun h => ?_, fun h => absurd h.1.1 hp⟩
      have := congrArg List.length h
      rw [List.length_cons, List.length_append] at this
      omega

lemma takeWhile_of_dropWhile {α : Type} {p : α → Bool} {a r : List α}
    (h : (a ++ r).dropWhile p = r) : (a ++ r).takeWhile p = a := by
  have happ := List.takeWhile_append_dropWhile (p := p) (l := a ++ r)
  rw [h] at happ
  exact List.append_cancel_right happ

/-- A scanner that stops at the text's end or before it stops at the same place of a cut text. -/
def Local (scan : Text → Text) : Prop :=
  ∀ a r r' : Text, CutAt r r' → scan (a ++ r) = r → scan (a ++ r') = r'

lemma local_dropWhile (p : Char → Bool) : Local (List.dropWhile p) := by
  intro a r r' hcut h
  rw [dropWhile_append_eq_iff] at h ⊢
  rw [hcut.head_eq]
  exact h

lemma Local.comp {first second : Text → Text} (hfirst : Local first) (hsecond : Local second)
    (hdrops : ∀ text, first text <:+ text) (hdrops' : ∀ text, second text <:+ text) :
    Local (fun text => second (first text)) := by
  intro a r r' hcut h
  change second (first (a ++ r)) = r at h
  obtain ⟨b, hb⟩ := hdrops' (first (a ++ r))
  obtain ⟨c, hc⟩ := hdrops (a ++ r)
  rw [h] at hb
  rw [← hb] at hc
  have ha : a = c ++ b := by
    rw [← List.append_assoc] at hc
    exact (List.append_cancel_right hc).symm
  have hmiddle : first (c ++ (b ++ r)) = b ++ r := by
    rw [hc, hb]
  change second (first (a ++ r')) = r'
  rw [ha, List.append_assoc, hfirst _ _ _ (hcut.append b) hmiddle]
  exact hsecond _ _ _ hcut (by rw [hb]; exact h)

/-- A scanner that skips a part of a text, which a character starts, if it starts it. -/
lemma local_part {p : Char → Prop} [DecidablePred p] {scan : Text → Text} (hscan : Local scan)
    (hdrops : ∀ text, scan text <:+ text) {part : Text → Text}
    (hpart : ∀ c rest, part (c :: rest) = if p c then scan rest else c :: rest) : Local part := by
  intro a r r' hcut h
  cases a with
  | nil =>
    obtain ⟨y, v, rfl, rfl⟩ := hcut
    rw [List.nil_append] at h ⊢
    have hstays : ∀ c rest, part (c :: rest) = c :: rest → ¬p c := by
      intro c rest h hp
      rw [hpart, if_pos hp] at h
      have := (hdrops rest).length_le
      rw [h, List.length_cons] at this
      omega
    cases y with
    | nil => rw [List.nil_append, hpart, if_neg (hstays _ _ h)]
    | cons c y => rw [List.cons_append, hpart, if_neg (hstays _ _ h)]
  | cons c a =>
    rw [List.cons_append, hpart] at h
    rw [List.cons_append, hpart]
    split_ifs at h ⊢ with hp
    · exact hscan _ _ _ hcut h
    · have := congrArg List.length h
      rw [List.length_cons, List.length_append] at this
      omega

lemma local_skipChar (p : Char → Bool) : Local (skipChar p) := by
  have hid : Local id := by
    intro a r r' _ h
    rw [List.append_left_eq_self.mp h]
    rfl
  exact local_part (p := fun c => p c = true) hid List.suffix_refl (fun c rest => rfl)

lemma local_numberEnd : Local numberEnd := by
  have hdigits := local_dropWhile Char.isDigit
  have hdrops : ∀ text : Text, text.dropWhile Char.isDigit <:+ text :=
    fun _ => List.dropWhile_suffix _
  have hsign := (local_skipChar (fun s => s == '+' || s == '-')).comp hdigits
    (skipChar_suffix _) hdrops
  have hexponent : Local skipExponent :=
    local_part hsign (fun _ => (List.dropWhile_suffix _).trans (skipChar_suffix _ _))
      (fun c rest => rfl)
  have hfraction : Local skipFraction := local_part hdigits hdrops (fun c rest => rfl)
  have hwhole := (local_skipChar (· == '-')).comp hdigits (skipChar_suffix _) hdrops
  have hwholeDrops : ∀ text, (skipChar (· == '-') text).dropWhile Char.isDigit <:+ text :=
    fun _ => (List.dropWhile_suffix _).trans (skipChar_suffix _ _)
  exact (hwhole.comp hfraction hwholeDrops skipFraction_suffix).comp hexponent
    (fun _ => (skipFraction_suffix _).trans (hwholeDrops _)) skipExponent_suffix

/-- A block comment is read without a look at what follows it. -/
lemma skipBlock_spec {depth : Nat} {text r : Text} (h : skipBlock depth text = .ok r) :
    ∃ a, text = a ++ r ∧ (depth ≠ 0 → a ≠ []) ∧ ∀ r', skipBlock depth (a ++ r') = .ok r' := by
  fun_induction skipBlock depth text with
  | case1 text =>
    obtain rfl := Except.ok.inj h
    exact ⟨[], rfl, fun h => absurd rfl h, fun r' => by rw [List.nil_append, skipBlock]⟩
  | case2 => cases h
  | case3 depth c ih => cases h
  | case4 => cases h
  | case5 depth c d rest hopen hdepth ih =>
    obtain ⟨a, rfl, -, ha⟩ := ih h
    refine ⟨c :: d :: a, rfl, fun _ => List.cons_ne_nil _ _, fun r' => ?_⟩
    rw [List.cons_append, List.cons_append, skipBlock, if_pos hopen, if_neg hdepth, ha]
  | case6 depth c d rest hopen hclose ih =>
    obtain ⟨a, rfl, -, ha⟩ := ih h
    refine ⟨c :: d :: a, rfl, fun _ => List.cons_ne_nil _ _, fun r' => ?_⟩
    rw [List.cons_append, List.cons_append, skipBlock, if_neg hopen, if_pos hclose, ha]
  | case7 depth c d rest hopen hclose ih =>
    obtain ⟨a, htext, hne, ha⟩ := ih h
    obtain ⟨d', a, rfl⟩ := List.exists_cons_of_ne_nil (hne (Nat.succ_ne_zero _))
    obtain ⟨rfl, rfl⟩ := List.cons.inj htext
    refine ⟨c :: d :: a, rfl, fun _ => List.cons_ne_nil _ _, fun r' => ?_⟩
    rw [List.cons_append, List.cons_append, skipBlock, if_neg hopen, if_neg hclose]
    exact ha r'

/-- A quoted part ends at a quote that no other follows. -/
lemma quoted_spec {quote : Char} {description : String} {text value r : Text}
    (h : quoted quote description text = .ok (value, r)) :
    ∃ a, text = a ++ r ∧ a ≠ [] ∧ r.head? ≠ some quote ∧
      ∀ r', r'.head? ≠ some quote → quoted quote description (a ++ r') = .ok (value, r') := by
  fun_induction quoted quote description text generalizing value with
  | case1 => cases h
  | case2 =>
    obtain ⟨rfl, rfl⟩ := Prod.mk.inj (Except.ok.inj h)
    refine ⟨[quote], rfl, List.cons_ne_nil _ _, by simp, fun r' hr' => ?_⟩
    cases r' with
    | nil => rw [List.append_nil, quoted, if_pos rfl]
    | cons d r' =>
      have hd : d ≠ quote := fun hd => hr' (congrArg some hd)
      rw [List.singleton_append, quoted, if_pos rfl, if_neg hd]
  | case3 => cases h
  | case4 rest ih =>
    obtain ⟨⟨value', after⟩, hrest, h⟩ := Except.bind_eq_ok.mp h
    obtain ⟨rfl, rfl⟩ := Prod.mk.inj (Except.ok.inj h)
    obtain ⟨a, rfl, -, hr, ha⟩ := ih hrest
    refine ⟨quote :: quote :: a, rfl, List.cons_ne_nil _ _, hr, fun r' hr' => ?_⟩
    rw [List.cons_append, List.cons_append, quoted, if_pos rfl, if_pos rfl, ha r' hr']
    rfl
  | case5 d rest hd =>
    obtain ⟨rfl, rfl⟩ := Prod.mk.inj (Except.ok.inj h)
    refine ⟨[quote], rfl, List.cons_ne_nil _ _, fun h => hd (Option.some.inj h), fun r' hr' => ?_⟩
    cases r' with
    | nil => rw [List.append_nil, quoted, if_pos rfl]
    | cons d' r' =>
      have hd' : d' ≠ quote := fun hd => hr' (congrArg some hd)
      rw [List.singleton_append, quoted, if_pos rfl, if_neg hd']
  | case6 c d rest hc ih =>
    obtain ⟨⟨value', after⟩, hrest, h⟩ := Except.bind_eq_ok.mp h
    obtain ⟨rfl, rfl⟩ := Prod.mk.inj (Except.ok.inj h)
    obtain ⟨a, htext, hne, hr, ha⟩ := ih hrest
    obtain ⟨d', a, rfl⟩ := List.exists_cons_of_ne_nil hne
    obtain ⟨rfl, rfl⟩ := List.cons.inj htext
    refine ⟨c :: d :: a, rfl, List.cons_ne_nil _ _, hr, fun r' hr' => ?_⟩
    rw [List.cons_append, List.cons_append, quoted, if_neg hc]
    exact Except.bind_eq_ok.mpr ⟨(value', r'), ha r' hr', rfl⟩

lemma skipStep_line {text rest : Text}
    (h : text.dropWhile isWhitespace = '-' :: '-' :: rest) :
    skipStep text = .ok (.inr (rest.dropWhile (· != '\n'))) := by
  rw [skipStep, h]
  rfl

lemma skipStep_block {text rest after : Text}
    (h : text.dropWhile isWhitespace = '/' :: '*' :: rest) (hblock : skipBlock 1 rest = .ok after) :
    skipStep text = .ok (.inr after) := by
  rw [skipStep, h]
  exact Except.bind_eq_ok.mpr ⟨after, hblock, rfl⟩

lemma skipStep_stop {text : Text}
    (hline : startsWith '-' '-' (text.dropWhile isWhitespace) = false)
    (hblock : startsWith '/' '*' (text.dropWhile isWhitespace) = false) :
    skipStep text = .ok (.inl (text.dropWhile isWhitespace)) := by
  rw [skipStep, hline, hblock]
  rfl

/-- Splits a text where its white space ends. -/
lemma exists_white (text : Text) : ∃ white, text = white ++ text.dropWhile isWhitespace ∧
    ∀ r', (∀ c ∈ r'.head?, isWhitespace c = false) → (white ++ r').dropWhile isWhitespace = r' := by
  have happ := List.takeWhile_append_dropWhile (p := isWhitespace) (l := text)
  refine ⟨text.takeWhile isWhitespace, happ.symm, fun r' hr' => ?_⟩
  refine dropWhile_append_eq_iff.mpr ⟨fun c hc => ?_, hr'⟩
  exact List.all_eq_true.mp (List.all_takeWhile (l := text)) c hc

lemma head_dropWhile (p : Char → Bool) (text : Text) :
    ∀ c ∈ (text.dropWhile p).head?, p c = false := by
  have h := List.head?_dropWhile_not p text
  intro c hc
  rw [Option.mem_def.mp hc] at h
  exact h

/-- A round of skipping in a text is one in the text cut behind a semicolon that it leaves. -/
lemma skipStep_cut_stop {a r r' : Text} (hcut : CutAt r r') (h : skipStep (a ++ r) = .ok (.inl r)) :
    skipStep (a ++ r') = .ok (.inl r') := by
  rcases skipStep_cases h with ⟨_, _, hr⟩ | ⟨_, _, _, _, hr⟩ | ⟨hline, hblock, hr⟩
  · cases hr
  · cases hr
  · have hwhite : (a ++ r).dropWhile isWhitespace = r := (Sum.inl.inj hr).symm
    have hwhite' := local_dropWhile isWhitespace a r r' hcut hwhite
    rw [hwhite] at hline hblock
    have hline' : startsWith '-' '-' r' = false := by
      rw [hcut.startsWith_eq (by decide), hline]
    have hblock' : startsWith '/' '*' r' = false := by
      rw [hcut.startsWith_eq (by decide), hblock]
    rw [skipStep_stop (by rw [hwhite', hline']) (by rw [hwhite', hblock']), hwhite']

lemma skipStep_cut_round {a r r' : Text} (hcut : CutAt r r')
    (h : skipStep (a ++ r) = .ok (.inr r)) : skipStep (a ++ r') = .ok (.inr r') := by
  obtain ⟨white, hsplit, hwhite⟩ := exists_white (a ++ r)
  rcases skipStep_cases h with ⟨rest, hline, hr⟩ | ⟨rest, after, hblock, hafter, hr⟩ | ⟨_, _, hr⟩
  · have hr : rest.dropWhile (· != '\n') = r := (Sum.inr.inj hr).symm
    obtain ⟨b, hb⟩ := List.dropWhile_suffix (· != '\n') (l := rest)
    rw [hr] at hb
    have ha : a = white ++ '-' :: '-' :: b := by
      have happ : a ++ r = (white ++ '-' :: '-' :: b) ++ r := by
        rw [hsplit, hline, ← hb]
        simp
      exact List.append_cancel_right happ
    have hend := local_dropWhile (· != '\n') b r r' hcut (by rw [hb, hr])
    rw [ha, List.append_assoc, List.cons_append, List.cons_append,
      skipStep_line (hwhite ('-' :: '-' :: (b ++ r')) (by rintro _ ⟨⟩; decide)), hend]
  · obtain rfl : r = after := Sum.inr.inj hr
    obtain ⟨b, rfl, -, hb⟩ := skipBlock_spec hafter
    have ha : a = white ++ '/' :: '*' :: b := by
      have happ : a ++ r = (white ++ '/' :: '*' :: b) ++ r := by
        rw [hsplit, hblock]
        simp
      exact List.append_cancel_right happ
    rw [ha, List.append_assoc, List.cons_append, List.cons_append,
      skipStep_block (hwhite ('/' :: '*' :: (b ++ r')) (by rintro _ ⟨⟩; decide)) (hb r')]
  · cases hr

lemma skipIgnored_of_round {text next : Text} (h : skipStep text = .ok (.inr next)) :
    skipIgnored text = skipIgnored next := Loop.run_of_round h

lemma skipIgnored_of_stop {text rest : Text} (h : skipStep text = .ok (.inl rest)) :
    skipIgnored text = .ok rest := Loop.run_of_stop h

lemma skipIgnored_cut {a r r' : Text} (hcut : CutAt r r') (h : skipIgnored (a ++ r) = .ok r) :
    skipIgnored (a ++ r') = .ok r' := by
  refine Loop.run_induction
    (P := fun text => ∀ a, text = a ++ r → skipIgnored (a ++ r') = .ok r') ?_ ?_ h a rfl
  · rintro text hstop a rfl
    exact skipIgnored_of_stop (skipStep_cut_stop hcut hstop)
  · rintro text next hround hrun ih a rfl
    obtain ⟨b, rfl⟩ := skipIgnored_suffix hrun
    obtain ⟨a, rfl⟩ : ∃ a', a = a' ++ b := by
      obtain ⟨a', ha⟩ := skipStep_suffix hround
      exact ⟨a', (List.append_cancel_right (by rw [List.append_assoc]; exact ha)).symm⟩
    rw [List.append_assoc] at hround ⊢
    rw [skipIgnored_of_round (skipStep_cut_round (hcut.append b) hround)]
    exact ih b rfl

lemma token_cut {c : Char} {a r r' : Text} {t : Token} (hcut : CutAt r r')
    (h : token c (a ++ r) = .ok (t, r)) : token c (a ++ r') = .ok (t, r') := by
  have hhead : (a ++ r').head? = (a ++ r).head? := (hcut.append a).head_eq
  have hquoted {quote : Char} {description : String} {value : Text} (hne : quote ≠ ';')
      (h : quoted quote description (a ++ r) = .ok (value, r)) :
      quoted quote description (a ++ r') = .ok (value, r') := by
    obtain ⟨b, hb, -, hr, happ⟩ := quoted_spec h
    rw [List.append_cancel_right hb]
    exact happ r' (by rw [hcut.head_eq]; exact hr)
  rw [token] at h ⊢
  rw [hhead]
  split at h
  · next t' both hsymbol =>
    obtain ⟨rfl, htail⟩ := Prod.mk.inj (Except.ok.inj h)
    rw [Except.ok.injEq, Prod.mk.injEq]
    refine ⟨rfl, ?_⟩
    cases both with
    | true =>
      rw [if_pos rfl] at htail ⊢
      rcases a with _ | ⟨d, _ | ⟨_, a⟩⟩
      · obtain ⟨y, v, rfl, rfl⟩ := hcut
        exact absurd (congrArg List.length htail) (by simp)
      · rfl
      · have := congrArg List.length htail
        rw [List.cons_append, List.tail_cons, List.length_append, List.length_cons] at this
        omega
    | false =>
      rw [if_neg Bool.false_ne_true] at htail ⊢
      rw [List.append_left_eq_self.mp htail]
      rfl
  · split_ifs at h ⊢ with hname hstring hplace hnumber hminus hident
    · obtain ⟨⟨value, after⟩, hvalue, h⟩ := Except.bind_eq_ok.mp h
      obtain ⟨rfl, rfl⟩ := Prod.mk.inj (Except.ok.inj h)
      exact Except.bind_eq_ok.mpr ⟨(value, r'), hquoted (by decide) hvalue, rfl⟩
    · obtain ⟨⟨value, after⟩, hvalue, h⟩ := Except.bind_eq_ok.mp h
      obtain ⟨rfl, rfl⟩ := Prod.mk.inj (Except.ok.inj h)
      exact Except.bind_eq_ok.mpr ⟨(value, r'), hquoted (by decide) hvalue, rfl⟩
    · obtain ⟨rfl, hend⟩ := Prod.mk.inj (Except.ok.inj h)
      have hend' := local_dropWhile Char.isDigit a r r' hcut hend
      rw [placeholder, hend', takeWhile_of_dropWhile hend, takeWhile_of_dropWhile hend']
    · obtain ⟨rfl, hend⟩ := Prod.mk.inj (Except.ok.inj h)
      have hend' := local_numberEnd (c :: a) r r' hcut hend
      change numberEnd (c :: a ++ r) = r at hend
      rw [number, ← List.cons_append, ← List.cons_append, hend, hend', List.length_append,
        List.length_append, Nat.add_sub_cancel, Nat.add_sub_cancel, List.take_left, List.take_left]
    · obtain ⟨rfl, hend⟩ := Prod.mk.inj (Except.ok.inj h)
      rw [List.append_left_eq_self.mp hend]
      rfl
    · obtain ⟨rfl, hend⟩ := Prod.mk.inj (Except.ok.inj h)
      have hend' := local_dropWhile isIdentifierContinue a r r' hcut hend
      rw [identifier, hend', takeWhile_of_dropWhile hend, takeWhile_of_dropWhile hend']
    · obtain ⟨rfl, hend⟩ := Prod.mk.inj (Except.ok.inj h)
      rw [List.append_left_eq_self.mp hend]
      rfl

lemma utf8_singleton_semicolon : utf8 [';'] = [byte ';'] := by decide

/-- A delimiter is read up to its second dollar sign. -/
lemma dollarDelimiter_append {p body delimiter : Script} (body' : Script)
    (h : dollarDelimiter (p ++ body) = some (delimiter, body)) :
    dollarDelimiter (p ++ body') = some (delimiter, body') := by
  obtain ⟨hsplit, rfl, htag⟩ := dollarDelimiter_eq_some h
  generalize htaken : (p ++ body).takeWhile isTagByte = tag at *
  have hall : ∀ b ∈ tag, isTagByte b = true := by
    rw [← htaken]
    exact List.all_eq_true.mp (List.all_takeWhile (l := p ++ body))
  have hp : p = tag ++ [byte '$'] := by
    rw [← List.singleton_append, ← List.append_assoc] at hsplit
    exact List.append_cancel_right hsplit
  have hdrop : (tag ++ byte '$' :: body').dropWhile isTagByte = byte '$' :: body' :=
    dropWhile_append_eq_iff.mpr ⟨hall, by rintro _ ⟨⟩; decide⟩
  rw [hp, List.append_assoc, List.singleton_append, dollarDelimiter, hdrop,
    takeWhile_of_dropWhile hdrop]
  exact if_pos ⟨rfl, htag⟩

/-- The first place of a delimiter stays the first when what follows it changes. -/
lemma scanDollarQuote_spec {delimiter bytes r : Script} (hne : delimiter ≠ [])
    (h : scanDollarQuote delimiter bytes = .ok r) :
    ∃ q, bytes = q ++ r ∧ delimiter <:+ q ∧ ∀ r', scanDollarQuote delimiter (q ++ r') = .ok r' := by
  fun_induction scanDollarQuote delimiter bytes with
  | case1 => exact absurd (by assumption) hne
  | case2 => cases h
  | case3 b rest hprefix =>
    obtain rfl := Except.ok.inj h
    obtain ⟨r, hr⟩ := List.isPrefixOf_iff_prefix.mp hprefix
    rw [← hr, List.drop_left]
    refine ⟨delimiter, rfl, List.suffix_refl _, fun r' => ?_⟩
    obtain ⟨d, delimiter, rfl⟩ := List.exists_cons_of_ne_nil hne
    rw [List.cons_append, scanDollarQuote, ← List.cons_append, if_pos, List.drop_left]
    exact List.isPrefixOf_iff_prefix.mpr (List.prefix_append _ _)
  | case4 b rest hprefix ih =>
    obtain ⟨q, rfl, hend, hq⟩ := ih h
    refine ⟨b :: q, rfl, hend.trans (List.suffix_cons _ _), fun r' => ?_⟩
    rw [List.cons_append, scanDollarQuote, if_neg, hq]
    rw [List.isPrefixOf_iff_prefix, ← List.cons_append] at hprefix ⊢
    intro hprefix'
    have hle : delimiter.length ≤ (b :: q).length := by
      have := hend.length_le
      rw [List.length_cons]
      omega
    have hinside : delimiter <+: b :: q :=
      List.prefix_of_prefix_length_le hprefix' (List.prefix_append _ _) hle
    exact hprefix (hinside.trans (List.prefix_append _ _))

/-- A semicolon opens and closes no delimiter. -/
lemma opensDollar_cut {c : Char} {a r r' : Text} (hcut : CutAt r r') (h : opensDollar c (a ++ r')) :
    opensDollar c (a ++ r) := by
  obtain ⟨rfl, hopens⟩ := h
  obtain ⟨⟨delimiter, body⟩, hopens⟩ := Option.isSome_iff_exists.mp hopens
  obtain ⟨y, v, rfl, rfl⟩ := hcut
  obtain ⟨hsplit, -, -⟩ := dollarDelimiter_eq_some hopens
  generalize (utf8 (a ++ (y ++ [';']))).takeWhile isTagByte = tag at hsplit
  rw [← List.append_assoc, utf8_append, utf8_singleton_semicolon] at hsplit hopens
  refine ⟨rfl, ?_⟩
  rcases List.eq_nil_or_concat body with rfl | ⟨b, last, rfl⟩
  · exact absurd (List.append_inj' hsplit rfl).2 (by decide)
  · rw [List.concat_eq_append] at hsplit hopens
    rw [← List.cons_append, ← List.append_assoc] at hsplit
    obtain ⟨hm, -⟩ := List.append_inj' hsplit rfl
    rw [← List.singleton_append, ← List.append_assoc] at hm
    rw [hm, List.append_assoc, ← (List.append_inj' hsplit rfl).2] at hopens
    rw [← List.append_assoc, utf8_append, hm, List.append_assoc, dollarDelimiter_append _ hopens]
    rfl

/-! ### The lexemes of a piece -/

lemma Lexes.exists_split {dollars : Bool} {text : Text} {before after : List Lexeme} {l : Lexeme}
    (h : Lexes dollars text (before ++ l :: after)) :
    Lexes dollars l.rest after ∧ l.rest <:+ text := by
  induction before generalizing text with
  | nil =>
    cases h with
    | token hskip hdollar htoken hmore =>
      exact ⟨hmore, ((token_suffix htoken).trans (List.suffix_cons _ _)).trans
        (skipIgnored_suffix hskip)⟩
    | body hdollars hskip hopens hscan hsuffix hmore =>
      exact ⟨hmore, (hsuffix.trans (List.suffix_cons _ _)).trans (skipIgnored_suffix hskip)⟩
  | cons first before ih =>
    cases h with
    | token hskip hdollar htoken hmore =>
      obtain ⟨hafter, hrest⟩ := ih hmore
      exact ⟨hafter, hrest.trans (((token_suffix htoken).trans (List.suffix_cons _ _)).trans
        (skipIgnored_suffix hskip))⟩
    | body hdollars hskip hopens hscan hsuffix hmore =>
      obtain ⟨hafter, hrest⟩ := ih hmore
      exact ⟨hafter, hrest.trans ((hsuffix.trans (List.suffix_cons _ _)).trans
        (skipIgnored_suffix hskip))⟩

/-- A parenthesis or a semicolon is one character. -/
lemma token_single {c : Char} {rest after : Text} {t : Token} (h : token c rest = .ok (t, after))
    (ht : t = .lParen ∨ t = .rParen ∨ t = .semicolon) :
    after = rest ∧ (c = '(' ∧ t = .lParen ∨ c = ')' ∧ t = .rParen ∨ c = ';' ∧ t = .semicolon) := by
  rw [token] at h
  split at h
  · next t' both hsymbol =>
    obtain ⟨rfl, rfl⟩ := Prod.mk.inj (Except.ok.inj h)
    rcases symbol_cases hsymbol with ⟨rfl, hc⟩ | ⟨-, hopen, hclose, hend, -⟩
    · exact ⟨rfl, hc⟩
    · exact absurd ht (by simp [hopen, hclose, hend])
  · split_ifs at h
    · obtain ⟨_, -, h⟩ := Except.bind_eq_ok.mp h
      cases h
      simp at ht
    · obtain ⟨_, -, h⟩ := Except.bind_eq_ok.mp h
      cases h
      simp at ht
    all_goals
      obtain ⟨rfl, -⟩ := Prod.mk.inj (Except.ok.inj h)
      simp at ht

/-- A text cut behind a semicolon has the lexemes it had up to there. -/
lemma Lexes.cut {dollars : Bool} {text : Text} {before after : List Lexeme} {l : Lexeme}
    (hl : l.token = .semicolon) (h : Lexes dollars text (before ++ l :: after)) :
    ∃ y lexemes, text = y ++ ';' :: l.rest ∧ Lexes dollars (y ++ [';']) lexemes ∧
      lexemes.map (fun lexeme => lexeme.token) =
        before.map (fun lexeme => lexeme.token) ++ [.semicolon] := by
  induction before generalizing text with
  | nil =>
    cases h with
    | @token _ rest rest' c t _ hskip hdollar htoken hmore =>
      change t = .semicolon at hl
      subst hl
      obtain ⟨rfl, ⟨-, h⟩ | ⟨-, h⟩ | ⟨rfl, -⟩⟩ := token_single htoken (.inr (.inr rfl))
      · cases h
      · cases h
      obtain ⟨y, rfl⟩ := skipIgnored_suffix hskip
      have hcut : CutAt (';' :: rest') [';'] := ⟨[], rest', rfl, rfl⟩
      refine ⟨y, [⟨[';'], .semicolon, []⟩], rfl, ?_, rfl⟩
      refine .token (skipIgnored_cut hcut hskip) ?_ rfl (.done (skipIgnored_of_stop (skipStep_stop rfl rfl)))
      exact fun _ h => absurd h.1 (by decide)
    | body => cases hl
  | cons first before ih =>
    cases h with
    | @token _ rest rest' c t _ hskip hdollar htoken hmore =>
      obtain ⟨y, lexemes, rfl, hlexes, htokens⟩ := ih hmore
      have hcut : CutAt (y ++ ';' :: l.rest) (y ++ [';']) := ⟨y, l.rest, rfl, rfl⟩
      obtain ⟨a, rfl⟩ := token_suffix htoken
      obtain ⟨gap, rfl⟩ := skipIgnored_suffix hskip
      refine ⟨gap ++ c :: (a ++ y), ⟨c :: (a ++ (y ++ [';'])), t, y ++ [';']⟩ :: lexemes, ?_, ?_, ?_⟩
      · simp
      · have hskip' := skipIgnored_cut (hcut.append (c :: a)) hskip
        have htext : gap ++ c :: (a ++ y) ++ [';'] = gap ++ (c :: a ++ (y ++ [';'])) := by simp
        rw [htext]
        exact .token hskip' (fun hd h => hdollar hd (opensDollar_cut hcut h))
          (token_cut hcut htoken) hlexes
      · rw [List.map_cons, List.map_cons, htokens]
        rfl
    | @body _ rest rest' delimiter body _ hdollars hskip hopens hscan hsuffix hmore =>
      obtain ⟨y, lexemes, rfl, hlexes, htokens⟩ := ih hmore
      have hcut : CutAt (y ++ ';' :: l.rest) (y ++ [';']) := ⟨y, l.rest, rfl, rfl⟩
      obtain ⟨a, rfl⟩ := hsuffix
      obtain ⟨gap, rfl⟩ := skipIgnored_suffix hskip
      refine ⟨gap ++ '$' :: (a ++ y), ⟨'$' :: (a ++ (y ++ [';'])), .other, y ++ [';']⟩ :: lexemes,
        ?_, ?_, ?_⟩
      · simp
      · have hskip' := skipIgnored_cut (hcut.append ('$' :: a)) hskip
        have htext : gap ++ '$' :: (a ++ y) ++ [';'] = gap ++ ('$' :: a ++ (y ++ [';'])) := by simp
        obtain ⟨hsplit, hdelimiter, -⟩ := dollarDelimiter_eq_some hopens
        obtain ⟨q, hq, -, hscan'⟩ := scanDollarQuote_spec (by rw [hdelimiter]; simp) hscan
        have hopened : dollarDelimiter (utf8 (a ++ (y ++ [';']))) =
            some (delimiter, q ++ utf8 (y ++ [';'])) := by
          rw [hq, utf8_append] at hopens hsplit
          generalize (utf8 a ++ utf8 (y ++ ';' :: l.rest)).takeWhile isTagByte = tag at hsplit
          have ha : utf8 a = tag ++ byte '$' :: q :=
            List.append_cancel_right (hsplit.trans (by simp))
          rw [ha, ← List.singleton_append, ← List.append_assoc, List.append_assoc] at hopens
          rw [utf8_append, ha, ← List.singleton_append, ← List.append_assoc, List.append_assoc]
          exact dollarDelimiter_append _ hopens
        rw [htext]
        exact .body hdollars hskip' hopened (hscan' _) (List.suffix_append _ _) hlexes
      · rw [List.map_cons, List.map_cons, htokens]
        rfl

end Lexer
end TinyJoin
