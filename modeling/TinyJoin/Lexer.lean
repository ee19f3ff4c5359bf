import TinyJoin.Lib.Loop
import TinyJoin.RecordCodec

/-! The SQL lexer, which reads a statement's text as tokens. A text is its characters, and a
position in one is the text that is left from there. -/
namespace TinyJoin

def EngineError.invalidQuery (message : String) : EngineError := ⟨"INVALID_QUERY", message⟩
def EngineError.parseError (message : String) : EngineError := ⟨"SQL_PARSE_ERROR", message⟩

def maxSqlTokens : Nat := 4 * 1024
def maxCommentDepth : Nat := 32

inductive Token where
  | identifier (value : String) (quoted : Bool)
  | column (name : String)
  | string (value : String)
  | number (text : String)
  | placeholder (digits : String)
  | star | comma | dot | plus | minus | slash | percent | concat
  | eq | neq | lt | lte | gt | gte
  | lParen | rParen | semicolon | cast | other
deriving DecidableEq, Repr

def isIdentifierStart (c : Char) : Bool := c == '_' || c.isAlpha || 128 ≤ c.toNat

def isIdentifierContinue (c : Char) : Bool := isIdentifierStart c || c.isDigit || c == '$'

namespace Lexer

abbrev Text : Type := List Char

/-! ### What stands between tokens -/

/-- What follows a block comment, read from inside `depth` of its levels. -/
def skipBlock : Nat → Text → Result Text
  | 0, text => .ok text
  | _ + 1, [] => .error (.parseError "Unterminated block comment in SQL text")
  | depth + 1, [_] => skipBlock (depth + 1) []
  | depth + 1, c :: d :: rest =>
    if c = '/' ∧ d = '*' then
      if maxCommentDepth < depth + 2 then
        .error (.invalidQuery s!"SQL comments cannot nest more than {maxCommentDepth} levels")
      else skipBlock (depth + 2) rest
    else if c = '*' ∧ d = '/' then skipBlock depth rest
    else skipBlock (depth + 1) (d :: rest)

def startsWith (c d : Char) (text : Text) : Bool := text.take 2 == [c, d]

/-- Skips white space, and then a comment, if one is next: it goes on from what follows the comment,
or ends where there is none. -/
def skipStep (text : Text) : Result (Text ⊕ Text) :=
  let text := text.dropWhile isWhitespace
  if startsWith '-' '-' text then .ok (.inr (text.dropWhile (· != '\n')))
  else if startsWith '/' '*' text then do return .inr (← skipBlock 1 (text.drop 2))
  else .ok (.inl text)

lemma length_dropWhile_le {α : Type} (p : α → Bool) (l : List α) :
    (l.dropWhile p).length ≤ l.length :=
  (List.dropWhile_suffix p).sublist.length_le

lemma skipBlock_suffix {depth : Nat} {text rest : Text} (h : skipBlock depth text = .ok rest) :
    rest <:+ text := by
  fun_induction skipBlock depth text with
  | case1 text =>
    obtain rfl := Except.ok.inj h
    exact List.suffix_refl _
  | case2 => cases h
  | case3 depth c ih => exact (ih h).trans (List.suffix_cons _ _)
  | case4 => cases h
  | case5 depth c d rest' _ _ ih =>
    exact (ih h).trans ((List.suffix_cons _ _).trans (List.suffix_cons _ _))
  | case6 depth c d rest' _ _ ih =>
    exact (ih h).trans ((List.suffix_cons _ _).trans (List.suffix_cons _ _))
  | case7 depth c d rest' _ _ ih => exact (ih h).trans (List.suffix_cons _ _)

lemma startsWith_eq_true {c d : Char} {text : Text} :
    startsWith c d text = true ↔ ∃ rest, text = c :: d :: rest := by
  rw [startsWith, beq_iff_eq]
  constructor
  · intro h
    match text, h with
    | _ :: _ :: rest, h =>
      obtain ⟨hc, hd⟩ := List.cons.inj h
      exact ⟨rest, by rw [hc, (List.cons.inj hd).1]⟩
  · rintro ⟨rest, rfl⟩
    rfl

/-- What one round of skipping makes of a text. -/
lemma skipStep_cases {text : Text} {next : Text ⊕ Text} (h : skipStep text = .ok next) :
    (∃ rest, text.dropWhile isWhitespace = '-' :: '-' :: rest ∧
      next = .inr (rest.dropWhile (· != '\n'))) ∨
    (∃ rest after, text.dropWhile isWhitespace = '/' :: '*' :: rest ∧
      skipBlock 1 rest = .ok after ∧ next = .inr after) ∨
    (startsWith '-' '-' (text.dropWhile isWhitespace) = false ∧
      startsWith '/' '*' (text.dropWhile isWhitespace) = false ∧
      next = .inl (text.dropWhile isWhitespace)) := by
  rw [skipStep] at h
  split_ifs at h with hline hblock
  · obtain ⟨rest, hrest⟩ := startsWith_eq_true.mp hline
    refine .inl ⟨rest, hrest, ?_⟩
    rw [← Except.ok.inj h, hrest]
    rfl
  · obtain ⟨rest, hrest⟩ := startsWith_eq_true.mp hblock
    obtain ⟨after, hafter, h⟩ := Except.bind_eq_ok.mp h
    rw [hrest] at hafter
    exact .inr (.inl ⟨rest, after, hrest, hafter, (Except.ok.inj h).symm⟩)
  · exact .inr (.inr ⟨Bool.eq_false_iff.mpr hline, Bool.eq_false_iff.mpr hblock,
      (Except.ok.inj h).symm⟩)

lemma skipStep_suffix {text rest : Text} (h : skipStep text = .ok (.inr rest)) : rest <:+ text := by
  refine .trans ?_ (List.dropWhile_suffix isWhitespace)
  rcases skipStep_cases h with ⟨line, hline, hrest⟩ | ⟨block, after, hblock, hafter, hrest⟩ |
      ⟨-, -, hrest⟩
  · cases hrest
    rw [hline]
    exact (List.dropWhile_suffix _).trans ((List.suffix_cons _ _).trans (List.suffix_cons _ _))
  · cases hrest
    rw [hblock]
    exact (skipBlock_suffix hafter).trans ((List.suffix_cons _ _).trans (List.suffix_cons _ _))
  · cases hrest

lemma skipStep_shrinks : Loop.Shrinks List.length skipStep := by
  intro text rest h
  have hle := length_dropWhile_le isWhitespace text
  rcases skipStep_cases h with ⟨line, hline, hrest⟩ | ⟨block, after, hblock, hafter, hrest⟩ |
      ⟨-, -, hrest⟩
  · cases hrest
    rw [hline, List.length_cons, List.length_cons] at hle
    have := length_dropWhile_le (· != '\n') line
    omega
  · cases hrest
    rw [hblock, List.length_cons, List.length_cons] at hle
    have := (skipBlock_suffix hafter).length_le
    omega
  · cases hrest

def skipIgnored (text : Text) : Result Text := Loop.run List.length skipStep skipStep_shrinks text

/-! ### Tokens -/

/-- The value of a quoted part, read from behind its opening quote, and what follows it. A doubled
quote stands for one. -/
def quoted (quote : Char) (description : String) : Text → Result (Text × Text)
  | [] => .error (.parseError s!"Unterminated {description} in SQL text")
  | [c] =>
    if c = quote then .ok ([], [])
    else .error (.parseError s!"Unterminated {description} in SQL text")
  | c :: d :: rest =>
    if c = quote then
      if d = quote then do
        let (value, after) ← quoted quote description rest
        return (quote :: value, after)
      else .ok ([], d :: rest)
    else do
      let (value, after) ← quoted quote description (d :: rest)
      return (c :: value, after)

def quotedIdentifier (rest : Text) : Result (Token × Text) := do
  let (value, after) ← quoted '"' "quoted identifier" rest
  return (.identifier (String.ofList value) true, after)

def stringLiteral (rest : Text) : Result (Token × Text) := do
  let (value, after) ← quoted '\'' "string literal" rest
  return (.string (String.ofList value), after)

def placeholder (rest : Text) : Token × Text :=
  (.placeholder (String.ofList (rest.takeWhile Char.isDigit)), rest.dropWhile Char.isDigit)

def skipChar (p : Char → Bool) : Text → Text
  | [] => []
  | c :: rest => if p c then rest else c :: rest

def skipFraction : Text → Text
  | [] => []
  | c :: rest => if c = '.' then rest.dropWhile Char.isDigit else c :: rest

def skipExponent : Text → Text
  | [] => []
  | c :: rest =>
    if c = 'e' ∨ c = 'E' then
      (skipChar (fun s => s == '+' || s == '-') rest).dropWhile Char.isDigit
    else c :: rest

/-- What follows a number. -/
def numberEnd (text : Text) : Text :=
  skipExponent (skipFraction ((skipChar (· == '-') text).dropWhile Char.isDigit))

def number (text : Text) : Token × Text :=
  (.number (String.ofList (text.take (text.length - (numberEnd text).length))), numberEnd text)

def identifier (c : Char) (rest : Text) : Token × Text :=
  (.identifier (String.ofList (c :: rest.takeWhile isIdentifierContinue)) false,
    rest.dropWhile isIdentifierContinue)

/-- The token that a character, or two, stand for, and whether it takes both. -/
def symbol (c : Char) (next : Option Char) : Option (Token × Bool) :=
  match c with
  | '*' => some (.star, false)
  | ',' => some (.comma, false)
  | '.' => some (.dot, false)
  | '+' => some (.plus, false)
  | '/' => some (.slash, false)
  | '%' => some (.percent, false)
  | '|' => if next = some '|' then some (.concat, true) else none
  | '=' => some (.eq, false)
  | '!' => if next = some '=' then some (.neq, true) else none
  | '<' =>
    if next = some '=' then some (.lte, true)
    else if next = some '>' then some (.neq, true)
    else some (.lt, false)
  | '>' => if next = some '=' then some (.gte, true) else some (.gt, false)
  | '(' => some (.lParen, false)
  | ')' => some (.rParen, false)
  | ';' => some (.semicolon, false)
  | ':' => if next = some ':' then some (.cast, true) else none
  | _ => none

/-- The characters a symbol starts with, other than parentheses and the semicolon, and those it can
end with. -/
def symbolChars : List Char := ['*', ',', '.', '+', '/', '%', '|', '=', '!', '<', '>', ':']

lemma symbol_cases {c : Char} {next : Option Char} {t : Token} {both : Bool}
    (h : symbol c next = some (t, both)) :
    (both = false ∧ (c = '(' ∧ t = .lParen ∨ c = ')' ∧ t = .rParen ∨ c = ';' ∧ t = .semicolon)) ∨
    (c ∈ symbolChars ∧ t ≠ .lParen ∧ t ≠ .rParen ∧ t ≠ .semicolon ∧
      (both = true → ∃ d ∈ ['|', '=', '>', ':'], next = some d)) := by
  unfold symbol at h
  split at h
  all_goals try split_ifs at h
  all_goals first
    | cases h; done
    | (obtain ⟨rfl, rfl⟩ := Prod.mk.inj (Option.some.inj h); simp_all [symbolChars])

/-- Reads the token that a character starts. -/
def token (c : Char) (rest : Text) : Result (Token × Text) :=
  match symbol c rest.head? with
  | some (token, both) => .ok (token, if both then rest.tail else rest)
  | none =>
    if c = '"' then quotedIdentifier rest
    else if c = '\'' then stringLiteral rest
    else if c = '$' ∧ rest.head?.any Char.isDigit then .ok (placeholder rest)
    else if c.isDigit ∨ c = '-' ∧ rest.head?.any Char.isDigit then .ok (number (c :: rest))
    else if c = '-' then .ok (.minus, rest)
    else if isIdentifierStart c then .ok (identifier c rest)
    else .ok (.other, rest)

/-- Reads the next token of a text, if it has one left. -/
def nextToken (text : Text) : Result (Option (Token × Text)) := do
  match ← skipIgnored text with
  | [] => return none
  | c :: rest => return some (← token c rest)

def push (tokens : List Token) (token : Token) : Result (List Token) :=
  if maxSqlTokens ≤ tokens.length then
    .error (.invalidQuery s!"SQL text exceeds the {maxSqlTokens}-token limit")
  else .ok (tokens ++ [token])

def tokenizeStep (state : Text × List Token) : Result (List Token ⊕ (Text × List Token)) := do
  match ← nextToken state.1 with
  | none => return .inl state.2
  | some (token, rest) => return .inr (rest, ← push state.2 token)

/-! ### What is read is dropped from the text -/

lemma skipIgnored_suffix {text rest : Text} (h : skipIgnored text = .ok rest) : rest <:+ text := by
  refine Loop.run_induction (P := fun text => rest <:+ text) ?_ ?_ h
  · intro text hstop
    rcases skipStep_cases hstop with ⟨_, _, hrest⟩ | ⟨_, _, _, _, hrest⟩ | ⟨-, -, hrest⟩
    · cases hrest
    · cases hrest
    · cases hrest
      exact List.dropWhile_suffix _
  · intro text next hround _ hsuffix
    exact hsuffix.trans (skipStep_suffix hround)

lemma quoted_suffix {quote : Char} {description : String} {text value after : Text}
    (h : quoted quote description text = .ok (value, after)) : after <:+ text := by
  fun_induction quoted quote description text generalizing value with
  | case1 => cases h
  | case2 =>
    obtain ⟨-, rfl⟩ := Prod.mk.inj (Except.ok.inj h)
    exact List.nil_suffix
  | case3 => cases h
  | case4 rest ih =>
    obtain ⟨⟨value', after'⟩, hrest, h⟩ := Except.bind_eq_ok.mp h
    obtain ⟨-, rfl⟩ := Prod.mk.inj (Except.ok.inj h)
    exact (ih hrest).trans ((List.suffix_cons _ _).trans (List.suffix_cons _ _))
  | case5 d rest =>
    obtain ⟨-, rfl⟩ := Prod.mk.inj (Except.ok.inj h)
    exact List.suffix_cons _ _
  | case6 c d rest _ ih =>
    obtain ⟨⟨value', after'⟩, hrest, h⟩ := Except.bind_eq_ok.mp h
    obtain ⟨-, rfl⟩ := Prod.mk.inj (Except.ok.inj h)
    exact (ih hrest).trans (List.suffix_cons _ _)

lemma skipChar_suffix (p : Char → Bool) (text : Text) : skipChar p text <:+ text := by
  cases text with
  | nil => exact List.suffix_refl _
  | cons c rest =>
    rw [skipChar]
    split_ifs
    · exact List.suffix_cons _ _
    · exact List.suffix_refl _

lemma skipFraction_suffix (text : Text) : skipFraction text <:+ text := by
  cases text with
  | nil => exact List.suffix_refl _
  | cons c rest =>
    rw [skipFraction]
    split_ifs
    · exact (List.dropWhile_suffix _).trans (List.suffix_cons _ _)
    · exact List.suffix_refl _

lemma skipExponent_suffix (text : Text) : skipExponent text <:+ text := by
  cases text with
  | nil => exact List.suffix_refl _
  | cons c rest =>
    rw [skipExponent]
    split_ifs
    · exact ((List.dropWhile_suffix _).trans (skipChar_suffix _ _)).trans (List.suffix_cons _ _)
    · exact List.suffix_refl _

/-- A number takes the digit, or the sign, it starts with. -/
lemma numberEnd_suffix {c : Char} {rest : Text} (h : c.isDigit ∨ c = '-') :
    numberEnd (c :: rest) <:+ rest := by
  refine (skipExponent_suffix _).trans ((skipFraction_suffix _).trans ?_)
  rw [skipChar]
  split_ifs with hsign
  · exact List.dropWhile_suffix _
  · have hdigit : c.isDigit = true := h.resolve_right (fun hc => hsign (beq_iff_eq.mpr hc))
    rw [List.dropWhile_cons_of_pos hdigit]
    exact List.dropWhile_suffix _

lemma token_suffix {c : Char} {rest after : Text} {t : Token} (h : token c rest = .ok (t, after)) :
    after <:+ rest := by
  rw [token] at h
  split at h
  · obtain ⟨-, rfl⟩ := Prod.mk.inj (Except.ok.inj h)
    split_ifs
    · exact List.tail_suffix _
    · exact List.suffix_refl _
  · split_ifs at h with hname hstring hplace hnumber hminus hident
    · obtain ⟨⟨value, after'⟩, hquoted, h⟩ := Except.bind_eq_ok.mp h
      obtain ⟨-, rfl⟩ := Prod.mk.inj (Except.ok.inj h)
      exact quoted_suffix hquoted
    · obtain ⟨⟨value, after'⟩, hquoted, h⟩ := Except.bind_eq_ok.mp h
      obtain ⟨-, rfl⟩ := Prod.mk.inj (Except.ok.inj h)
      exact quoted_suffix hquoted
    · obtain ⟨-, rfl⟩ := Prod.mk.inj (Except.ok.inj h)
      exact List.dropWhile_suffix _
    · obtain ⟨-, rfl⟩ := Prod.mk.inj (Except.ok.inj h)
      exact numberEnd_suffix (hnumber.imp_right And.left)
    · obtain ⟨-, rfl⟩ := Prod.mk.inj (Except.ok.inj h)
      exact List.suffix_refl _
    · obtain ⟨-, rfl⟩ := Prod.mk.inj (Except.ok.inj h)
      exact List.dropWhile_suffix _
    · obtain ⟨-, rfl⟩ := Prod.mk.inj (Except.ok.inj h)
      exact List.suffix_refl _

lemma nextToken_eq_some {text rest : Text} {t : Token} :
    nextToken text = .ok (some (t, rest)) ↔
      ∃ c after, skipIgnored text = .ok (c :: after) ∧ token c after = .ok (t, rest) := by
  rw [nextToken, Except.bind_eq_ok]
  constructor
  · rintro ⟨skipped, hskip, h⟩
    cases skipped with
    | nil => cases h
    | cons c after =>
      obtain ⟨read, hread, h⟩ := Except.bind_eq_ok.mp h
      exact ⟨c, after, hskip, by rw [hread, Option.some.inj (Except.ok.inj h)]⟩
  · rintro ⟨c, after, hskip, htoken⟩
    refine ⟨c :: after, hskip, ?_⟩
    rw [Except.bind_eq_ok]
    exact ⟨(t, rest), htoken, rfl⟩

lemma nextToken_eq_none {text : Text} : nextToken text = .ok none ↔ skipIgnored text = .ok [] := by
  rw [nextToken, Except.bind_eq_ok]
  constructor
  · rintro ⟨skipped, hskip, h⟩
    cases skipped with
    | nil => exact hskip
    | cons c after =>
      obtain ⟨read, -, h⟩ := Except.bind_eq_ok.mp h
      cases h
  · exact fun h => ⟨[], h, rfl⟩

lemma nextToken_shrinks {text rest : Text} {t : Token} (h : nextToken text = .ok (some (t, rest))) :
    rest.length < text.length := by
  obtain ⟨c, after, hskip, htoken⟩ := nextToken_eq_some.mp h
  have hskipped := (skipIgnored_suffix hskip).length_le
  have htaken := (token_suffix htoken).length_le
  rw [List.length_cons] at hskipped
  omega

lemma push_eq_ok {tokens pushed : List Token} {t : Token} :
    push tokens t = .ok pushed ↔ tokens.length < maxSqlTokens ∧ tokens ++ [t] = pushed := by
  rw [push, Except.ite_error_eq_ok, Nat.not_le, Except.ok.injEq]

/-- What one round of the lexer does. -/
lemma tokenizeStep_eq_ok {text : Text} {tokens : List Token}
    {next : List Token ⊕ (Text × List Token)} :
    tokenizeStep (text, tokens) = .ok next ↔
      (nextToken text = .ok none ∧ next = .inl tokens) ∨
      ∃ t rest, nextToken text = .ok (some (t, rest)) ∧ tokens.length < maxSqlTokens ∧
        next = .inr (rest, tokens ++ [t]) := by
  rw [tokenizeStep, Except.bind_eq_ok]
  constructor
  · rintro ⟨read, hread, h⟩
    cases read with
    | none => exact .inl ⟨hread, (Except.ok.inj h).symm⟩
    | some read =>
      obtain ⟨pushed, hpush, h⟩ := Except.bind_eq_ok.mp h
      obtain ⟨hlimit, rfl⟩ := push_eq_ok.mp hpush
      exact .inr ⟨read.1, read.2, hread, hlimit, (Except.ok.inj h).symm⟩
  · rintro (⟨hread, rfl⟩ | ⟨t, rest, hread, hlimit, rfl⟩)
    · exact ⟨none, hread, rfl⟩
    · exact ⟨some (t, rest), hread,
        Except.bind_eq_ok.mpr ⟨tokens ++ [t], push_eq_ok.mpr ⟨hlimit, rfl⟩, rfl⟩⟩

lemma tokenizeStep_shrinks : Loop.Shrinks (fun state => state.1.length) tokenizeStep := by
  rintro ⟨text, tokens⟩ state h
  rcases tokenizeStep_eq_ok.mp h with ⟨-, hnext⟩ | ⟨t, rest, hread, -, hnext⟩
  · cases hnext
  · cases hnext
    exact nextToken_shrinks hread

/-- Reads a text as its tokens. -/
def tokenize (text : Text) : Result (List Token) :=
  Loop.run (fun state => state.1.length) tokenizeStep tokenizeStep_shrinks (text, [])

end Lexer
end TinyJoin
