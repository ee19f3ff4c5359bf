import TinyJoin.Lexer

/-! Splitting a SQL script at the terminators that stand outside parentheses. A script is its UTF-8
bytes, and a position in it the bytes that are left from there. -/
namespace TinyJoin
namespace SqlScript

def maxSqlScriptBytes : Nat := 1024 * 1024
def maxSqlScriptStatements : Nat := 256
def maxCommentDepth : Nat := 32
def maxParenthesisDepth : Nat := 256

abbrev Script : Type := List UInt8

/-- The byte of an ASCII character. -/
def byte (c : Char) : UInt8 := UInt8.ofNat c.toNat

def isAsciiWhitespace (b : UInt8) : Bool := b == 32 || b == 9 || b == 10 || b == 12 || b == 13

def isAsciiAlphabetic (b : UInt8) : Bool := (65 ≤ b && b ≤ 90) || (97 ≤ b && b ≤ 122)

def isTagByte (b : UInt8) : Bool := isAsciiAlphabetic b || (48 ≤ b && b ≤ 57) || b == byte '_'

/-- What follows a quoted part, read from behind its opening quote. -/
def scanQuoted (quote : UInt8) (description : String) : Script → Result Script
  | [] => .error (.parseError s!"Unterminated {description} in SQL text")
  | [b] => if b = quote then .ok [] else scanQuoted quote description []
  | b :: d :: rest =>
    if b = quote then if d = quote then scanQuoted quote description rest else .ok (d :: rest)
    else scanQuoted quote description (d :: rest)

def scanLineComment (bytes : Script) : Script :=
  bytes.dropWhile (fun b => b != byte '\n' && b != byte '\r')

/-- What follows a block comment, read from inside `depth` of its levels. -/
def scanBlockComment : Nat → Script → Result Script
  | 0, bytes => .ok bytes
  | _ + 1, [] => .error (.parseError "Unterminated block comment in SQL text")
  | depth + 1, [_] => scanBlockComment (depth + 1) []
  | depth + 1, b :: d :: rest =>
    if b = byte '/' ∧ d = byte '*' then
      if maxCommentDepth < depth + 2 then
        .error (.invalidQuery s!"SQL comments cannot nest more than {maxCommentDepth} levels")
      else scanBlockComment (depth + 2) rest
    else if b = byte '*' ∧ d = byte '/' then scanBlockComment depth rest
    else scanBlockComment (depth + 1) (d :: rest)

/-- The delimiter that a dollar sign opens, read from behind it, and what follows the delimiter. -/
def dollarDelimiter (rest : Script) : Option (Script × Script) :=
  let tag := rest.takeWhile isTagByte
  match rest.dropWhile isTagByte with
  | [] => none
  | b :: after =>
    if b = byte '$' ∧ tag.head?.all (fun b => isAsciiAlphabetic b || b == byte '_') then
      some (byte '$' :: tag ++ [byte '$'], after)
    else none

/-- What follows the next place a delimiter stands. -/
def scanDollarQuote (delimiter : Script) : Script → Result Script
  | [] =>
    if delimiter = [] then .ok []
    else .error (.parseError "Unterminated dollar-quoted string in SQL text")
  | b :: rest =>
    if delimiter.isPrefixOf (b :: rest) then .ok ((b :: rest).drop delimiter.length)
    else scanDollarQuote delimiter rest

structure SplitState where
  statements : List Script
  /-- The script from where the statement starts. -/
  start : Script
  rest : Script
  parentheses : Nat
  hasSql : Bool

def pushStatement (statements : List Script) (statement : Script) : Result (List Script) :=
  if statements.length = maxSqlScriptStatements then
    .error (.invalidQuery
      s!"A SQL script cannot contain more than {maxSqlScriptStatements} statements")
  else .ok (statements ++ [statement])

namespace SplitState

/-- The state once what is next, which is part of a statement, is scanned. -/
def seen (state : SplitState) (rest : Script) : SplitState := { state with rest, hasSql := true }

/-- The state once what is next, which is no part of a statement, is scanned. -/
def passed (state : SplitState) (rest : Script) : SplitState := { state with rest }

/-- The state behind a terminator. -/
def terminate (state : SplitState) (rest : Script) : Result SplitState :=
  if state.hasSql then do
    let statements ←
      pushStatement state.statements (state.start.take (state.start.length - rest.length))
    return { state with statements, start := rest, rest, hasSql := false }
  else .ok { state with start := rest, rest }

/-- Scans what a byte starts. -/
def scan (state : SplitState) (b : UInt8) (rest : Script) : Result SplitState :=
  if b = byte '\'' then state.seen <$> scanQuoted (byte '\'') "string literal" rest
  else if b = byte '"' then state.seen <$> scanQuoted (byte '"') "quoted identifier" rest
  else if b = byte '-' ∧ rest.head? = some (byte '-') then
    .ok (state.passed (scanLineComment rest.tail))
  else if b = byte '/' ∧ rest.head? = some (byte '*') then
    state.passed <$> scanBlockComment 1 rest.tail
  else if b = byte '$' then
    match dollarDelimiter rest with
    | some (delimiter, body) => state.seen <$> scanDollarQuote delimiter body
    | none => .ok (state.seen rest)
  else if b = byte '(' then
    if maxParenthesisDepth < state.parentheses + 1 then
      .error (.invalidQuery
        s!"SQL parentheses cannot nest more than {maxParenthesisDepth} levels")
    else .ok { state.seen rest with parentheses := state.parentheses + 1 }
  else if b = byte ')' then .ok { state.seen rest with parentheses := state.parentheses - 1 }
  else if b = byte ';' ∧ state.parentheses = 0 then state.terminate rest
  else if isAsciiWhitespace b ∨ b = byte ';' then .ok (state.passed rest)
  else .ok (state.seen rest)

end SplitState

def splitStep (state : SplitState) : Result (List Script ⊕ SplitState) :=
  match state.rest with
  | [] =>
    if state.hasSql then .inl <$> pushStatement state.statements state.start
    else .ok (.inl state.statements)
  | b :: rest => .inr <$> state.scan b rest

/-! ### What is scanned is dropped from the script -/

lemma scanQuoted_suffix {quote : UInt8} {description : String} {bytes rest : Script}
    (h : scanQuoted quote description bytes = .ok rest) : rest <:+ bytes := by
  fun_induction scanQuoted quote description bytes with
  | case1 => cases h
  | case2 =>
    obtain rfl := Except.ok.inj h
    exact List.nil_suffix
  | case3 b _ ih => exact (ih h).trans (List.suffix_cons _ _)
  | case4 rest' ih =>
    exact (ih h).trans ((List.suffix_cons _ _).trans (List.suffix_cons _ _))
  | case5 d rest' _ =>
    obtain rfl := Except.ok.inj h
    exact List.suffix_cons _ _
  | case6 b d rest' _ ih => exact (ih h).trans (List.suffix_cons _ _)

lemma scanBlockComment_suffix {depth : Nat} {bytes rest : Script}
    (h : scanBlockComment depth bytes = .ok rest) : rest <:+ bytes := by
  fun_induction scanBlockComment depth bytes with
  | case1 bytes =>
    obtain rfl := Except.ok.inj h
    exact List.suffix_refl _
  | case2 => cases h
  | case3 depth b ih => exact (ih h).trans (List.suffix_cons _ _)
  | case4 => cases h
  | case5 depth b d rest' _ _ ih =>
    exact (ih h).trans ((List.suffix_cons _ _).trans (List.suffix_cons _ _))
  | case6 depth b d rest' _ _ ih =>
    exact (ih h).trans ((List.suffix_cons _ _).trans (List.suffix_cons _ _))
  | case7 depth b d rest' _ _ ih => exact (ih h).trans (List.suffix_cons _ _)

lemma dollarDelimiter_eq_some {rest delimiter body : Script}
    (h : dollarDelimiter rest = some (delimiter, body)) :
    rest = rest.takeWhile isTagByte ++ byte '$' :: body ∧
      delimiter = byte '$' :: rest.takeWhile isTagByte ++ [byte '$'] ∧
      (rest.takeWhile isTagByte).head?.all (fun b => isAsciiAlphabetic b || b == byte '_') := by
  rw [dollarDelimiter] at h
  split at h
  · cases h
  · next b after hafter =>
    split_ifs at h with hopens
    obtain ⟨rfl, rfl⟩ := Prod.mk.inj (Option.some.inj h)
    refine ⟨?_, rfl, hopens.2⟩
    rw [← hopens.1, ← hafter, List.takeWhile_append_dropWhile]

lemma scanDollarQuote_suffix {delimiter bytes rest : Script}
    (h : scanDollarQuote delimiter bytes = .ok rest) : rest <:+ bytes := by
  fun_induction scanDollarQuote delimiter bytes with
  | case1 =>
    obtain rfl := Except.ok.inj h
    exact List.suffix_refl _
  | case2 => cases h
  | case3 =>
    obtain rfl := Except.ok.inj h
    exact List.drop_suffix _ _
  | case4 b rest' _ ih => exact (ih h).trans (List.suffix_cons _ _)

namespace SplitState

lemma terminate_rest {state next : SplitState} {rest : Script}
    (h : state.terminate rest = .ok next) : next.rest = rest := by
  rw [terminate] at h
  split at h
  · obtain ⟨statements, -, h⟩ := Except.bind_eq_ok.mp h
    rw [← Except.ok.inj h]
  · rw [← Except.ok.inj h]

lemma scan_suffix {state next : SplitState} {b : UInt8} {rest : Script}
    (h : state.scan b rest = .ok next) : next.rest <:+ rest := by
  rw [scan] at h
  split_ifs at h with hstring hname hline hblock hdollar hopen hnest hclose hend hskip
  · obtain ⟨after, hafter, rfl⟩ := Except.map_eq_ok.mp h
    exact scanQuoted_suffix hafter
  · obtain ⟨after, hafter, rfl⟩ := Except.map_eq_ok.mp h
    exact scanQuoted_suffix hafter
  · rw [← Except.ok.inj h]
    exact (List.dropWhile_suffix _).trans (List.tail_suffix _)
  · obtain ⟨after, hafter, rfl⟩ := Except.map_eq_ok.mp h
    exact (scanBlockComment_suffix hafter).trans (List.tail_suffix _)
  · split at h
    · next delimiter body hopens =>
      obtain ⟨after, hafter, rfl⟩ := Except.map_eq_ok.mp h
      rw [(dollarDelimiter_eq_some hopens).1]
      exact (scanDollarQuote_suffix hafter).trans
        ((List.suffix_cons _ _).trans (List.suffix_append _ _))
    · rw [← Except.ok.inj h]
      exact List.suffix_refl _
  · rw [← Except.ok.inj h]
    exact List.suffix_refl _
  · rw [← Except.ok.inj h]
    exact List.suffix_refl _
  · exact (terminate_rest h) ▸ List.suffix_refl _
  · rw [← Except.ok.inj h]
    exact List.suffix_refl _
  · rw [← Except.ok.inj h]
    exact List.suffix_refl _

end SplitState

lemma splitStep_shrinks : Loop.Shrinks (fun state => state.rest.length) splitStep := by
  intro state next h
  rw [splitStep] at h
  split at h
  · split_ifs at h
    · obtain ⟨_, -, h⟩ := Except.map_eq_ok.mp h
      cases h
    · cases h
  · next b rest hrest =>
    obtain ⟨after, hafter, h⟩ := Except.map_eq_ok.mp h
    cases h
    have hle := (SplitState.scan_suffix hafter).length_le
    change next.rest.length < state.rest.length
    rw [hrest, List.length_cons]
    omega

/-- Splits a script into its statements, each with the terminator that ends it. -/
def split (sql : Script) : Result (List Script) :=
  if maxSqlScriptBytes < sql.length then
    .error (.invalidQuery s!"SQL script exceeds the {maxSqlScriptBytes}-byte limit")
  else
    Loop.run (fun state => state.rest.length) splitStep splitStep_shrinks ⟨[], sql, sql, 0, false⟩

end SqlScript
end TinyJoin
