import TinyJoin.KeyOrder
import TinyJoin.Lib.Codewords
import TinyJoin.Lib.Segments

/-! `LIKE`: what it means for a text to match a pattern, and the matcher, which cuts a pattern at its
wildcards for any sequence and looks for each piece behind the one before. Where a piece is literal it is
looked for as bytes. An offset is a number of bytes, and a slice of text that begins inside a character,
or beyond the end, is none. -/
namespace TinyJoin

/-! ## What matches -/

/-- Whether a literal character is matched by a character. -/
def SameCharacter (fold : Bool) (expected character : Char) : Prop :=
  expected = character ∨ fold = true ∧ expected.toLower = character.toLower

/-- Whether a text matches a pattern, whose `escape`, if it has one, makes a literal of what follows. -/
inductive Like (escape : Option Char) (fold : Bool) : List Char → List Char → Prop
  | done : Like escape fold [] []
  | escaped {mark literal character : Char} {pattern text : List Char} (escapes : escape = some mark)
    (same : SameCharacter fold literal character) (rest : Like escape fold pattern text) :
    Like escape fold (mark :: literal :: pattern) (character :: text)
  | sequence {pattern text : List Char} (any : List Char) (plain : escape ≠ some '%')
    (rest : Like escape fold pattern text) : Like escape fold ('%' :: pattern) (any ++ text)
  | any {pattern text : List Char} (character : Char) (plain : escape ≠ some '_')
    (rest : Like escape fold pattern text) : Like escape fold ('_' :: pattern) (character :: text)
  | literal {literal character : Char} {pattern text : List Char} (plain : escape ≠ some literal)
    (sequence : literal ≠ '%') (any : literal ≠ '_') (same : SameCharacter fold literal character)
    (rest : Like escape fold pattern text) : Like escape fold (literal :: pattern) (character :: text)

/-- Whether a pattern does not end with its escape character, as `validate_like` checks. -/
def validPattern (escape : Option Char) : List Char → Bool
  | [] => true
  | character :: rest =>
    if some character = escape then
      match rest with
      | [] => false
      | _ :: rest => validPattern escape rest
    else validPattern escape rest

/-! ## The pattern -/

inductive LikeElement where
  | anyCharacter
  | character (character : Char)
deriving DecidableEq

/-- The character of an element that has one. -/
def LikeElement.literal : LikeElement → Option Char
  | .anyCharacter => none
  | .character literal => some literal

/-- A pattern's segments, each with its text where it has no `_`. -/
structure LikePattern where
  segments : List (List LikeElement)
  literals : List (Option String)
  caseInsensitive : Bool

namespace LikePattern

/-- The segments of a pattern, behind the one that has been begun. -/
def segmentsFrom (escape : Option Char) (segment : List LikeElement) :
    List Char → List (List LikeElement)
  | [] => [segment]
  | character :: rest =>
    if some character = escape then
      match rest with
      | [] => [segment]
      | escaped :: rest => segmentsFrom escape (segment ++ [.character escaped]) rest
    else if character = '%' then segment :: segmentsFrom escape [] rest
    else if character = '_' then segmentsFrom escape (segment ++ [.anyCharacter]) rest
    else segmentsFrom escape (segment ++ [.character character]) rest

/-- A segment's text, where it has no `_`. -/
def literalOf (segment : List LikeElement) : Option String :=
  (segment.mapM LikeElement.literal).map String.ofList

def new (pattern : String) (escape : Option Char) (caseInsensitive : Bool) : LikePattern :=
  let segments := segmentsFrom escape [] pattern.toList
  ⟨segments, segments.map literalOf, caseInsensitive⟩

/-- The characters that every match starts with: those before the first wildcard. -/
def literalPrefix (pattern : LikePattern) : String :=
  let elements := (pattern.segments.headD []).map LikeElement.literal
  String.ofList (elements.takeWhile Option.isSome).reduceOption

/-! ## Bytes -/

/-- `to_ascii_lowercase`, of a byte. -/
def lowerByte (byte : UInt8) : UInt8 := if 65 ≤ byte ∧ byte ≤ 90 then byte + 32 else byte

/-- Whether bytes are a literal's, but for the case of ASCII letters where it is folded. -/
def same (fold : Bool) (bytes literal : List UInt8) : Bool :=
  if fold then bytes.map lowerByte == literal.map lowerByte else bytes == literal

/-- The slice of what follows `start`, which is none beyond the end. -/
def sliceFrom (bytes : List UInt8) (start : Nat) : Option (List UInt8) :=
  if start ≤ bytes.length then some (bytes.drop start) else none

/-- The search of `find_literal` from `start`, by the literal's first byte. -/
def findFrom (fold : Bool) (text : List UInt8) (first : UInt8) (rest : List UInt8) (start : Nat) :
    Option Nat :=
  if _within : start + (rest.length + 1) ≤ text.length then
    let starts := Bytes.slice text start (text.length - rest.length)
    match starts.findIdx? fun byte => same fold [byte] [first] with
    | none => none
    | some offset =>
      let at' := start + offset
      if same fold (Bytes.slice text (at' + 1) (at' + 1 + rest.length)) rest then some at'
      else findFrom fold text first rest (at' + 1)
  else none
termination_by text.length - start

/-- Where a literal first occurs in a text. -/
def findLiteral (fold : Bool) (text literal : List UInt8) : Option Nat :=
  match literal with
  | [] => none
  | first :: rest => findFrom fold text first rest 0

/-- Looks for each literal behind the one before, and for the last at the end. -/
def searchLiterals (fold : Bool) (text : List UInt8) :
    Nat → List UInt8 → List (List UInt8) → Option Bool
  | cursor, last, [] =>
    if text.length < last.length then some false
    else
      let start := text.length - last.length
      some (decide (cursor ≤ start) && same fold (text.drop start) last)
  | cursor, literal, next :: rest =>
    if literal.isEmpty then searchLiterals fold text cursor next rest
    else do
      match findLiteral fold (← sliceFrom text cursor) literal with
      | some offset => searchLiterals fold text (cursor + offset + literal.length) next rest
      | none => return false

/-- Whether a text matches, judged from its bytes, or nothing where a segment has `_`. -/
def matchesBytes (pattern : LikePattern) (text : List UInt8) : Option (Option Bool) :=
  if pattern.literals.any Option.isNone then some none
  else
    let fold := pattern.caseInsensitive
    match pattern.literals.map fun literal => textBytes (literal.getD "") with
    | [] => none
    | [only] => some (some (text.length == only.length && same fold text only))
    | first :: second :: more =>
      if text.length < first.length ∨ ¬same fold (text.take first.length) first then some (some false)
      else (searchLiterals fold text first.length second more).map some

/-! ## Characters -/

/-- Whether a character is one that an element stands for. -/
def admits (fold : Bool) : LikeElement → Char → Bool
  | .anyCharacter, _ => true
  | .character expected, character =>
    expected == character || fold && expected.toLower == character.toLower

/-- The characters that follow `start`, which is none inside a character. -/
def charsFrom : List Char → Nat → Option (List Char)
  | text, 0 => some text
  | [], _ + 1 => none
  | character :: text, start + 1 =>
    if character.utf8Size ≤ start + 1 then charsFrom text (start + 1 - character.utf8Size) else none

/-- Every character with the offset it is at. -/
def charIndices : Nat → List Char → List (Nat × Char)
  | _, [] => []
  | start, character :: text => (start, character) :: charIndices (start + character.utf8Size) text

/-- Where elements, read from `stop` on, end. -/
def matchElements (fold : Bool) : Nat → List LikeElement → List Char → Option Nat
  | stop, [], _ => some stop
  | _, _ :: _, [] => none
  | stop, element :: elements, character :: remaining =>
    if admits fold element character then
      matchElements fold (stop + character.utf8Size) elements remaining
    else none

/-- Where a segment that starts at `start` ends. -/
def matchesAt (fold : Bool) (text : String) (start : Nat) (segment : List LikeElement × Option String) :
    Option (Option Nat) :=
  match segment.2 with
  | some literal =>
    let stop := start + (textBytes literal).length
    if stop ≤ (textBytes text).length ∧
        same fold (Bytes.slice (textBytes text) start stop) (textBytes literal) then
      some (some stop)
    else some none
  | none => do return matchElements fold start segment.1 (← charsFrom text.toList start)

/-- The first of some places where a segment starts, by where it ends. -/
def findPlace (fold : Bool) (text : String) (segment : List LikeElement × Option String) :
    List Nat → Option (Option Nat)
  | [] => some none
  | start :: places => do
    match ← matchesAt fold text start segment with
    | some stop => return some stop
    | none => findPlace fold text segment places

/-- Where the first place of a segment behind `cursor` ends. -/
def findSegment (fold : Bool) (text : String) (cursor : Nat)
    (segment : List LikeElement × Option String) : Option (Option Nat) :=
  match segment.2 with
  | some literal => do
    let rest ← sliceFrom (textBytes text) cursor
    return (findLiteral fold rest (textBytes literal)).map fun offset =>
      cursor + offset + (textBytes literal).length
  | none => do
    findPlace fold text segment ((charIndices cursor (← charsFrom text.toList cursor)).map Prod.fst)

/-- Where the last segment starts, if the text ends with it. -/
def lastStart (text : String) (segment : List LikeElement × Option String) : Option Nat :=
  match segment.2 with
  | some literal =>
    if (textBytes text).length < (textBytes literal).length then none
    else some ((textBytes text).length - (textBytes literal).length)
  | none => ((charIndices 0 text.toList).reverse[segment.1.length - 1]?).map Prod.fst

/-- Whether a text ends with the last segment, behind what the others took. -/
def matchesLast (fold : Bool) (text : String) (cursor : Nat)
    (segment : List LikeElement × Option String) : Option Bool :=
  match lastStart text segment with
  | none => some false
  | some start =>
    if start < cursor then some false
    else do return (← matchesAt fold text start segment) == some (textBytes text).length

/-- Looks for each segment behind the one before, and for the last at the end. -/
def searchSegments (fold : Bool) (text : String) : Nat → List LikeElement × Option String →
    List (List LikeElement × Option String) → Option Bool
  | cursor, last, [] => matchesLast fold text cursor last
  | cursor, segment, next :: rest =>
    if segment.1.isEmpty then searchSegments fold text cursor next rest
    else do
      match ← findSegment fold text cursor segment with
      | some stop => searchSegments fold text stop next rest
      | none => return false

/-- Whether a text matches, judged segment by segment. -/
def matchesSegments (pattern : LikePattern) (text : String) : Option Bool :=
  let fold := pattern.caseInsensitive
  match pattern.segments.zip pattern.literals with
  | [] => none
  | [only] => do return (← matchesAt fold text 0 only) == some (textBytes text).length
  | first :: second :: more => do
    match ← matchesAt fold text 0 first with
    | none => return false
    | some cursor => searchSegments fold text cursor second more

/-- `matches` -/
def matchesText (pattern : LikePattern) (text : String) : Option Bool := do
  match ← pattern.matchesBytes (textBytes text) with
  | some matched => return matched
  | none => pattern.matchesSegments text

end LikePattern
end TinyJoin
