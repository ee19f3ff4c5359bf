import TinyJoin.WasmBridge

/-! The Worker's readers of the responses that hold no statement's result, and of a script's. -/
namespace TinyJoin
open JsonText (Units unit)
open WasmBridge (JsonValue)

namespace Protocol

/-! ## Schemas -/

/-- A property of a value. One that it does not have is `undefined`. -/
def property (name : String) : JsValue → JsValue
  | .object _ _ entries => (entries.lookup (Utf16.ofString name)).getD .undefined
  | _ => .undefined

def hasOwn (name : String) : JsValue → Bool
  | .object _ _ entries => entries.any fun entry => entry.1 == Utf16.ofString name
  | _ => false

/-- Whether a value is a record with no key but these. -/
def hasOnlyKeys (names : List String) : JsValue → Bool
  | .object _ _ entries => entries.all fun entry => (names.map Utf16.ofString).contains entry.1
  | _ => false

def hasExactKeys (names : List String) (value : JsValue) : Bool :=
  (match value with
    | .object _ _ entries => entries.length == names.length
    | _ => false) && hasOnlyKeys names value

def isOneOf (texts : List String) (value : JsValue) : Bool := texts.any fun text => isText text value

def isDenseArray (isItem : JsValue → Bool) : JsValue → Bool
  | .array _ items => decide (items.length ≤ maxArrayItems) && items.all fun item =>
      match item with
      | .hole => false
      | item => isItem item
  | _ => false

def isStrings (value : JsValue) : Bool := isDenseArray isString value

/-- Each item in turn, up to the first that is not valid, with the budget and the cache they share. -/
def checkEach (isItem : JsValue → JsonValidation → Bool × JsonValidation) :
    List JsValue → JsonValidation → Bool × JsonValidation
  | [], validation => (true, validation)
  | .hole :: _, validation => (false, validation)
  | item :: rest, validation =>
    let (valid, validation) := isItem item validation
    if valid then checkEach isItem rest validation else (false, validation)

def isDenseArrayOf (isItem : JsValue → JsonValidation → Bool × JsonValidation) (value : JsValue)
    (validation : JsonValidation) : Bool × JsonValidation :=
  match value with
  | .array _ items =>
    if maxArrayItems < items.length then (false, validation) else checkEach isItem items validation
  | _ => (false, validation)

def columnTypes : List String := ["boolean", "integer", "float", "text", "json"]

def foreignKeyActions : List String :=
  ["no action", "restrict", "cascade", "set null", "set default"]

def isColumn (column : JsValue) (validation : JsonValidation) : Bool × JsonValidation :=
  if hasOnlyKeys ["name", "type", "nullable", "default", "maxLength"] column &&
      isString (property "name" column) && isOneOf columnTypes (property "type" column) &&
      isBoolean (property "nullable" column) then
    let (valid, validation) :=
      if hasOwn "default" column then visit 0 (property "default" column) validation
      else (true, validation)
    (valid && (!hasOwn "maxLength" column ||
      isText "text" (property "type" column) &&
        isCountWithin 1 maxSafeInteger (property "maxLength" column)), validation)
  else (false, validation)

def isIndex (index : JsValue) : Bool :=
  hasExactKeys ["name", "columns", "unique"] index && isString (property "name" index) &&
    isStrings (property "columns" index) && isBoolean (property "unique" index)

def isForeignKey (key : JsValue) : Bool :=
  hasExactKeys ["name", "columns", "references", "referencedColumns", "onDelete", "onUpdate"] key &&
    isString (property "name" key) && isStrings (property "columns" key) &&
    isString (property "references" key) && isStrings (property "referencedColumns" key) &&
    isOneOf foreignKeyActions (property "onDelete" key) &&
    isOneOf foreignKeyActions (property "onUpdate" key)

def isTable (table : JsValue) (validation : JsonValidation) : Bool × JsonValidation :=
  if hasExactKeys ["name", "columns", "primaryKey", "indexes", "foreignKeys"] table &&
      isString (property "name" table) then
    let (valid, validation) := isDenseArrayOf isColumn (property "columns" table) validation
    (valid && isStrings (property "primaryKey" table) &&
      isDenseArray isIndex (property "indexes" table) &&
      isDenseArray isForeignKey (property "foreignKeys" table), validation)
  else (false, validation)

def isSchema (value : JsValue) : Bool :=
  hasExactKeys ["version", "tables"] value &&
    isCountWithin 0 maxSafeInteger (property "version" value) &&
    (isDenseArrayOf isTable (property "tables" value) createJsonValidation).1

end Protocol

namespace WasmBridge

mutual
/-- A parsed value, whose arrays and objects are each one of their own: `ref` is the first identity that
is free, before it and after it. -/
def toJs (ref : Nat) : JsonValue → JsValue × Nat
  | .null => (.null, ref)
  | .bool b => (.bool b, ref)
  | .number f => (.number f, ref)
  | .string text => (.string text, ref)
  | .array items =>
    let (items, next) := toJsItems (ref + 1) items
    (.array ref items, next)
  | .object entries =>
    let (entries, next) := toJsEntries (ref + 1) entries
    (.object ref true entries, next)

def toJsItems (ref : Nat) : List JsonValue → List JsValue × Nat
  | [] => ([], ref)
  | item :: rest =>
    let (item, next) := toJs ref item
    let (rest, next) := toJsItems next rest
    (item :: rest, next)

def toJsEntries (ref : Nat) : List (Units × JsonValue) → List (Units × JsValue) × Nat
  | [] => ([], ref)
  | (name, item) :: rest =>
    let (item, next) := toJs ref item
    let (rest, next) := toJsEntries next rest
    ((name, item) :: rest, next)
end

/-! ## Payloads -/

/-- Reads a payload that stands alone. -/
def single (isValid : JsonValue → Bool) (payload : JsonValue) (rest : Option Units) :
    Option JsonValue :=
  if rest.isNone && isValid payload then some payload else none

def isNull : JsonValue → Bool
  | .null => true
  | _ => false

def isBoolean : JsonValue → Bool
  | .bool _ => true
  | _ => false

def isPreparedStatementId : JsonValue → Bool
  | .number f => f.isSafeInteger && decide (1 ≤ f.toInt ∧ f.toInt ≤ Protocol.maxU32)
  | _ => false

def applyOutcomeKeys : List Units := ["revision", "tables", "keys"].map Utf16.ofString

/-- The outcome of a commit. -/
def isApplyOutcome (value : JsonValue) : Bool :=
  match value with
  | .object entries => entries.length == applyOutcomeKeys.length &&
      entries.all (fun entry => applyOutcomeKeys.contains entry.1) &&
      (property "revision" value).any isCount && (property "tables" value).any isStrings &&
      (property "keys" value).any isChangedKeys
  | _ => false

/-- `rest?.split('\n') ?? []`. -/
def splitLines : Option Units → List Units
  | none => []
  | some rest => rest.splitOn (unit '\n')

section Decoders
variable (readNumber : ReadNumber)

def decodeUnit (response : JsValue) : Except CallError JsonValue :=
  decoder readNumber "unit result" (single isNull) response

def decodeBoolean (response : JsValue) : Except CallError JsonValue :=
  decoder readNumber "boolean result" (single isBoolean) response

def decodeRevision (response : JsValue) : Except CallError JsonValue :=
  decoder readNumber "revision" (single isCount) response

def decodeSchema (response : JsValue) : Except CallError JsonValue :=
  decoder readNumber "schema" (single fun payload => Protocol.isSchema (toJs 0 payload).1) response

def decodePreparedStatementId (response : JsValue) : Except CallError JsonValue :=
  decoder readNumber "prepared statement ID" (single isPreparedStatementId) response

def decodeApplyOutcome (response : JsValue) : Except CallError JsonValue :=
  decoder readNumber "apply outcome" (single isApplyOutcome) response

/-- The results of a script, each header with the line of its fields and rows. -/
def readSqlResults (payload : JsonValue) (rest : Option Units) : Option JsonValue :=
  let lines := splitLines rest
  match payload with
  | .array headers =>
    if headers.length ≠ lines.length then none
    else
      let results := headers.zipWith (fun header line => withData header (some line)) lines
      if results.all isSqlResult then some (.array results) else none
  | _ => none

def decodeSqlResults (response : JsValue) : Except CallError JsonValue :=
  decoder readNumber "SQL results" readSqlResults response

end Decoders

/-! ## What an envelope says of its payload -/

/-- Whether what the engine did was safe or durable, as the tags of an envelope have it. -/
def tagDisposition (status disposition : JsonValue) : Option Disposition :=
  if !isNumber successStatus status && !isNumber failureStatus status then none
  else if isNumber durableResponse disposition then some .durable
  else if isNumber safeResponse disposition then some .safe
  else none

/-- The disposition of a response, be its payload readable or not. -/
def readDisposition (readNumber : ReadNumber) : JsValue → Option Disposition
  | .string text =>
    match JsonText.parse readNumber (splitLine text).1 with
    | some (.array [version, status, disposition, _]) =>
      if isNumber bridgeVersion version then tagDisposition status disposition else none
    | _ => none
  | _ => none

/-- What a reader may say of a response: it has read the disposition of all but what it cannot read. -/
inductive Reads {α : Type} (disposition : Option Disposition) : Except CallError α → Prop
  | result (result : α) : disposition.isSome → Reads disposition (.ok result)
  | failure (code message : Units) (retryable : Option Bool) : disposition = some .safe →
      Reads disposition (.error (.bridge code message retryable))
  | unreadable (message : String) : Reads disposition (.error (.decode message disposition))

lemma Reads.map {α β : Type} {disposition : Option Disposition} {result : Except CallError α}
    (h : Reads disposition result) (f : α → β) : Reads disposition (result.map f) := by
  cases h with
  | result result hsome => exact .result (f result) hsome
  | failure code message retryable hsafe => exact .failure code message retryable hsafe
  | unreadable message => exact .unreadable message

lemma bridgeError_eq_some {payload : JsonValue} {error : CallError}
    (h : bridgeError payload = some error) :
    ∃ code message retryable, error = .bridge code message retryable := by
  unfold bridgeError at h
  repeat' split at h
  all_goals cases h
  all_goals exact ⟨_, _, _, rfl⟩

section Reads
variable {α : Type} (readNumber : ReadNumber) (label : String)
  (read : JsonValue → Option Units → Option α)

lemma readEnvelope_reads (status disposition payload : JsonValue) (rest : Option Units) :
    Reads (tagDisposition status disposition)
      (readEnvelope label read status disposition payload rest) := by
  unfold readEnvelope tagDisposition
  by_cases hstatus : (!isNumber successStatus status && !isNumber failureStatus status) = true
  · rw [if_pos hstatus, if_pos hstatus]
    exact .unreadable _
  rw [if_neg hstatus, if_neg hstatus]
  by_cases hdurable : isNumber durableResponse disposition = true
  · rw [hdurable, Bool.not_true, Bool.and_false, if_neg Bool.false_ne_true, if_pos rfl]
    dsimp only
    split
    · rw [if_pos (by decide)]
      exact .unreadable _
    · cases read payload rest with
      | some result => exact .result result rfl
      | none => exact .unreadable _
  rw [Bool.not_eq_true] at hdurable
  by_cases hsafe : isNumber safeResponse disposition = true
  · rw [hdurable, hsafe, Bool.not_true, Bool.false_and, if_neg Bool.false_ne_true, if_pos rfl,
      if_neg Bool.false_ne_true]
    dsimp only
    split
    · rw [if_neg (by decide)]
      split
      · next failure _ hfailure =>
        obtain ⟨code, message, retryable, rfl⟩ := bridgeError_eq_some hfailure
        exact .failure code message retryable rfl
      · exact .unreadable _
    · cases read payload rest with
      | some result => exact .result result rfl
      | none => exact .unreadable _
  · rw [Bool.not_eq_true] at hsafe
    rw [hdurable, hsafe, if_neg Bool.false_ne_true, if_neg Bool.false_ne_true,
      if_pos (show (!false && !false) = true from rfl)]
    exact .unreadable _

lemma decoder_reads (response : JsValue) :
    Reads (readDisposition readNumber response) (decoder readNumber label read response) := by
  cases response with
  | string text =>
    match hparse : JsonText.parse readNumber (splitLine text).1 with
    | some (.array [version, status, disposition, payload]) =>
      simp only [decoder, readDisposition, hparse]
      by_cases hversion : isNumber bridgeVersion version = true
      · rw [if_pos hversion, if_pos hversion]
        exact readEnvelope_reads label read status disposition payload _
      · rw [if_neg hversion, if_neg hversion]
        exact .unreadable _
    | none | some .null | some (.bool _) | some (.number _) | some (.string _)
    | some (.object _) | some (.array []) | some (.array [_]) | some (.array [_, _])
    | some (.array [_, _, _]) | some (.array (_ :: _ :: _ :: _ :: _ :: _)) =>
      simp only [decoder, readDisposition, hparse]
      exact .unreadable _
  | _ => exact .unreadable _

end Reads

end WasmBridge
end TinyJoin
