import TinyJoin.Protocol
import TinyJoin.FloatOrder
import TinyJoin.Structured
import TinyJoin.Lib.JsonText

/-! The Worker's reader of statement results, out of the header an engine wrote in its memory or out of
the response it returned. -/
namespace TinyJoin
open Bytes
namespace WasmBridge
open JsonText (Units Parsed unit define)

/-- A value that `JSON.parse` makes, or that a flat response holds. -/
abbrev JsonValue : Type := Parsed F64

/-- What `JSON.parse` takes the text of a number for. -/
abbrev ReadNumber : Type := Units → F64

inductive Disposition where
  | safe | durable
deriving DecidableEq

/-- A response that cannot be read, or a failure that the engine reports. -/
inductive CallError where
  | decode (message : String) (disposition : Option Disposition)
  | bridge (code message : Units) (retryable : Option Bool)
deriving DecidableEq

def bridgeVersion : Nat := 6
def successStatus : Nat := 0
def failureStatus : Nat := 1
def safeResponse : Nat := 0
def durableResponse : Nat := 1
def sqlResult : String := "SQL result"
def headerFixedBytes : Nat := 16
def statementSelect : Nat := 3
def selectHeader : Nat := statementSelect + 1
def decodedText : Nat := 0x8000
def maxChangedKeysPerTable : Nat := 1000
def maxArrayItems : Nat := 1000000

def invalidStructured (what : String) (disposition : Option Disposition) : CallError :=
  .decode s!"WASM returned an invalid structured {what}" disposition

/-- A count as a number. -/
def count (n : Nat) : JsonValue := .number (F64.ofNat n)

/-! ## Responses in text -/

def isString : JsonValue → Bool
  | .string _ => true
  | _ => false

/-- `value === n`. -/
def isNumber (n : Nat) : JsonValue → Bool
  | .number f => f.isFinite && decide (f.scaled = n * F64.unit)
  | _ => false

def isCount : JsonValue → Bool
  | .number f => f.isSafeInteger && decide (0 ≤ f.toInt)
  | _ => false

def isRecord : JsonValue → Bool
  | .object _ => true
  | _ => false

/-- A property of a value. -/
def property (name : String) : JsonValue → Option JsonValue
  | .object entries => entries.lookup (Utf16.ofString name)
  | _ => none

def bridgeErrorKeys : List Units := ["code", "message", "retryable"].map Utf16.ofString

/-- The code, the message and the flag of a bridge error's payload. -/
def bridgeError (payload : JsonValue) : Option CallError :=
  match payload with
  | .object entries =>
    if 2 ≤ entries.length ∧ entries.length ≤ 3 ∧
        entries.all (fun entry => bridgeErrorKeys.contains entry.1) then
      match property "code" payload, property "message" payload, property "retryable" payload with
      | some (.string code), some (.string message), none => some (.bridge code message none)
      | some (.string code), some (.string message), some (.bool retryable) =>
        some (.bridge code message (some retryable))
      | _, _, _ => none
    else none
  | _ => none

def isStrings : JsonValue → Bool
  | .array items => decide (items.length ≤ maxArrayItems) && items.all isString
  | _ => false

def isChangedKeys : JsonValue → Bool
  | .object entries => entries.all fun entry =>
      match entry.2 with
      | .array _ => true
      | _ => false
  | _ => false

/-- `isRpcResultHeader('executeSql', value)`. -/
def isSqlResult (value : JsonValue) : Bool :=
  match value with
  | .object entries => entries.length == 6 && (property "command" value).any isString &&
      (property "revision" value).any isCount && (property "rowCount" value).any isCount &&
      (property "tables" value).any isStrings && (property "keys" value).any isChangedKeys &&
      (property "data" value).any isString
  | _ => false

/-- Assigned to a parsed object, which inherits nothing called `data`. -/
def withData (header : JsonValue) (data : Option Units) : JsonValue :=
  match header, data with
  | .object entries, some data => .object (define entries (Utf16.ofString "data", .string data))
  | header, _ => header

/-- The first line of a text, and what follows it, if a line break does. -/
def splitLine (text : Units) : Units × Option Units :=
  (text.takeWhile (· != unit '\n'),
    match text.dropWhile (· != unit '\n') with
    | [] => none
    | _ :: rest => some rest)

section Decoder
variable (readNumber : ReadNumber)

/-- The success or the failure that an envelope holds. -/
def readEnvelope {α : Type} (label : String) (read : JsonValue → Option Units → Option α)
    (status disposition payload : JsonValue) (rest : Option Units) : Except CallError α :=
  if !isNumber successStatus status && !isNumber failureStatus status then
    .error (invalidStructured "response status" none)
  else if !isNumber safeResponse disposition && !isNumber durableResponse disposition then
    .error (invalidStructured "response disposition" none)
  else
    let disposition : Disposition :=
      if isNumber durableResponse disposition then .durable else .safe
    if isNumber failureStatus status then
      if disposition ≠ .safe then
        .error (.decode "WASM returned a durable structured failure envelope" (some disposition))
      else
        match bridgeError payload, rest with
        | some failure, none => .error failure
        | _, _ => .error (invalidStructured "error" (some disposition))
    else
      match read payload rest with
      | some result => .ok result
      | none => .error (invalidStructured label (some disposition))

def decoder {α : Type} (label : String) (read : JsonValue → Option Units → Option α) :
    JsValue → Except CallError α
  | .string text =>
    let (line, rest) := splitLine text
    match JsonText.parse readNumber line with
    | some (.array [version, status, disposition, payload]) =>
      if isNumber bridgeVersion version then readEnvelope label read status disposition payload rest
      else .error (.decode "WASM returned an unsupported structured bridge version" none)
    | _ => .error (invalidStructured "response envelope" none)
  | _ => .error (invalidStructured "response" none)

def decodeSqlResult (response : JsValue) : Except CallError JsonValue :=
  decoder readNumber sqlResult (fun payload rest =>
    let result := withData payload rest
    if isSqlResult result then some result else none) response

end Decoder

/-! ### Counts -/

/-! ## Headers -/

section Header
variable (bytes : List UInt8)

/-- A byte of the memory. Behind its end there is none, which counts as zero. -/
def byteAt (at' : Nat) : Nat := (bytes[at']?.getD 0).toNat

def u16At (at' : Nat) : Nat := byteAt bytes at' ||| byteAt bytes (at' + 1) <<< 8

/-- `fromCharCode` of `length` bytes. -/
def fromCharCode (at' length : Nat) : Units :=
  (List.range length).map fun i => UInt16.ofNat (byteAt bytes (at' + i))

/-- Eight units at a time, and what they leave: the text of it is at the position returned. -/
def readEights (at' rest : Nat) : Units × Nat × Nat :=
  if 8 < rest then
    let (text, left) := readEights (at' + 8) (rest - 8)
    (fromCharCode bytes at' 8 ++ text, left)
  else ([], at', rest)
termination_by rest

def readPlainText (at' length : Nat) : Units :=
  let (text, at', rest) := readEights bytes at' length
  let last :=
    if 4 < rest then
      if 6 < rest then
        if rest = 7 then fromCharCode bytes at' 7 else fromCharCode bytes at' 8
      else if rest = 5 then fromCharCode bytes at' 5
      else fromCharCode bytes at' 6
    else if 2 < rest then
      if rest = 3 then fromCharCode bytes at' 3 else fromCharCode bytes at' 4
    else if rest = 2 then fromCharCode bytes at' 2
    else fromCharCode bytes at' 1
  if 8 < length then text ++ last else last

/-- A text at a position, and the position behind it. -/
def readText (cursor : Nat) : Option (Units × Nat) :=
  let length := u16At bytes cursor
  let at' := cursor + 2
  let cursor := at' + length % decodedText
  if 3 < length then
    if length < decodedText then some (readPlainText bytes at' length, cursor)
    else (fromUtf8 (slice bytes at' cursor)).map fun text => (Utf16.ofString text, cursor)
  else if length = 1 then some (fromCharCode bytes at' 1, cursor)
  else if length = 2 then some (fromCharCode bytes at' 2, cursor)
  else if length = 3 then some (fromCharCode bytes at' 3, cursor)
  else some ([], cursor)

/-- `getFloat64`, which throws where the memory ends before it. -/
def getFloat64 (cursor : Nat) : Option F64 :=
  if cursor + 8 ≤ bytes.length then some ⟨UInt64.ofNat (readLe bytes cursor 8)⟩ else none

def getUint32 (at' : Nat) : Option Nat :=
  if at' + 4 ≤ bytes.length then some (readLe bytes at' 4) else none

/-- One value of a key, and the position behind it. -/
def readValue (cursor : Nat) : Option (JsonValue × Nat) :=
  let tag := bytes[cursor]?.map UInt8.toNat
  let cursor := cursor + 1
  if tag = some Structured.tagInteger ∨ tag = some Structured.tagFloat then
    match getFloat64 bytes cursor with
    | some f => if f.isFinite then some (.number f, cursor + 8) else none
    | none => none
  else if tag = some Structured.tagString then
    (readText bytes cursor).map fun (text, cursor) => (.string text, cursor)
  else if tag = some Structured.tagNull then some (.null, cursor)
  else if tag = some Structured.tagTrue then some (.bool true, cursor)
  else if tag = some Structured.tagFalse then some (.bool false, cursor)
  else none

/-- So many, one after another, each read at the position behind the one before. -/
def readMany (read : Nat → Option (JsonValue × Nat)) : Nat → Nat → Option (List JsonValue × Nat)
  | 0, cursor => some ([], cursor)
  | left + 1, cursor => do
    let (item, cursor) ← read cursor
    let (items, cursor) ← readMany read left cursor
    return (item :: items, cursor)

def readName (cursor : Nat) : Option (JsonValue × Nat) :=
  (readText bytes cursor).map fun (text, cursor) => (.string text, cursor)

/-- A write's table, and the keys it changed, behind the fixed bytes of its header. -/
def readChange (width keys stop cursor : Nat) : Option (List JsonValue) := do
  let (table, cursor) ← readName bytes cursor
  if width = 0 then
    if keys = 0 ∧ cursor = stop then some [table] else none
  else if width = 1 ∧ keys = 1 then do
    let (column, cursor) ← readName bytes cursor
    let (value, cursor) ← readValue bytes cursor
    if cursor = stop then some [table, count 1, column, value] else none
  else if keys ≤ maxChangedKeysPerTable then do
    let (columns, cursor) ← readMany (readName bytes) width cursor
    let (values, cursor) ← readMany (readValue bytes) (keys * width) cursor
    if cursor = stop then some (table :: count width :: columns ++ values) else none
  else none

/-- The response a header stands for, or none, also where reading it throws. -/
def readHeader (headerAt : Nat) (response : JsValue) : Option (List JsonValue) := do
  let kind := byteAt bytes headerAt
  let width := byteAt bytes (headerAt + 1)
  let keys := u16At bytes (headerAt + 2)
  let stop := headerAt + u16At bytes (headerAt + 4)
  let revision ← getUint32 bytes (headerAt + 8)
  let rowCount ← getUint32 bytes (headerAt + 12)
  let cursor := headerAt + headerFixedBytes
  let fixed := [count 0, count 0, count (kind - 1), count revision, count rowCount]
  match response with
  | .string text =>
    if kind = selectHeader ∧ stop = cursor ∧ width = 0 ∧ keys = 0 then
      some (fixed ++ [.string text])
    else none
  | .bool true =>
    if kind < selectHeader ∧ stop ≤ bytes.length then
      if stop = cursor then
        if width = 0 ∧ keys = 0 then some fixed else none
      else (readChange bytes width keys stop cursor).map fun change => fixed ++ change
    else none
  | _ => none

/-- A statement's result, out of its header at `headerAt`, if the engine has a place for one and wrote
one there, and else out of its response. -/
def decodeStatement (readNumber : ReadNumber) (headerAt : Option Nat) (response : JsValue) :
    Except CallError (JsonValue ⊕ List JsonValue) :=
  match headerAt.filter (fun at' => decide (byteAt bytes at' ≠ 0)) with
  | some at' =>
    match readHeader bytes at' response with
    | some result => .ok (.inr result)
    | none => .error (invalidStructured sqlResult (some .safe))
  | none => (decodeSqlResult readNumber response).map .inl

end Header

/-! ## What a failure does to the engine -/

def fatalRemoteCodes : List Units :=
  ["RECOVERY_REQUIRED", "STORAGE_COMMIT_OUTCOME_UNKNOWN", "STORAGE_ENGINE_POISONED"].map
    Utf16.ofString

/-- The failure of a call whose outcome is not known. -/
def poisonUnknown (message : String) : CallError :=
  .bridge (Utf16.ofString "STORAGE_COMMIT_OUTCOME_UNKNOWN")
    (Utf16.ofString ("TinyJoin could not decode a result after a possible durable mutation" ++
      if message = "" then "" else s!": {message}")) (some false)

/-- What a call is answered with once the engine has returned, and whether the engine is closed as
poisoned. -/
def invoke {α : Type} (mayPublish : Bool) : Except CallError α → Except CallError α × Bool
  | .ok result => (.ok result, false)
  | .error (.bridge code message retryable) =>
    (.error (.bridge code message retryable), fatalRemoteCodes.contains code)
  | .error (.decode message disposition) =>
    if disposition = some .durable ∨ (disposition = none ∧ mayPublish = true) then
      (.error (poisonUnknown message), true)
    else (.error (.decode message disposition), false)

end WasmBridge
end TinyJoin
