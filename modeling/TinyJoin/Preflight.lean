import TinyJoin.Protocol
import TinyJoin.Lib.Effect

/-! The writer of the engine's requests: module state holds the one buffer that serves every request,
the bytes written in it, what the engine would retain, and the values and steps a request takes.
The view is of the buffer throughout, since both are replaced together. -/
namespace TinyJoin
open Bytes

structure Preflight where
  buffer : List UInt8
  capacity : Nat
  length : Nat
  retained : Nat
  nodes : Nat
  operations : Nat

namespace Preflight
open Effect (get modify fail)

inductive Thrown where
  | bridge (code message : String)
  | range -- a `RangeError` of a typed array or view
deriving DecidableEq, Repr

abbrev Encode (α : Type) : Type := Effect Preflight Thrown α

def jsonNull : UInt8 := 0
def jsonFalse : UInt8 := 1
def jsonTrue : UInt8 := 2
def jsonI64 : UInt8 := 3
def jsonF64 : UInt8 := 5
def jsonString : UInt8 := 6
def jsonArray : UInt8 := 7
def jsonObject : UInt8 := 8

def maxBytes : Nat := 16 * 1024 * 1024
def maxNodes : Nat := 1000000
def maxOperations : Nat := 1000000
def maxDepth : Nat := 64
def stringOverhead : Nat := 12
def vectorOverhead : Nat := 12
def rustValueBytes : Nat := 24
def rustMapEntryOverhead : Nat := 128
def initialBufferBytes : Nat := 1024
def maxKeptBufferBytes : Nat := 1024 * 1024
def maxCopiedStringLength : Nat := 64

def invalidBridgeValue (message : String) : Thrown := .bridge "INVALID_BRIDGE_VALUE" message
def invalidStatementId : Thrown :=
  invalidBridgeValue "A prepared statement ID must be a nonzero unsigned 32-bit integer"
def resourceLimit : Thrown := .bridge "RESOURCE_LIMIT" "A bridge call exceeded its resource limit"

/-- The state the module begins with. -/
def initial : Preflight := ⟨List.replicate initialBufferBytes 0, initialBufferBytes, 0, 0, 0, 0⟩

/-- The bytes of the request so far. -/
def written (s : Preflight) : List UInt8 := s.buffer.take s.length

/-! ## The buffer -/

/-- `buffer[index] = value`, which does nothing past the buffer's end. -/
def storeByte (index : Nat) (value : UInt8) : Encode Unit :=
  modify (fun s => { s with buffer := s.buffer.set index value })

def setBytes (offset : Nat) (bytes : List UInt8) : Encode Unit := do
  let s ← get
  if offset + bytes.length ≤ s.buffer.length then
    modify (fun s => { s with buffer := put s.buffer offset bytes })
  else fail .range

def setUint32 (offset value : Nat) : Encode Unit := setBytes offset (leBytes 4 value)
def setFloat64 (offset : Nat) (value : F64) : Encode Unit :=
  setBytes offset (leBytes 8 value.bits.toNat)

def setLength (length : Nat) : Encode Unit := modify (fun s => { s with length := length })

/-- Begins a request, of which `written` bytes are already in the buffer. -/
def begin (written : Nat) : Encode Unit :=
  modify (fun s => { s with length := written, retained := 0, nodes := 0, operations := 0 })

/-- The request written. A buffer grown large is let go afterwards. -/
def finish : Encode (List UInt8) := do
  let s ← get
  modify (fun s =>
    if maxKeptBufferBytes < s.capacity then
      { s with buffer := List.replicate initialBufferBytes 0, capacity := initialBufferBytes }
    else s)
  pure s.written

def grow (needed : Nat) : Encode Unit := do
  let s ← get
  if maxBytes < needed then fail resourceLimit
  else
    let size := min maxBytes (max needed (s.capacity * 2))
    if size < s.written.length then fail .range
    else
      modify (fun s => { s with
        buffer := put (List.replicate size 0) 0 s.written
        capacity := size })

/-- Makes room for `count` more bytes, as each write does before it. -/
def makeRoom (count : Nat) : Encode Unit := do
  let s ← get
  if s.capacity < s.length + count then grow (s.length + count) else pure ()

def u8 (value : UInt8) : Encode Unit := do
  makeRoom 1
  let s ← get
  storeByte s.length value
  setLength (s.length + 1)

def u32 (value : Nat) : Encode Unit := do
  makeRoom 4
  let s ← get
  setUint32 s.length value
  setLength (s.length + 4)

def retain (count : Nat) : Encode Unit := do
  modify (fun s => { s with retained := s.retained + count })
  let s ← get
  if maxBytes < s.retained then fail resourceLimit else pure ()

/-! ## Strings -/

/-- `utf8Length`, from the units not yet met and the bytes of those before. -/
def utf8LengthFrom (bytes : Nat) : List UInt16 → Except Thrown Nat
  | [] => .ok bytes
  | [unit] => do
    let bytes := bytes + if unit.toNat < 0x80 then 1 else if unit.toNat < 0x800 then 2 else 3
    if maxBytes < bytes then .error resourceLimit else .ok bytes
  | unit :: next :: rest =>
    if Utf16.isHigh unit && Utf16.isLow next then
      if maxBytes < bytes + 4 then .error resourceLimit else utf8LengthFrom (bytes + 4) rest
    else
      let bytes := bytes + if unit.toNat < 0x80 then 1 else if unit.toNat < 0x800 then 2 else 3
      if maxBytes < bytes then .error resourceLimit else utf8LengthFrom bytes (next :: rest)

def utf8Length (text : List UInt16) : Except Thrown Nat := utf8LengthFrom 0 text

/-- Copies units up to the first that is not ASCII, and returns how many there are by then. -/
def copyAscii (start written : Nat) : List UInt16 → Encode Nat
  | [] => pure written
  | code :: rest =>
    if 0x80 ≤ code.toNat then pure written
    else do
      storeByte (start + written) code.toUInt8
      copyAscii start (written + 1) rest

/-- The UTF-8 of as many characters as fit in `room` bytes. -/
def encodeFitting (room : Nat) : List Char → List UInt8
  | [] => []
  | c :: rest =>
    if c.utf8Size ≤ room then String.utf8EncodeChar c ++ encodeFitting (room - c.utf8Size) rest
    else []

/-- `textEncoder.encodeInto(text, buffer.subarray(start, start + room)).written`. -/
def encodeInto (text : List UInt16) (start room : Nat) : Encode Nat := do
  let s ← get
  let bytes := encodeFitting (min room (s.buffer.length - start)) (Utf16.scalars text)
  setBytes start bytes
  pure bytes.length

/-- The room a string is given: three bytes a unit, or where that might not fit, what it takes. -/
def stringRoom (start : Nat) (text : List UInt16) : Except Thrown Nat :=
  if maxBytes < start + text.length * 3 then utf8Length text else .ok (text.length * 3)

/-- A short string is copied a unit at a time, as far as it is ASCII. -/
def copyShort (start : Nat) (text : List UInt16) : Encode Nat :=
  if text.length ≤ maxCopiedStringLength then copyAscii start 0 text else pure 0

/-- Writes a string's bytes from `start` on, and returns how many there are. -/
def stringBytes (start room : Nat) (text : List UInt16) : Encode Nat := do
  let copied ← copyShort start text
  if copied ≠ text.length then encodeInto text start room else pure copied

def string : JsValue → Encode Unit
  | .string text => do
    let s ← get
    let room ← Effect.ofExcept (stringRoom (s.length + 4) text)
    makeRoom (4 + room)
    let written ← stringBytes (s.length + 4) room text
    setUint32 s.length written
    setLength (s.length + 4 + written)
    retain (written + stringOverhead)
  | _ => fail (invalidBridgeValue "A bridge string must be a string")

/-! ## JSON values -/

def checkedIncrement (value maximum : Nat) : Except Thrown Nat :=
  if maximum ≤ value then .error resourceLimit else .ok (value + 1)

/-- `operations = checkedIncrement(operations, MAX_OPERATIONS)`. -/
def countOperation : Encode Unit := fun s =>
  match checkedIncrement s.operations maxOperations with
  | .ok operations => (.ok (), { s with operations := operations })
  | .error e => (.error e, s)

/-- `nodes = checkedIncrement(nodes, MAX_NODES)`. -/
def countNode : Encode Unit := fun s =>
  match checkedIncrement s.nodes maxNodes with
  | .ok nodes => (.ok (), { s with nodes := nodes })
  | .error e => (.error e, s)

/-- Counts a value as a step and a node, and checks how deep it is. -/
def enterValue (depth : Nat) : Encode Unit := do
  countOperation
  if maxDepth < depth then fail (invalidBridgeValue "A bridge value is too deeply nested")
  else countNode

/-- Begins a list of `count` values. -/
def beginValues (count : Nat) : Encode Unit :=
  if maxOperations < count then fail resourceLimit
  else do
    retain (count * rustValueBytes + vectorOverhead)
    u32 count

def writeNumber (value : F64) : Encode Unit :=
  if !value.isFinite then fail (invalidBridgeValue "A JSON number must be finite")
  else do
    u8 (if value.isSafeInteger then jsonI64 else jsonF64)
    makeRoom 8
    let s ← get
    setFloat64 s.length value
    setLength (s.length + 8)

def beginObject (count : Nat) : Encode Unit := do
  u8 jsonObject
  if maxOperations < count then fail resourceLimit else u32 count

mutual
def writeJsonValue (depth : Nat) (value : JsValue) : Encode Unit := do
  enterValue depth
  match value with
  | .null => u8 jsonNull
  | .bool false => u8 jsonFalse
  | .bool true => u8 jsonTrue
  | .number f => writeNumber f
  | .string text => do
    u8 jsonString
    string (.string text)
  | .array _ items => do
    u8 jsonArray
    beginValues items.length
    writeListItems (depth + 1) "JSON array" items
  | .object _ _ entries => do
    beginObject entries.length
    writeEntries (depth + 1) entries
  | .undefined | .hole | .other => fail (invalidBridgeValue "A value is not JSON-compatible")

/-- The loop over a list's items, each as `writeListItem` writes it. -/
def writeListItems (depth : Nat) (label : String) (items : List JsValue) : Encode Unit :=
  match items with
  | [] => pure ()
  | item :: rest =>
    if Protocol.isUndefined item then fail (invalidBridgeValue (label ++ " cannot be sparse"))
    else do
      writeJsonValue depth item
      writeListItems depth label rest

/-- The loop over an object's keys. -/
def writeEntries (depth : Nat) (entries : List (List UInt16 × JsValue)) : Encode Unit :=
  match entries with
  | [] => pure ()
  | (key, value) :: rest => do
    string (.string key)
    retain (rustValueBytes + rustMapEntryOverhead)
    writeJsonValue depth value
    writeEntries depth rest
end

def writeJsonValues (depth : Nat) (label : String) (input : List JsValue) : Encode Unit := do
  beginValues input.length
  writeListItems depth label input

/-! ## The requests -/

def flag (b : Bool) : UInt8 := if b then 1 else 0

/-- A finite number that is a parameter, written where it is met. -/
def writeScalarNumber (value : F64) : Encode Unit := do
  makeRoom 9
  let s ← get
  storeByte s.length
    (if value.isInteger && decide (value.scaled ≤ maxSafeInteger * F64.unit) &&
      decide (-(maxSafeInteger * F64.unit) ≤ value.scaled) then jsonI64 else jsonF64)
  setFloat64 (s.length + 1) value
  setLength (s.length + 9)

/-- The loop over a statement's parameters, `index` of which are written. -/
def writeParams (index : Nat) (items : List JsValue) : Encode Unit :=
  match items with
  | [] => pure ()
  | item :: rest =>
    let general : Encode Unit := do
      modify (fun s => { s with nodes := index, operations := index })
      writeListItems 0 "SQL parameters" (item :: rest)
    match item with
    | .number f =>
      if f.isFinite then do
        writeScalarNumber f
        writeParams (index + 1) rest
      else general
    | .string text => do
      u8 jsonString
      string (.string text)
      writeParams (index + 1) rest
    | .null => do
      u8 jsonNull
      writeParams (index + 1) rest
    | .bool b => do
      u8 (if b then jsonTrue else jsonFalse)
      writeParams (index + 1) rest
    | _ => general

/-- Whether a number is a nonzero unsigned 32-bit integer. -/
def isStatementId (value : F64) : Bool :=
  value.isFinite && decide (F64.unit ≤ value.scaled) &&
    decide (value.scaled ≤ Protocol.maxU32 * F64.unit) && decide (value.scaled % F64.unit = 0)

def writeStatementId : JsValue → Encode Unit
  | .number f =>
    if isStatementId f then do
      setUint32 1 f.toInt.toNat
      setLength 5
    else fail invalidStatementId
  | _ => fail invalidStatementId

def writeStatementSql (statement : JsValue) : Encode Unit := do
  setLength 1
  string statement

/-- Writes the flag and the statement, of which nothing is retained before. -/
def writeTarget (prepared : Bool) (statement : JsValue) (arrayRows : Bool) : Encode Unit := do
  storeByte 0 (flag arrayRows)
  modify (fun s => { s with retained := 0 })
  if prepared then writeStatementId statement else writeStatementSql statement

def writeStatementParams (start : Nat) : JsValue → Encode Unit
  | .array _ items => do
    beginValues (items.length - start)
    writeParams 0 (items.drop start)
  | _ => fail (invalidBridgeValue "SQL parameters must be an array")

def encodeStatement (prepared : Bool) (statement input : JsValue) (arrayRows : Bool) (start : Nat) :
    Encode (List UInt8) := do
  writeTarget prepared statement arrayRows
  writeStatementParams start input
  finish

def encodePrepareSql (sql : JsValue) : Encode (List UInt8) := do
  begin 0
  string sql
  finish

def encodeClosePrepared : JsValue → Encode (List UInt8)
  | .number f =>
    if Protocol.isCountWithin 1 Protocol.maxU32 (.number f) then do
      begin 0
      u32 f.toInt.toNat
      finish
    else fail invalidStatementId
  | _ => fail invalidStatementId

def encodeSetSchema (schema : JsValue) (drop : Bool) : Encode (List UInt8) := do
  storeByte 0 (flag drop)
  begin 1
  writeJsonValues 0 "schema" [schema]
  finish

def encodeExecSql (sql : JsValue) (arrayRows : Bool) : Encode (List UInt8) := do
  storeByte 0 (flag arrayRows)
  begin 1
  string sql
  finish

/-- The encoder that serves each request, as the host and the bridge call it. -/
def encodeRequest : Protocol.Request → Encode (List UInt8)
  | .statement slots =>
    encodeStatement (slots[2]?.any (Protocol.isNumber Protocol.statementPrepared))
      (slots[3]?.getD .undefined) (.array 0 slots) (slots[5]?.any (Protocol.isNumber 1))
      Protocol.statementParams
  | .executeSql sql params _ rowMode =>
    encodeStatement false sql params (Protocol.isText "array" rowMode) 0
  | .executePrepared statementId params _ rowMode =>
    encodeStatement true statementId params (Protocol.isText "array" rowMode) 0
  | .execSql sql _ rowMode => encodeExecSql sql (Protocol.isText "array" rowMode)
  | .prepareSql sql => encodePrepareSql sql
  | .closePrepared statementId => encodeClosePrepared statementId
  | .setSchema schema drop => encodeSetSchema schema (match drop with | .bool b => b | _ => false)

end Preflight
end TinyJoin
