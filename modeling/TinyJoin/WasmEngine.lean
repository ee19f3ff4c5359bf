import TinyJoin.WasmResults
import TinyJoin.Preflight

/-! The Worker's engine over a raw one, which it poisons once the outcome of a call may be one that it
does not know. -/
namespace TinyJoin
namespace WasmEngine
open JsonText (Units)
open WasmBridge (JsonValue ReadNumber CallError Disposition)

/-- An operation of an engine's, with its arguments. -/
inductive Operation where
  | executeSql (sql params rowMode : JsValue) (from' : Nat)
  | prepareSql (sql : JsValue)
  | executePrepared (statementId params rowMode : JsValue) (from' : Nat)
  | closePrepared (statementId : JsValue)
  | execSql (sql rowMode : JsValue)
  | beginTransaction
  | commitTransaction
  | rollbackTransaction
  | inTransaction
  | revision
  | check
  | schema
  | setSchema (schema : JsValue) (drop : Bool)
  | close

inductive State where
  | «open» | poisoned | closed
deriving DecidableEq

/-- What is thrown: an error of the bridge's, or another by its message, which what is no error lacks. -/
inductive Failure where
  | call (error : CallError)
  | other (message : Units)
deriving DecidableEq

/-- What the raw engine returns, and the bytes of the module's memory by then, if it can be viewed. -/
structure Response where
  value : JsValue
  memory : Option (List UInt8)

/-- What an operation returns. -/
inductive Answer where
  | unit
  | value (value : JsonValue)
  | slots (slots : List JsonValue)

/-- What happens, each with how many page-device callbacks it is inside of where that may differ. -/
inductive Event where
  | called (operation : Operation) (inside : Nat)
  | reached (operation : Operation) (inside : Nat)
  | answered (operation : Operation) (outcome : Except Failure Response)
  | freed
  | settled (operation : Operation) (result : Except Failure Answer)

/-- The state of an engine and of the modules it is made by, and what has happened. -/
structure Engine where
  preflight : Preflight
  insidePageDeviceCallback : Nat
  state : State
  rawReleased : Bool
  trace : List Event

/-- How a call of the raw engine goes. -/
abbrev Raw : Type := Effect Engine Failure Response

def bridgeError (code message : String) (retryable : Option Bool) : Failure :=
  .call (.bridge (Utf16.ofString code) (Utf16.ofString message) retryable)

def reentrantCall : Failure :=
  bridgeError "ENGINE_REENTRANT_CALL"
    "TinyJoin cannot enter a WASM engine from a page-device callback" (some false)

def enginePoisoned : Failure :=
  bridgeError "STORAGE_ENGINE_POISONED"
    "The TinyJoin engine cannot be used after an uncertain result" (some false)

def engineClosed : Failure := bridgeError "ENGINE_CLOSED" "The TinyJoin engine is closed" none

/-- The reason to append to a message, when there is one. -/
def errorDetail (error : Failure) : Units :=
  let message :=
    match error with
    | .call (.decode message _) => Utf16.ofString message
    | .call (.bridge _ message _) => message
    | .other message => message
  if message = [] then [] else Utf16.ofString ": " ++ message

def outcomeUnknown (error : Failure) : Failure :=
  .call (.bridge (Utf16.ofString "STORAGE_COMMIT_OUTCOME_UNKNOWN")
    (Utf16.ofString "TinyJoin could not decode a result after a possible durable mutation" ++
      errorDetail error) (some false))

namespace Operation

/-- `WASM_OPERATION`. -/
def number : Operation → Nat
  | executeSql _ _ _ _ => 1
  | execSql _ _ => 2
  | prepareSql _ => 3
  | executePrepared _ _ _ _ => 4
  | closePrepared _ => 5
  | beginTransaction => 6
  | commitTransaction => 7
  | rollbackTransaction => 8
  | inTransaction => 9
  | revision => 10
  | close => 11
  | check => 12
  | schema => 13
  | setSchema _ _ => 14

def mayPublish : Operation → Bool
  | executeSql _ _ _ _ | executePrepared _ _ _ _ | execSql _ _ | commitTransaction
  | setSchema _ _ => true
  | prepareSql _ | closePrepared _ | beginTransaction | rollbackTransaction | inTransaction
  | revision | check | schema | close => false

def encode : Operation → Preflight.Encode (List UInt8)
  | executeSql sql params rowMode from' =>
    Preflight.encodeStatement false sql params (Protocol.isText "array" rowMode) from'
  | executePrepared statementId params rowMode from' =>
    Preflight.encodeStatement true statementId params (Protocol.isText "array" rowMode) from'
  | execSql sql rowMode => Preflight.encodeExecSql sql (Protocol.isText "array" rowMode)
  | prepareSql sql => Preflight.encodePrepareSql sql
  | closePrepared statementId => Preflight.encodeClosePrepared statementId
  | setSchema definition drop => Preflight.encodeSetSchema definition drop
  | beginTransaction | commitTransaction | rollbackTransaction | inTransaction | revision | check
  | schema | close => pure []

section Decode
variable (readNumber : ReadNumber) (headerAt : Option Nat)

/-- A statement's result. Without a memory to view, the place of a header is not read. -/
def decodeStatement (response : Response) : Except Failure Answer :=
  match headerAt, response.memory with
  | some _, none => .error (.other [])
  | _, memory =>
    ((WasmBridge.decodeStatement (memory.getD []) readNumber headerAt response.value).mapError
      Failure.call).map (Sum.elim Answer.value Answer.slots)

def decode (operation : Operation) (response : Response) : Except Failure Answer :=
  let returned (result : Except CallError JsonValue) : Except Failure Answer :=
    (result.mapError Failure.call).map Answer.value
  match operation with
  | executeSql _ _ _ _ | executePrepared _ _ _ _ => decodeStatement readNumber headerAt response
  | execSql _ _ => returned (WasmBridge.decodeSqlResults readNumber response.value)
  | prepareSql _ => returned (WasmBridge.decodePreparedStatementId readNumber response.value)
  | inTransaction => returned (WasmBridge.decodeBoolean readNumber response.value)
  | revision => returned (WasmBridge.decodeRevision readNumber response.value)
  | schema => returned (WasmBridge.decodeSchema readNumber response.value)
  | commitTransaction | setSchema _ _ =>
    returned (WasmBridge.decodeApplyOutcome readNumber response.value)
  | closePrepared _ | beginTransaction | rollbackTransaction | check | close =>
    (returned (WasmBridge.decodeUnit readNumber response.value)).map fun _ => Answer.unit

end Decode

end Operation

/-! ## The engine -/

def log (event : Event) : Effect Engine Failure Unit :=
  Effect.modify fun engine => { engine with trace := engine.trace ++ [event] }

def setState (state : State) : Effect Engine Failure Unit :=
  Effect.modify fun engine => { engine with state }

/-- An operation reaches the raw engine, which answers it as `raw` goes. -/
def call (operation : Operation) (raw : Raw) : Effect Engine Failure Response := do
  let engine ← Effect.get
  log (.reached operation engine.insidePageDeviceCallback)
  let response ← raw.orElse fun error => do
    log (.answered operation (.error error))
    Effect.fail error
  log (.answered operation (.ok response))
  return response

/-- Frees the raw engine, in `free`, once. What that throws is not decisive. -/
def releaseRaw (free : Raw) : Effect Engine Failure Unit := do
  let engine ← Effect.get
  if engine.rawReleased then pure ()
  else do
    Effect.modify fun engine => { engine with rawReleased := true }
    log .freed
    (free >>= fun _ => pure ()).orElse fun _ => pure ()

def closeRaw (closing free : Raw) : Effect Engine Failure Unit := do
  let engine ← Effect.get
  if engine.state ≠ .open then pure ()
  else do
    setState .poisoned
    (call .close closing >>= fun _ => pure ()).orElse fun _ => pure ()
    releaseRaw free

def poisonUnknown {α : Type} (error : Failure) (closing free : Raw) : Effect Engine Failure α := do
  closeRaw closing free
  Effect.fail (outcomeUnknown error)

def assertNotInPageDeviceCallback : Effect Engine Failure Unit := do
  let engine ← Effect.get
  if engine.insidePageDeviceCallback ≠ 0 then Effect.fail reentrantCall else pure ()

def assertCallable : Effect Engine Failure Unit := do
  let engine ← Effect.get
  if engine.insidePageDeviceCallback ≠ 0 ∨ engine.state ≠ .open then do
    assertNotInPageDeviceCallback
    if engine.state = .poisoned then Effect.fail enginePoisoned else Effect.fail engineClosed
  else pure ()

/-- The request that an operation writes, in the one buffer of the module. -/
def request (operation : Operation) : Effect Engine Failure (List UInt8) := fun engine =>
  let (result, preflight) := operation.encode engine.preflight
  (result.mapError fun error =>
    match error with
    | .bridge code message => bridgeError code message none
    | .range => .other [], { engine with preflight })

section Operations
variable (readNumber : ReadNumber) (headerAt : Option Nat)

/-- Answers an operation by what the raw engine answers it in `asked`. A failure of the bridge's is the
raw engine's own report, unless the response was not to be read. -/
def invoke (operation : Operation) (asked closing free : Raw) : Effect Engine Failure Answer := do
  let response ← (call operation asked).orElse fun error =>
    if operation.mayPublish then poisonUnknown error closing free else Effect.fail error
  match operation.decode readNumber headerAt response with
  | .ok result => return result
  | .error (.call (.bridge code message retryable)) =>
    if WasmBridge.fatalRemoteCodes.contains code then do
      closeRaw closing free
      Effect.fail (.call (.bridge code message retryable))
    else Effect.fail (.call (.bridge code message retryable))
  | .error error =>
    let disposition :=
      match error with
      | .call (.decode _ disposition) => disposition
      | _ => none
    if disposition = some .durable ∨ (disposition = none ∧ operation.mayPublish) then
      poisonUnknown error closing free
    else Effect.fail error

/-- The raw engine's close, if the engine was open. -/
def closeOpen (wasOpen : Bool) (asked : Raw) : Effect Engine Failure Answer :=
  if wasOpen then do
    let response ← call .close asked
    Effect.ofExcept (Operation.close.decode readNumber headerAt response)
  else return .unit

def close (asked free : Raw) : Effect Engine Failure Answer := do
  assertNotInPageDeviceCallback
  let engine ← Effect.get
  if engine.state = .closed then return .unit
  else do
    setState .closed
    let answer ← (closeOpen readNumber headerAt (engine.state = .open) asked).orElse fun error => do
      releaseRaw free
      Effect.fail error
    releaseRaw free
    return answer

def perform (operation : Operation) (asked closing free : Raw) : Effect Engine Failure Answer :=
  match operation with
  | .close => close readNumber headerAt asked free
  | operation => do
    assertCallable
    let _ ← request operation
    invoke readNumber headerAt operation asked closing free

/-! ## Runs -/

mutual
/-- An operation of the engine's, with how the calls of the raw engine that it may make go: its own, the
close that follows an outcome that is not known, and the free. Or a page-device callback, of this
engine's device or of another's, with what is done inside of it. -/
inductive Step where
  | operation (operation : Operation) (asked closing free : RawCall)
  | callback (inside : List Step)

/-- A call of the raw engine: the page-device callbacks that it makes, and how it ends. -/
inductive RawCall where
  | ends (outcome : Except Failure Response)
  | callback (inside : List Step) (rest : RawCall)
end

/-- `inPageDeviceCallback`. -/
def inPageDeviceCallback (callback : Engine → Engine) (engine : Engine) : Engine :=
  let after :=
    callback { engine with insidePageDeviceCallback := engine.insidePageDeviceCallback + 1 }
  { after with insidePageDeviceCallback := after.insidePageDeviceCallback - 1 }

/-- An operation as it is called, and as it returns or throws. -/
def operate (operation : Operation) (asked closing free : Raw) (engine : Engine) : Engine :=
  let called := (log (.called operation engine.insidePageDeviceCallback) engine).2
  let (result, after) := perform readNumber headerAt operation asked closing free called
  (log (.settled operation result) after).2

mutual
def Step.run : Step → Engine → Engine
  | .operation operation asked closing free =>
    operate readNumber headerAt operation asked.play closing.play free.play
  | .callback inside => inPageDeviceCallback (runSteps inside)

def runSteps : List Step → Engine → Engine
  | [] => id
  | step :: rest => fun engine => runSteps rest (step.run engine)

def RawCall.play : RawCall → Raw
  | .ends outcome => Effect.ofExcept outcome
  | .callback inside rest => fun engine =>
    rest.play (inPageDeviceCallback (runSteps inside) engine)
end

/-- An engine as it is made, which is not done inside a page-device callback. -/
def adaptStructuredWasmEngine (preflight : Preflight) : Engine :=
  ⟨preflight, 0, .open, false, []⟩

end Operations
end WasmEngine
end TinyJoin
