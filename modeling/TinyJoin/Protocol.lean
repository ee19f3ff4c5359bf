import TinyJoin.Value
import TinyJoin.Lib.Utf16

/-! The Worker's requests, as the values a structured clone holds, and the check each passes before
it is served. An array or object has the identity `ref`, which only aliases of it share. -/
namespace TinyJoin

/-- How many of an `F64`'s units make one. -/
def F64.unit : Int := 2 ^ 1074

def F64.isInteger (f : F64) : Bool := f.isFinite && decide (f.scaled % F64.unit = 0)

def F64.isSafeInteger (f : F64) : Bool :=
  f.isInteger && decide (f.scaled.natAbs ≤ maxSafeInteger * 2 ^ 1074)

/-- The integer a safe integer is. -/
def F64.toInt (f : F64) : Int := f.scaled / F64.unit

inductive JsValue where
  | undefined
  | hole -- a missing item of an array, which reads as `undefined`
  | null
  | bool (b : Bool)
  | number (f : F64)
  | string (text : List UInt16)
  | array (ref : Nat) (items : List JsValue)
  | object (ref : Nat) (plain : Bool) (entries : List (List UInt16 × JsValue))
  | other -- of no type JSON has, such as a bigint

namespace Protocol

def maxArrayItems : Nat := 1000000
def maxJsonDepth : Nat := 64
def maxJsonVisits : Nat := 1000000
def maxTransactionIdLength : Nat := 128
def maxU32 : Nat := 4294967295
def protocolVersion : Nat := 12
def statementSql : Nat := 1
def statementPrepared : Nat := 4
def statementParams : Nat := 6

/-! ## The check of JSON values -/

/-- A work budget and graph cache. -/
structure JsonValidation where
  remaining : Int
  ancestors : List Nat
  validatedDepths : List (Nat × Nat)

def createJsonValidation : JsonValidation := ⟨maxJsonVisits, [], []⟩

def JsonValidation.step (validation : JsonValidation) : Bool × JsonValidation :=
  (decide (0 < validation.remaining), { validation with remaining := validation.remaining - 1 })

/-- Visits what an array or object holds, unless it holds itself or was valid as deep before. -/
def JsonValidation.enter (ref depth : Nat) (visit : JsonValidation → Bool × JsonValidation)
    (validation : JsonValidation) : Bool × JsonValidation :=
  if ref ∈ validation.ancestors then (false, validation)
  else if ((validation.validatedDepths.lookup ref).any (fun deepest => decide (depth ≤ deepest))) then
    (true, validation)
  else
    let (valid, visited) := visit { validation with ancestors := ref :: validation.ancestors }
    let left := { visited with ancestors := visited.ancestors.erase ref }
    (valid,
      if valid then { left with validatedDepths := (ref, depth) :: left.validatedDepths } else left)

mutual
def visit (depth : Nat) (value : JsValue) (validation : JsonValidation) : Bool × JsonValidation :=
  let (stepped, validation) := validation.step
  if !stepped || decide (maxJsonDepth < depth) then (false, validation)
  else
    match value with
    | .null | .bool _ | .string _ => (true, validation)
    | .number f => (f.isFinite, validation)
    | .array ref items => validation.enter ref depth (fun validation =>
        if maxArrayItems < items.length then (false, validation)
        else visitItems (depth + 1) items validation)
    | .object ref plain entries => validation.enter ref depth (fun validation =>
        if plain then visitEntries (depth + 1) entries validation else (false, validation))
    | .undefined | .hole | .other => (false, validation)

def visitItems (depth : Nat) (items : List JsValue) (validation : JsonValidation) :
    Bool × JsonValidation :=
  match items with
  | [] => (true, validation)
  | .hole :: _ => (false, validation)
  | item :: rest =>
    let (valid, validation) := visit depth item validation
    if valid then visitItems depth rest validation else (false, validation)

def visitEntries (depth : Nat) (entries : List (List UInt16 × JsValue))
    (validation : JsonValidation) : Bool × JsonValidation :=
  match entries with
  | [] => (true, validation)
  | (_, item) :: rest =>
    let (valid, validation) := visit depth item validation
    if valid then visitEntries depth rest validation else (false, validation)
end

/-- Whether each value passes one check that they share. -/
def areJson (items : List JsValue) : Bool := (visitItems 0 items createJsonValidation).1

/-- `createJsonValidation().isJson(value)`. -/
def isJson (value : JsValue) : Bool := (visit 0 value createJsonValidation).1

/-- The scan of `isJsonValues`, at the items not yet met of `all`. -/
def scanJsonValues (all : List JsValue) : List JsValue → Bool
  | [] => true
  | item :: rest =>
    match item with
    | .hole => false
    | .number f => f.isFinite && scanJsonValues all rest
    | .null | .bool _ | .string _ => scanJsonValues all rest
    | _ => decide (all.length ≤ maxArrayItems) && areJson all

def isJsonValues : JsValue → Bool
  | .array _ items => decide (items.length ≤ maxArrayItems) && scanJsonValues items items
  | _ => false

/-! ## The requests that are encoded for the engine -/

/-- Whether a number is a safe integer within an inclusive range. -/
def isCountWithin (minimum maximum : Nat) : JsValue → Bool
  | .number f => f.isSafeInteger && decide ((minimum : Int) ≤ f.toInt ∧ f.toInt ≤ maximum)
  | _ => false

def isPreparedStatementId (value : JsValue) : Bool := isCountWithin 1 maxU32 value
def isRequestId (value : JsValue) : Bool := isCountWithin 1 maxSafeInteger value

def isString : JsValue → Bool
  | .string _ => true
  | _ => false

def isBoolean : JsValue → Bool
  | .bool _ => true
  | _ => false

def isUndefined : JsValue → Bool
  | .undefined | .hole => true
  | _ => false

def isTransactionId : JsValue → Bool
  | .string text => decide (0 < text.length ∧ text.length ≤ maxTransactionIdLength)
  | _ => false

def isOptionalTransactionId (value : JsValue) : Bool := isUndefined value || isTransactionId value

/-- Whether a value is the string `text`. -/
def isText (text : String) : JsValue → Bool
  | .string units => decide (units = Utf16.ofString text)
  | _ => false

def isOptionalRowMode (value : JsValue) : Bool :=
  isUndefined value || isText "array" value || isText "object" value

/-- Whether a value is the integer `n`. -/
def isNumber (n : Nat) : JsValue → Bool
  | .number f => f.isSafeInteger && decide (f.toInt = n)
  | _ => false

/-- The scan of a flat request's parameters, at those not yet met of `all`. -/
def scanStatementParams (all : List JsValue) : List JsValue → Bool
  | [] => true
  | item :: rest =>
    match item with
    | .number f => f.isFinite && scanStatementParams all rest
    | .null | .bool _ | .string _ => scanStatementParams all rest
    | _ => areJson all

def isStatementRequest (slots : List JsValue) : Bool :=
  match slots with
  | version :: id :: operation :: target :: transaction :: arrayRows :: params =>
    isNumber protocolVersion version && isRequestId id &&
    (if isNumber statementPrepared operation then isPreparedStatementId target
      else isNumber statementSql operation && isString target) &&
    (isNumber 0 transaction || isTransactionId transaction) &&
    (isNumber 0 arrayRows || isNumber 1 arrayRows) &&
    decide (params.length ≤ maxArrayItems) && scanStatementParams params params
  | _ => false

/-- A request that is encoded for the engine: a flat statement request, or a method with its
parameters. -/
inductive Request where
  | statement (slots : List JsValue)
  | executeSql (sql params transactionId rowMode : JsValue)
  | executePrepared (statementId params transactionId rowMode : JsValue)
  | execSql (sql transactionId rowMode : JsValue)
  | prepareSql (sql : JsValue)
  | closePrepared (statementId : JsValue)
  | setSchema (schema drop : JsValue)

/-- `isStatementRequest`, and `isWorkerRequest` of each method. -/
def isRequest : Request → Bool
  | .statement slots => isStatementRequest slots
  | .executeSql sql params transactionId rowMode =>
    isString sql && isJsonValues params && isOptionalTransactionId transactionId &&
      isOptionalRowMode rowMode
  | .executePrepared statementId params transactionId rowMode =>
    isPreparedStatementId statementId && isJsonValues params &&
      isOptionalTransactionId transactionId && isOptionalRowMode rowMode
  | .execSql sql transactionId rowMode =>
    isString sql && isOptionalTransactionId transactionId && isOptionalRowMode rowMode
  | .prepareSql sql => isString sql
  | .closePrepared statementId => isPreparedStatementId statementId
  | .setSchema schema drop => isJson schema && isBoolean drop

end Protocol
end TinyJoin
