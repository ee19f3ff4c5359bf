import TinyJoin.Value
import TinyJoin.Protocol
import TinyJoin.Lib.Effect

/-! The engine's reader of requests, which goes through the bytes of one from their start. What Rust
would panic at, an index or a subtraction out of range, is a fault of its own here. -/
namespace TinyJoin
open Bytes

/-- `Map::insert`, for a map as its entries in the order of their keys. -/
def Map.insert (key : String) (value : Value) : List (String × Value) → List (String × Value)
  | [] => [(key, value)]
  | (other, kept) :: rest =>
    if key = other then (key, value) :: rest
    else if key < other then (key, value) :: (other, kept) :: rest
    else (other, kept) :: Map.insert key value rest

namespace Structured
open Effect (get fail)

inductive Fault where
  | error (e : EngineError)
  | panic
deriving DecidableEq, Repr

/-- A step of the reader, from the position it is at. -/
abbrev Read (α : Type) : Type := Effect Nat Fault α

def opExecuteSql : Nat := 1
def opExecSql : Nat := 2
def opPrepareSql : Nat := 3
def opExecutePrepared : Nat := 4
def opClosePrepared : Nat := 5
def opBegin : Nat := 6
def opSchema : Nat := 13
def opSetSchema : Nat := 14

def maxDepth : Nat := 64

/-- The greatest `usize` of the engine's target. -/
def maxUsize : Nat := 4294967295

def tagNull : Nat := 0
def tagFalse : Nat := 1
def tagTrue : Nat := 2
def tagInteger : Nat := 3
def tagFloat : Nat := 5
def tagString : Nat := 6
def tagArray : Nat := 7
def tagObject : Nat := 8

def invalid : Fault := .error ⟨"INVALID_BRIDGE_VALUE", "Invalid structured bridge request"⟩

/-- `for _ in 0..count`, on what the loop builds. -/
def times {σ ε α : Type} (body : α → Effect σ ε α) : Nat → α → Effect σ ε α
  | 0, built => pure built
  | count + 1, built => do times body count (← body built)

section Request
variable (bytes : List UInt8)

/-- `&bytes[start..stop]`, which panics outside the bytes. -/
def sliceAt (start stop : Nat) : Read (List UInt8) :=
  if start ≤ stop ∧ stop ≤ bytes.length then pure (slice bytes start stop) else fail .panic

def take (count : Nat) : Read (List UInt8) := do
  let start ← get
  let stop := start + count
  if stop ≤ maxUsize ∧ stop ≤ bytes.length then do
    let taken ← sliceAt bytes start stop
    Effect.modify (fun _ => stop)
    pure taken
  else fail invalid

def flag : Read Bool := do
  match ← take bytes 1 with
  | [0] => pure false
  | [1] => pure true
  | _ => fail invalid

def u32 : Read Nat := do
  match ← take bytes 4 with
  | [b₀, b₁, b₂, b₃] => pure (ofLeBytes [b₀, b₁, b₂, b₃])
  | _ => fail .panic

def f64 : Read F64 := do
  let raw ← take bytes 8
  if raw.length = 8 then pure ⟨UInt64.ofNat (ofLeBytes raw)⟩ else fail .panic

def string : Read String := do
  let length ← u32 bytes
  match fromUtf8 (← take bytes length) with
  | some text => pure text
  | none => fail invalid

/-- The bytes left, `bytes.len() - at`. -/
def left : Read Nat := do
  let start ← get
  if start ≤ bytes.length then pure (bytes.length - start) else fail .panic

def number (tag : Nat) : Read Value := do
  let value ← f64 bytes
  if tag = tagInteger then
    -- a value that is not finite has no zero fraction
    if !value.isInteger || decide (maxSafeInteger * 2 ^ 1074 < value.scaled.natAbs) then fail invalid
    else pure (.ofI64 value.toInt)
  else
    if h : value.isFinite = true then pure (.number (.float ⟨value, h⟩)) else fail invalid

/-- The count of a list: every value takes at least its tag. -/
def count : Read Nat := do
  let count ← u32 bytes
  let left ← left bytes
  if left < count then fail invalid else pure count

def tag : Read Nat := do
  match ← take bytes 1 with
  | [tag] => pure tag.toNat
  | _ => fail .panic

def value (depth : Nat) : Read Value :=
  if _h : maxDepth < depth then fail invalid
  else do
    let tag ← tag bytes
    if tag = tagNull then pure .null
    else if tag = tagFalse then pure (.bool false)
    else if tag = tagTrue then pure (.bool true)
    else if tag = tagInteger ∨ tag = tagFloat then number bytes tag
    else if tag = tagString then do
      let text ← string bytes
      pure (.string text)
    else if tag = tagArray then do
      let count ← count bytes
      let values ← times (fun values => do pure (values ++ [← value (depth + 1)])) count []
      pure (.array values)
    else if tag = tagObject then do
      let count ← u32 bytes
      let object ← times (fun object => do
        let key ← string bytes
        let value ← value (depth + 1)
        pure (Map.insert key value object)) count []
      pure (.object object)
    else fail invalid
termination_by maxDepth + 1 - depth

def list (depth : Nat) : Read (List Value) := do
  let count ← count bytes
  times (fun values => do pure (values ++ [← value bytes depth])) count []

def values : Read (List Value) := list bytes 0

def finish : Read Unit := do
  let start ← get
  if start = bytes.length then pure () else fail invalid

end Request

/-- What an operation reads of its request before it runs. -/
inductive Arguments where
  | executeSql (arrayRows : Bool) (sql : String) (params : List Value)
  | execSql (arrayRows : Bool) (sql : String)
  | prepareSql (sql : String)
  | executePrepared (arrayRows : Bool) (statementId : Nat) (params : List Value)
  | closePrepared (id : Nat)
  | setSchema (drop : Bool) (schema : Value)
  | none

/-- The reading at the head of each operation of `call_structured_inner`. -/
def arguments (operation : Nat) (bytes : List UInt8) : Read Arguments :=
  if operation = opExecuteSql then do
    let arrayRows ← flag bytes
    let sql ← string bytes
    let params ← values bytes
    finish bytes
    pure (.executeSql arrayRows sql params)
  else if operation = opExecSql then do
    let arrayRows ← flag bytes
    let sql ← string bytes
    finish bytes
    pure (.execSql arrayRows sql)
  else if operation = opPrepareSql then do
    let sql ← string bytes
    finish bytes
    pure (.prepareSql sql)
  else if operation = opExecutePrepared then do
    let arrayRows ← flag bytes
    let statementId ← u32 bytes
    let params ← values bytes
    finish bytes
    pure (.executePrepared arrayRows statementId params)
  else if operation = opClosePrepared then do
    let id ← u32 bytes
    finish bytes
    pure (.closePrepared id)
  else if operation = opSetSchema then do
    let drop ← flag bytes
    let schema ← values bytes
    finish bytes
    match schema with
    | [schema] => pure (.setSchema drop schema)
    | _ => fail invalid
  else if opBegin ≤ operation ∧ operation ≤ opSchema then do
    -- none of these takes any
    finish bytes
    pure .none
  else fail invalid

/-- A request read from its start. -/
def read (operation : Nat) (bytes : List UInt8) : Except Fault Arguments :=
  (arguments operation bytes 0).1

end Structured
end TinyJoin
