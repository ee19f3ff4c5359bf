import TinyJoin.Lib.Effect
import TinyJoin.Lib.Ranges
import TinyJoin.Page

/-! The Worker's page device over a file of the browser's private file system, whose access handle may
move fewer bytes than it is asked to, fail on either side of a change, and return any number. -/
namespace TinyJoin
open Bytes
namespace Opfs

/-! ### What JavaScript passes -/

/-- A number: an integer, or a fraction, an infinity or NaN. -/
inductive JsNumber where
  | integer (i : Int)
  | other
deriving DecidableEq

def maxSafeInteger : Int := 9007199254740991
def maxU32 : Int := 0xffffffff

namespace JsNumber

def isCountWithin (minimum maximum : Int) : JsNumber → Bool
  | integer i => i.natAbs ≤ maxSafeInteger && minimum ≤ i && i ≤ maximum
  | other => false

def isCount : JsNumber → Bool := isCountWithin 0 maxSafeInteger

def isUint32 : JsNumber → Bool := isCountWithin 0 maxU32

/-- The integer that a number is, where it is not negative. -/
def toNat : JsNumber → Nat
  | integer i => i.toNat
  | other => 0

end JsNumber

structure StorageError where
  code : String
  message : String
  retryable : Bool
deriving DecidableEq

/-- What is thrown, as far as it is told apart: an error of the storage, a value that carries a code, be
it an error or not, or an error by its name and its message, which are empty for what is no error. -/
inductive Thrown where
  | storage (error : StorageError)
  | coded (code message : String) (isError : Bool)
  | error (name message : String)
deriving DecidableEq

def readFailed : String := "STORAGE_READ_FAILED"
def writeFailed : String := "STORAGE_WRITE_FAILED"
def tooLarge : String := "STORAGE_DATABASE_TOO_LARGE"
def unknownOutcome : String := "STORAGE_COMMIT_OUTCOME_UNKNOWN"
def maxDatabaseBytes : Nat := pageSize * maxPageCount

/-- The reason to append to a message, where there is one. -/
def errorDetail : Thrown → String
  | .storage error => if error.message = "" then "" else ": " ++ error.message
  | .coded _ message isError => if !isError || message = "" then "" else ": " ++ message
  | .error _ message => if message = "" then "" else ": " ++ message

def pageStorageError (error : Thrown) (fallbackCode fallbackMessage : String) : StorageError :=
  match error with
  | .storage error => error
  | .coded code message _ => ⟨code, message, false⟩
  | .error name _ =>
    if name = "QuotaExceededError" then
      ⟨"STORAGE_QUOTA_EXCEEDED", "The browser has no space available for TinyJoin database pages", true⟩
    else ⟨fallbackCode, fallbackMessage ++ errorDetail error, true⟩

def storageError (code message : String) (retryable : Bool) : Thrown := .storage ⟨code, message, retryable⟩
def rangeError (message : String) : Thrown := .error "RangeError" message
def typeError (message : String) : Thrown := .error "TypeError" message

def corrupt (problem : String) : Thrown :=
  storageError "STORAGE_CORRUPT" s!"The TinyJoin page file {problem}" false
def unallocated (pageId : Nat) : Thrown := rangeError s!"Page {pageId} has not been allocated"
def gap (pageId count : Nat) : Thrown :=
  rangeError s!"Page {pageId} cannot be written before page {count} is allocated"

def shortTransfer (action : String) : String :=
  s!"TinyJoin received a short database page {action} with no progress"
def transferFailed (action : String) : String := s!"TinyJoin could not {action} a database page"

def unknownWriteOutcome (error : Thrown) : Thrown :=
  storageError unknownOutcome ("TinyJoin could not safely complete an in-place page write: " ++
    (pageStorageError error writeFailed (transferFailed "write")).message) false

/-! ### The handle -/

/-- A synchronous access handle, as a state that its calls change. A read also returns what it leaves in
the view. -/
structure SyncPageAccessHandle (σ : Type) where
  close : Effect σ Thrown Unit
  flush : Effect σ Thrown Unit
  getSize : Effect σ Thrown JsNumber
  read : List UInt8 → Nat → Effect σ Thrown (List UInt8 × JsNumber)
  truncate : Nat → Effect σ Thrown Unit
  write : List UInt8 → Nat → Effect σ Thrown JsNumber

section Device
variable {σ : Type} (handle : SyncPageAccessHandle σ)

/-! ### Opening -/

def readByteLength : Effect σ Thrown Nat := do
  let size ← handle.getSize.orElse (fun error => Effect.fail (.storage
    (pageStorageError error readFailed "TinyJoin could not read the database page count")))
  if !size.isCount then Effect.fail (corrupt "has an invalid byte length")
  else if size.toNat > maxDatabaseBytes then
    Effect.fail (storageError tooLarge
      s!"The TinyJoin page file exceeds {maxDatabaseBytes} bytes" false)
  else return size.toNat

def truncateTo (bytes : Nat) : Effect σ Thrown Unit := do
  handle.truncate bytes
  handle.flush

/-- The file's page count, once a partly written page at its end is dropped. -/
def repairTornTail : Effect σ Thrown Nat := do
  let size ← readByteLength handle
  let alignedSize := size - size % pageSize
  if alignedSize ≠ size then do
    (truncateTo handle alignedSize).orElse (fun error => Effect.fail (storageError unknownOutcome
      (pageStorageError error writeFailed
        "TinyJoin could not repair a torn trailing database page").message false))
    return alignedSize / pageSize
  else return alignedSize / pageSize

/-- A device: whether it is closed, and how many pages it holds, beside its handle's state. -/
structure Device (σ : Type) where
  closed : Bool
  pageCount : Nat
  store : σ

/-- The count of a new device's pages. A handle that no device can be made of is closed, without a
failure to replace the error. -/
def createOpfsPageDevice : Effect σ Thrown Nat :=
  (repairTornTail handle).orElse (fun error => do
    handle.close.orElse (fun _ => pure ())
    Effect.fail error)

/-! ### Transfers -/

/-- A buffer with what a view of it from `offset` holds. A view is as long as the rest of its buffer. -/
def setView (buffer : List UInt8) (offset : Nat) (view : List UInt8) : List UInt8 :=
  let rest := buffer.drop offset
  buffer.take offset ++ (view.take rest.length ++ rest.drop view.length)

lemma length_setView {buffer view : List UInt8} {offset : Nat} (h : offset ≤ buffer.length) :
    (setView buffer offset view).length = buffer.length := by
  simp only [setView, List.length_append, List.length_take, List.length_drop]
  omega

/-- The loop that moves a buffer, one short transfer at a time. It goes on only where it has moved
something. -/
def transferFrom (transfer : List UInt8 → Nat → Effect σ Thrown (List UInt8 × JsNumber))
    (code action : String) (position : Nat) (buffer : List UInt8) (offset : Nat) :
    Effect σ Thrown (List UInt8) :=
  if _h : offset < buffer.length then do
    let (view, moved) ← transfer (buffer.drop offset) (position + offset)
    match moved with
    | .integer n =>
      if _h : 0 < n ∧ n ≤ (buffer.length - offset : Nat) then
        transferFrom transfer code action position (setView buffer offset view) (offset + n.toNat)
      else Effect.fail (storageError code (shortTransfer action) true)
    | .other => Effect.fail (storageError code (shortTransfer action) true)
  else return buffer
termination_by buffer.length - offset
decreasing_by
  rw [length_setView (by omega)]
  omega

def transferExactly (transfer : List UInt8 → Nat → Effect σ Thrown (List UInt8 × JsNumber))
    (code action : String) (position : Nat) (buffer : List UInt8) : Effect σ Thrown (List UInt8) :=
  (transferFrom transfer code action position buffer 0).orElse (fun error =>
    Effect.fail (.storage (pageStorageError error code (transferFailed action))))

/-- A write as a transfer, which leaves its view as it is. -/
def writeTransfer (view : List UInt8) (position : Nat) : Effect σ Thrown (List UInt8 × JsNumber) := do
  let moved ← handle.write view position
  return (view, moved)

/-- The loop of a write in place. What it has begun to change it must complete. -/
def writeExistingFrom (position : Nat) (source : List UInt8) (offset : Nat) : Effect σ Thrown Unit :=
  if _h : offset < source.length then do
    let written ← (handle.write (source.drop offset) (position + offset)).orElse
      (fun error => Effect.fail (unknownWriteOutcome error))
    match written with
    | .integer n =>
      if _h : 0 < n ∧ n ≤ (source.length - offset : Nat) then
        writeExistingFrom position source (offset + n.toNat)
      else if n ≠ 0 then
        Effect.fail (unknownWriteOutcome (.error "Error"
          "The page device returned an invalid write length"))
      else if offset = 0 then Effect.fail (storageError writeFailed (shortTransfer "write") true)
      else
        Effect.fail (unknownWriteOutcome (.error "Error"
          "A partial database page write stopped making progress"))
    | .other =>
      Effect.fail (unknownWriteOutcome (.error "Error"
        "The page device returned an invalid write length"))
  else return ()
termination_by source.length - offset

def writeExistingExactly (position : Nat) (source : List UInt8) : Effect σ Thrown Unit :=
  writeExistingFrom handle position source 0

def rollbackAppend (originalPageCount : Nat) : Effect σ Thrown Unit :=
  (truncateTo handle (originalPageCount * pageSize)).orElse (fun error =>
    Effect.fail (storageError unknownOutcome
      ("TinyJoin could not roll back a failed page append" ++ errorDetail error) false))

/-! ### What a call names -/

/-- The page id that two words make, within the pages that a database can hold. -/
def pageIdFromWords (low high : JsNumber) (appendable : Bool) : Except Thrown Nat :=
  if !low.isUint32 || !high.isUint32 then
    .error (rangeError "Page id words must be unsigned 32-bit integers")
  else
    let maximum := if appendable then maxPageCount else maxPageCount - 1
    if high ≠ .integer 0 ∨ low.toNat > maximum then
      .error (rangeError s!"Page id must be between 0 and {maximum}")
    else .ok low.toNat

/-- The first page that a write names, and the bytes that it writes. What is no byte array is `none`. -/
def firstWrittenPage (low high : JsNumber) (source : Option (List UInt8)) :
    Except Thrown (Nat × List UInt8) := do
  let pageId ← pageIdFromWords low high true
  match source with
  | none => .error (typeError "The page source must be a Uint8Array")
  | some source =>
    if source.length = 0 ∨ source.length % pageSize ≠ 0 then
      .error (rangeError s!"The page source must contain whole {pageSize}-byte pages")
    else if pageId + source.length / pageSize > maxPageCount then
      .error (storageError tooLarge
        s!"The TinyJoin database cannot exceed {maxDatabaseBytes} bytes" false)
    else .ok (pageId, source)

def assertExactPage (bytes : Option (List UInt8)) (label : String) : Except Thrown (List UInt8) :=
  match bytes with
  | none => .error (typeError s!"{label} must be a Uint8Array")
  | some bytes =>
    if bytes.length ≠ pageSize then
      .error (rangeError s!"{label} must contain exactly {pageSize} bytes")
    else .ok bytes

/-! ### Calls -/

/-- An action on the handle's state. -/
def onStore {α : Type} (action : Effect σ Thrown α) : Effect (Device σ) Thrown α :=
  Effect.focus Device.store (fun store device => { device with store }) action

def assertOpen : Effect (Device σ) Thrown Unit := fun device =>
  if device.closed then
    (.error (storageError "STORAGE_CLOSED" "The TinyJoin page device is closed" false), device)
  else (.ok (), device)

/-- Reads a page, and returns how many bytes it moved beside what the target holds. -/
def readPage (low high : JsNumber) (target : Option (List UInt8)) :
    Effect (Device σ) Thrown (Nat × List UInt8) := do
  assertOpen
  let pageId ← Effect.ofExcept (pageIdFromWords low high false)
  let target ← Effect.ofExcept (assertExactPage target "The read target")
  let device ← Effect.get
  if pageId ≥ device.pageCount then Effect.fail (unallocated pageId)
  else do
    let filled ← onStore (transferExactly handle.read readFailed "read" (pageId * pageSize) target)
    return (pageSize, filled)

/-- Replaces the pages that a write finds in place. -/
def replacePages (position inPlace : Nat) (source : List UInt8) : Effect (Device σ) Thrown Unit :=
  if inPlace > 0 then onStore (writeExistingExactly handle position (source.take inPlace))
  else pure ()

/-- Appends the pages that a write does not find in place, or takes back what it has appended. -/
def appendPages (pageId count position inPlace : Nat) (source : List UInt8) :
    Effect (Device σ) Thrown Unit :=
  if inPlace < source.length then
    (do
      let _ ← onStore (transferExactly (writeTransfer handle) writeFailed "write" (position + inPlace)
        (source.drop inPlace))
      Effect.modify (fun device => { device with pageCount := pageId + source.length / pageSize })).orElse
    (fun error => do
      onStore (rollbackAppend handle count)
      Effect.fail error)
  else pure ()

def writePages (low high : JsNumber) (source : Option (List UInt8)) :
    Effect (Device σ) Thrown Nat := do
  assertOpen
  let (pageId, source) ← Effect.ofExcept (firstWrittenPage low high source)
  let device ← Effect.get
  let count := device.pageCount
  if pageId > count then Effect.fail (gap pageId count)
  else do
    let position := pageId * pageSize
    let inPlace := min source.length ((count - pageId) * pageSize)
    replacePages handle position inPlace source
    appendPages handle pageId count position inPlace source
    return source.length

def flush : Effect (Device σ) Thrown Unit := do
  assertOpen
  (onStore handle.flush).orElse (fun error => Effect.fail (.storage
    (pageStorageError error writeFailed "TinyJoin could not flush database pages")))

def close : Effect (Device σ) Thrown Unit := do
  let device ← Effect.get
  if device.closed then return ()
  else do
    Effect.modify (fun device => { device with closed := true })
    (onStore handle.close).orElse (fun error => Effect.fail (.storage
      (pageStorageError error "STORAGE_CLOSE_FAILED" "TinyJoin could not close its page device")))

def pageCount : Effect (Device σ) Thrown Nat := do
  assertOpen
  let device ← Effect.get
  return device.pageCount

end Device

/-- A call of a device's. -/
inductive Call where
  | pageCount
  | readPage (low high : JsNumber) (target : Option (List UInt8))
  | writePages (low high : JsNumber) (source : Option (List UInt8))
  | flush
  | close

/-- What a call returns: a count of pages or of bytes, with the bytes that it reads, or nothing. -/
inductive Reply where
  | count (pages : Nat)
  | read (moved : Nat) (page : List UInt8)
  | written (moved : Nat)
  | done
deriving DecidableEq

section Runs
variable {σ : Type} (handle : SyncPageAccessHandle σ)

def Call.run : Call → Effect (Device σ) Thrown Reply
  | .pageCount => Reply.count <$> TinyJoin.Opfs.pageCount
  | .readPage low high target =>
    (fun reply => Reply.read reply.1 reply.2) <$> TinyJoin.Opfs.readPage handle low high target
  | .writePages low high source =>
    Reply.written <$> TinyJoin.Opfs.writePages handle low high source
  | .flush => (fun _ => Reply.done) <$> TinyJoin.Opfs.flush handle
  | .close => (fun _ => Reply.done) <$> TinyJoin.Opfs.close handle

/-- The results of calls, one after another, and the device that they leave. -/
def runCalls : Device σ → List Call → List (Except Thrown Reply) × Device σ
  | device, [] => ([], device)
  | device, call :: calls =>
    let (result, device) := call.run handle device
    let (results, device) := runCalls device calls
    (result :: results, device)

end Runs
end Opfs
end TinyJoin
