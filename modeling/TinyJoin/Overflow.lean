import TinyJoin.NodeRoundTrip
import TinyJoin.PageView

/-! Values too large for a leaf: a chain of pages, each a header of 56 bytes and a chunk, whose
descriptor stands in the leaf's cell. -/
namespace TinyJoin
open Bytes PageDevice

/-- `TGOV`. -/
def overflowMagic : List UInt8 := [0x54, 0x47, 0x4f, 0x56]
def overflowFormatVersion : Nat := 1
def overflowFlags : Nat := 0

structure OverflowPage where
  treeId : Nat
  generation : Nat
  chunkIndex : Nat
  chunkCount : Nat
  nextPageId : Option Nat
  totalLength : Nat
  checksum : UInt32
  chunk : List UInt8
deriving DecidableEq, Repr

/-- The length of one chunk of a value: every chunk but the last is full. -/
def overflowChunkLength (totalLength chunkIndex chunkCount : Nat) : Result Nat :=
  if chunkCount = 0 ∨ chunkIndex ≥ chunkCount then
    .error (invalidOverflow s!"Overflow chunk index {chunkIndex} is outside count {chunkCount}")
  else if overflowChunkCount totalLength ≠ chunkCount then
    .error (invalidOverflow (s!"Overflow total length {totalLength} needs " ++
      s!"{overflowChunkCount totalLength} chunks, not {chunkCount}"))
  else if chunkIndex + 1 = chunkCount then .ok (totalLength - chunkIndex * maxOverflowChunkBytes)
  else .ok maxOverflowChunkBytes

namespace OverflowPage

/-- The fields of an overflow page's payload. A missing next page is the highest number. -/
def fields (page : OverflowPage) : List (Nat × List UInt8) :=
  [(0, overflowMagic),
    (4, leBytes 2 overflowFormatVersion),
    (6, leBytes 2 overflowFlags),
    (8, leBytes 8 page.treeId),
    (16, leBytes 8 page.generation),
    (24, leBytes 4 page.chunkIndex),
    (28, leBytes 4 page.chunkCount),
    (32, leBytes 8 (page.nextPageId.getD noPageId)),
    (40, leBytes 4 page.totalLength),
    (44, leBytes 4 page.checksum.toNat),
    (48, leBytes 4 page.chunk.length),
    (overflowHeaderSize, page.chunk)]

def payload (page : OverflowPage) : List UInt8 :=
  putAll (List.replicate (overflowHeaderSize + page.chunk.length) 0) page.fields

def validateNext (page : OverflowPage) (pageId : Nat) : Result Unit :=
  match page.nextPageId with
  | some next => do
    validateOverflowPageId next
    if next = pageId then
      .error (invalidOverflow s!"Overflow page {pageId} references itself")
    else .ok ()
  | none => .ok ()

def encode (page : OverflowPage) (pageId : Nat) : Result Page := do
  validateOverflowPageId pageId
  validateTreeId page.treeId
  if page.generation = 0 then .error (invalidOverflow "Overflow generation must be positive")
  else if page.chunkCount = 0 ∨ page.chunkCount > maxOverflowPageCount ∨
      page.chunkIndex ≥ page.chunkCount then
    .error (invalidOverflow (s!"Overflow chunk index {page.chunkIndex} is outside chunk count " ++
      s!"{page.chunkCount}"))
  else if page.totalLength = 0 ∨ page.totalLength > maxBtreeValueBytes then
    .error (invalidOverflow (s!"Overflow total length {page.totalLength} is outside " ++
      s!"1..={maxBtreeValueBytes}"))
  else if page.chunkCount ≠ overflowChunkCount page.totalLength then
    .error (invalidOverflow (s!"Overflow chunk count {page.chunkCount} does not match total " ++
      s!"length {page.totalLength}"))
  else
    let expected ← overflowChunkLength page.totalLength page.chunkIndex page.chunkCount
    if page.chunk.length ≠ expected then
      .error (invalidOverflow (s!"Overflow chunk {page.chunkIndex} is {page.chunk.length} bytes, " ++
        s!"not {expected}"))
    else if page.chunkIndex + 1 = page.chunkCount ∧ page.nextPageId ≠ none then
      .error (invalidOverflow "The final overflow chunk has a next page")
    else if page.chunkIndex + 1 ≠ page.chunkCount ∧ page.nextPageId = none then
      .error (invalidOverflow "A non-final overflow chunk has no next page")
    else
      page.validateNext pageId
      Page.new pageId .overflow page.payload

/-- Checks an overflow page's header, up to its chain position. -/
def checkHeader (page : Page) : Result Unit :=
  let bytes := page.payload
  if page.pageType ≠ .overflow then
    .error (invalidOverflow s!"Overflow chain page {page.id} has type {page.pageType.debug}")
  else if bytes.length < overflowHeaderSize then
    .error (invalidOverflow
      s!"Overflow page {page.id} payload is truncated to {bytes.length} bytes")
  else if bytes.take 4 ≠ overflowMagic then
    .error (invalidOverflow s!"Overflow page {page.id} magic does not match")
  else if readU16 bytes 4 ≠ overflowFormatVersion then
    .error (unsupportedOverflow
      s!"Overflow page {page.id} format version {readU16 bytes 4} is not supported")
  else if readU16 bytes 6 ≠ overflowFlags then
    .error (unsupportedOverflow
      s!"Overflow page {page.id} flags {Page.hex4 (readU16 bytes 6)} are not supported")
  else if (slice bytes 52 56).any (· != 0) then
    .error (invalidOverflow s!"Overflow page {page.id} reserved bytes must be zero")
  else .ok ()

def decodeNext (raw : Nat) : Result (Option Nat) :=
  if raw = noPageId then .ok none
  else do
    validateOverflowPageId raw
    .ok (some raw)

def decode (page : Page) (expectedTreeId : Nat) (descriptor : OverflowDescriptor)
    (expectedIndex expectedCount : Nat) : Result OverflowPage := do
  validateOverflowPageId page.id
  checkHeader page
  let bytes := page.payload
  let treeId := readU64 bytes 8
  let generation := readU64 bytes 16
  let chunkIndex := readU32 bytes 24
  let chunkCount := readU32 bytes 28
  let totalLength := readU32 bytes 40
  let checksum := UInt32.ofNat (readU32 bytes 44)
  let chunkLength := readU32 bytes 48
  if treeId ≠ expectedTreeId ∨ generation ≠ descriptor.generation ∨ chunkIndex ≠ expectedIndex ∨
      chunkCount ≠ expectedCount ∨ totalLength ≠ descriptor.totalLength ∨
      checksum ≠ descriptor.checksum then
    .error (invalidOverflow
      s!"Overflow page {page.id} does not match its descriptor or chain position")
  else
    let expected ← overflowChunkLength totalLength chunkIndex chunkCount
    if chunkLength ≠ expected ∨ overflowHeaderSize + chunkLength ≠ bytes.length then
      .error (invalidOverflow (s!"Overflow page {page.id} chunk length {chunkLength} does not " ++
        s!"match expected {expected}"))
    else
      let next ← decodeNext (readU64 bytes 32)
      if ¬(chunkIndex + 1 = chunkCount ↔ next = none) then
        .error (invalidOverflow s!"Overflow page {page.id} has an invalid chain terminator")
      else .ok ⟨treeId, generation, chunkIndex, chunkCount, next, totalLength, checksum,
        bytes.drop overflowHeaderSize⟩

end OverflowPage

/-! Storing and reading a chain. -/

section
variable {D : Type} [PageDevice D] {σ : Type}

def allocatePages : Nat → Op (PagerWriteTransaction D) (List Nat)
  | 0 => pure []
  | n + 1 => do
    let id ← PagerWriteTransaction.allocatePage
    let rest ← allocatePages n
    pure (id :: rest)

/-- The page of one chunk of a value stored in the given pages. -/
def chunkPage (treeId generation : Nat) (value : List UInt8) (pageIds : List Nat) (index : Nat) :
    OverflowPage where
  treeId := treeId
  generation := generation
  chunkIndex := index
  chunkCount := overflowChunkCount value.length
  nextPageId := pageIds[index + 1]?
  totalLength := value.length
  checksum := checksum32 value
  chunk := slice value (index * maxOverflowChunkBytes)
    (min (index * maxOverflowChunkBytes + maxOverflowChunkBytes) value.length)

/-- Writes a value to a chain of overflow pages and returns the descriptor a leaf cell holds. -/
def storeOverflowValue (treeId generation : Nat) (value : List UInt8) :
    Op (PagerWriteTransaction D) OverflowDescriptor := do
  let chunkCount := overflowChunkCount value.length
  if chunkCount = 0 ∨ chunkCount > maxOverflowPageCount then
    Effect.fail (limitError
      s!"Overflow value requires {chunkCount} pages, exceeding {maxOverflowPageCount}")
  else
    let pageIds ← allocatePages chunkCount
    Effect.forEach (fun (id, index) => do
      let page ← Effect.ofExcept ((chunkPage treeId generation value pageIds index).encode id)
      PagerWriteTransaction.writeNewPage page) pageIds.zipIdx
    pure ⟨pageIds.headD 0, generation, value.length, checksum32 value⟩

/-- The loop over a chain: `remaining` chunks from chunk `index` on page `pageId` on. -/
def readChunks (readPage : Nat → Op σ Page) (treeId : Nat) (descriptor : OverflowDescriptor)
    (chunkCount : Nat) : Nat → Nat → Nat → List Nat → Op σ (List UInt8 × List Nat)
  | 0, _, _, _ => pure ([], [])
  | remaining + 1, index, pageId, visited =>
    if pageId ∈ visited then
      Effect.fail (invalidOverflow s!"Overflow chain contains a cycle through page {pageId}")
    else do
      let page ← readPage pageId
      let overflow ← Effect.ofExcept
        (OverflowPage.decode page treeId descriptor index chunkCount)
      if index + 1 < chunkCount then
        match overflow.nextPageId with
        | none => Effect.fail (invalidOverflow s!"Overflow chain ended after page {pageId}")
        | some next => do
          let (value, pages) ← readChunks readPage treeId descriptor chunkCount remaining
            (index + 1) next (pageId :: visited)
          pure (overflow.chunk ++ value, pageId :: pages)
      else pure (overflow.chunk, [pageId])

def readOverflowChain (readPage : Nat → Op σ Page) (treeId viewGeneration leafGeneration : Nat)
    (descriptor : OverflowDescriptor) : Op σ (List UInt8 × List Nat) := do
  Effect.ofExcept (validateOverflowDescriptor descriptor leafGeneration)
  if descriptor.generation > viewGeneration then
    Effect.fail (invalidOverflow (s!"Overflow generation {descriptor.generation} exceeds view " ++
      s!"generation {viewGeneration}"))
  else
    let chunkCount := overflowChunkCount descriptor.totalLength
    let (value, pages) ← readChunks readPage treeId descriptor chunkCount chunkCount 0
      descriptor.firstPageId []
    if value.length ≠ descriptor.totalLength then
      Effect.fail (invalidOverflow (s!"Overflow chain materialized {value.length} bytes, not " ++
        s!"{descriptor.totalLength}"))
    else if checksum32 value ≠ descriptor.checksum then
      Effect.fail (invalidOverflow "Overflow chain end-to-end checksum does not match")
    else pure (value, pages)

end

end TinyJoin
