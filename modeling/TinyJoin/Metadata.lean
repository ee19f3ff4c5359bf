import TinyJoin.Allocation
import TinyJoin.Lib.Effect
import Mathlib.Data.Fin.VecNotation
import Mathlib.Data.Fintype.Pi

/-! The metadata of a database: two superblocks, each a root with the start of its allocation
bitmap, and the rest of the bitmap in two chunks, each of which has two slots. A commit writes the
superblock beside its predecessor's, and each chunk it changes in the slot beside the one its
predecessor reads. -/
namespace TinyJoin
open Bytes

/-- `TGRSUPR` and a zero byte. -/
def superblockMagic : List UInt8 := [0x54, 0x47, 0x52, 0x53, 0x55, 0x50, 0x52, 0]
def superblockFormatVersion : Nat := 3
def superblockFlags : Nat := 0
def superblockFieldsSize : Nat := 128
def superblockBitmapBytes : Nat := maxPagePayloadSize - superblockFieldsSize
def bitmapChunkEntriesOffset : Nat := 72
def bitmapChunkEntrySize : Nat := 16
def bitmapChunkHeaderSize : Nat := 16
def maxBitmapChunkBytes : Nat := maxPagePayloadSize - bitmapChunkHeaderSize

instance : NeZero bitmapChunkCount := ⟨by decide⟩

/-- Highest database revision represented exactly by JavaScript's `number` type. -/
def maxDatabaseRevision : Nat := 9007199254740991

def revisionOverflow : EngineError := ⟨"REVISION_OVERFLOW",
  s!"Database revision cannot exceed the JavaScript-safe integer limit {maxDatabaseRevision}"⟩

def validateDatabaseRevision (revision : Nat) : Result Nat :=
  if revision ≤ maxDatabaseRevision then .ok revision else .error revisionOverflow

namespace CommitHash

def new : UInt64 := 0

/-- Adds the next page: the XXH64 of its ID and checksum, seeded with the hash of the pages before
it. -/
def page (hash : UInt64) (id checksum : Nat) : UInt64 :=
  xxh64 (leBytes 8 id ++ leBytes 4 checksum) hash

end CommitHash

inductive SuperblockSlot
  | a
  | b
deriving DecidableEq, Repr

inductive BitmapSlot
  | a
  | b
deriving DecidableEq, Repr

namespace SuperblockSlot

def pageId : SuperblockSlot → Nat
  | a => 0
  | b => 1

def inactive : SuperblockSlot → SuperblockSlot
  | a => b
  | b => a

def bitmapSlot : SuperblockSlot → BitmapSlot
  | a => .a
  | b => .b

def name : SuperblockSlot → String
  | a => "A"
  | b => "B"

def toByte : SuperblockSlot → UInt8
  | a => 0
  | b => 1

def tryFrom (value : UInt8) : Result SuperblockSlot :=
  if value = 0 then .ok a
  else if value = 1 then .ok b
  else .error (invalidPage s!"Unknown superblock slot {value}")

end SuperblockSlot

namespace BitmapSlot

def firstPageId : BitmapSlot → Nat
  | a => superblockPageCount
  | b => superblockPageCount + bitmapChunkCount

def pageId (slot : BitmapSlot) (chunk : Nat) : Nat := slot.firstPageId + chunk

def inactive : BitmapSlot → BitmapSlot
  | a => b
  | b => a

def toByte : BitmapSlot → UInt8
  | a => 0
  | b => 1

def tryFrom (value : UInt8) : Result BitmapSlot :=
  if value = 0 then .ok a
  else if value = 1 then .ok b
  else .error (invalidPage s!"Unknown allocation bitmap slot {value}")

end BitmapSlot

/-- Where a superblock finds one chunk of its allocation bitmap: the slot that holds it, the
generation whose commit wrote it, and the checksum of the page that commit wrote. -/
structure BitmapChunk where
  slot : BitmapSlot
  generation : Nat
  checksum : Nat
deriving DecidableEq, Repr

structure Superblock where
  slot : SuperblockSlot
  generation : Nat
  databaseRevision : Nat
  /-- The fingerprint of every row in every table. -/
  databaseHash : UInt64
  catalogRootPageId : Option Nat
  liveDataPageCount : Nat
  maxPageCount : Nat
  /-- The hash of the data pages this generation's commit wrote. -/
  commitHash : UInt64
  bitmapChunks : Fin bitmapChunkCount → BitmapChunk
deriving DecidableEq

namespace AllocationBitmap

def superblockBits (bitmap : AllocationBitmap) : List UInt8 :=
  bitmap.bits.take superblockBitmapBytes

/-- The first and one past the last byte of the bitmap that a chunk holds. -/
def chunkStart (chunk : Nat) : Nat := superblockBitmapBytes + chunk * maxBitmapChunkBytes
def chunkStop (chunk : Nat) : Nat := min (chunkStart chunk + maxBitmapChunkBytes) allocationBitmapBytes

def chunkBits (bitmap : AllocationBitmap) (chunk : Nat) : List UInt8 :=
  slice bitmap.bits (chunkStart chunk) (chunkStop chunk)

/-- A chunk as the page that holds it in `slot`, written by the commit of `generation`. -/
def encodeChunk (bitmap : AllocationBitmap) (chunk : Nat) (slot : BitmapSlot)
    (generation : Nat) : PageBytes :=
  let bits := bitmap.chunkBits chunk
  let bytes := writePageHeader .zero (slot.pageId chunk) .allocationBitmap
    (bitmapChunkHeaderSize + bits.length)
  sealPage (bytes.putFields [
    (0, leBytes 8 generation),
    (8, [slot.toByte]),
    (9, [UInt8.ofNat chunk]),
    (10, [UInt8.ofNat bitmapChunkCount]),
    (12, leBytes 2 bits.length),
    (bitmapChunkHeaderSize, bits)])

end AllocationBitmap

namespace Superblock

def validateRoot : Option Nat → Result Unit
  | some root => do
    validatePageId root
    if root < firstDataPageId then
      .error (invalidPage "The database root cannot occupy a metadata page")
    else .ok ()
  | none => .ok ()

def validate (superblock : Superblock) : Result Unit :=
  match validateDatabaseRevision superblock.databaseRevision with
  | .error error => .error (unsupportedPage
      s!"Superblock database revision is unsupported: {error.message}")
  | .ok _ => do
    if superblock.generation = 0 then
      .error (invalidPage "Superblock generation must be non-zero")
    else if ∃ chunk, (superblock.bitmapChunks chunk).generation = 0 ∨
        (superblock.bitmapChunks chunk).generation > superblock.generation then
      .error (invalidPage ("Allocation bitmap chunk generations must be non-zero and no newer " ++
        "than their superblock"))
    else if superblock.maxPageCount ≠ TinyJoin.maxPageCount then
      .error (unsupportedPage "Superblock maximum page count does not match this build")
    else
      validateRoot superblock.catalogRootPageId
      if superblock.liveDataPageCount > TinyJoin.maxPageCount - firstDataPageId then
        .error (invalidPage (s!"Live data page count {superblock.liveDataPageCount} exceeds " ++
          s!"the supported maximum {TinyJoin.maxPageCount - firstDataPageId}"))
      else .ok ()

def bitmapMissesMetadata : EngineError :=
  invalidPage "Allocation bitmap does not reserve every metadata page"

def validateBitmap (superblock : Superblock) (bitmap : AllocationBitmap) : Result Unit := do
  if bitmap.allocatedPageCount < firstDataPageId then .error bitmapMissesMetadata
  else if bitmap.allocatedPageCount - firstDataPageId ≠ superblock.liveDataPageCount then
    .error (invalidPage "Superblock live page count does not match its allocation bitmap")
  else
    bitmap.validateMetadataPages
    match superblock.catalogRootPageId with
    | some root => do
      let allocated ← bitmap.isAllocated root
      if ¬allocated then
        .error (invalidPage "Superblock catalog root is not allocated in its bitmap")
      else .ok ()
    | none => .ok ()

/-- The fields of a superblock's payload. A missing root is the highest number. -/
def fields (superblock : Superblock) (bitmap : AllocationBitmap) : List (Nat × List UInt8) :=
  [(0, superblockMagic),
    (8, leBytes 2 superblockFormatVersion),
    (10, leBytes 2 superblockFlags),
    (12, leBytes 4 pageSize),
    (16, leBytes 8 superblock.maxPageCount),
    (24, leBytes 8 superblock.generation),
    (32, leBytes 8 superblock.databaseRevision),
    (40, leBytes 8 superblock.databaseHash.toNat),
    (48, leBytes 8 (superblock.catalogRootPageId.getD (2 ^ 64 - 1))),
    (56, leBytes 4 superblock.liveDataPageCount),
    (60, leBytes 2 bitmapChunkCount),
    (62, [superblock.slot.toByte]),
    (64, leBytes 8 superblock.commitHash.toNat)] ++
  (List.finRange bitmapChunkCount).flatMap (fun chunk =>
    let entry := superblock.bitmapChunks chunk
    let start := bitmapChunkEntriesOffset + chunk * bitmapChunkEntrySize
    [(start, leBytes 8 entry.generation),
      (start + 8, leBytes 4 entry.checksum),
      (start + 12, [entry.slot.toByte])]) ++
  [(superblockFieldsSize, bitmap.superblockBits)]

/-- Encodes the superblock with the start of `bitmap`, the allocation bitmap it describes. -/
def encodePage (superblock : Superblock) (bitmap : AllocationBitmap) : Result PageBytes := do
  superblock.validate
  superblock.validateBitmap bitmap
  .ok (sealPage ((writePageHeader .zero superblock.slot.pageId .superblock
    maxPagePayloadSize).putFields (superblock.fields bitmap)))

/-- The entry of one chunk in a superblock's payload. -/
def decodeChunkEntry (payload : List UInt8) (chunk : Nat) : Result BitmapChunk := do
  let start := bitmapChunkEntriesOffset + chunk * bitmapChunkEntrySize
  let slot ← BitmapSlot.tryFrom (byteAt payload (start + 12))
  .ok ⟨slot, readU64 payload start, readU32 payload (start + 8)⟩

/-- Whether every byte of a superblock's payload that no field has is zero. -/
def reservedZero (payload : List UInt8) : Bool :=
  let entriesStop := bitmapChunkEntriesOffset + bitmapChunkCount * bitmapChunkEntrySize
  byteAt payload 63 == 0 && (slice payload entriesStop superblockFieldsSize).all (· == 0) &&
    (List.range bitmapChunkCount).all (fun chunk =>
      let start := bitmapChunkEntriesOffset + chunk * bitmapChunkEntrySize
      (slice payload (start + 13) (start + bitmapChunkEntrySize)).all (· == 0))

/-- The fields of a superblock's payload, once its format is known. -/
def decodeFields (id : Nat) (payload : List UInt8) : Result Superblock := do
  let slot ← SuperblockSlot.tryFrom (byteAt payload 62)
  if id ≠ slot.pageId then
    .error (invalidPage (s!"Superblock slot {slot.name} must occupy page {slot.pageId}, " ++
      s!"not page {id}"))
  else
    let first ← decodeChunkEntry payload 0
    let second ← decodeChunkEntry payload 1
    let root := readU64 payload 48
    let superblock : Superblock :=
      { slot := slot
        generation := readU64 payload 24
        databaseRevision := readU64 payload 32
        databaseHash := UInt64.ofNat (readU64 payload 40)
        catalogRootPageId := if root = 2 ^ 64 - 1 then none else some root
        liveDataPageCount := readU32 payload 56
        maxPageCount := readU64 payload 16
        commitHash := UInt64.ofNat (readU64 payload 64)
        bitmapChunks := ![first, second] }
    superblock.validate
    .ok superblock

/-- The format of a superblock page, read before anything it lays out, so that a superblock another
format lays out differently is refused as unsupported. -/
def checkFormat (page : Page) : Result Unit :=
  let payload := page.payload
  if page.id ≥ superblockPageCount then
    .error (invalidPage s!"Superblock must occupy page 0 or 1, not page {page.id}")
  else if page.pageType ≠ .superblock then
    .error (invalidPage "Superblock page has the wrong page type")
  else if payload.length < 12 ∨ payload.take 8 ≠ superblockMagic then
    .error (invalidPage "Superblock magic does not match")
  else if readU16 payload 8 ≠ superblockFormatVersion then
    .error (unsupportedPage s!"Superblock format version {readU16 payload 8} is not supported")
  else if readU16 payload 10 ≠ superblockFlags then
    .error (unsupportedPage
      s!"Superblock flags {Page.hex4 (readU16 payload 10)} are not supported")
  else if payload.length ≠ maxPagePayloadSize then
    .error (invalidPage "Superblock payload must fill its page")
  else if readU32 payload 12 ≠ pageSize then
    .error (unsupportedPage "Superblock page size does not match this build")
  else if readU64 payload 16 ≠ TinyJoin.maxPageCount then
    .error (unsupportedPage "Superblock maximum page count does not match this build")
  else if readU16 payload 60 ≠ bitmapChunkCount then
    .error (unsupportedPage "Superblock allocation bitmap chunk count is not supported")
  else if ¬reservedZero payload then
    .error (invalidPage "Superblock reserved bytes must be zero")
  else .ok ()

/-- Reads a superblock page, and the start of the allocation bitmap it carries. -/
def decodePage (bytes : List UInt8) : Result (Superblock × List UInt8) := do
  Page.verify bytes
  let page ← Page.decodeVerified bytes
  checkFormat page
  let superblock ← decodeFields page.id page.payload
  .ok (superblock, page.payload.drop superblockFieldsSize)

end Superblock

/-- Reads the bits of a chunk from the page `entry` names, which must be the very page its commit
wrote there. -/
def decodeBitmapChunk (bytes : List UInt8) (chunk : Nat) (entry : BitmapChunk) :
    Result (List UInt8) := do
  Page.verify bytes
  if readU32 bytes pageChecksumOffset ≠ entry.checksum then
    .error (invalidPage
      s!"Allocation bitmap chunk {chunk} is not the page its superblock recorded")
  else
    let page ← Page.decodeVerified bytes
    let payload := page.payload
    let length := AllocationBitmap.chunkStop chunk - AllocationBitmap.chunkStart chunk
    if page.id ≠ entry.slot.pageId chunk then
      .error (invalidPage (s!"Allocation bitmap chunk {chunk} has page ID {page.id}, " ++
        s!"expected {entry.slot.pageId chunk}"))
    else if page.pageType ≠ .allocationBitmap then
      .error (invalidPage s!"Allocation bitmap chunk {chunk} has the wrong page type")
    else if payload.length < bitmapChunkHeaderSize then
      .error (invalidPage s!"Allocation bitmap chunk {chunk} header is truncated")
    else if readU64 payload 0 ≠ entry.generation then
      .error (invalidPage
        s!"Allocation bitmap chunk {chunk} was written by another generation")
    else
      let slot ← BitmapSlot.tryFrom (byteAt payload 8)
      if slot ≠ entry.slot then
        .error (invalidPage s!"Allocation bitmap chunk {chunk} belongs to a different slot")
      else if (byteAt payload 9).toNat ≠ chunk ∨ (byteAt payload 10).toNat ≠ bitmapChunkCount then
        .error (invalidPage
          s!"Allocation bitmap chunk {chunk} has inconsistent chunk metadata")
      else if byteAt payload 11 ≠ 0 ∨ (slice payload 14 16).any (· != 0) then
        .error (invalidPage "Allocation bitmap flags and reserved bytes must be zero")
      else if readU16 payload 12 ≠ length ∨
          payload.length ≠ bitmapChunkHeaderSize + length then
        .error (invalidPage
          s!"Allocation bitmap chunk {chunk} has an invalid payload length")
      else .ok (payload.drop bitmapChunkHeaderSize)

/-- A root: a superblock and the whole allocation bitmap it describes. -/
structure RecoveredMetadata where
  superblock : Superblock
  allocationBitmap : AllocationBitmap
deriving DecidableEq

namespace RecoveredMetadata

/-- The root of an empty database, at generation 1 in `slot`, with each bitmap chunk in the bitmap
slot of the same name. Each chunk's checksum is recorded as its page is encoded. -/
def empty (slot : SuperblockSlot) : RecoveredMetadata where
  superblock :=
    { slot := slot
      generation := 1
      databaseRevision := 0
      databaseHash := 0
      catalogRootPageId := none
      liveDataPageCount := 0
      maxPageCount := TinyJoin.maxPageCount
      commitHash := CommitHash.new
      bitmapChunks := fun _ => ⟨slot.bitmapSlot, 1, 0⟩ }
  allocationBitmap := .new

/-- Encodes every chunk of the root's bitmap and its superblock, each where the superblock names
it, recording each chunk's checksum. -/
def encodePages (root : RecoveredMetadata) :
    Result (RecoveredMetadata × List (Nat × PageBytes)) := do
  let chunkPage := fun chunk : Fin bitmapChunkCount =>
    let entry := root.superblock.bitmapChunks chunk
    root.allocationBitmap.encodeChunk chunk entry.slot entry.generation
  let superblock : Superblock := { root.superblock with
    bitmapChunks := fun chunk =>
      { root.superblock.bitmapChunks chunk with checksum := pageChecksum (chunkPage chunk).bytes } }
  let page ← superblock.encodePage root.allocationBitmap
  .ok ({ root with superblock := superblock },
    (List.finRange bitmapChunkCount).map (fun chunk =>
      ((superblock.bitmapChunks chunk).slot.pageId chunk, chunkPage chunk)) ++
      [(superblock.slot.pageId, page)])

/-- Whether two roots of the same generation hold the same database, wherever their bitmap chunks
are kept. -/
def logicallyMatches (root other : RecoveredMetadata) : Bool :=
  let this := root.superblock
  let that := other.superblock
  this.generation == that.generation && this.databaseRevision == that.databaseRevision &&
    this.databaseHash == that.databaseHash && this.catalogRootPageId == that.catalogRootPageId &&
    this.liveDataPageCount == that.liveDataPageCount && this.maxPageCount == that.maxPageCount &&
    this.commitHash == that.commitHash && root.allocationBitmap == other.allocationBitmap

end RecoveredMetadata

/-- A device's metadata pages by page ID, as they were read. -/
abbrev RawMetadata := Nat → PageBytes

def decodeMetadataCandidate (slot : SuperblockSlot) (pages : RawMetadata) :
    Result RecoveredMetadata := do
  let (superblock, superblockBits) ← Superblock.decodePage (pages slot.pageId).bytes
  if superblock.slot ≠ slot then
    .error (invalidPage
      s!"Metadata candidate {slot.name} contains superblock {superblock.slot.name}")
  else
    let chunkBits := fun chunk : Fin bitmapChunkCount =>
      let entry := superblock.bitmapChunks chunk
      decodeBitmapChunk (pages (entry.slot.pageId chunk)).bytes chunk entry
    let first ← chunkBits 0
    let second ← chunkBits 1
    let allocationBitmap ← AllocationBitmap.fromBits (superblockBits ++ first ++ second)
    superblock.validateBitmap allocationBitmap
    .ok ⟨superblock, allocationBitmap⟩

def isUnsupported (candidate : Result RecoveredMetadata) : Option EngineError :=
  match candidate with
  | .error error => if error.code = "UNSUPPORTED_PAGE" then some error else none
  | .ok _ => none

/-- The newest of two valid roots, and the root it replaced when that is the other. -/
def newestRoot (a b : RecoveredMetadata) :
    Result (RecoveredMetadata × Option RecoveredMetadata) :=
  if a.superblock.generation = b.superblock.generation then
    if ¬a.logicallyMatches b then
      .error (invalidPage "Equal-generation metadata slots contain different logical roots")
    else .ok (a, none)
  else
    let (newest, older) := if a.superblock.generation > b.superblock.generation then (a, b)
      else (b, a)
    .ok (newest,
      if older.superblock.generation + 1 = newest.superblock.generation then some older else none)

/-- The newest recoverable metadata root, and the root it replaced when that is recoverable too. -/
def recoverMetadata (pages : RawMetadata) :
    Result (RecoveredMetadata × Option RecoveredMetadata) :=
  let candidateA := decodeMetadataCandidate .a pages
  let candidateB := decodeMetadataCandidate .b pages
  match isUnsupported candidateA, isUnsupported candidateB with
  | some error, _ => .error error
  | none, some error => .error error
  | none, none =>
    match candidateA, candidateB with
    | .ok a, .ok b => newestRoot a b
    | .ok candidate, .error _ => .ok (candidate, none)
    | .error _, .ok candidate => .ok (candidate, none)
    | .error errorA, .error errorB => .error (invalidPage
        (s!"No valid metadata root remains; slot A: {errorA.code}: {errorA.message}; " ++
          s!"slot B: {errorB.code}: {errorB.message}"))

/-- The root a commit is about to publish, with the page of each bitmap chunk it changed. -/
structure PendingMetadata where
  superblock : Superblock
  allocationBitmap : AllocationBitmap
  bitmapPages : Fin bitmapChunkCount → Option PageBytes

def generationExhausted : EngineError := ⟨"PAGE_GENERATION_EXHAUSTED",
  "The metadata generation cannot advance beyond u64::MAX"⟩

/-- The chunk's page and entry in a root that replaces `active`: in the slot beside the one
`active` reads if the commit changes the chunk, and where it is if not. -/
def nextChunk (active : RecoveredMetadata) (bitmap : AllocationBitmap) (generation : Nat)
    (chunk : Fin bitmapChunkCount) : BitmapChunk × Option PageBytes :=
  let entry := active.superblock.bitmapChunks chunk
  if bitmap.chunkBits chunk ≠ active.allocationBitmap.chunkBits chunk then
    let slot := entry.slot.inactive
    let bytes := bitmap.encodeChunk chunk slot generation
    (⟨slot, generation, pageChecksum bytes.bytes⟩, some bytes)
  else (entry, none)

/-- The root that publishes `bitmap` and the rest after `active`, in the other slot. -/
def buildNextMetadata (active : RecoveredMetadata) (databaseRevision : Nat)
    (databaseHash : UInt64) (catalogRootPageId : Option Nat) (bitmap : AllocationBitmap) :
    Result PendingMetadata := do
  let _ ← validateDatabaseRevision databaseRevision
  active.superblock.validateBitmap active.allocationBitmap
  let generation := active.superblock.generation + 1
  if generation ≥ 2 ^ 64 then .error generationExhausted
  else if databaseRevision < active.superblock.databaseRevision then
    .error (invalidPage "Database revision cannot move backwards during metadata publication")
  else if bitmap.allocatedPageCount < firstDataPageId then .error Superblock.bitmapMissesMetadata
  else
    let superblock : Superblock :=
      { slot := active.superblock.slot.inactive
        generation := generation
        databaseRevision := databaseRevision
        databaseHash := databaseHash
        catalogRootPageId := catalogRootPageId
        liveDataPageCount := bitmap.allocatedPageCount - firstDataPageId
        maxPageCount := TinyJoin.maxPageCount
        commitHash := CommitHash.new
        bitmapChunks := fun chunk => (nextChunk active bitmap generation chunk).1 }
    superblock.validate
    superblock.validateBitmap bitmap
    .ok ⟨superblock, bitmap, fun chunk => (nextChunk active bitmap generation chunk).2⟩

namespace Superblock

/-- What the checks of a superblock's own fields ask for. -/
lemma validate_eq_ok {superblock : Superblock} : superblock.validate = .ok () ↔
    superblock.databaseRevision ≤ maxDatabaseRevision ∧ superblock.generation ≠ 0 ∧
      (∀ chunk, (superblock.bitmapChunks chunk).generation ≠ 0 ∧
        (superblock.bitmapChunks chunk).generation ≤ superblock.generation) ∧
      superblock.maxPageCount = TinyJoin.maxPageCount ∧
      (∀ root, superblock.catalogRootPageId = some root →
        firstDataPageId ≤ root ∧ root < TinyJoin.maxPageCount) ∧
      superblock.liveDataPageCount ≤ TinyJoin.maxPageCount - firstDataPageId := by
  have hroot : validateRoot superblock.catalogRootPageId = .ok () ↔
      ∀ root, superblock.catalogRootPageId = some root →
        firstDataPageId ≤ root ∧ root < TinyJoin.maxPageCount := by
    cases superblock.catalogRootPageId with
    | none => simp [validateRoot]
    | some root =>
      rw [validateRoot, Except.bind_eq_ok, validatePageId]
      constructor
      · rintro ⟨⟨⟩, hmax, hlow⟩ root' ⟨⟩
        split at hmax
        · cases hmax
        · split at hlow
          · cases hlow
          · omega
      · intro hall
        obtain ⟨hlow, hmax⟩ := hall root rfl
        exact ⟨(), if_neg (Nat.not_le.mpr hmax), if_neg (Nat.not_lt.mpr hlow)⟩
  rw [validate, validateDatabaseRevision]
  by_cases hrevision : superblock.databaseRevision ≤ maxDatabaseRevision
  · rw [if_pos hrevision]
    dsimp only
    by_cases hgeneration : superblock.generation = 0
    · rw [if_pos hgeneration]
      exact iff_of_false (by simp) fun h => h.2.1 hgeneration
    rw [if_neg hgeneration]
    by_cases hchunks : ∃ chunk, (superblock.bitmapChunks chunk).generation = 0 ∨
        (superblock.bitmapChunks chunk).generation > superblock.generation
    · rw [if_pos hchunks]
      obtain ⟨chunk, hchunk⟩ := hchunks
      refine iff_of_false (by simp) fun h => ?_
      have := h.2.2.1 chunk
      omega
    rw [if_neg hchunks]
    have hchunks' : ∀ chunk, (superblock.bitmapChunks chunk).generation ≠ 0 ∧
        (superblock.bitmapChunks chunk).generation ≤ superblock.generation := by
      intro chunk
      have := not_exists.mp hchunks chunk
      omega
    by_cases hmax : superblock.maxPageCount = TinyJoin.maxPageCount
    · rw [if_neg (not_not.mpr hmax), Except.bind_eq_ok, ← hroot]
      constructor
      · rintro ⟨⟨⟩, hok, hlive⟩
        split at hlive
        · cases hlive
        · next hle => exact ⟨hrevision, hgeneration, hchunks', hmax, hok, Nat.not_lt.mp hle⟩
      · rintro ⟨-, -, -, -, hok, hlive⟩
        exact ⟨(), hok, if_neg (Nat.not_lt.mpr hlive)⟩
    · rw [if_pos hmax]
      exact iff_of_false (by simp) fun h => hmax h.2.2.2.1
  · rw [if_neg hrevision]
    exact iff_of_false (by simp) fun h => hrevision h.1

/-- What a superblock's checks of its bitmap ask for. -/
lemma validateBitmap_eq_ok {superblock : Superblock} {bitmap : AllocationBitmap} :
    superblock.validateBitmap bitmap = .ok () ↔
      firstDataPageId ≤ bitmap.allocatedPageCount ∧
        bitmap.allocatedPageCount - firstDataPageId = superblock.liveDataPageCount ∧
        (∀ id, id < firstDataPageId → bitmap.allocates id = true) ∧
        ∀ root, superblock.catalogRootPageId = some root → bitmap.allocates root = true := by
  have hmetadata : bitmap.validateMetadataPages = .ok () ↔
      ∀ id, id < firstDataPageId → bitmap.allocates id = true := by
    rw [AllocationBitmap.validateMetadataPages]
    split
    · next hall => simpa using hall
    · next hnot =>
      refine ⟨fun h => (nomatch h), fun h => absurd ?_ hnot⟩
      simpa using h
  rw [validateBitmap]
  by_cases hcount : bitmap.allocatedPageCount < firstDataPageId
  · rw [if_pos hcount]
    exact ⟨fun h => (nomatch h), fun h => absurd h.1 (Nat.not_le.mpr hcount)⟩
  rw [if_neg hcount]
  by_cases hlive : bitmap.allocatedPageCount - firstDataPageId = superblock.liveDataPageCount
  · rw [if_neg (not_not.mpr hlive), Except.bind_eq_ok]
    have hroot : (match superblock.catalogRootPageId with
        | some root => do
          let allocated ← bitmap.isAllocated root
          if ¬allocated then
            .error (invalidPage "Superblock catalog root is not allocated in its bitmap")
          else .ok ()
        | none => (.ok () : Result Unit)) = .ok () ↔
        ∀ root, superblock.catalogRootPageId = some root → bitmap.allocates root = true := by
      cases superblock.catalogRootPageId with
      | none => simp
      | some root =>
        dsimp only
        rw [Except.bind_eq_ok]
        constructor
        · rintro ⟨allocated, hallocated, hok⟩ root' ⟨⟩
          obtain ⟨-, rfl⟩ := AllocationBitmap.isAllocated_eq_ok hallocated
          split at hok
          · cases hok
          · next hin => exact not_not.mp hin
        · intro hall
          have hin := hall root rfl
          exact ⟨true, by rw [AllocationBitmap.isAllocated_of_lt _
            (AllocationBitmap.lt_of_allocates hin), hin], if_neg (by simp)⟩
    constructor
    · rintro ⟨⟨⟩, hok, hrest⟩
      exact ⟨Nat.not_lt.mp hcount, hlive, hmetadata.mp hok, hroot.mp hrest⟩
    · rintro ⟨-, -, hok, hrest⟩
      exact ⟨(), hmetadata.mpr hok, hroot.mpr hrest⟩
  · rw [if_pos hlive]
    exact ⟨fun h => (nomatch h), fun h => absurd h.2.1 hlive⟩

end Superblock

lemma bitmapSlot_pageId_lt (slot : BitmapSlot) (chunk : Fin bitmapChunkCount) :
    slot.pageId chunk < firstDataPageId := by
  have := chunk.isLt
  cases slot <;> simp only [BitmapSlot.pageId, BitmapSlot.firstPageId, firstDataPageId,
    superblockPageCount, bitmapPageCount, bitmapChunkCount] at this ⊢ <;> omega

lemma superblockSlot_pageId_lt (slot : SuperblockSlot) : slot.pageId < firstDataPageId := by
  cases slot <;> decide

lemma Superblock.encodePage_of_valid {superblock : Superblock} {bitmap : AllocationBitmap}
    (hvalid : superblock.validate = .ok ()) (hcovers : superblock.validateBitmap bitmap = .ok ()) :
    superblock.encodePage bitmap = .ok (sealPage ((writePageHeader .zero superblock.slot.pageId
      .superblock maxPagePayloadSize).putFields (superblock.fields bitmap))) := by
  rw [encodePage, hvalid, hcovers]
  rfl

lemma Superblock.encodePage_eq_ok {superblock : Superblock} {bitmap : AllocationBitmap}
    {page : PageBytes} (h : superblock.encodePage bitmap = .ok page) :
    superblock.validate = .ok () ∧ superblock.validateBitmap bitmap = .ok () := by
  obtain ⟨⟨⟩, hvalid, h⟩ := Except.bind_eq_ok.mp h
  obtain ⟨⟨⟩, hcovers, -⟩ := Except.bind_eq_ok.mp h
  exact ⟨hvalid, hcovers⟩

/-- A root whose fields and bitmap pass the checks a superblock makes of them. -/
def RecoveredMetadata.Checked (root : RecoveredMetadata) : Prop :=
  root.superblock.validate = .ok () ∧
    root.superblock.validateBitmap root.allocationBitmap = .ok ()

/-- The superblock with other checksums recorded for its chunks. -/
def Superblock.withChecksums (superblock : Superblock) (checksums : Fin bitmapChunkCount → Nat) :
    Superblock :=
  { superblock with
    bitmapChunks := fun chunk =>
      { superblock.bitmapChunks chunk with checksum := checksums chunk } }

/-- No check of a superblock reads the checksums of its chunks. -/
lemma Superblock.checks_withChecksums (superblock : Superblock)
    (checksums : Fin bitmapChunkCount → Nat) (bitmap : AllocationBitmap) :
    (superblock.withChecksums checksums).validate = superblock.validate ∧
      (superblock.withChecksums checksums).validateBitmap bitmap =
        superblock.validateBitmap bitmap :=
  ⟨rfl, rfl⟩

/-- The page of a chunk of the root's bitmap. -/
def RecoveredMetadata.chunkPage (root : RecoveredMetadata) (chunk : Fin bitmapChunkCount) :
    PageBytes :=
  root.allocationBitmap.encodeChunk chunk (root.superblock.bitmapChunks chunk).slot
    (root.superblock.bitmapChunks chunk).generation

/-- The superblock with the checksum of each chunk's page recorded. -/
def RecoveredMetadata.stamp (root : RecoveredMetadata) : Superblock :=
  root.superblock.withChecksums (fun chunk => pageChecksum (root.chunkPage chunk).bytes)

lemma RecoveredMetadata.encodePages_eq (root : RecoveredMetadata) : root.encodePages = (do
    let page ← root.stamp.encodePage root.allocationBitmap
    .ok (⟨root.stamp, root.allocationBitmap⟩, (List.finRange bitmapChunkCount).map (fun chunk =>
      ((root.superblock.bitmapChunks chunk).slot.pageId chunk, root.chunkPage chunk)) ++
        [(root.superblock.slot.pageId, page)])) := rfl

lemma RecoveredMetadata.Checked.stamp {root : RecoveredMetadata} (h : root.Checked) :
    root.stamp.validate = .ok () ∧ root.stamp.validateBitmap root.allocationBitmap = .ok () := by
  obtain ⟨hvalid, hcovers⟩ := root.superblock.checks_withChecksums
    (fun chunk => pageChecksum (root.chunkPage chunk).bytes) root.allocationBitmap
  rw [RecoveredMetadata.stamp, hvalid, hcovers]
  exact h

lemma RecoveredMetadata.encodePages_of_checked {root : RecoveredMetadata} (h : root.Checked) :
    root.encodePages = .ok (⟨root.stamp, root.allocationBitmap⟩,
      (List.finRange bitmapChunkCount).map (fun chunk =>
        ((root.superblock.bitmapChunks chunk).slot.pageId chunk, root.chunkPage chunk)) ++
      [(root.superblock.slot.pageId, sealPage ((writePageHeader .zero root.stamp.slot.pageId
        .superblock maxPagePayloadSize).putFields (root.stamp.fields root.allocationBitmap)))]) := by
  rw [encodePages_eq, Superblock.encodePage_of_valid h.stamp.1 h.stamp.2]
  rfl

/-- The metadata a commit builds is valid, in the slot beside the active one. -/
lemma buildNextMetadata_eq_ok {active : RecoveredMetadata} {revision : Nat} {hash : UInt64}
    {root : Option Nat} {bitmap : AllocationBitmap} {pending : PendingMetadata}
    (h : buildNextMetadata active revision hash root bitmap = .ok pending) :
    pending.superblock.validate = .ok () ∧ pending.superblock.validateBitmap bitmap = .ok () ∧
      pending.allocationBitmap = bitmap ∧
      pending.superblock.slot = active.superblock.slot.inactive ∧
      pending.superblock.generation = active.superblock.generation + 1 := by
  rw [buildNextMetadata, Except.bind_eq_ok] at h
  obtain ⟨_, -, h⟩ := h
  obtain ⟨_, -, h⟩ := Except.bind_eq_ok.mp h
  dsimp only at h
  split at h
  · cases h
  split at h
  · cases h
  split at h
  · cases h
  obtain ⟨_, hvalid, h⟩ := Except.bind_eq_ok.mp h
  obtain ⟨_, hbitmap, h⟩ := Except.bind_eq_ok.mp h
  cases h
  exact ⟨hvalid, hbitmap, rfl, rfl, rfl⟩

/-- Each chunk of the metadata a commit builds is the next of its predecessor's. -/
lemma nextChunk_of_buildNextMetadata {active : RecoveredMetadata} {revision : Nat} {hash : UInt64}
    {root : Option Nat} {bitmap : AllocationBitmap} {pending : PendingMetadata}
    (h : buildNextMetadata active revision hash root bitmap = .ok pending)
    (chunk : Fin bitmapChunkCount) :
    (pending.superblock.bitmapChunks chunk, pending.bitmapPages chunk) =
      nextChunk active bitmap (active.superblock.generation + 1) chunk := by
  rw [buildNextMetadata, Except.bind_eq_ok] at h
  obtain ⟨_, -, h⟩ := h
  obtain ⟨_, -, h⟩ := Except.bind_eq_ok.mp h
  dsimp only at h
  split at h
  · cases h
  split at h
  · cases h
  split at h
  · cases h
  obtain ⟨_, -, h⟩ := Except.bind_eq_ok.mp h
  obtain ⟨_, -, h⟩ := Except.bind_eq_ok.mp h
  rw [Except.ok.injEq] at h
  rw [← h]

lemma checked_empty (slot : SuperblockSlot) : (RecoveredMetadata.empty slot).Checked := by
  refine ⟨Superblock.validate_eq_ok.mpr ?_, Superblock.validateBitmap_eq_ok.mpr ?_⟩
  · exact ⟨Nat.zero_le _, Nat.one_ne_zero, fun _ => ⟨Nat.one_ne_zero, Nat.le_refl _⟩, rfl,
      fun _ hroot => (nomatch hroot), Nat.zero_le _⟩
  · exact ⟨Nat.le_refl _, rfl, fun id hid => by rw [RecoveredMetadata.empty]; simpa using hid,
      fun _ hroot => (nomatch hroot)⟩

/-- A bitmap that allocates every metadata page counts at least those, and no more than there
are pages. -/
lemma AllocationBitmap.allocatedPageCount_bounds {bitmap : AllocationBitmap}
    (h : ∀ id, id < firstDataPageId → bitmap.allocates id = true) :
    firstDataPageId ≤ bitmap.allocatedPageCount ∧
      bitmap.allocatedPageCount ≤ TinyJoin.maxPageCount := by
  have hlen : bitmap.bits.length * 8 = TinyJoin.maxPageCount := by
    rw [bitmap.length_bits]
    rfl
  rw [allocatedPageCount, bitmap.allocated_eq, Bitmap.count, hlen]
  constructor
  · have hsplit : List.range TinyJoin.maxPageCount = List.range firstDataPageId ++
        List.range' firstDataPageId (TinyJoin.maxPageCount - firstDataPageId) := by
      have happend := @List.range'_append_1 0 firstDataPageId
        (TinyJoin.maxPageCount - firstDataPageId)
      rw [Nat.zero_add, Nat.add_sub_cancel' (by decide)] at happend
      rw [List.range_eq_range', List.range_eq_range', happend]
    have hall : (List.range firstDataPageId).countP (Bitmap.bitAt bitmap.bits) =
        firstDataPageId := by
      rw [List.countP_eq_length.mpr, List.length_range]
      intro id hid
      have := h id (List.mem_range.mp hid)
      rw [allocates, Bool.and_eq_true] at this
      exact this.2
    rw [hsplit, List.countP_append, hall]
    exact Nat.le_add_right _ _
  · exact Nat.le_trans List.countP_le_length (by rw [List.length_range])

/-- The metadata of a commit is built when it moves neither revision nor generation out of range,
and its root, if any, is a page its bitmap allocates. -/
lemma buildNextMetadata_of_valid {active : RecoveredMetadata} {revision : Nat} {hash : UInt64}
    {root : Option Nat} {bitmap : AllocationBitmap}
    (hvalid : active.superblock.validate = .ok ())
    (hcovers : active.superblock.validateBitmap active.allocationBitmap = .ok ())
    (hgeneration : active.superblock.generation + 1 < 2 ^ 64)
    (hforward : active.superblock.databaseRevision ≤ revision)
    (hrevision : revision ≤ maxDatabaseRevision)
    (hmetadata : ∀ id, id < firstDataPageId → bitmap.allocates id = true)
    (hroot : ∀ id, root = some id → firstDataPageId ≤ id ∧ bitmap.allocates id = true) :
    ∃ pending, buildNextMetadata active revision hash root bitmap = .ok pending := by
  obtain ⟨hlow, hhigh⟩ := AllocationBitmap.allocatedPageCount_bounds hmetadata
  obtain ⟨-, hnonzero, hchunks, -, -, -⟩ := Superblock.validate_eq_ok.mp hvalid
  rw [buildNextMetadata, validateDatabaseRevision, if_pos hrevision, hcovers]
  simp only [bind, Except.bind]
  rw [if_neg (Nat.not_le.mpr hgeneration), if_neg (Nat.not_lt.mpr hforward),
    if_neg (Nat.not_lt.mpr hlow)]
  rw [Superblock.validate_eq_ok.mpr, Superblock.validateBitmap_eq_ok.mpr]
  · exact ⟨_, rfl⟩
  · exact ⟨hlow, rfl, hmetadata, fun id hid => (hroot id hid).2⟩
  · refine ⟨hrevision, Nat.succ_ne_zero _, ?_, rfl, ?_, Nat.sub_le_sub_right hhigh _⟩
    · intro chunk
      dsimp only
      rw [nextChunk]
      split
      · exact ⟨Nat.succ_ne_zero _, Nat.le_refl _⟩
      · exact ⟨(hchunks chunk).1, Nat.le_succ_of_le (hchunks chunk).2⟩
    · intro id hid
      exact ⟨(hroot id hid).1, AllocationBitmap.lt_of_allocates (hroot id hid).2⟩

end TinyJoin
