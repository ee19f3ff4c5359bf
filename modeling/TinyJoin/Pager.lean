import TinyJoin.PageCache
import TinyJoin.Metadata

/-! The pager: a page store with paired metadata roots, and the one write transaction it permits,
which writes pages unreachable from the active root and publishes them by writing the inactive
superblock. -/
namespace TinyJoin
open PageDevice PageCache

def pagerError (message : String) : EngineError := ⟨"PAGER_ERROR", message⟩
def recoveryRequiredError (message : String) : EngineError := ⟨"RECOVERY_REQUIRED", message⟩

def pageNotAllocated (id : Nat) : EngineError :=
  ⟨"PAGE_NOT_ALLOCATED", s!"Data page {id} is not allocated in this root"⟩

def ensureDataPage (id : Nat) : Result Unit :=
  if ¬(firstDataPageId ≤ id ∧ id < maxPageCount) then
    .error (pagerError
      s!"Data page ID {id} must be between {firstDataPageId} and {maxPageCount - 1}")
  else .ok ()

/-- Verifies a data page as it enters the cache from the device, including that its envelope names
the physical page it was read from. -/
def verifyExpectedPage (id : Nat) (bytes : PageBytes) : Result Unit := do
  Page.verify bytes.bytes
  let page ← Page.decodeVerified bytes.bytes
  if page.id ≠ id then
    .error (pagerError s!"Physical page {id} contains an envelope for page {page.id}")
  else .ok ()

structure Pager (D : Type) where
  cache : PageCache D
  active : RecoveredMetadata
  nextCandidateId : Nat
  recoveryRequired : Bool

/-- A single copy-on-write candidate rooted in a pager. -/
structure PagerWriteTransaction (D : Type) where
  pager : Pager D
  candidate : Nat
  /-- The pages allocated once this candidate commits. -/
  nextBitmap : AllocationBitmap
  /-- One past the highest page this candidate has allocated. -/
  newPageEnd : Nat
  btreeVersions : AList (fun _ : Nat => Nat)
  nextAllocationPageId : Nat
  failed : Bool
  finished : Bool

section
variable {D : Type} [PageDevice D]

/-! Opening a device. -/

/-- The metadata pages of an empty database, whose two superblocks each name bitmap chunks of their
own, and the root in slot A. -/
def emptyMetadataLayout : Result (RecoveredMetadata × List PageBytes) := do
  let (active, pagesA) ← (RecoveredMetadata.empty .a).encodePages
  let (_, pagesB) ← (RecoveredMetadata.empty .b).encodePages
  .ok (active, (pagesA ++ pagesB).foldl (fun pages page => pages.set page.1 page.2)
    (List.replicate firstDataPageId PageBytes.zero))

/-- Writes each metadata page `id` as `pageOf id`. -/
def writeMetadataPages (pageOf : Nat → PageBytes) (ids : List Nat) : Op D Unit :=
  Effect.forEach (fun id => writePage id (pageOf id)) ids

/-- Establishes the metadata pages, the superblocks only once the bitmap chunks they name have
crossed a durability barrier. -/
def initializeEmptyDevice : Op D RecoveredMetadata := do
  let (active, pages) ← Effect.ofExcept emptyMetadataLayout
  let pageOf := fun id => pages.getD id PageBytes.zero
  writeMetadataPages (fun _ => PageBytes.zero) (List.range firstDataPageId)
  writeMetadataPages pageOf (List.range' superblockPageCount (firstDataPageId - superblockPageCount))
  flush
  writeMetadataPages pageOf (List.range superblockPageCount)
  flush
  pure active

/-- Whether each page holds nothing but zeros and bytes of the empty database's page. -/
def bootstrapPagesMatch (expected : Nat → PageBytes) : List Nat → Op D Bool
  | [] => pure true
  | id :: rest => do
    let actual ← readPage id
    if (actual.bytes.zip (expected id).bytes).any (fun byte => byte.1 != 0 && byte.1 != byte.2) then
      pure false
    else bootstrapPagesMatch expected rest

def isRecoverableEmptyBootstrap : Op D Bool := do
  let device ← Effect.get
  if pageCount device > firstDataPageId then pure false
  else
    let (_, expected) ← Effect.ofExcept emptyMetadataLayout
    bootstrapPagesMatch (fun id => expected.getD id PageBytes.zero) (List.range (pageCount device))

/-- Reads the pages `ids` in turn. -/
def readPages : List Nat → Op D (List PageBytes)
  | [] => pure []
  | id :: rest => do
    let page ← readPage id
    let pages ← readPages rest
    pure (page :: pages)

/-- The hash of the pages of a commit on the device, if each is there and valid. -/
def commitHashOf : List Nat → UInt64 → Op D (Option UInt64)
  | [], hash => pure (some hash)
  | id :: rest, hash => do
    let device ← Effect.get
    if id ≥ pageCount device then pure none
    else
      let bytes ← readPage id
      match verifyExpectedPage id bytes with
      | .error _ => pure none
      | .ok _ => commitHashOf rest (CommitHash.page hash id (pageChecksum bytes.bytes))

/-- Whether every data page the newest root's commit wrote became durable with it: the pages its
bitmap holds and its predecessor's does not. -/
def commitIsDurable (newest previous : RecoveredMetadata) : Op D Bool := do
  let written := (List.range' firstDataPageId (maxPageCount - firstDataPageId)).filter (fun id =>
    newest.allocationBitmap.allocates id && !previous.allocationBitmap.allocates id)
  let hash ← commitHashOf written CommitHash.new
  pure (hash == some newest.superblock.commitHash)

def recoverDeviceMetadata : Op D RecoveredMetadata := do
  let device ← Effect.get
  if pageCount device < firstDataPageId then
    Effect.fail (pagerError (s!"A non-empty page device must contain all {firstDataPageId} " ++
      s!"metadata pages, not {pageCount device}"))
  else
    let pages ← readPages (List.range firstDataPageId)
    let (newest, previous) ←
      Effect.ofExcept (recoverMetadata (fun id => pages.getD id PageBytes.zero))
    match previous with
    | none => pure newest
    | some previous => do
      let durable ← commitIsDurable newest previous
      if durable then pure newest else pure previous

def validatePhysicalCoverage (bitmap : AllocationBitmap) (device : D) : Result Unit :=
  match (List.range' firstDataPageId (maxPageCount - firstDataPageId)).find? (fun id =>
      bitmap.allocates id && decide (id ≥ pageCount device)) with
  | some id => .error (pagerError (s!"Allocation bitmap references page {id}, but the physical " ++
      s!"device contains only {pageCount device} pages"))
  | none => .ok ()

/-- What a failed recovery leaves: an interrupted bootstrap is run again. -/
def recoverBootstrap (count : Nat) (error : EngineError) : Op D RecoveredMetadata := do
  if count = firstDataPageId then
    let recoverable ← isRecoverableEmptyBootstrap
    if recoverable then initializeEmptyDevice else Effect.fail error
  else Effect.fail error

/-- The root a device opens at. -/
def openMetadata : Op D RecoveredMetadata := do
  let device ← Effect.get
  let count := pageCount device
  if count > maxPageCount then
    Effect.fail (pagerError (s!"The page device contains {count} pages, exceeding the " ++
      s!"{maxPageCount}-page limit"))
  else if count = 0 then initializeEmptyDevice
  else if count < firstDataPageId then
    let recoverable ← isRecoverableEmptyBootstrap
    if recoverable then initializeEmptyDevice
    else Effect.fail (pagerError (s!"The incomplete {count}-page bootstrap contains data which " ++
      "is not part of a deterministic empty database"))
  else recoverDeviceMetadata.orElse (recoverBootstrap count)

/-- Opens a device: its root, once every page the root allocates is known to be in the file. -/
def openRoot : Op D RecoveredMetadata := do
  let active ← openMetadata
  let device ← Effect.get
  Effect.ofExcept (validatePhysicalCoverage active.allocationBitmap device)
  pure active

def Pager.withCacheCapacity (device : D) (cacheCapacityBytes : Nat) : Result (Pager D) := do
  let cache ← PageCache.withCapacity device cacheCapacityBytes
  match openRoot device with
  | (.ok active, device) => .ok ⟨PageCache.empty device cache.capacity, active, 1, false⟩
  | (.error error, _) => .error error

def Pager.openOrCreate (device : D) : Result (Pager D) :=
  withCacheCapacity device defaultPageCacheBytes

/-! Reading and beginning a transaction. -/

namespace Pager

def onCache {α : Type} (action : Op (PageCache D) α) : Op (Pager D) α :=
  Effect.focus Pager.cache (fun cache pager => { pager with cache := cache }) action

def ensureUsable (pager : Pager D) : Result Unit :=
  if pager.recoveryRequired then
    .error (recoveryRequiredError "The previous metadata publication had an unknown outcome")
  else .ok ()

/-- Reads a data page through each of a read's checks in turn, loading it from the device if the
cache does not hold it. -/
def readPageChecked (id : Nat) : Op (Pager D) Page := do
  let pager ← Effect.get
  Effect.ofExcept pager.ensureUsable
  Effect.ofExcept (ensureDataPage id)
  let allocated ← Effect.ofExcept (pager.active.allocationBitmap.isAllocated id)
  if ¬allocated then Effect.fail (pageNotAllocated id)
  else
    let bytes ← onCache (readPageVerified id (verifyExpectedPage id))
    Effect.ofExcept (Page.decodeVerified bytes.bytes)

/-- Where a read that passes every check finds its page in the cache. -/
def fastIndex (id : Nat) (pager : Pager D) : Option Nat :=
  if ¬pager.recoveryRequired ∧ id ≥ firstDataPageId ∧
      pager.active.allocationBitmap.allocates id = true then
    pager.cache.cachedIndex id
  else none

def readPage (id : Nat) : Op (Pager D) Page := do
  let pager ← Effect.get
  match pager.fastIndex id with
  | some index => do
    let bytes ← onCache (cachedPage index)
    Effect.ofExcept (Page.decodeWhole bytes)
  | none => readPageChecked id

/-- The transaction that begins as candidate `candidate`. -/
def begun (pager : Pager D) (candidate : Nat) : PagerWriteTransaction D where
  pager := { pager with nextCandidateId := candidate + 1 }
  candidate := candidate
  nextBitmap := pager.active.allocationBitmap
  newPageEnd := 0
  btreeVersions := ∅
  nextAllocationPageId := firstDataPageId
  failed := false
  finished := false

def beginWrite (pager : Pager D) : Result (PagerWriteTransaction D) := do
  pager.ensureUsable
  if pager.nextCandidateId + 1 ≥ 2 ^ 64 then
    .error (pagerError "The in-memory write transaction identifier space is exhausted")
  else .ok (pager.begun pager.nextCandidateId)

end Pager

/-! The write transaction. -/

namespace PagerWriteTransaction

def onCache {α : Type} (action : Op (PageCache D) α) : Op (PagerWriteTransaction D) α :=
  Effect.focus (fun t => t.pager.cache)
    (fun cache t => { t with pager := { t.pager with cache := cache } }) action

def activeBitmap (t : PagerWriteTransaction D) : AllocationBitmap :=
  t.pager.active.allocationBitmap

def ensureOpen (t : PagerWriteTransaction D) : Result Unit :=
  if t.finished then .error (pagerError "The write transaction is already finished")
  else if t.failed then .error ⟨"TRANSACTION_FAILED",
    "The page transaction encountered an error and must be aborted"⟩
  else t.pager.ensureUsable

/-- The generation which this candidate will publish. -/
def generation (t : PagerWriteTransaction D) : Result Nat := do
  t.ensureOpen
  if t.pager.active.superblock.generation + 1 ≥ 2 ^ 64 then
    .error (pagerError "The page generation space is exhausted")
  else .ok (t.pager.active.superblock.generation + 1)

/-- Whether this candidate allocated `id`. -/
def isNew (t : PagerWriteTransaction D) (id : Nat) : Bool :=
  t.nextBitmap.allocates id && !t.activeBitmap.allocates id

def ownsPage (t : PagerWriteTransaction D) (id : Nat) : Bool := !t.finished && t.isNew id

def markFailed (t : PagerWriteTransaction D) : PagerWriteTransaction D := { t with failed := true }

def btreeVersion (t : PagerWriteTransaction D) (treeId : Nat) : Result Nat := do
  t.ensureOpen
  .ok ((t.btreeVersions.lookup treeId).getD 0)

/-- Advances the transaction-local mutation version for one B-tree. -/
def markBtreeMutated (treeId : Nat) : Op (PagerWriteTransaction D) Unit := do
  let t ← Effect.get
  Effect.ofExcept t.ensureOpen
  let version := (t.btreeVersions.lookup treeId).getD 0
  if version + 1 ≥ 2 ^ 64 then
    Effect.fail (pagerError "The B-tree mutation version space is exhausted")
  else Effect.modify (fun t => { t with
    btreeVersions := t.btreeVersions.insert treeId (version + 1) })

/-- The page the next allocation takes: the first free one after the last, wrapping once. A page
this candidate freed stays taken, since the active root still reaches it. -/
def selectPage (t : PagerWriteTransaction D) : Option Nat :=
  let start := t.nextAllocationPageId
  match t.activeBitmap.firstFree t.nextBitmap start maxPageCount with
  | some id => some id
  | none => t.activeBitmap.firstFree t.nextBitmap firstDataPageId start

def databaseFull : EngineError := ⟨"DATABASE_FULL",
  s!"The database has reached its fixed limit of {maxPageCount} physical pages"⟩

def setNextBitmap (id : Nat) (allocated : Bool) : Op (PagerWriteTransaction D) Unit := do
  let t ← Effect.get
  let bitmap ← Effect.ofExcept (t.nextBitmap.setAllocated id allocated)
  Effect.modify (fun t => { t with nextBitmap := bitmap })

/-- Allocates the next safe page ID, wrapping once to reuse lower free pages. -/
def allocatePage : Op (PagerWriteTransaction D) Nat := do
  let t ← Effect.get
  Effect.ofExcept t.ensureOpen
  match t.selectPage with
  | none => Effect.fail databaseFull
  | some id => do
    Effect.modify (fun t => { t with
      nextAllocationPageId := if id + 1 = maxPageCount then firstDataPageId else id + 1 })
    let fileEnd := max (pageCount t.pager.cache.device) t.newPageEnd
    if id > fileEnd then
      Effect.fail (pagerError
        s!"Allocator selected non-dense page {id} after a {fileEnd}-page file")
    else
      onCache (reserveCandidatePage t.candidate id t.activeBitmap)
      setNextBitmap id true
      Effect.modify (fun t => { t with newPageEnd := max t.newPageEnd (id + 1) })
      pure id

def notAllocatedHere (id : Nat) : EngineError :=
  pagerError s!"Page {id} was not allocated by this write transaction"

def writeNewPage (page : Page) : Op (PagerWriteTransaction D) Unit := do
  let t ← Effect.get
  Effect.ofExcept t.ensureOpen
  if ¬t.isNew page.id then Effect.fail (notAllocatedHere page.id)
  else
    let bytes ← Effect.ofExcept page.encodeUnsealed
    onCache (writeUnsealedCandidatePage t.candidate page.id bytes.bytes)

def readBytes (t : PagerWriteTransaction D) (id : Nat) : Op (PageCache D) PageBytes :=
  if t.isNew id then readCandidatePageVerified t.candidate id (verifyExpectedPage id)
  else if t.activeBitmap.allocates id then readPageVerified id (verifyExpectedPage id)
  else Effect.fail (pagerError
    s!"Page {id} is allocated in the candidate bitmap without candidate ownership")

def readPage (id : Nat) : Op (PagerWriteTransaction D) Page := do
  let t ← Effect.get
  Effect.ofExcept t.ensureOpen
  Effect.ofExcept (ensureDataPage id)
  let allocated ← Effect.ofExcept (t.nextBitmap.isAllocated id)
  if ¬allocated then Effect.fail (pageNotAllocated id)
  else
    let bytes ← onCache (t.readBytes id)
    Effect.ofExcept (Page.decodeVerified bytes.bytes)

/-- Removes a page shared from the active generation from the candidate root. -/
def freeSharedPage (id : Nat) : Op (PagerWriteTransaction D) Unit := do
  let t ← Effect.get
  Effect.ofExcept t.ensureOpen
  Effect.ofExcept (ensureDataPage id)
  if t.isNew id then
    Effect.fail (pagerError s!"New candidate page {id} cannot be freed before publication")
  else if ¬t.activeBitmap.allocates id then Effect.fail (pageNotAllocated id)
  else setNextBitmap id false

/-- Releases a newly allocated page which is no longer reachable from this candidate. -/
def releaseNewPage (id : Nat) : Op (PagerWriteTransaction D) Unit := do
  let t ← Effect.get
  Effect.ofExcept t.ensureOpen
  Effect.ofExcept (ensureDataPage id)
  if ¬t.isNew id then Effect.fail (notAllocatedHere id)
  else
    onCache (releaseCandidatePage t.candidate id)
    setNextBitmap id false
    Effect.modify (fun t => { t with nextAllocationPageId := min t.nextAllocationPageId id })

/-! Ending a transaction. -/

/-- Drops every page and reservation of the candidate, and finishes the transaction. -/
def abandon (t : PagerWriteTransaction D) : PagerWriteTransaction D :=
  { t with
    pager := { t.pager with cache := invalidateCandidate t.candidate t.pager.cache }
    finished := true }

def abort (t : PagerWriteTransaction D) : Pager D := t.abandon.pager

/-- Dropping an uncommitted transaction abandons its cache reservations. -/
def drop (t : PagerWriteTransaction D) : Pager D :=
  if t.finished then t.pager else t.abandon.pager

def failBeforeSuperblock {α : Type} (error : EngineError) : Op (PagerWriteTransaction D) α := do
  Effect.modify abandon
  Effect.fail error

def failAfterSuperblock {α : Type} (stage : String) (error : EngineError) :
    Op (PagerWriteTransaction D) α := do
  Effect.modify (fun t => { t with pager := { t.pager with recoveryRequired := true } })
  Effect.modify abandon
  Effect.fail (recoveryRequiredError (s!"Metadata publication failed while {stage}; reopen the " ++
    s!"page device before continuing ({error.code}: {error.message})"))

/-- The pages this candidate allocated, in order. -/
def newPages (t : PagerWriteTransaction D) : List Nat :=
  t.nextBitmap.allocatedSince t.activeBitmap t.newPageEnd

/-- The commit hash of the candidate's pages, from the checksums they were written with. -/
def hashPages (candidate : Nat) : List Nat → UInt64 → Op (PageCache D) UInt64
  | [], hash => pure hash
  | id :: rest, hash => do
    let checksum ← candidatePageChecksum candidate id
    hashPages candidate rest (CommitHash.page hash id checksum)

def writeChunk (pending : PendingMetadata) (chunk : Fin bitmapChunkCount) : Op (PageCache D) Unit :=
  match pending.bitmapPages chunk with
  | some page => onDevice (writePage ((pending.superblock.bitmapChunks chunk).slot.pageId chunk) page)
  | none => pure ()

def unwrittenPages (unwritten : List Nat) : EngineError :=
  pagerError ("Every allocated page must be initialized before commit; unwritten pages: " ++
    s!"{unwritten}")

/-- What a commit does before it attempts the superblock: the checks, the data pages and the bitmap
chunks. It returns the superblock's page and the metadata it publishes. -/
def prepareCommit (databaseRevision : Nat) (databaseHash : UInt64)
    (catalogRootPageId : Option Nat) :
    Op (PagerWriteTransaction D) (RecoveredMetadata × PageBytes) := do
  let t ← Effect.get
  let _ ← Effect.ofExcept (validateDatabaseRevision databaseRevision)
  let unwritten := t.newPages.filter
    (fun id => !t.pager.cache.candidatePageWritten t.candidate id)
  if unwritten ≠ [] then Effect.fail (unwrittenPages unwritten)
  else
    -- The bitmap moves into the metadata; every way on from here finishes the transaction.
    let pending ← Effect.ofExcept (buildNextMetadata t.pager.active databaseRevision databaseHash
      catalogRootPageId t.nextBitmap)
    onCache (writeCandidatePages t.candidate t.newPages)
    let hash ← onCache (hashPages t.candidate t.newPages CommitHash.new)
    let superblock := { pending.superblock with commitHash := hash }
    let page ← Effect.ofExcept (superblock.encodePage pending.allocationBitmap)
    onCache (Effect.forEach (writeChunk pending) (List.finRange bitmapChunkCount))
    pure (⟨superblock, pending.allocationBitmap⟩, page)

/-- From the superblock write on, the inactive superblock may hold the new root even if the device
reports failure. -/
def publish (root : RecoveredMetadata) (page : PageBytes) : Op (PagerWriteTransaction D) Unit := do
  (onCache (onDevice (writePage root.superblock.slot.pageId page))).orElse
    (failAfterSuperblock "writing the new superblock")
  (onCache flushDevice).orElse (failAfterSuperblock "flushing the new superblock")
  let t ← Effect.get
  (onCache (installCandidate t.candidate t.activeBitmap root.allocationBitmap)).orElse
    (failAfterSuperblock "installing the published cache view")
  Effect.modify (fun t => { t with
    pager := { t.pager with active := root }
    finished := true })

def commitSteps (databaseRevision : Nat) (databaseHash : UInt64)
    (catalogRootPageId : Option Nat) : Op (PagerWriteTransaction D) Unit := do
  let t ← Effect.get
  Effect.ofExcept t.ensureOpen
  let (root, page) ← (prepareCommit databaseRevision databaseHash catalogRootPageId).orElse
    failBeforeSuperblock
  publish root page

/-- Publishes this candidate with one flush. The transaction is dropped however it ends. -/
def commit (t : PagerWriteTransaction D) (databaseRevision : Nat) (databaseHash : UInt64)
    (catalogRootPageId : Option Nat) : Result Unit × Pager D :=
  let (result, t) := commitSteps databaseRevision databaseHash catalogRootPageId t
  (result, t.drop)

end PagerWriteTransaction

end
end TinyJoin
