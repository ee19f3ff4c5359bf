import TinyJoin.Device
import TinyJoin.Allocation

/-! The page cache: pages of the committed view and of one copy-on-write candidate, found through
a lookup by owner and page, evicted by a clock. -/
namespace TinyJoin
open PageDevice

def maxWriteRunPages : Nat := 256
def maxPageCacheBytes : Nat := 32 * 1024 * 1024
def defaultPageCacheBytes : Nat := 16 * 1024 * 1024

def cacheError (message : String) : EngineError := ⟨"PAGE_CACHE_ERROR", message⟩

/-- An index past the end of a vector stops the program. -/
def outOfBounds : EngineError := ⟨"PANIC", "index out of bounds"⟩

inductive Owner
  | committed
  | candidate (id : Nat)
deriving DecidableEq, Repr

structure CacheEntry where
  id : Nat
  owner : Owner
  bytes : PageBytes
  referenced : Bool
  dirty : Bool
  /-- Whether the page still needs its checksum, which it receives when written to the device. -/
  unsealed : Bool
deriving DecidableEq

namespace CacheEntry

def key (entry : CacheEntry) : Owner × Nat := (entry.owner, entry.id)

/-- Gives the page its checksum, if it still needs it. -/
def withSeal (entry : CacheEntry) : CacheEntry :=
  if entry.unsealed then { entry with bytes := sealPage entry.bytes, unsealed := false } else entry

end CacheEntry

structure Reservation where
  candidate : Nat
  written : Bool
deriving DecidableEq

structure PageCache (D : Type) where
  device : D
  entries : List CacheEntry
  lookup : AList (fun _ : Owner × Nat => Nat)
  reservations : AList (fun _ : Nat => Reservation)
  /-- Owners with pages which reached the device since the last successful flush. -/
  unflushedOwners : List Owner
  capacity : Nat
  hand : Nat

namespace PageCache
variable {D : Type}

/-- A cache of `capacity` pages that holds none. -/
def empty (device : D) (capacity : Nat) : PageCache D where
  device := device
  entries := []
  lookup := ∅
  reservations := ∅
  unflushedOwners := []
  capacity := capacity
  hand := 0

def withCapacity (device : D) (capacityBytes : Nat) : Result (PageCache D) :=
  if ¬(pageSize ≤ capacityBytes ∧ capacityBytes ≤ maxPageCacheBytes) ∨
      capacityBytes % pageSize ≠ 0 then
    .error (cacheError (s!"Page cache capacity must be a multiple of {pageSize} bytes " ++
      s!"between {pageSize} and {maxPageCacheBytes}"))
  else .ok (empty device (capacityBytes / pageSize))

def onDevice {α : Type} (action : Op D α) : Op (PageCache D) α :=
  Effect.focus PageCache.device (fun device cache => { cache with device := device }) action

def entryAt (index : Nat) : Op (PageCache D) CacheEntry := fun cache =>
  match cache.entries[index]? with
  | some entry => (.ok entry, cache)
  | none => (.error outOfBounds, cache)

def setEntry (index : Nat) (entry : CacheEntry) (cache : PageCache D) : PageCache D :=
  { cache with entries := cache.entries.set index entry }

def addUnflushed (owner : Owner) (cache : PageCache D) : PageCache D :=
  if cache.unflushedOwners.contains owner then cache
  else { cache with unflushedOwners := cache.unflushedOwners ++ [owner] }

def ensureNotReserved (id : Nat) (cache : PageCache D) : Result Unit :=
  match cache.reservations.lookup id with
  | some reservation => .error (cacheError
      s!"Page {id} is exclusively reserved by candidate {reservation.candidate}")
  | none => .ok ()

def ensureReservedBy (candidate id : Nat) (cache : PageCache D) : Result Unit :=
  match cache.reservations.lookup id with
  | some reservation =>
    if reservation.candidate = candidate then .ok ()
    else .error (cacheError (s!"Page {id} is reserved by candidate {reservation.candidate}, " ++
      s!"not candidate {candidate}"))
  | none => .error (cacheError
      s!"Candidate {candidate} must reserve page {id} before accessing it")

/-- Removes one cached entry, if present, moving the last entry into its slot. -/
def removeEntry (key : Owner × Nat) (cache : PageCache D) : PageCache D :=
  match cache.lookup.lookup key with
  | none => cache
  | some index =>
    let entries := Indexed.swapRemove cache.entries index
    { cache with
      entries := entries
      lookup := Indexed.forget CacheEntry.key cache.entries cache.lookup key index
      hand := if cache.hand ≥ entries.length then 0 else cache.hand }

section Device
variable [PageDevice D]

/-- Zero-filled pages from the end of the file up to `id`, which keep the device dense. -/
def writePlaceholders (id : Nat) : Op (PageCache D) Unit := do
  let cache ← Effect.get
  let count := pageCount cache.device
  Effect.forEach (fun placeholder => onDevice (writePage placeholder PageBytes.zero))
    (List.range' count (id - count))

/-- Writes a dirty entry to the device. -/
def writeEntry (index : Nat) : Op (PageCache D) Unit := do
  let entry ← entryAt index
  let entry := entry.withSeal
  Effect.modify (setEntry index entry)
  writePlaceholders entry.id
  onDevice (writePage entry.id entry.bytes)
  Effect.modify (setEntry index { entry with dirty := false })
  Effect.modify (addUnflushed entry.owner)

def writeIfDirty (entry : CacheEntry) (index : Nat) : Op (PageCache D) Unit :=
  if entry.dirty then writeEntry index else pure ()

/-- The rounds of the clock: a referenced entry is passed over once, a dirty one written back. -/
def clockRounds : Nat → Op (PageCache D) Nat
  | 0 => Effect.fail (cacheError "Page cache could not select an eviction candidate")
  | attempts + 1 => do
    let cache ← Effect.get
    let index := cache.hand
    Effect.modify (fun cache => { cache with hand := (cache.hand + 1) % cache.entries.length })
    let entry ← entryAt index
    if entry.referenced then
      Effect.modify (setEntry index { entry with referenced := false })
      clockRounds attempts
    else
      writeIfDirty entry index
      pure index

def findVictim : Op (PageCache D) Nat := do
  let cache ← Effect.get
  clockRounds (cache.entries.length * 2)

def insert (entry : CacheEntry) : Op (PageCache D) Nat := do
  let cache ← Effect.get
  if cache.entries.length < cache.capacity then
    Effect.modify (fun cache => { cache with
      lookup := cache.lookup.insert entry.key cache.entries.length
      entries := cache.entries ++ [entry] })
    pure cache.entries.length
  else
    let index ← findVictim
    let previous ← entryAt index
    Effect.modify (fun cache => { cache with
      lookup := (cache.lookup.erase previous.key).insert entry.key index
      entries := cache.entries.set index entry
      hand := (index + 1) % cache.entries.length })
    pure index

def readOwned (owner : Owner) (id : Nat) (verify : PageBytes → Result Unit) :
    Op (PageCache D) PageBytes := do
  let cache ← Effect.get
  match cache.lookup.lookup (owner, id) with
  | some index =>
    let entry ← entryAt index
    Effect.modify (setEntry index { entry with referenced := true })
    pure entry.bytes
  | none =>
    let bytes ← onDevice (readPage id)
    Effect.ofExcept (verify bytes)
    let index ← insert ⟨id, owner, bytes, true, false, false⟩
    let entry ← entryAt index
    pure entry.bytes

/-- Reads a committed page, running `verify` only when the page is loaded from the device. -/
def readPageVerified (id : Nat) (verify : PageBytes → Result Unit) :
    Op (PageCache D) PageBytes := do
  let cache ← Effect.get
  Effect.ofExcept (cache.ensureNotReserved id)
  readOwned .committed id verify

/-- Where the cache holds committed page `id`, when no page is reserved. -/
def cachedIndex (id : Nat) (cache : PageCache D) : Option Nat :=
  if cache.reservations.entries ≠ [] then none
  else match cache.lookup.lookup (.committed, id) with
    | some index => if index < cache.entries.length then some index else none
    | none => none

def cachedPage (index : Nat) : Op (PageCache D) PageBytes := do
  let entry ← entryAt index
  Effect.modify (setEntry index { entry with referenced := true })
  pure entry.bytes

def readCandidatePageVerified (candidate id : Nat) (verify : PageBytes → Result Unit) :
    Op (PageCache D) PageBytes := do
  let cache ← Effect.get
  Effect.ofExcept (cache.ensureReservedBy candidate id)
  match cache.reservations.lookup id with
  | some reservation =>
    if ¬reservation.written then
      Effect.fail (cacheError
        s!"Candidate {candidate} must initialize reserved page {id} before reading it")
    else readOwned (.candidate candidate) id verify
  | none => Effect.fail outOfBounds

def writeOwned (owner : Owner) (id : Nat) (bytes : List UInt8) (unsealed : Bool) :
    Op (PageCache D) Unit :=
  if hlen : bytes.length ≠ pageSize then
    Effect.fail (cacheError
      s!"Cached pages must be exactly {pageSize} bytes, not {bytes.length}")
  else do
    let page : PageBytes := ⟨bytes, not_not.mp hlen⟩
    let cache ← Effect.get
    match cache.lookup.lookup (owner, id) with
    | some index =>
      let entry ← entryAt index
      Effect.modify (setEntry index
        { entry with bytes := page, referenced := true, dirty := true, unsealed := unsealed })
    | none =>
      let _ ← insert ⟨id, owner, page, true, true, unsealed⟩
      pure ()

def writeCandidate (candidate id : Nat) (bytes : List UInt8) (unsealed : Bool) :
    Op (PageCache D) Unit := do
  let cache ← Effect.get
  Effect.ofExcept (cache.ensureReservedBy candidate id)
  writeOwned (.candidate candidate) id bytes unsealed
  Effect.modify (fun cache => { cache with
    reservations := cache.reservations.insert id ⟨candidate, true⟩ })

/-- Writes a candidate page whose checksum field is still zero. -/
def writeUnsealedCandidatePage (candidate id : Nat) (bytes : List UInt8) :
    Op (PageCache D) Unit :=
  writeCandidate candidate id bytes true

end Device

def cannotReserve (candidate id : Nat) (reason : String) : EngineError :=
  cacheError s!"Candidate {candidate} cannot reserve page {id}{reason}"

/-- Reserves an unallocated data page exclusively for a copy-on-write candidate. -/
def reserveCandidatePage (candidate id : Nat) (activeBitmap : AllocationBitmap) :
    Op (PageCache D) Unit := do
  if id < firstDataPageId then
    Effect.fail (cacheError s!"Candidate pages must not use metadata page ID {id}")
  else
    let allocated ← Effect.ofExcept (activeBitmap.isAllocated id)
    let cache ← Effect.get
    if allocated then
      Effect.fail (cacheError s!"Candidate {candidate} cannot reserve allocated page {id}")
    else if (cache.lookup.lookup (.committed, id)).isSome then
      Effect.fail (cannotReserve candidate id
        " while it is present in the committed cache view")
    else
      -- Every reservation belongs to one candidate, so the first shows whether another is active.
      match cache.reservations.entries.head?.filter
          (fun entry => entry.2.candidate ≠ candidate) with
      | some entry =>
        Effect.fail (cannotReserve candidate id
          s!"; candidate {entry.2.candidate} is already active")
      | none =>
        match cache.reservations.lookup id with
        | some reservation =>
          if reservation.candidate = candidate then pure ()
          else Effect.fail (cannotReserve candidate id
            s!"; candidate {reservation.candidate} already reserved it")
        | none => Effect.modify (fun cache => { cache with
            reservations := cache.reservations.insert id ⟨candidate, false⟩ })

/-- Releases one page reserved by a candidate. -/
def releaseCandidatePage (candidate id : Nat) : Op (PageCache D) Unit := do
  let cache ← Effect.get
  Effect.ofExcept (cache.ensureReservedBy candidate id)
  Effect.modify (fun cache =>
    let cache := removeEntry (.candidate candidate, id)
      { cache with reservations := cache.reservations.erase id }
    if cache.reservations.entries = [] then
      { cache with
        unflushedOwners :=
          cache.unflushedOwners.filter (fun owner => owner ≠ .candidate candidate) }
    else cache)

section Device
variable [PageDevice D]

/-- Marks a written entry clean and its owner as having unflushed pages. -/
def markWritten (index : Nat) : Op (PageCache D) Unit := do
  let entry ← entryAt index
  Effect.modify (setEntry index { entry with dirty := false })
  Effect.modify (addUnflushed entry.owner)

/-- Writes a run of dirty entries holding consecutive pages, whose bytes are `bytes`. An empty run
writes nothing. -/
def writeRun (run : List Nat) (bytes : List PageBytes) : Op (PageCache D) Unit :=
  match run.head? with
  | none => pure ()
  | some index => do
    let first ← entryAt index
    writePlaceholders first.id
    onDevice (writePages first.id bytes)
    Effect.forEach markWritten run

/-- Whether page `id` comes right after the last page of the run. -/
def followsRun (run : List Nat) (id : Nat) : Op (PageCache D) Bool :=
  match run.getLast? with
  | none => pure false
  | some last => do
    let entry ← entryAt last
    pure (entry.id + 1 == id)

def writeCandidateLoop (owner : Owner) :
    List Nat → List Nat → List PageBytes → Op (PageCache D) Unit
  | [], run, bytes => writeRun run bytes
  | id :: rest, run, bytes => do
    let cache ← Effect.get
    match cache.lookup.lookup (owner, id) with
    | none => writeCandidateLoop owner rest run bytes
    | some index =>
      let entry ← entryAt index
      if ¬entry.dirty then writeCandidateLoop owner rest run bytes
      else
        let follows ← followsRun run id
        if ¬follows ∨ run.length = maxWriteRunPages then
          writeRun run bytes
          let entry ← entryAt index
          Effect.modify (setEntry index entry.withSeal)
          writeCandidateLoop owner rest [index] [entry.withSeal.bytes]
        else
          Effect.modify (setEntry index entry.withSeal)
          writeCandidateLoop owner rest (run ++ [index]) (bytes ++ [entry.withSeal.bytes])

/-- Writes a candidate's dirty pages to the device without flushing it. -/
def writeCandidatePages (candidate : Nat) (pages : List Nat) : Op (PageCache D) Unit :=
  writeCandidateLoop (.candidate candidate) pages [] []

def flushDevice : Op (PageCache D) Unit := do
  onDevice flush
  Effect.modify (fun cache => { cache with unflushedOwners := [] })

/-- The checksum a candidate's page was last written with. -/
def candidatePageChecksum (candidate id : Nat) : Op (PageCache D) Nat := do
  let cache ← Effect.get
  Effect.ofExcept (cache.ensureReservedBy candidate id)
  match cache.lookup.lookup (.candidate candidate, id) with
  | some index =>
    let entry ← entryAt index
    if entry.dirty ∨ entry.unsealed then
      Effect.fail (cacheError
        s!"Candidate {candidate} must write page {id} before its checksum is read")
    else pure (pageChecksum entry.bytes.bytes)
  | none =>
    let bytes ← onDevice (readPage id)
    Effect.ofExcept (Page.verify bytes.bytes)
    pure (pageChecksum bytes.bytes)

end Device

/-- The pages a candidate reserved, each with whether it was written. -/
def candidateIds (candidate : Nat) (cache : PageCache D) : List (Nat × Bool) :=
  (cache.reservations.entries.filter (fun entry => entry.2.candidate = candidate)).map
    (fun entry => (entry.1, entry.2.written))

/-- Whether any page the candidate reserved is cached with changes the device lacks. -/
def hasDirtyPages (candidate : Nat) (cache : PageCache D) : Bool :=
  (cache.candidateIds candidate).any (fun entry =>
    match cache.lookup.lookup (.candidate candidate, entry.1) with
    | some index => (cache.entries[index]?.map CacheEntry.dirty).getD false
    | none => false)

def candidatePageWritten (candidate id : Nat) (cache : PageCache D) : Bool :=
  match cache.reservations.lookup id with
  | some reservation => decide (reservation.candidate = candidate) && reservation.written
  | none => false

/-- Moves a candidate's cached page into the committed view. -/
def rekey (candidate id : Nat) (cache : PageCache D) : PageCache D :=
  match cache.lookup.lookup (.candidate candidate, id) with
  | none => cache
  | some index =>
    match cache.entries[index]? with
    | none => cache
    | some entry => { cache with
        entries := cache.entries.set index { entry with owner := .committed, referenced := true }
        lookup := (cache.lookup.erase (.candidate candidate, id)).insert (.committed, id) index }

section Device
variable [PageDevice D]

/-- Makes a published candidate's pages the committed view, and drops the committed pages its
commit freed. -/
def installCandidate (candidate : Nat) (activeBitmap nextBitmap : AllocationBitmap) :
    Op (PageCache D) Unit := do
  let cache ← Effect.get
  if cache.hasDirtyPages candidate ∨ cache.unflushedOwners.contains (.candidate candidate) then
    Effect.fail (cacheError s!"Candidate {candidate} must be flushed before it is installed")
  else if (cache.candidateIds candidate).any
      (fun entry => (cache.lookup.lookup (.committed, entry.1)).isSome) then
    Effect.fail (cacheError
      s!"Candidate {candidate} overlaps a page in the committed cache view")
  else match (cache.candidateIds candidate).find? (fun entry => !entry.2) with
    | some entry => Effect.fail (cacheError
        s!"Candidate {candidate} reserved page {entry.1} but never wrote it")
    | none => do
      Effect.forEach (fun entry => do
        let allocated ← Effect.ofExcept (nextBitmap.isAllocated entry.1)
        if ¬allocated then
          Effect.fail (cacheError (s!"Candidate {candidate} page {entry.1} is missing " ++
            "from the next allocation bitmap"))
        else pure ()) (cache.candidateIds candidate)
      -- Every committed page is inside the file, so the bitmaps are compared only that far.
      Effect.modify (fun cache =>
        (activeBitmap.allocatedSince nextBitmap (pageCount cache.device)).foldl
          (fun cache id => removeEntry (.committed, id) cache) cache)
      Effect.modify (fun cache => (cache.candidateIds candidate).foldl
        (fun cache entry => rekey candidate entry.1 cache) cache)
      Effect.modify (fun cache => { cache with
        reservations := Indexed.retain cache.reservations
          (fun _ reservation => reservation.candidate ≠ candidate) })

end Device

def invalidateCandidate (candidate : Nat) (cache : PageCache D) : PageCache D :=
  let cache : PageCache D := { cache with
    unflushedOwners := cache.unflushedOwners.filter (fun owner => owner ≠ .candidate candidate) }
  (cache.candidateIds candidate).foldl (fun cache entry =>
    removeEntry (.candidate candidate, entry.1)
      { cache with reservations := cache.reservations.erase entry.1 }) cache

end PageCache
end TinyJoin
