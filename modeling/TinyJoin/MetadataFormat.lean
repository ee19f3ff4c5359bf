import TinyJoin.Metadata
import TinyJoin.PageCanonical

/-! The format of the metadata pages: what a superblock's page and a chunk's page decode to, and
that a page which decodes is the page that would be written. -/
namespace TinyJoin
open Bytes

/-! The superblock's payload. -/

namespace AllocationBitmap

lemma length_superblockBits (bitmap : AllocationBitmap) :
    bitmap.superblockBits.length = superblockBitmapBytes := by
  rw [superblockBits, List.length_take, bitmap.length_bits]
  decide

lemma length_chunkBits (bitmap : AllocationBitmap) (chunk : Fin bitmapChunkCount) :
    (bitmap.chunkBits chunk).length = chunkStop chunk - chunkStart chunk := by
  rw [chunkBits, length_slice (by rw [bitmap.length_bits]; exact Nat.min_le_right _ _)]

end AllocationBitmap

namespace Superblock
variable {superblock : Superblock} {bitmap : AllocationBitmap} {payload : List UInt8}

lemma fields_eq (superblock : Superblock) (bitmap : AllocationBitmap) :
    superblock.fields bitmap =
      [(0, superblockMagic),
        (8, leBytes 2 superblockFormatVersion),
        (10, leBytes 2 superblockFlags),
        (12, leBytes 4 pageSize),
        (16, leBytes 8 superblock.maxPageCount),
        (24, leBytes 8 superblock.generation),
        (32, leBytes 8 superblock.databaseRevision),
        (40, leBytes 8 superblock.databaseHash.toNat),
        (48, leBytes 8 (superblock.catalogRootPageId.getD (2 ^ 64 - 1))),
        (56, leBytes 4 superblock.liveDataPageCount),
        (60, leBytes 2 bitmapChunkCount),
        (62, [superblock.slot.toByte]),
        (64, leBytes 8 superblock.commitHash.toNat),
        (72, leBytes 8 (superblock.bitmapChunks 0).generation),
        (80, leBytes 4 (superblock.bitmapChunks 0).checksum),
        (84, [(superblock.bitmapChunks 0).slot.toByte]),
        (88, leBytes 8 (superblock.bitmapChunks 1).generation),
        (96, leBytes 4 (superblock.bitmapChunks 1).checksum),
        (100, [(superblock.bitmapChunks 1).slot.toByte]),
        (128, bitmap.superblockBits)] := rfl

lemma inOrder_fields (superblock : Superblock) (bitmap : AllocationBitmap) :
    InOrder maxPagePayloadSize 0 (superblock.fields bitmap) := by
  rw [fields_eq]
  simp only [InOrder, length_leBytes, AllocationBitmap.length_superblockBits,
    List.length_singleton]
  decide

/-- The entry of a chunk, in the sixteen bytes at `start`. -/
structure EntryAt (entry : BitmapChunk) (start : Nat) (payload : List UInt8) : Prop where
  generation : slice payload start (start + 8) = leBytes 8 entry.generation
  checksum : slice payload (start + 8) (start + 8 + 4) = leBytes 4 entry.checksum
  slot : slice payload (start + 12) (start + 12 + 1) = [entry.slot.toByte]

/-- Where each field of a superblock stands in its payload, and the bytes no field has. -/
structure Laid (superblock : Superblock) (bitmap : AllocationBitmap) (payload : List UInt8) :
    Prop where
  magic : slice payload 0 8 = superblockMagic
  version : slice payload 8 10 = leBytes 2 superblockFormatVersion
  flags : slice payload 10 12 = leBytes 2 superblockFlags
  pageSize : slice payload 12 16 = leBytes 4 TinyJoin.pageSize
  maxPageCount : slice payload 16 24 = leBytes 8 superblock.maxPageCount
  generation : slice payload 24 32 = leBytes 8 superblock.generation
  databaseRevision : slice payload 32 40 = leBytes 8 superblock.databaseRevision
  databaseHash : slice payload 40 48 = leBytes 8 superblock.databaseHash.toNat
  root : slice payload 48 56 = leBytes 8 (superblock.catalogRootPageId.getD (2 ^ 64 - 1))
  liveDataPageCount : slice payload 56 60 = leBytes 4 superblock.liveDataPageCount
  chunkCount : slice payload 60 62 = leBytes 2 bitmapChunkCount
  slot : slice payload 62 63 = [superblock.slot.toByte]
  reserved : slice payload 63 64 = [0]
  commitHash : slice payload 64 72 = leBytes 8 superblock.commitHash.toNat
  first : EntryAt (superblock.bitmapChunks 0) 72 payload
  firstReserved : slice payload 85 88 = List.replicate 3 0
  second : EntryAt (superblock.bitmapChunks 1) 88 payload
  lastReserved : slice payload 101 128 = List.replicate 27 0
  bits : payload.drop 128 = bitmap.superblockBits

lemma holds_fields_iff (hlen : payload.length = maxPagePayloadSize) :
    Holds (List.replicate maxPagePayloadSize 0) payload 0 (superblock.fields bitmap) ↔
      superblock.Laid bitmap payload := by
  have hmagic : superblockMagic.length = 8 := rfl
  have hrest : 128 + superblockBitmapBytes = maxPagePayloadSize := rfl
  have hbits : slice payload 128 maxPagePayloadSize = payload.drop 128 := by
    rw [slice, List.take_of_length_le (by rw [List.length_drop, hlen])]
  have hnone : payload.drop maxPagePayloadSize =
      (List.replicate maxPagePayloadSize (0 : UInt8)).drop maxPagePayloadSize := by
    rw [List.drop_eq_nil_of_le (by omega), List.drop_eq_nil_of_le (by simp)]
  have hgap : ∀ start stop, stop ≤ 128 →
      slice (List.replicate maxPagePayloadSize (0 : UInt8)) start stop =
        List.replicate (stop - start) 0 := by
    intro start stop hstop
    exact slice_replicate _ (Nat.le_trans hstop (by decide))
  rw [fields_eq]
  simp only [Holds, length_leBytes, AllocationBitmap.length_superblockBits, List.length_singleton,
    hmagic, hrest, hbits, hnone, Nat.reduceAdd, slice_self, true_and, and_true]
  rw [hgap 63 64 (by omega), hgap 85 88 (by omega), hgap 101 128 (by omega)]
  constructor
  · rintro ⟨h1, h2, h3, h4, h5, h6, h7, h8, h9, h10, h11, h12, h13, h14, h15, h16, h17, h18, h19,
      h20, h21, h22, h23⟩
    exact ⟨h1, h2, h3, h4, h5, h6, h7, h8, h9, h10, h11, h12, h13, h14, ⟨h15, h16, h17⟩, h18,
      ⟨h19, h20, h21⟩, h22, h23⟩
  · intro h
    exact ⟨h.magic, h.version, h.flags, h.pageSize, h.maxPageCount, h.generation,
      h.databaseRevision, h.databaseHash, h.root, h.liveDataPageCount, h.chunkCount, h.slot,
      h.reserved, h.commitHash, h.first.generation, h.first.checksum, h.first.slot,
      h.firstReserved, h.second.generation, h.second.checksum, h.second.slot, h.lastReserved,
      h.bits⟩

/-- The payload of a superblock's page. -/
def encodePayload (superblock : Superblock) (bitmap : AllocationBitmap) : List UInt8 :=
  putAll (List.replicate maxPagePayloadSize 0) (superblock.fields bitmap)

lemma length_encodePayload (superblock : Superblock) (bitmap : AllocationBitmap) :
    (superblock.encodePayload bitmap).length = maxPagePayloadSize := by
  have horder := superblock.inOrder_fields bitmap
  rw [encodePayload, length_putAll (by rw [List.length_replicate]; exact horder), List.length_replicate]

lemma encodePayload_eq_iff (hlen : payload.length = maxPagePayloadSize) :
    superblock.encodePayload bitmap = payload ↔ superblock.Laid bitmap payload := by
  have horder := superblock.inOrder_fields bitmap
  rw [encodePayload, putAll_eq_iff (by rw [List.length_replicate, hlen])
    (by rw [List.length_replicate]; exact horder), holds_fields_iff hlen]

/-- The numbers of a superblock fit the fields they are written in. -/
def Fits (superblock : Superblock) : Prop :=
  superblock.generation < 2 ^ 64 ∧ ∀ chunk, (superblock.bitmapChunks chunk).checksum < 2 ^ 32

lemma tryFrom_toByte (slot : SuperblockSlot) : SuperblockSlot.tryFrom slot.toByte = .ok slot := by
  cases slot
  · rfl
  · rfl

lemma bitmapSlot_tryFrom_toByte (slot : BitmapSlot) : BitmapSlot.tryFrom slot.toByte = .ok slot := by
  cases slot
  · rfl
  · rfl

lemma toByte_of_tryFrom {value : UInt8} {slot : SuperblockSlot}
    (h : SuperblockSlot.tryFrom value = .ok slot) : slot.toByte = value := by
  rw [SuperblockSlot.tryFrom] at h
  split at h
  · next hvalue =>
    cases h
    exact hvalue.symm
  · split at h
    · next hvalue =>
      cases h
      exact hvalue.symm
    · cases h

lemma bitmapSlot_toByte_of_tryFrom {value : UInt8} {slot : BitmapSlot}
    (h : BitmapSlot.tryFrom value = .ok slot) : slot.toByte = value := by
  rw [BitmapSlot.tryFrom] at h
  split at h
  · next hvalue =>
    cases h
    exact hvalue.symm
  · split at h
    · next hvalue =>
      cases h
      exact hvalue.symm
    · cases h

lemma decodeChunkEntry_of_entryAt {entry : BitmapChunk} {chunk start : Nat}
    (hstart : start = bitmapChunkEntriesOffset + chunk * bitmapChunkEntrySize)
    (h : EntryAt entry start payload) (hgeneration : entry.generation < 2 ^ 64)
    (hchecksum : entry.checksum < 2 ^ 32) : decodeChunkEntry payload chunk = .ok entry := by
  subst hstart
  rw [decodeChunkEntry, byteAt_of_slice h.slot, bitmapSlot_tryFrom_toByte]
  have h₁ := @readLe_eq_of_slice _ _ 8 _ hgeneration h.generation
  have h₂ := @readLe_eq_of_slice _ _ 4 _ hchecksum h.checksum
  simp only [bind, Except.bind, readU64, readU32, h₁, h₂]

lemma entryAt_of_decodeChunkEntry {entry : BitmapChunk} {chunk start : Nat}
    (hstart : start = bitmapChunkEntriesOffset + chunk * bitmapChunkEntrySize)
    (hlen : start + 16 ≤ payload.length) (h : decodeChunkEntry payload chunk = .ok entry) :
    EntryAt entry start payload ∧ entry.checksum < 2 ^ 32 := by
  subst hstart
  obtain ⟨slot, hslot, h⟩ := Except.bind_eq_ok.mp h
  cases h
  refine ⟨⟨?_, ?_, ?_⟩, readLe_lt _ _ 4⟩
  · exact (@leBytes_readLe _ _ 8 (by omega)).symm
  · exact (@leBytes_readLe _ _ 4 (by omega)).symm
  · rw [slice_of_byteAt (by omega), bitmapSlot_toByte_of_tryFrom hslot]

lemma Laid.checkFormat (h : superblock.Laid bitmap payload)
    (hlen : payload.length = maxPagePayloadSize)
    (hmax : superblock.maxPageCount = TinyJoin.maxPageCount) :
    checkFormat ⟨superblock.slot.pageId, .superblock, payload⟩ = .ok () := by
  have hid : ¬superblock.slot.pageId ≥ superblockPageCount := by
    cases superblock.slot <;> decide
  have hmagic : ¬(payload.length < 12 ∨ payload.take 8 ≠ superblockMagic) := by
    rintro (hshort | hother)
    · rw [hlen] at hshort
      exact absurd hshort (by decide)
    · exact hother (by simpa [slice] using h.magic)
  have hversion : readU16 payload 8 = superblockFormatVersion :=
    @readLe_eq_of_slice payload 8 2 _ (by decide) h.version
  have hflags : readU16 payload 10 = superblockFlags :=
    @readLe_eq_of_slice payload 10 2 _ (by decide) h.flags
  have hsize : readU32 payload 12 = TinyJoin.pageSize :=
    @readLe_eq_of_slice payload 12 4 _ (by decide) h.pageSize
  have hpages : readU64 payload 16 = TinyJoin.maxPageCount :=
    @readLe_eq_of_slice payload 16 8 _ (by decide) (by rw [← hmax]; exact h.maxPageCount)
  have hchunks : readU16 payload 60 = bitmapChunkCount :=
    @readLe_eq_of_slice payload 60 2 _ (by decide) h.chunkCount
  have hreserved : reservedZero payload = true := by
    have hbyte : byteAt payload 63 = 0 := byteAt_of_slice h.reserved
    have hlast : slice payload (bitmapChunkEntriesOffset + bitmapChunkCount *
        bitmapChunkEntrySize) superblockFieldsSize = List.replicate 24 0 := by
      have := @slice_slice UInt8 payload 101 128 3 27 (by omega)
      rw [h.lastReserved, slice_replicate _ (by omega)] at this
      exact this.symm
    have hsecond : slice payload 101 104 = List.replicate 3 0 := by
      have := @slice_slice UInt8 payload 101 128 0 3 (by omega)
      rw [h.lastReserved, slice_replicate _ (by omega)] at this
      exact this.symm
    have hfirst := h.firstReserved
    rw [reservedZero, hbyte, hlast]
    simp only [bitmapChunkCount, List.range_succ, List.range_zero, List.nil_append,
      List.cons_append, List.all_cons, List.all_nil, bitmapChunkEntriesOffset,
      bitmapChunkEntrySize, Nat.reduceMul, Nat.reduceAdd, hfirst, hsecond]
    decide
  rw [Superblock.checkFormat]
  dsimp only
  rw [if_neg hid, if_neg (by simp), if_neg hmagic, if_neg (not_not.mpr hversion),
    if_neg (not_not.mpr hflags), if_neg (not_not.mpr hlen), if_neg (not_not.mpr hsize),
    if_neg (not_not.mpr hpages), if_neg (not_not.mpr hchunks), if_neg (not_not.mpr hreserved)]

lemma Laid.decodeFields (h : superblock.Laid bitmap payload)
    (hvalid : superblock.validate = .ok ()) (hfits : superblock.Fits) :
    decodeFields superblock.slot.pageId payload = .ok superblock := by
  obtain ⟨hrevision, -, hchunks, hmax, hroot, hlive⟩ := validate_eq_ok.mp hvalid
  have hbound : ∀ chunk, (superblock.bitmapChunks chunk).generation < 2 ^ 64 :=
    fun chunk => Nat.lt_of_le_of_lt (hchunks chunk).2 hfits.1
  have hslot : SuperblockSlot.tryFrom (byteAt payload 62) = .ok superblock.slot := by
    rw [byteAt_of_slice h.slot, tryFrom_toByte]
  have hfirst := @decodeChunkEntry_of_entryAt _ _ 0 _ rfl h.first (hbound 0) (hfits.2 0)
  have hsecond := @decodeChunkEntry_of_entryAt _ _ 1 _ rfl h.second (hbound 1) (hfits.2 1)
  have hgeneration : readU64 payload 24 = superblock.generation :=
    @readLe_eq_of_slice payload 24 8 _ hfits.1 h.generation
  have hrev : readU64 payload 32 = superblock.databaseRevision :=
    @readLe_eq_of_slice payload 32 8 _ (Nat.lt_of_le_of_lt hrevision (by decide))
      h.databaseRevision
  have hhash : readU64 payload 40 = superblock.databaseHash.toNat :=
    @readLe_eq_of_slice payload 40 8 _ superblock.databaseHash.toNat_lt h.databaseHash
  have hcommit : readU64 payload 64 = superblock.commitHash.toNat :=
    @readLe_eq_of_slice payload 64 8 _ superblock.commitHash.toNat_lt h.commitHash
  have hcount : readU32 payload 56 = superblock.liveDataPageCount :=
    @readLe_eq_of_slice payload 56 4 _ (Nat.lt_of_le_of_lt hlive (by decide)) h.liveDataPageCount
  have hpages : readU64 payload 16 = superblock.maxPageCount :=
    @readLe_eq_of_slice payload 16 8 _ (by rw [hmax]; decide) h.maxPageCount
  have hcatalog : (if readU64 payload 48 = 2 ^ 64 - 1 then none else some (readU64 payload 48)) =
      superblock.catalogRootPageId := by
    cases hc : superblock.catalogRootPageId with
    | none =>
      have hread : readU64 payload 48 = 2 ^ 64 - 1 :=
        @readLe_eq_of_slice payload 48 8 _ (by decide) (by rw [h.root, hc]; rfl)
      rw [if_pos hread]
    | some root =>
      have hlt := (hroot root hc).2
      have hread : readU64 payload 48 = root :=
        @readLe_eq_of_slice payload 48 8 _ (Nat.lt_trans hlt (by decide)) (by rw [h.root, hc]; rfl)
      rw [hread, if_neg]
      intro hlast
      rw [hlast] at hlt
      exact absurd hlt (by decide)
  have hentries : ![superblock.bitmapChunks 0, superblock.bitmapChunks 1] =
      superblock.bitmapChunks := by
    funext chunk
    match chunk with
    | ⟨0, _⟩ => rfl
    | ⟨1, _⟩ => rfl
  have hsame : (⟨superblock.slot, readU64 payload 24, readU64 payload 32,
      UInt64.ofNat (readU64 payload 40),
      if readU64 payload 48 = 2 ^ 64 - 1 then none else some (readU64 payload 48),
      readU32 payload 56, readU64 payload 16, UInt64.ofNat (readU64 payload 64),
      ![superblock.bitmapChunks 0, superblock.bitmapChunks 1]⟩ : Superblock) = superblock := by
    rw [hcatalog, hentries, hgeneration, hrev, hhash, hcommit, hcount, hpages, UInt64.ofNat_toNat,
      UInt64.ofNat_toNat]
  rw [Superblock.decodeFields, hslot]
  simp only [bind, Except.bind]
  rw [if_neg (not_not.mpr rfl), hfirst, hsecond]
  dsimp only
  rw [hsame, hvalid]

/-- The page of a superblock is the page of its payload, sealed. -/
lemma encodeUnsealed_payload (superblock : Superblock) (bitmap : AllocationBitmap) :
    (⟨superblock.slot.pageId, .superblock, superblock.encodePayload bitmap⟩ : Page).encodeUnsealed =
      .ok ((writePageHeader .zero superblock.slot.pageId .superblock
        maxPagePayloadSize).putFields (superblock.fields bitmap)) := by
  refine encodeUnsealed_putAll _ ?_ (Nat.le_refl _) (superblock.inOrder_fields bitmap)
  cases superblock.slot <;> decide

/-- A superblock read back from its page is the superblock, with the start of its bitmap. -/
lemma decodePage_encodePage {page : PageBytes} (hfits : superblock.Fits)
    (h : superblock.encodePage bitmap = .ok page) :
    decodePage page.bytes = .ok (superblock, bitmap.superblockBits) := by
  obtain ⟨hvalid, hcovers⟩ := encodePage_eq_ok h
  rw [encodePage_of_valid hvalid hcovers] at h
  cases h
  have hraw := superblock.encodeUnsealed_payload bitmap
  have hlaid := (encodePayload_eq_iff (superblock.length_encodePayload bitmap)).mp rfl
  obtain ⟨-, -, -, hmax, -, -⟩ := validate_eq_ok.mp hvalid
  rw [decodePage, Page.verify_sealPage hraw, Page.decodeVerified_sealPage hraw]
  simp only [bind, Except.bind]
  rw [hlaid.checkFormat (superblock.length_encodePayload bitmap) hmax]
  dsimp only
  rw [hlaid.decodeFields hvalid hfits]
  dsimp only
  rw [superblockFieldsSize, hlaid.bits]

/-- A format that passes every check is that of the fields it lays out. -/
lemma checkFormat_eq_ok {page : Page} (h : checkFormat page = .ok ()) :
    page.pageType = .superblock ∧ page.payload.length = maxPagePayloadSize ∧
      slice page.payload 0 8 = superblockMagic ∧
      readU16 page.payload 8 = superblockFormatVersion ∧
      readU16 page.payload 10 = superblockFlags ∧ readU32 page.payload 12 = TinyJoin.pageSize ∧
      readU16 page.payload 60 = bitmapChunkCount ∧ reservedZero page.payload = true := by
  rw [checkFormat] at h
  split at h
  · cases h
  split at h
  · cases h
  next htype =>
  split at h
  · cases h
  next hmagic =>
  split at h
  · cases h
  next hversion =>
  split at h
  · cases h
  next hflags =>
  split at h
  · cases h
  next hlen =>
  split at h
  · cases h
  next hsize =>
  split at h
  · cases h
  split at h
  · cases h
  next hchunks =>
  split at h
  · cases h
  next hreserved =>
  refine ⟨not_not.mp htype, not_not.mp hlen, ?_, not_not.mp hversion, not_not.mp hflags,
    not_not.mp hsize, not_not.mp hchunks, not_not.mp hreserved⟩
  by_contra hother
  exact hmagic (Or.inr (by simpa [slice] using hother))

/-- The bytes no field has, when they are all zero. -/
lemma reserved_of_zero (hlen : payload.length = maxPagePayloadSize)
    (h : reservedZero payload = true) :
    slice payload 63 64 = [0] ∧ slice payload 85 88 = List.replicate 3 0 ∧
      slice payload 101 128 = List.replicate 27 0 := by
  have hlong : 128 ≤ payload.length := by
    rw [hlen]
    decide
  have hzeros : ∀ start stop, start ≤ stop → stop ≤ 128 →
      (slice payload start stop).all (· == 0) = true →
      slice payload start stop = List.replicate (stop - start) 0 := by
    intro start stop _ hstop hall
    refine eq_replicate_of_all (length_slice (by omega)) ?_
    intro b hb
    simpa using List.all_eq_true.mp hall b hb
  rw [reservedZero, Bool.and_eq_true, Bool.and_eq_true] at h
  obtain ⟨⟨hbyte, hlast⟩, hentries⟩ := h
  have hentry : ∀ chunk, chunk < 2 → (slice payload (bitmapChunkEntriesOffset +
      chunk * bitmapChunkEntrySize + 13) (bitmapChunkEntriesOffset + chunk * bitmapChunkEntrySize +
        bitmapChunkEntrySize)).all (· == 0) = true :=
    fun chunk hchunk => List.all_eq_true.mp hentries chunk (List.mem_range.mpr hchunk)
  refine ⟨?_, hzeros 85 88 (by omega) (by omega) (hentry 0 (by omega)), ?_⟩
  · rw [slice_of_byteAt (by omega), beq_iff_eq.mp hbyte]
  · rw [← @slice_append_slice _ payload 101 104 128 (by omega) (by omega),
      hzeros 101 104 (by omega) (by omega) (hentry 1 (by omega)),
      hzeros 104 128 (by omega) (by omega) hlast, ← List.replicate_add]

/-- What a decoded superblock says of the payload it was read from. -/
lemma decodeFields_eq_ok {id : Nat} (h : decodeFields id payload = .ok superblock)
    (hlen : payload.length = maxPagePayloadSize) :
    id = superblock.slot.pageId ∧ superblock.validate = .ok () ∧
      slice payload 16 24 = leBytes 8 superblock.maxPageCount ∧
      slice payload 24 32 = leBytes 8 superblock.generation ∧
      slice payload 32 40 = leBytes 8 superblock.databaseRevision ∧
      slice payload 40 48 = leBytes 8 superblock.databaseHash.toNat ∧
      slice payload 48 56 = leBytes 8 (superblock.catalogRootPageId.getD (2 ^ 64 - 1)) ∧
      slice payload 56 60 = leBytes 4 superblock.liveDataPageCount ∧
      slice payload 62 63 = [superblock.slot.toByte] ∧
      slice payload 64 72 = leBytes 8 superblock.commitHash.toNat ∧
      EntryAt (superblock.bitmapChunks 0) 72 payload ∧
      EntryAt (superblock.bitmapChunks 1) 88 payload := by
  have hlong : 128 ≤ payload.length := by
    rw [hlen]
    decide
  obtain ⟨slot, hslot, h⟩ := Except.bind_eq_ok.mp h
  split at h
  · cases h
  next hid =>
  obtain ⟨first, hfirst, h⟩ := Except.bind_eq_ok.mp h
  obtain ⟨second, hsecond, h⟩ := Except.bind_eq_ok.mp h
  obtain ⟨⟨⟩, hvalid, h⟩ := Except.bind_eq_ok.mp h
  rw [Except.ok.injEq] at h
  have hread : ∀ offset width, offset + width ≤ 128 →
      slice payload offset (offset + width) = leBytes width (readLe payload offset width) :=
    fun offset width hle => (leBytes_readLe (by omega)).symm
  have hhash : ∀ offset, (UInt64.ofNat (readU64 payload offset)).toNat = readU64 payload offset := by
    intro offset
    rw [UInt64.toNat_ofNat']
    exact Nat.mod_eq_of_lt (readLe_lt payload offset 8)
  have hentry := (@entryAt_of_decodeChunkEntry payload first 0 72 rfl (by omega) hfirst).1
  have hentry' := (@entryAt_of_decodeChunkEntry payload second 1 88 rfl (by omega) hsecond).1
  subst h
  refine ⟨not_not.mp hid, hvalid, hread 16 8 (by omega), hread 24 8 (by omega),
    hread 32 8 (by omega), ?_, ?_, hread 56 4 (by omega), ?_, ?_, hentry, hentry'⟩
  · dsimp only
    rw [hhash]
    exact hread 40 8 (by omega)
  · have hroot := hread 48 8 (by omega)
    dsimp only
    split
    · next hnone =>
      rw [Option.getD_none, ← hnone]
      exact hroot
    · exact hroot
  · dsimp only
    rw [slice_of_byteAt (by omega), toByte_of_tryFrom hslot]
  · dsimp only
    rw [hhash]
    exact hread 64 8 (by omega)

lemma length_of_decodePage {bytes start : List UInt8}
    (h : decodePage bytes = .ok (superblock, start)) : start.length = superblockBitmapBytes := by
  obtain ⟨⟨⟩, -, h⟩ := Except.bind_eq_ok.mp h
  obtain ⟨page, -, h⟩ := Except.bind_eq_ok.mp h
  obtain ⟨⟨⟩, hformat, h⟩ := Except.bind_eq_ok.mp h
  obtain ⟨_, -, h⟩ := Except.bind_eq_ok.mp h
  rw [Except.ok.injEq, Prod.mk.injEq] at h
  rw [← h.2, List.length_drop, (checkFormat_eq_ok hformat).2.1]
  rfl

/-- A page that decodes as a superblock is the page that superblock encodes to. -/
lemma encodePage_of_decodePage {p : PageBytes} {start : List UInt8}
    (h : decodePage p.bytes = .ok (superblock, start)) (hbits : bitmap.superblockBits = start)
    (hcovers : superblock.validateBitmap bitmap = .ok ()) :
    superblock.encodePage bitmap = .ok p := by
  obtain ⟨⟨⟩, hverify, h⟩ := Except.bind_eq_ok.mp h
  obtain ⟨page, hdecoded, h⟩ := Except.bind_eq_ok.mp h
  obtain ⟨⟨⟩, hformat, h⟩ := Except.bind_eq_ok.mp h
  obtain ⟨decoded, hfields, h⟩ := Except.bind_eq_ok.mp h
  rw [Except.ok.injEq, Prod.mk.injEq] at h
  obtain ⟨rfl, rfl⟩ := h
  obtain ⟨id, pageType, payload⟩ := page
  obtain ⟨htype, hlen, hmagic, hversion, hflags, hsize, hcount, hreserved⟩ :=
    checkFormat_eq_ok hformat
  obtain ⟨hid, hvalid, hmax, hgeneration, hrevision, hhash, hroot, hlive, hslot, hcommit, hfirst,
    hsecond⟩ := decodeFields_eq_ok hfields hlen
  dsimp only at htype hlen hmagic hversion hflags hsize hcount hreserved hid hbits
  obtain ⟨hgap, hgap₁, hgap₂⟩ := reserved_of_zero hlen hreserved
  have hread : ∀ offset width n, offset + width ≤ 128 → readLe payload offset width = n →
      slice payload offset (offset + width) = leBytes width n := by
    rintro offset width n hle rfl
    exact (leBytes_readLe (by rw [hlen]; exact Nat.le_trans hle (by decide))).symm
  have hlaid : decoded.Laid bitmap payload :=
    ⟨hmagic, hread 8 2 _ (by omega) hversion, hread 10 2 _ (by omega) hflags,
      hread 12 4 _ (by omega) hsize, hmax, hgeneration, hrevision, hhash, hroot, hlive,
      hread 60 2 _ (by omega) hcount, hslot, hgap, hcommit, hfirst, hgap₁, hsecond, hgap₂,
      hbits.symm⟩
  obtain ⟨raw, hraw, hsealed⟩ := sealPage_of_verify hverify hdecoded
  rw [hid, htype, ← (encodePayload_eq_iff hlen).mpr hlaid, encodeUnsealed_payload,
    Except.ok.injEq] at hraw
  rw [encodePage_of_valid hvalid hcovers, hraw, hsealed]

end Superblock

/-! The page of a chunk. -/

namespace AllocationBitmap
variable {bitmap : AllocationBitmap} {chunk : Fin bitmapChunkCount} {slot : BitmapSlot}
  {generation : Nat} {payload bits : List UInt8}

/-- The fields of a chunk's payload. -/
def chunkFields (bits : List UInt8) (chunk : Nat) (slot : BitmapSlot) (generation : Nat) :
    List (Nat × List UInt8) :=
  [(0, leBytes 8 generation),
    (8, [slot.toByte]),
    (9, [UInt8.ofNat chunk]),
    (10, [UInt8.ofNat bitmapChunkCount]),
    (12, leBytes 2 bits.length),
    (bitmapChunkHeaderSize, bits)]

/-- Where each field of a chunk stands in its payload, and the bytes no field has. -/
structure ChunkLaid (bits : List UInt8) (chunk : Nat) (slot : BitmapSlot) (generation : Nat)
    (payload : List UInt8) : Prop where
  generation : slice payload 0 8 = leBytes 8 generation
  slot : slice payload 8 9 = [slot.toByte]
  chunk : slice payload 9 10 = [UInt8.ofNat chunk]
  count : slice payload 10 11 = [UInt8.ofNat bitmapChunkCount]
  flags : slice payload 11 12 = [0]
  length : slice payload 12 14 = leBytes 2 bits.length
  reserved : slice payload 14 16 = [0, 0]
  bits : payload.drop 16 = bits

lemma inOrder_chunkFields (bits : List UInt8) (chunk : Nat) (slot : BitmapSlot)
    (generation : Nat) :
    InOrder (bitmapChunkHeaderSize + bits.length) 0 (chunkFields bits chunk slot generation) := by
  simp only [chunkFields, InOrder, length_leBytes, List.length_singleton, bitmapChunkHeaderSize]
  omega

/-- The payload of a chunk's page. -/
def chunkPayload (bits : List UInt8) (chunk : Nat) (slot : BitmapSlot) (generation : Nat) :
    List UInt8 :=
  putAll (List.replicate (bitmapChunkHeaderSize + bits.length) 0)
    (chunkFields bits chunk slot generation)

lemma length_chunkPayload (bits : List UInt8) (chunk : Nat) (slot : BitmapSlot)
    (generation : Nat) :
    (chunkPayload bits chunk slot generation).length = bitmapChunkHeaderSize + bits.length := by
  have horder := inOrder_chunkFields bits chunk slot generation
  rw [chunkPayload, length_putAll (by rw [List.length_replicate]; exact horder),
    List.length_replicate]

lemma chunkPayload_eq_iff {chunk : Nat}
    (hlen : payload.length = bitmapChunkHeaderSize + bits.length) :
    chunkPayload bits chunk slot generation = payload ↔
      ChunkLaid bits chunk slot generation payload := by
  have horder := inOrder_chunkFields bits chunk slot generation
  have hbits : slice payload 16 (16 + bits.length) = payload.drop 16 := by
    rw [slice, List.take_of_length_le (by rw [List.length_drop, hlen]; exact Nat.le_refl _)]
  have hnone : payload.drop (16 + bits.length) =
      (List.replicate (bitmapChunkHeaderSize + bits.length) (0 : UInt8)).drop
        (16 + bits.length) := by
    rw [List.drop_eq_nil_of_le (by rw [hlen]; exact Nat.le_refl _),
      List.drop_eq_nil_of_le (by rw [List.length_replicate]; exact Nat.le_refl _)]
  have hgap : ∀ start stop, stop ≤ 16 →
      slice (List.replicate (bitmapChunkHeaderSize + bits.length) (0 : UInt8)) start stop =
        List.replicate (stop - start) 0 := by
    intro start stop hstop
    exact slice_replicate _ (Nat.le_trans hstop (Nat.le_add_right _ _))
  rw [chunkPayload, putAll_eq_iff (by rw [List.length_replicate, hlen])
    (by rw [List.length_replicate]; exact horder), chunkFields]
  simp only [Holds, length_leBytes, List.length_singleton, bitmapChunkHeaderSize,
    Nat.reduceAdd, slice_self, true_and, hbits]
  simp only [bitmapChunkHeaderSize] at hnone hgap
  rw [hnone, hgap 11 12 (by omega), hgap 14 16 (by omega)]
  constructor
  · rintro ⟨h1, h2, h3, h4, h5, h6, h7, h8, -⟩
    exact ⟨h1, h2, h3, h4, h5, h6, h7, h8⟩
  · intro h
    exact ⟨h.generation, h.slot, h.chunk, h.count, h.flags, h.length, h.reserved, h.bits, rfl⟩

lemma chunk_length_le (chunk : Fin bitmapChunkCount) :
    bitmapChunkHeaderSize + (chunkStop chunk - chunkStart chunk) ≤ maxPagePayloadSize := by
  revert chunk
  decide

/-- The page of a chunk is the page of its payload, sealed. -/
lemma encodeUnsealed_chunkPayload (bitmap : AllocationBitmap) (chunk : Fin bitmapChunkCount)
    (slot : BitmapSlot) (generation : Nat) : ∃ raw,
    (⟨slot.pageId chunk, .allocationBitmap,
      chunkPayload (bitmap.chunkBits chunk) chunk slot generation⟩ : Page).encodeUnsealed =
        .ok raw ∧ bitmap.encodeChunk chunk slot generation = sealPage raw := by
  refine ⟨_, encodeUnsealed_putAll _ ?_ ?_ (inOrder_chunkFields _ _ _ _), rfl⟩
  · exact Nat.lt_trans (bitmapSlot_pageId_lt slot chunk) (by decide)
  · rw [length_chunkBits]
    exact chunk_length_le chunk

/-- A chunk read back from its page is its bits. -/
lemma decodeBitmapChunk_encodeChunk (bitmap : AllocationBitmap) (chunk : Fin bitmapChunkCount)
    (slot : BitmapSlot) {generation : Nat} (hgeneration : generation < 2 ^ 64) :
    decodeBitmapChunk (bitmap.encodeChunk chunk slot generation).bytes chunk
      ⟨slot, generation, pageChecksum (bitmap.encodeChunk chunk slot generation).bytes⟩ =
        .ok (bitmap.chunkBits chunk) := by
  obtain ⟨raw, hraw, hpage⟩ := bitmap.encodeUnsealed_chunkPayload chunk slot generation
  have hlen := length_chunkPayload (bitmap.chunkBits chunk) chunk slot generation
  have h := (chunkPayload_eq_iff hlen).mp rfl
  rw [hpage]
  generalize hpayload : chunkPayload (bitmap.chunkBits chunk) chunk slot generation =
    payload at hraw hlen h
  have hgen : readU64 payload 0 = generation :=
    @readLe_eq_of_slice payload 0 8 _ hgeneration h.generation
  have hslot : BitmapSlot.tryFrom (byteAt payload 8) = .ok slot := by
    rw [byteAt_of_slice h.slot, Superblock.bitmapSlot_tryFrom_toByte]
  have hchunk : (byteAt payload 9).toNat = chunk := by
    rw [byteAt_of_slice h.chunk, UInt8.toNat_ofNat']
    have := chunk.isLt
    simp only [bitmapChunkCount] at this
    omega
  have hcount : (byteAt payload 10).toNat = bitmapChunkCount := by
    rw [byteAt_of_slice h.count]
    rfl
  have hflags : byteAt payload 11 = 0 := byteAt_of_slice h.flags
  have hlt : (bitmap.chunkBits chunk).length < 256 ^ 2 := by
    have := chunk_length_le chunk
    rw [length_chunkBits]
    exact Nat.lt_of_le_of_lt (Nat.le_trans (Nat.le_add_left _ _) this) (by decide)
  have hlength : readU16 payload 12 = chunkStop chunk - chunkStart chunk := by
    rw [← length_chunkBits bitmap chunk]
    exact @readLe_eq_of_slice payload 12 2 _ hlt h.length
  rw [decodeBitmapChunk, Page.verify_sealPage hraw, Page.decodeVerified_sealPage hraw]
  have hsum : readU32 (sealPage raw).bytes pageChecksumOffset =
    pageChecksum (sealPage raw).bytes := rfl
  simp only [bind, Except.bind, ne_eq, not_true_eq_false, if_false, hsum]
  rw [if_neg (by rw [hlen]; omega), if_neg (not_not.mpr hgen), hslot]
  dsimp only
  rw [if_neg (not_not.mpr rfl), if_neg (by rw [hchunk, hcount]; simp),
    if_neg (by rw [hflags, h.reserved]; decide),
    if_neg (by rw [hlength, hlen, length_chunkBits]; simp), bitmapChunkHeaderSize, h.bits]

/-- What reading a chunk establishes of the page it was read from. -/
lemma decodeBitmapChunk_eq_ok {p : PageBytes} {chunk : Nat} {entry : BitmapChunk}
    (h : decodeBitmapChunk p.bytes chunk entry = .ok bits) :
    ∃ payload, Page.verify p.bytes = .ok () ∧ pageChecksum p.bytes = entry.checksum ∧
      Page.decodeVerified p.bytes = .ok ⟨entry.slot.pageId chunk, .allocationBitmap, payload⟩ ∧
      payload.length = bitmapChunkHeaderSize + (chunkStop chunk - chunkStart chunk) ∧
      readU64 payload 0 = entry.generation ∧ byteAt payload 8 = entry.slot.toByte ∧
      (byteAt payload 9).toNat = chunk ∧ (byteAt payload 10).toNat = bitmapChunkCount ∧
      byteAt payload 11 = 0 ∧ (slice payload 14 16).any (· != 0) = false ∧
      readU16 payload 12 = chunkStop chunk - chunkStart chunk ∧
      bits = payload.drop bitmapChunkHeaderSize := by
  obtain ⟨⟨⟩, hverify, h⟩ := Except.bind_eq_ok.mp h
  split at h
  · cases h
  next hsum =>
  obtain ⟨⟨id, pageType, payload⟩, hdecoded, h⟩ := Except.bind_eq_ok.mp h
  dsimp only at h
  split at h
  · cases h
  next hid =>
  split at h
  · cases h
  next htype =>
  split at h
  · cases h
  split at h
  · cases h
  next hgeneration =>
  obtain ⟨slot, hslot, h⟩ := Except.bind_eq_ok.mp h
  split at h
  · cases h
  next hsame =>
  split at h
  · cases h
  next hchunk =>
  split at h
  · cases h
  next hreserved =>
  split at h
  · cases h
  next hlength =>
  rw [Except.ok.injEq] at h
  rw [not_or, not_not, not_not] at hchunk hlength
  rw [not_or, not_not, Bool.not_eq_true] at hreserved
  obtain rfl := not_not.mp hid
  obtain rfl := not_not.mp htype
  obtain rfl := not_not.mp hsame
  exact ⟨payload, hverify, not_not.mp hsum, hdecoded, hlength.2, not_not.mp hgeneration,
    (Superblock.bitmapSlot_toByte_of_tryFrom hslot).symm, hchunk.1, hchunk.2, hreserved.1,
    hreserved.2, hlength.1, h.symm⟩

lemma length_of_decodeBitmapChunk {p : PageBytes} {chunk : Nat} {entry : BitmapChunk}
    (h : decodeBitmapChunk p.bytes chunk entry = .ok bits) :
    bits.length = chunkStop chunk - chunkStart chunk := by
  obtain ⟨payload, -, -, -, hlen, -, -, -, -, -, -, -, rfl⟩ := decodeBitmapChunk_eq_ok h
  rw [List.length_drop, hlen, Nat.add_sub_cancel_left]

/-- A page that decodes as a chunk is the page that chunk encodes to. -/
lemma encodeChunk_of_decodeBitmapChunk {p : PageBytes} {entry : BitmapChunk}
    (h : decodeBitmapChunk p.bytes chunk entry = .ok bits) (hbits : bitmap.chunkBits chunk = bits) :
    bitmap.encodeChunk chunk entry.slot entry.generation = p ∧
      entry.checksum = pageChecksum p.bytes := by
  obtain ⟨payload, hverify, hsum, hdecoded, hlen, hgeneration, hslot, hchunk, hcount, hflags,
    hreserved, hlength, rfl⟩ := decodeBitmapChunk_eq_ok h
  have hbitsLen := bitmap.length_chunkBits chunk
  have hlong : 16 ≤ payload.length := by
    rw [hlen]
    exact Nat.le_add_right _ _
  have hbyte : ∀ (b : UInt8) (n : Nat), b.toNat = n → b = UInt8.ofNat n := by
    rintro b n rfl
    exact UInt8.ofNat_toNat.symm
  have hread : ∀ offset width n, offset + width ≤ 16 → readLe payload offset width = n →
      slice payload offset (offset + width) = leBytes width n := by
    rintro offset width n hle rfl
    exact (leBytes_readLe (by omega)).symm
  have hzeros : slice payload 14 16 = [0, 0] := by
    refine eq_replicate_of_all (n := 2) (length_slice hlong) ?_
    intro b hb
    simpa using List.any_eq_false.mp hreserved b hb
  have hlaid : ChunkLaid (bitmap.chunkBits chunk) chunk entry.slot entry.generation payload :=
    ⟨hread 0 8 _ (by omega) hgeneration, by rw [slice_of_byteAt (by omega), hslot],
      by rw [slice_of_byteAt (by omega), hbyte _ _ hchunk],
      by rw [slice_of_byteAt (by omega), hbyte _ _ hcount],
      by rw [slice_of_byteAt (by omega), hflags],
      hread 12 2 _ (by omega) (hlength.trans hbitsLen.symm), hzeros, hbits.symm⟩
  obtain ⟨raw, hraw, hsealed⟩ := sealPage_of_verify hverify hdecoded
  obtain ⟨raw', hraw', hpage⟩ :=
    bitmap.encodeUnsealed_chunkPayload chunk entry.slot entry.generation
  rw [(chunkPayload_eq_iff (by rw [hlen, hbitsLen])).mpr hlaid, hraw, Except.ok.injEq] at hraw'
  rw [hpage, ← hraw', hsealed]
  exact ⟨rfl, hsum.symm⟩

lemma bits_eq (bitmap : AllocationBitmap) :
    bitmap.superblockBits ++ bitmap.chunkBits 0 ++ bitmap.chunkBits 1 = bitmap.bits := by
  have hend : chunkStop 1 = bitmap.bits.length := by
    rw [bitmap.length_bits]
    decide
  rw [superblockBits, chunkBits, chunkBits]
  change (bitmap.bits.take (chunkStart 0) ++ slice bitmap.bits (chunkStart 0) (chunkStop 0)) ++
    slice bitmap.bits (chunkStop 0) (chunkStop 1) = bitmap.bits
  rw [take_append_slice (by decide), take_append_slice (by decide), hend, List.take_length]

/-- The parts of a bitmap made of a superblock's bits and two chunks'. -/
lemma parts_of_bits {start first second : List UInt8}
    (hbits : bitmap.bits = start ++ first ++ second)
    (hstart : start.length = superblockBitmapBytes)
    (hfirst : first.length = chunkStop 0 - chunkStart 0)
    (hsecond : second.length = chunkStop 1 - chunkStart 1) :
    bitmap.superblockBits = start ∧ bitmap.chunkBits 0 = first ∧ bitmap.chunkBits 1 = second := by
  have hzero : chunkStart 0 = start.length := hstart.symm
  have hone : chunkStop 0 = start.length + first.length := by
    rw [hstart, hfirst]
    decide
  have htwo : chunkStop 1 = (start ++ first).length + second.length := by
    rw [List.length_append, hstart, hfirst, hsecond]
    decide
  refine ⟨?_, ?_, ?_⟩
  · rw [superblockBits, hbits, ← hstart, List.append_assoc, List.take_left]
  · rw [chunkBits, hbits, List.append_assoc]
    exact slice_of_append hzero hone
  · have hlast := @slice_of_append _ (start ++ first) second [] (chunkStart 1) (chunkStop 1)
      (by rw [List.length_append]; exact hone) htwo
    rwa [List.append_nil, ← hbits] at hlast

lemma ext_bits {a b : AllocationBitmap} (h : a.bits = b.bits) : a = b := by
  have hcount : a.allocated = b.allocated := by rw [a.allocated_eq, b.allocated_eq, h]
  cases a
  cases b
  simp only at h hcount
  subst h hcount
  rfl

lemma fromBits_bits (hmetadata : bitmap.validateMetadataPages = .ok ()) :
    fromBits bitmap.bits = .ok bitmap := by
  have hlen : ¬bitmap.bits.length ≠ allocationBitmapBytes := not_not.mpr bitmap.length_bits
  rw [fromBits, dif_neg hlen]
  have hsame : (⟨bitmap.bits, countOnes bitmap.bits, not_not.mp hlen,
      countOnes_eq (not_not.mp hlen)⟩ : AllocationBitmap) = bitmap := ext_bits rfl
  simp only [hsame, hmetadata]
  rfl

lemma bits_of_fromBits {bits : List UInt8} (h : fromBits bits = .ok bitmap) :
    bitmap.bits = bits := by
  rw [fromBits] at h
  split at h
  · cases h
  · obtain ⟨_, -, h⟩ := Except.bind_eq_ok.mp h
    cases h
    rfl

end AllocationBitmap

end TinyJoin
