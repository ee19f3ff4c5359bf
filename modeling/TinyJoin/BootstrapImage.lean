import Mathlib.Data.List.Forall2
import TinyJoin.MetadataRoots
import TinyJoin.PagerReads

/-! The metadata pages an interrupted bootstrap leaves: each byte is zero or the empty database's, and a
root that can be read from them is the empty one. -/
namespace TinyJoin
open Bytes

/-- Bytes each of which is zero or the one expected of it. -/
def Torn : List UInt8 → List UInt8 → Prop := List.Forall₂ (fun actual expected =>
  actual = 0 ∨ actual = expected)

namespace Torn
variable {actual expected more rest : List UInt8}

lemma refl (bytes : List UInt8) : Torn bytes bytes := List.forall₂_same.mpr (fun _ _ => .inr rfl)

lemma zeros (bytes : List UInt8) : Torn (List.replicate bytes.length 0) bytes := by
  induction bytes with
  | nil => exact .nil
  | cons _ bytes ih => exact .cons (.inl rfl) ih

lemma slice (h : Torn actual expected) (start stop : Nat) :
    Torn (slice actual start stop) (slice expected start stop) :=
  List.forall₂_take _ (List.forall₂_drop _ h)

lemma append (h : Torn actual expected) (h' : Torn more rest) :
    Torn (actual ++ more) (expected ++ rest) := List.rel_append h h'

lemma eq_zeros {n : Nat} (h : Torn actual (List.replicate n 0)) : actual = List.replicate n 0 := by
  induction n generalizing actual with
  | zero => exact List.forall₂_nil_right_iff.mp h
  | succ n ih =>
    cases h with
    | cons hbyte hrest => rw [List.replicate_succ, ← ih hrest, hbyte.elim id id]

lemma ofLeBytes_le (h : Torn actual expected) : ofLeBytes actual ≤ ofLeBytes expected := by
  induction h with
  | nil => exact Nat.le_refl _
  | @cons a e _ _ hbyte _ ih =>
    rw [ofLeBytes, ofLeBytes]
    rcases hbyte with rfl | rfl
    · have hzero : (0 : UInt8).toNat = 0 := rfl
      omega
    · omega

lemma readLe_le (h : Torn actual expected) (offset width : Nat) :
    readLe actual offset width ≤ readLe expected offset width :=
  (h.slice offset (offset + width)).ofLeBytes_le

end Torn

/-! ## What a metadata page says, by the bytes it says it with -/

/-- The payload of a page whose payload fills it. -/
lemma payload_of_decodeVerified {p : PageBytes} {page : Page} {length : Nat}
    (h : Page.decodeVerified p.bytes = .ok page) (hlength : page.payload.length = length) :
    page.payload = slice p.bytes pageHeaderSize (pageHeaderSize + length) := by
  rw [Page.decodeVerified] at h
  split at h
  · cases h
  split at h
  · cases h
  obtain ⟨pageType, -, h⟩ := Except.bind_eq_ok.mp h
  rw [← Except.ok.inj h] at hlength ⊢
  dsimp only at hlength ⊢
  rw [slice, Nat.add_sub_cancel_left] at hlength ⊢
  rw [slice, Nat.add_sub_cancel_left]
  rw [List.length_take] at hlength
  rcases Nat.le_total (readU32 p.bytes 24) (p.bytes.drop pageHeaderSize).length with hle | hle
  · rw [Nat.min_eq_left hle] at hlength
    rw [hlength]
  · rw [Nat.min_eq_right hle] at hlength
    rw [List.take_of_length_le hle, List.take_of_length_le (Nat.le_of_eq hlength)]

/-- The fields of a superblock are those its payload holds. -/
lemma Superblock.reads_of_decodePage {p : PageBytes} {superblock : Superblock} {start : List UInt8}
    (h : decodePage p.bytes = .ok (superblock, start)) :
    let payload := slice p.bytes pageHeaderSize (pageHeaderSize + maxPagePayloadSize)
    superblock.validate = .ok () ∧ superblock.generation = readU64 payload 24 ∧
      superblock.databaseRevision = readU64 payload 32 ∧
      superblock.databaseHash = UInt64.ofNat (readU64 payload 40) ∧
      superblock.liveDataPageCount = readU32 payload 56 ∧
      superblock.commitHash = UInt64.ofNat (readU64 payload 64) ∧
      start = slice payload superblockFieldsSize maxPagePayloadSize := by
  intro payload
  obtain ⟨⟨⟩, -, h⟩ := Except.bind_eq_ok.mp h
  obtain ⟨page, hdecoded, h⟩ := Except.bind_eq_ok.mp h
  obtain ⟨⟨⟩, hformat, h⟩ := Except.bind_eq_ok.mp h
  obtain ⟨decoded, hfields, h⟩ := Except.bind_eq_ok.mp h
  obtain ⟨rfl, rfl⟩ := Prod.mk.inj (Except.ok.inj h)
  have hlength : page.payload.length = maxPagePayloadSize := (Superblock.checkFormat_eq_ok hformat).2.1
  have hpayload : page.payload = payload := payload_of_decodeVerified hdecoded hlength
  have hlast : page.payload.drop superblockFieldsSize =
      slice payload superblockFieldsSize maxPagePayloadSize := by
    rw [← hpayload, slice, List.take_of_length_le]
    rw [List.length_drop, hlength]
  rw [hlast]
  rw [hpayload, decodeFields] at hfields
  obtain ⟨slot, -, hfields⟩ := Except.bind_eq_ok.mp hfields
  split at hfields
  · cases hfields
  obtain ⟨first, -, hfields⟩ := Except.bind_eq_ok.mp hfields
  obtain ⟨second, -, hfields⟩ := Except.bind_eq_ok.mp hfields
  obtain ⟨⟨⟩, hvalid, hfields⟩ := Except.bind_eq_ok.mp hfields
  rw [← Except.ok.inj hfields]
  exact ⟨hvalid, rfl, rfl, rfl, rfl, rfl, rfl⟩

/-- The bits of a chunk are those its page's payload holds. -/
lemma bits_of_decodeBitmapChunk {p : PageBytes} {chunk : Nat} {entry : BitmapChunk}
    {bits : List UInt8} (h : decodeBitmapChunk p.bytes chunk entry = .ok bits) :
    bits = slice p.bytes (pageHeaderSize + bitmapChunkHeaderSize) (pageHeaderSize +
      bitmapChunkHeaderSize + (AllocationBitmap.chunkStop chunk - AllocationBitmap.chunkStart chunk)) := by
  obtain ⟨payload, -, -, hdecoded, hlength, -, -, -, -, -, -, -, rfl⟩ :=
    AllocationBitmap.decodeBitmapChunk_eq_ok h
  have hpayload := payload_of_decodeVerified hdecoded hlength
  dsimp only at hpayload
  rw [hpayload, slice, slice, List.drop_take, List.drop_drop]
  congr 1
  omega

/-! ## The empty database's pages -/

/-- The page of the superblock of an empty database's root. -/
def emptyRootPage (slot : SuperblockSlot) : PageBytes :=
  sealPage ((writePageHeader .zero slot.pageId .superblock maxPagePayloadSize).putFields
    ((RecoveredMetadata.empty slot).stamp.fields AllocationBitmap.new))

/-- The page of a chunk of an empty database's bitmap. -/
def emptyChunkPage (slot : BitmapSlot) (chunk : Fin bitmapChunkCount) : PageBytes :=
  AllocationBitmap.new.encodeChunk chunk slot 1

/-- An empty database's metadata pages, in order. -/
def emptyPages : List PageBytes :=
  [emptyRootPage .a, emptyRootPage .b, emptyChunkPage .a 0, emptyChunkPage .a 1,
    emptyChunkPage .b 0, emptyChunkPage .b 1]

/-- Pages put where two superblocks and the chunks they name go. -/
lemma foldl_set_pages (blank a b c d e f : PageBytes) :
    ([(2, c), (3, d), (0, a)] ++ [(4, e), (5, f), (1, b)]).foldl
      (fun (pages : List PageBytes) (page : Nat × PageBytes) => pages.set page.1 page.2)
        (List.replicate firstDataPageId blank) = [a, b, c, d, e, f] := rfl

/-- The pages an empty database's root is encoded on. -/
lemma encodePages_empty (slot : SuperblockSlot) : (RecoveredMetadata.empty slot).encodePages =
    .ok (⟨(RecoveredMetadata.empty slot).stamp, .new⟩,
      [(slot.bitmapSlot.pageId 0, emptyChunkPage slot.bitmapSlot 0),
        (slot.bitmapSlot.pageId 1, emptyChunkPage slot.bitmapSlot 1),
        (slot.pageId, emptyRootPage slot)]) := by
  rw [RecoveredMetadata.encodePages_of_checked (checked_empty slot)]
  rfl

lemma emptyMetadataLayout_eq : emptyMetadataLayout =
    .ok (⟨(RecoveredMetadata.empty .a).stamp, .new⟩, emptyPages) := by
  rw [emptyMetadataLayout, encodePages_empty, encodePages_empty, emptyPages,
    ← foldl_set_pages .zero (emptyRootPage .a) (emptyRootPage .b) (emptyChunkPage .a 0)
      (emptyChunkPage .a 1) (emptyChunkPage .b 0) (emptyChunkPage .b 1)]
  generalize PageBytes.zero = blank
  rfl

/-- The expected page of each metadata page ID. -/
def emptyPage (id : Nat) : PageBytes := emptyPages.getD id .zero

lemma emptyPage_superblock (slot : SuperblockSlot) : emptyPage slot.pageId = emptyRootPage slot := by
  cases slot <;> rfl

lemma emptyPage_chunk (slot : BitmapSlot) (chunk : Fin bitmapChunkCount) :
    emptyPage (slot.pageId chunk) = emptyChunkPage slot chunk := by
  match slot, chunk with
  | .a, ⟨0, _⟩ => rfl
  | .a, ⟨1, _⟩ => rfl
  | .b, ⟨0, _⟩ => rfl
  | .b, ⟨1, _⟩ => rfl

lemma decodePage_emptyRootPage (slot : SuperblockSlot) :
    Superblock.decodePage (emptyRootPage slot).bytes =
      .ok ((RecoveredMetadata.empty slot).stamp, AllocationBitmap.new.superblockBits) := by
  have hchecked := (checked_empty slot).stamp
  have hfits : (RecoveredMetadata.empty slot).stamp.Fits :=
    RecoveredMetadata.fits_stamp (show 1 < 2 ^ 64 by decide)
  exact Superblock.decodePage_encodePage hfits
    (Superblock.encodePage_of_valid hchecked.1 hchecked.2)

lemma decodeBitmapChunk_emptyChunkPage (slot : BitmapSlot) (chunk : Fin bitmapChunkCount) :
    decodeBitmapChunk (emptyChunkPage slot chunk).bytes chunk
      ⟨slot, 1, pageChecksum (emptyChunkPage slot chunk).bytes⟩ =
        .ok (AllocationBitmap.new.chunkBits chunk) :=
  AllocationBitmap.new.decodeBitmapChunk_encodeChunk chunk slot (by decide)

/-- A bitmap of nothing but metadata pages has one byte of bits. -/
lemma bits_new : AllocationBitmap.new.bits = 63 :: List.replicate 8191 0 := rfl

/-- Bits that are zero or the empty database's, and mark a metadata page, are the empty database's. -/
lemma bits_of_torn {bitmap : AllocationBitmap} (h : Torn bitmap.bits AllocationBitmap.new.bits)
    (hzero : bitmap.allocates 0 = true) : bitmap = .new := by
  apply AllocationBitmap.ext_bits
  rw [bits_new] at h ⊢
  generalize hbits : bitmap.bits = bits at h
  cases h with
  | @cons first _ rest _ hfirst hrest =>
    rw [Torn.eq_zeros hrest]
    rcases hfirst with rfl | rfl
    · rw [AllocationBitmap.allocates, hbits, Bool.and_eq_true] at hzero
      have hbit : Bitmap.bitAt (0 :: rest) 0 = false := rfl
      rw [hbit] at hzero
      exact absurd hzero.2 Bool.false_ne_true
    · rfl

/-! ## What can be read of an interrupted bootstrap -/

/-- Metadata pages of which each is torn from the empty database's. -/
def TornPages (pages : RawMetadata) : Prop :=
  ∀ id < firstDataPageId, Torn (pages id).bytes (emptyPage id).bytes

/-- The empty database at generation 1, wherever its bitmap chunks are kept. -/
def IsEmptyRoot (root : RecoveredMetadata) : Prop :=
  root.logicallyMatches (.empty .a) = true

lemma isEmptyRoot_iff {root : RecoveredMetadata} : IsEmptyRoot root ↔
    root.superblock.generation = 1 ∧ root.superblock.databaseRevision = 0 ∧
      root.superblock.databaseHash = 0 ∧ root.superblock.catalogRootPageId = none ∧
      root.superblock.liveDataPageCount = 0 ∧ root.superblock.maxPageCount = maxPageCount ∧
      root.superblock.commitHash = CommitHash.new ∧ root.allocationBitmap = .new := by
  rw [IsEmptyRoot, RecoveredMetadata.logicallyMatches]
  simp only [Bool.and_eq_true, beq_iff_eq, RecoveredMetadata.empty, and_assoc]

/-- A number that a hash of zero was read from is zero. -/
lemma eq_zero_of_ofNat {n : Nat} (hlt : n < 2 ^ 64) (h : (0 : UInt64) = UInt64.ofNat n) : n = 0 := by
  have := congrArg UInt64.toNat h
  rw [UInt64.toNat_ofNat', Nat.mod_eq_of_lt hlt] at this
  exact this.symm

/-- A root that can be read from the pages of an interrupted bootstrap is the empty one. -/
lemma isEmptyRoot_of_decode {pages : RawMetadata} (htorn : TornPages pages) {slot : SuperblockSlot}
    {root : RecoveredMetadata} (h : decodeMetadataCandidate slot pages = .ok root) :
    IsEmptyRoot root := by
  obtain ⟨start, first, second, hsuper, hslot, hfirst, hsecond, hbitmap, hcovers⟩ :=
    decodeMetadataCandidate_eq_ok.mp h
  have hpage := htorn slot.pageId (superblockSlot_pageId_lt slot)
  rw [emptyPage_superblock] at hpage
  obtain ⟨hvalid, hgeneration, hrevision, hhash, hlive, hcommit, hstart⟩ :=
    Superblock.reads_of_decodePage hsuper
  obtain ⟨-, hgeneration', hrevision', hhash', hlive', hcommit', hstart'⟩ :=
    Superblock.reads_of_decodePage (decodePage_emptyRootPage slot)
  have hpayload := hpage.slice pageHeaderSize (pageHeaderSize + maxPagePayloadSize)
  -- each field is at most the empty root's
  have hle := fun offset width => hpayload.readLe_le offset width
  obtain ⟨-, hnonzero, -, hmax, hroot, -⟩ := Superblock.validate_eq_ok.mp hvalid
  have hbits : Torn root.allocationBitmap.bits AllocationBitmap.new.bits := by
    have hchunk : ∀ (chunk : Fin bitmapChunkCount) (bits : List UInt8),
        decodeBitmapChunk (pages ((root.superblock.bitmapChunks chunk).slot.pageId chunk)).bytes
          chunk (root.superblock.bitmapChunks chunk) = .ok bits →
        Torn bits (AllocationBitmap.new.chunkBits chunk) := by
      intro chunk bits hdecoded
      rw [bits_of_decodeBitmapChunk hdecoded, bits_of_decodeBitmapChunk
        (decodeBitmapChunk_emptyChunkPage (root.superblock.bitmapChunks chunk).slot chunk),
        ← emptyPage_chunk]
      exact (htorn _ (bitmapSlot_pageId_lt _ chunk)).slice _ _
    rw [AllocationBitmap.bits_of_fromBits hbitmap, ← AllocationBitmap.bits_eq, hstart, hstart']
    exact ((hpayload.slice _ _).append (hchunk 0 first hfirst)).append (hchunk 1 second hsecond)
  obtain ⟨-, -, hmetadata, hcatalog⟩ := Superblock.validateBitmap_eq_ok.mp hcovers
  have hnew : root.allocationBitmap = .new := bits_of_torn hbits (hmetadata 0 (by decide))
  refine isEmptyRoot_iff.mpr ⟨?_, ?_, ?_, ?_, ?_, hmax, ?_, hnew⟩
  · have hone : (RecoveredMetadata.empty slot).stamp.generation = 1 := rfl
    have := hle 24 8
    change readU64 _ 24 ≤ readU64 _ 24 at this
    rw [← hgeneration, ← hgeneration', hone] at this
    omega
  · have hzero : (RecoveredMetadata.empty slot).stamp.databaseRevision = 0 := rfl
    have := hle 32 8
    change readU64 _ 32 ≤ readU64 _ 32 at this
    rw [← hrevision, ← hrevision', hzero] at this
    omega
  · have hzero := eq_zero_of_ofNat (readLe_lt _ 40 8) hhash'
    have := hle 40 8
    rw [hzero, Nat.le_zero] at this
    rw [hhash, readU64, this]
    rfl
  · -- a root that is not missing is a page the bitmap does not allocate
    cases hcase : root.superblock.catalogRootPageId with
    | none => rfl
    | some id =>
      have hin := hcatalog id hcase
      rw [hnew, AllocationBitmap.allocates_new, decide_eq_true_eq] at hin
      exact absurd (hroot id hcase).1 (Nat.not_le.mpr hin)
  · have hzero : (RecoveredMetadata.empty slot).stamp.liveDataPageCount = 0 := rfl
    have := hle 56 4
    change readU32 _ 56 ≤ readU32 _ 56 at this
    rw [← hlive, ← hlive', hzero] at this
    omega
  · have hzero := eq_zero_of_ofNat (readLe_lt _ 64 8) hcommit'
    have := hle 64 8
    rw [hzero, Nat.le_zero] at this
    rw [hcommit, readU64, this]
    rfl

end TinyJoin
