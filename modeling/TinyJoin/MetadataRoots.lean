import TinyJoin.MetadataFormat

/-! Whole roots on their pages: a root encoded is the root decoded, the pages a root is decoded from
are those it encodes to, and a commit writes no page its predecessor reads. -/
namespace TinyJoin
open Bytes

/-- A six-page image with pages written into it. -/
def RawMetadata.write (image : RawMetadata) (written : List (Nat × PageBytes)) : RawMetadata :=
  written.foldl (fun image page => Function.update image page.1 page.2) image

lemma bitmapSlot_pageId_ne (slot : BitmapSlot) (slot' : SuperblockSlot)
    (chunk : Fin bitmapChunkCount) : slot.pageId chunk ≠ slot'.pageId := by
  cases slot <;> cases slot' <;> revert chunk <;> decide

lemma bitmapSlot_pageId_first_ne_second (slot slot' : BitmapSlot) :
    slot.pageId 0 ≠ slot'.pageId 1 := by
  cases slot <;> cases slot' <;> decide

/-- What a root is decoded from: its superblock, its chunks and their bits. -/
lemma decodeMetadataCandidate_eq_ok {slot : SuperblockSlot} {pages : RawMetadata}
    {root : RecoveredMetadata} : decodeMetadataCandidate slot pages = .ok root ↔
      ∃ start first second, Superblock.decodePage (pages slot.pageId).bytes =
          .ok (root.superblock, start) ∧ root.superblock.slot = slot ∧
        decodeBitmapChunk (pages ((root.superblock.bitmapChunks 0).slot.pageId 0)).bytes 0
          (root.superblock.bitmapChunks 0) = .ok first ∧
        decodeBitmapChunk (pages ((root.superblock.bitmapChunks 1).slot.pageId 1)).bytes 1
          (root.superblock.bitmapChunks 1) = .ok second ∧
        AllocationBitmap.fromBits (start ++ first ++ second) = .ok root.allocationBitmap ∧
        root.superblock.validateBitmap root.allocationBitmap = .ok () := by
  rw [decodeMetadataCandidate, Except.bind_eq_ok]
  constructor
  · rintro ⟨⟨superblock, start⟩, hsuper, h⟩
    dsimp only at h
    split at h
    · cases h
    next hslot =>
    obtain ⟨first, hfirst, h⟩ := Except.bind_eq_ok.mp h
    obtain ⟨second, hsecond, h⟩ := Except.bind_eq_ok.mp h
    obtain ⟨bitmap, hbitmap, h⟩ := Except.bind_eq_ok.mp h
    obtain ⟨⟨⟩, hcovers, h⟩ := Except.bind_eq_ok.mp h
    rw [Except.ok.injEq] at h
    subst h
    exact ⟨start, first, second, hsuper, not_not.mp hslot, hfirst, hsecond, hbitmap, hcovers⟩
  · rintro ⟨start, first, second, hsuper, hslot, hfirst, hsecond, hbitmap, hcovers⟩
    refine ⟨_, hsuper, ?_⟩
    dsimp only
    rw [if_neg (not_not.mpr hslot)]
    exact Except.bind_eq_ok.mpr ⟨first, hfirst, Except.bind_eq_ok.mpr ⟨second, hsecond,
      Except.bind_eq_ok.mpr ⟨_, hbitmap, Except.bind_eq_ok.mpr ⟨(), hcovers, rfl⟩⟩⟩⟩

namespace RecoveredMetadata
variable {root : RecoveredMetadata}

/-- The pages written for a root, in an image they are written into. -/
lemma write_pages (root : RecoveredMetadata) (image : RawMetadata) (page : PageBytes) :
    let image' := image.write ((List.finRange bitmapChunkCount).map (fun chunk =>
      ((root.superblock.bitmapChunks chunk).slot.pageId chunk, root.chunkPage chunk)) ++
        [(root.superblock.slot.pageId, page)])
    image' root.superblock.slot.pageId = page ∧
      ∀ chunk, image' ((root.superblock.bitmapChunks chunk).slot.pageId chunk) =
        root.chunkPage chunk := by
  have hwritten : (List.finRange bitmapChunkCount).map (fun chunk =>
      ((root.superblock.bitmapChunks chunk).slot.pageId chunk, root.chunkPage chunk)) =
      [((root.superblock.bitmapChunks 0).slot.pageId 0, root.chunkPage 0),
        ((root.superblock.bitmapChunks 1).slot.pageId 1, root.chunkPage 1)] := rfl
  intro image'
  have himage : image' = Function.update (Function.update (Function.update image
      ((root.superblock.bitmapChunks 0).slot.pageId 0) (root.chunkPage 0))
      ((root.superblock.bitmapChunks 1).slot.pageId 1) (root.chunkPage 1))
      root.superblock.slot.pageId page := by
    change image.write _ = _
    rw [hwritten]
    rfl
  rw [himage]
  refine ⟨Function.update_self _ _ _, ?_⟩
  intro chunk
  rw [Function.update_of_ne (bitmapSlot_pageId_ne _ _ _)]
  match chunk with
  | ⟨0, _⟩ =>
    exact (Function.update_of_ne (bitmapSlot_pageId_first_ne_second _ _) _ _).trans
      (Function.update_self _ _ _)
  | ⟨1, _⟩ => exact Function.update_self _ _ _

lemma validateMetadataPages_of_checked (h : root.Checked) :
    root.allocationBitmap.validateMetadataPages = .ok () := by
  have hall := (Superblock.validateBitmap_eq_ok.mp h.2).2.2.1
  rw [AllocationBitmap.validateMetadataPages, if_pos]
  simpa using hall

/-- Every number of the stamped superblock fits its field. -/
lemma fits_stamp (hgeneration : root.superblock.generation < 2 ^ 64) : root.stamp.Fits :=
  ⟨hgeneration, fun _ => readLe_lt _ _ 4⟩

/-- A root written into any image is the root decoded from it. -/
lemma decode_write (h : root.Checked) (hgeneration : root.superblock.generation < 2 ^ 64)
    {root' : RecoveredMetadata} {written : List (Nat × PageBytes)}
    (hencoded : root.encodePages = .ok (root', written)) (image : RawMetadata) :
    decodeMetadataCandidate root.superblock.slot (image.write written) = .ok root' := by
  have hpage := Superblock.encodePage_of_valid h.stamp.1 h.stamp.2
  rw [encodePages_of_checked h, Except.ok.injEq, Prod.mk.injEq] at hencoded
  obtain ⟨rfl, rfl⟩ := hencoded
  obtain ⟨hsuper, hchunks⟩ := write_pages root image (sealPage ((writePageHeader .zero
    root.stamp.slot.pageId .superblock maxPagePayloadSize).putFields
      (root.stamp.fields root.allocationBitmap)))
  have hchunk : ∀ chunk : Fin bitmapChunkCount,
      decodeBitmapChunk (root.chunkPage chunk).bytes chunk (root.stamp.bitmapChunks chunk) =
        .ok (root.allocationBitmap.chunkBits chunk) := by
    intro chunk
    have hbound := ((Superblock.validate_eq_ok.mp h.1).2.2.1 chunk).2
    have hentry : root.stamp.bitmapChunks chunk = ⟨(root.superblock.bitmapChunks chunk).slot,
      (root.superblock.bitmapChunks chunk).generation,
      pageChecksum (root.chunkPage chunk).bytes⟩ := rfl
    rw [hentry, chunkPage]
    exact root.allocationBitmap.decodeBitmapChunk_encodeChunk chunk _
      (Nat.lt_of_le_of_lt hbound hgeneration)
  generalize image.write _ = image' at hsuper hchunks ⊢
  have hslots : ∀ chunk, (root.stamp.bitmapChunks chunk).slot =
      (root.superblock.bitmapChunks chunk).slot := fun _ => rfl
  have hfirst : image' ((root.superblock.bitmapChunks 0).slot.pageId 0) = root.chunkPage 0 :=
    hchunks 0
  have hsecond : image' ((root.superblock.bitmapChunks 1).slot.pageId 1) = root.chunkPage 1 :=
    hchunks 1
  refine decodeMetadataCandidate_eq_ok.mpr ⟨root.allocationBitmap.superblockBits,
    root.allocationBitmap.chunkBits 0, root.allocationBitmap.chunkBits 1, ?_, rfl, ?_, ?_, ?_,
    h.stamp.2⟩
  · rw [hsuper]
    exact Superblock.decodePage_encodePage (fits_stamp hgeneration) hpage
  · dsimp only
    rw [hslots, hfirst]
    exact hchunk 0
  · dsimp only
    rw [hslots, hsecond]
    exact hchunk 1
  · rw [AllocationBitmap.bits_eq]
    exact AllocationBitmap.fromBits_bits (validateMetadataPages_of_checked h)

/-- The pages a root was decoded from are those it encodes to. -/
lemma encodePages_of_decode {slot : SuperblockSlot} {pages : RawMetadata}
    (h : decodeMetadataCandidate slot pages = .ok root) :
    root.encodePages = .ok (root, (List.finRange bitmapChunkCount).map (fun chunk =>
      ((root.superblock.bitmapChunks chunk).slot.pageId chunk,
        pages ((root.superblock.bitmapChunks chunk).slot.pageId chunk))) ++
      [(slot.pageId, pages slot.pageId)]) := by
  obtain ⟨start, first, second, hsuper, rfl, hfirst, hsecond, hbitmap, hcovers⟩ :=
    decodeMetadataCandidate_eq_ok.mp h
  obtain ⟨hstart, hzero, hone⟩ := AllocationBitmap.parts_of_bits
    (AllocationBitmap.bits_of_fromBits hbitmap) (Superblock.length_of_decodePage hsuper)
    (AllocationBitmap.length_of_decodeBitmapChunk hfirst)
    (AllocationBitmap.length_of_decodeBitmapChunk hsecond)
  have hchunk : ∀ chunk : Fin bitmapChunkCount,
      root.chunkPage chunk = pages ((root.superblock.bitmapChunks chunk).slot.pageId chunk) ∧
        (root.superblock.bitmapChunks chunk).checksum =
          pageChecksum (root.chunkPage chunk).bytes := by
    intro chunk
    have hdecoded : ∃ bits, root.allocationBitmap.chunkBits chunk = bits ∧ decodeBitmapChunk
        (pages ((root.superblock.bitmapChunks chunk).slot.pageId chunk)).bytes chunk
          (root.superblock.bitmapChunks chunk) = .ok bits := by
      match chunk with
      | ⟨0, _⟩ => exact ⟨first, hzero, hfirst⟩
      | ⟨1, _⟩ => exact ⟨second, hone, hsecond⟩
    obtain ⟨bits, hbits, hdecoded⟩ := hdecoded
    obtain ⟨hpage, hsum⟩ := AllocationBitmap.encodeChunk_of_decodeBitmapChunk hdecoded hbits
    rw [chunkPage, hpage]
    exact ⟨rfl, hsum⟩
  have hstamp : root.stamp = root.superblock := by
    have hentries : ∀ chunk, root.stamp.bitmapChunks chunk = root.superblock.bitmapChunks chunk := by
      intro chunk
      have hentry : root.stamp.bitmapChunks chunk = ⟨(root.superblock.bitmapChunks chunk).slot,
        (root.superblock.bitmapChunks chunk).generation,
        pageChecksum (root.chunkPage chunk).bytes⟩ := rfl
      rw [hentry, ← (hchunk chunk).2]
    rw [stamp, Superblock.withChecksums]
    cases hroot : root.superblock
    rw [Superblock.mk.injEq]
    refine ⟨rfl, rfl, rfl, rfl, rfl, rfl, rfl, rfl, ?_⟩
    funext chunk
    have := hentries chunk
    rw [stamp, Superblock.withChecksums, hroot] at this
    exact this
  have hpage := Superblock.encodePage_of_decodePage hsuper hstart hcovers
  rw [encodePages_eq, hstamp, hpage]
  simp only [bind, Except.bind, hchunk]

/-- The pages a root reads: its superblock and each chunk of its bitmap. -/
def reads (root : RecoveredMetadata) : List Nat :=
  root.superblock.slot.pageId :: (List.finRange bitmapChunkCount).map (fun chunk =>
    (root.superblock.bitmapChunks chunk).slot.pageId chunk)

end RecoveredMetadata

namespace PendingMetadata

/-- The metadata pages a commit writes: the superblock, and each chunk it changed. -/
def writes (pending : PendingMetadata) : List Nat :=
  pending.superblock.slot.pageId :: (List.finRange bitmapChunkCount).filterMap (fun chunk =>
    (pending.bitmapPages chunk).map (fun _ =>
      (pending.superblock.bitmapChunks chunk).slot.pageId chunk))

/-- The root a commit publishes, once the hash of its pages is known. -/
def published (pending : PendingMetadata) (commitHash : UInt64) : RecoveredMetadata where
  superblock := { pending.superblock with commitHash := commitHash }
  allocationBitmap := pending.allocationBitmap

end PendingMetadata

/-- The roots that commits lead to, one after another. -/
inductive RecoveredMetadata.Chain (first : RecoveredMetadata) : RecoveredMetadata → Prop
  | first : Chain first first
  | next {active : RecoveredMetadata} {revision : Nat} {hash commitHash : UInt64}
    {catalogRoot : Option Nat} {bitmap : AllocationBitmap} {pending : PendingMetadata} :
    Chain first active →
    buildNextMetadata active revision hash catalogRoot bitmap = .ok pending →
    Chain first (pending.published commitHash)

lemma pageId_inactive_ne (slot : SuperblockSlot) : slot.inactive.pageId ≠ slot.pageId := by
  cases slot <;> decide

lemma bitmapSlot_pageId_inactive_ne (slot slot' : BitmapSlot) (chunk chunk' : Fin bitmapChunkCount)
    (h : chunk = chunk' → slot = slot'.inactive) : slot.pageId chunk ≠ slot'.pageId chunk' := by
  cases slot <;> cases slot' <;> revert h <;> revert chunk chunk' <;> decide

/-- A commit writes no page its predecessor reads. -/
lemma writes_not_mem_reads {active : RecoveredMetadata} {revision : Nat} {hash : UInt64}
    {catalogRoot : Option Nat} {bitmap : AllocationBitmap} {pending : PendingMetadata}
    (h : buildNextMetadata active revision hash catalogRoot bitmap = .ok pending) {id : Nat}
    (hid : id ∈ pending.writes) : id ∉ active.reads := by
  obtain ⟨-, -, -, hslot, -⟩ := buildNextMetadata_eq_ok h
  have hchunks : ∀ chunk page, pending.bitmapPages chunk = some page →
      (pending.superblock.bitmapChunks chunk).slot =
        (active.superblock.bitmapChunks chunk).slot.inactive := by
    intro chunk page hpage
    have hnext := nextChunk_of_buildNextMetadata h chunk
    rw [Prod.ext_iff] at hnext
    obtain ⟨hentry, hpages⟩ := hnext
    dsimp only at hentry hpages
    rw [hpage, nextChunk] at hpages
    rw [hentry, nextChunk]
    split
    · rfl
    · next hsame =>
      rw [if_neg hsame] at hpages
      cases hpages
  intro hread
  rcases List.mem_cons.mp hid with rfl | hid
  · rcases List.mem_cons.mp hread with hsame | hread
    · rw [hslot] at hsame
      exact pageId_inactive_ne _ hsame
    · obtain ⟨chunk, -, hsame⟩ := List.mem_map.mp hread
      exact bitmapSlot_pageId_ne _ _ _ hsame
  · obtain ⟨chunk, -, hchunk⟩ := List.mem_filterMap.mp hid
    obtain ⟨page, hpage, rfl⟩ := Option.map_eq_some_iff.mp hchunk
    rcases List.mem_cons.mp hread with hsame | hread
    · exact bitmapSlot_pageId_ne _ _ _ hsame
    · obtain ⟨chunk', -, hsame⟩ := List.mem_map.mp hread
      refine bitmapSlot_pageId_inactive_ne _ _ _ _ ?_ hsame.symm
      rintro rfl
      exact hchunks chunk page hpage

/-- The metadata format: what is written is read back, what is read is what would be written, and
no commit of a chain writes a page that its predecessor reads. -/
theorem metadata_format_canonical :
    (∀ root : RecoveredMetadata, root.Checked → root.superblock.generation < 2 ^ 64 →
      ∃ root' written, root.encodePages = .ok (root', written) ∧
        root'.superblock = root.superblock.withChecksums (fun chunk =>
          pageChecksum (root.chunkPage chunk).bytes) ∧
        root'.allocationBitmap = root.allocationBitmap ∧
        ∀ image : RawMetadata,
          decodeMetadataCandidate root.superblock.slot (image.write written) = .ok root') ∧
    (∀ slot (pages : RawMetadata) root, decodeMetadataCandidate slot pages = .ok root →
      ∃ written, root.encodePages = .ok (root, written) ∧ List.Perm (written.map Prod.fst) root.reads ∧
        ∀ page ∈ written, pages page.1 = page.2) ∧
    ∀ first active : RecoveredMetadata, first.Chain active →
      ∀ revision hash catalogRoot bitmap pending,
        buildNextMetadata active revision hash catalogRoot bitmap = .ok pending →
        ∀ id ∈ pending.writes, id ∉ active.reads := by
  refine ⟨?_, ?_, ?_⟩
  · intro root hchecked hgeneration
    have hencoded := RecoveredMetadata.encodePages_of_checked hchecked
    exact ⟨_, _, hencoded, rfl, rfl,
      fun image => RecoveredMetadata.decode_write hchecked hgeneration hencoded image⟩
  · intro slot pages root hdecoded
    have hslot : root.superblock.slot = slot := by
      obtain ⟨_, _, _, -, hslot, -⟩ := decodeMetadataCandidate_eq_ok.mp hdecoded
      exact hslot
    refine ⟨_, RecoveredMetadata.encodePages_of_decode hdecoded, ?_, ?_⟩
    · rw [List.map_append, List.map_map, RecoveredMetadata.reads, ← hslot]
      exact List.perm_append_singleton _ _
    · intro page hpage
      rcases List.mem_append.mp hpage with hpage | hpage
      · obtain ⟨chunk, -, rfl⟩ := List.mem_map.mp hpage
        rfl
      · rw [List.mem_singleton] at hpage
        rw [hpage]
  · intro first active _ revision hash catalogRoot bitmap pending hpending id hid
    exact writes_not_mem_reads hpending hid

/-- A new database's root, read back from any image it is written into. -/
theorem metadata_format_canonical_empty : ∃ root' written,
    (RecoveredMetadata.empty .a).encodePages = .ok (root', written) ∧ ∀ image : RawMetadata,
      decodeMetadataCandidate .a (image.write written) = .ok root' := by
  obtain ⟨root', written, hencoded, -, -, hdecoded⟩ :=
    metadata_format_canonical.1 (RecoveredMetadata.empty .a) (checked_empty .a) (by decide)
  exact ⟨root', written, hencoded, hdecoded⟩

end TinyJoin
