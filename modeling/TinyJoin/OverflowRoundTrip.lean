import TinyJoin.Overflow

/-! Overflow pages and their payloads, and that a chain read back is the value it was written from,
in exactly the pages it was written to. -/
namespace TinyJoin
open Bytes PageDevice

namespace OverflowPage

/-! One page. -/

lemma inOrder_fields (page : OverflowPage) :
    InOrder (overflowHeaderSize + page.chunk.length) 0 page.fields := by
  simp [fields, InOrder, overflowMagic, overflowHeaderSize]

lemma length_payload (page : OverflowPage) :
    page.payload.length = overflowHeaderSize + page.chunk.length := by
  rw [payload, length_putAll (by rw [List.length_replicate]; exact page.inOrder_fields),
    List.length_replicate]

/-- The numbers of an overflow page fit the fields they are written in. -/
structure Numbered (page : OverflowPage) : Prop where
  treeId : page.treeId < 256 ^ 8
  generation : page.generation < 256 ^ 8
  chunkIndex : page.chunkIndex < 256 ^ 4
  chunkCount : page.chunkCount < 256 ^ 4
  nextPageId : ∀ next ∈ page.nextPageId, next < noPageId
  totalLength : page.totalLength < 256 ^ 4
  chunk : page.chunk.length < 256 ^ 4

/-- `bytes` is the payload of `page`, field by field. -/
structure FieldsAt (page : OverflowPage) (bytes : List UInt8) : Prop where
  magic : bytes.take 4 = overflowMagic
  version : readU16 bytes 4 = overflowFormatVersion
  flags : readU16 bytes 6 = overflowFlags
  treeId : readU64 bytes 8 = page.treeId
  generation : readU64 bytes 16 = page.generation
  chunkIndex : readU32 bytes 24 = page.chunkIndex
  chunkCount : readU32 bytes 28 = page.chunkCount
  next : readU64 bytes 32 = page.nextPageId.getD noPageId
  totalLength : readU32 bytes 40 = page.totalLength
  checksum : readU32 bytes 44 = page.checksum.toNat
  chunkLength : readU32 bytes 48 = page.chunk.length
  reserved : ∀ b ∈ slice bytes 52 56, b = 0
  chunk : bytes.drop overflowHeaderSize = page.chunk

lemma next_lt {page : OverflowPage} (h : page.Numbered) :
    page.nextPageId.getD noPageId < 256 ^ 8 := by
  have hnext := h.nextPageId
  cases hcase : page.nextPageId with
  | none => exact show noPageId < 256 ^ 8 by decide
  | some next => exact Nat.lt_trans (hnext next hcase) (by decide)

lemma payload_eq_iff {page : OverflowPage} {bytes : List UInt8} (hnumbered : page.Numbered)
    (hlen : bytes.length = overflowHeaderSize + page.chunk.length) :
    bytes = page.payload ↔ page.FieldsAt bytes := by
  have hsize : overflowHeaderSize = 56 := rfl
  have hmagic : overflowMagic.length = 4 := rfl
  rw [hsize] at hlen
  have hchunk : slice bytes 56 (56 + page.chunk.length) = bytes.drop 56 := by
    rw [slice, List.take_of_length_le (by rw [List.length_drop]; omega)]
  have hnone : bytes.drop (56 + page.chunk.length) =
      (List.replicate (56 + page.chunk.length) (0 : UInt8)).drop (56 + page.chunk.length) := by
    rw [List.drop_eq_nil_of_le (by omega), List.drop_eq_nil_of_le (by rw [List.length_replicate])]
  have hgap : slice (List.replicate (56 + page.chunk.length) (0 : UInt8)) 52 56 =
      List.replicate 4 0 := slice_replicate _ (by omega)
  have hreserved : slice bytes 52 56 = List.replicate 4 0 ↔ ∀ b ∈ slice bytes 52 56, b = 0 := by
    constructor
    · intro h
      rw [h]
      exact fun b hb => List.eq_of_mem_replicate hb
    · exact eq_replicate_of_all (length_slice (by omega))
  have hnumber : ∀ {offset width n : Nat}, n < 256 ^ width → offset + width ≤ 56 →
      (slice bytes offset (offset + width) = leBytes width n ↔ readLe bytes offset width = n) :=
    fun hn hend => slice_eq_leBytes_iff hn (by omega)
  have hversion := @hnumber 4 2 overflowFormatVersion (by decide) (by omega)
  have hflags := @hnumber 6 2 overflowFlags (by decide) (by omega)
  have htree := @hnumber 8 8 _ hnumbered.treeId (by omega)
  have hgeneration := @hnumber 16 8 _ hnumbered.generation (by omega)
  have hindex := @hnumber 24 4 _ hnumbered.chunkIndex (by omega)
  have hcount := @hnumber 28 4 _ hnumbered.chunkCount (by omega)
  have hnext := @hnumber 32 8 _ (next_lt hnumbered) (by omega)
  have htotal := @hnumber 40 4 _ hnumbered.totalLength (by omega)
  have hchecksum := @hnumber 44 4 _ page.checksum.toNat_lt (by omega)
  have hlength := @hnumber 48 4 _ hnumbered.chunk (by omega)
  rw [eq_comm, payload, putAll_eq_iff (by rw [List.length_replicate, hlen, hsize])
    (by rw [List.length_replicate]; exact page.inOrder_fields), fields]
  simp only [Holds, length_leBytes, hmagic, Nat.reduceAdd, slice_self, true_and, hsize, hnone,
    and_true, hgap, hchunk]
  constructor
  · rintro ⟨h1, h2, h3, h4, h5, h6, h7, h8, h9, h10, h11, h12, h13⟩
    exact ⟨h1, hversion.mp h2, hflags.mp h3, htree.mp h4, hgeneration.mp h5, hindex.mp h6,
      hcount.mp h7, hnext.mp h8, htotal.mp h9, hchecksum.mp h10, hlength.mp h11, hreserved.mp h12,
      h13⟩
  · intro h
    exact ⟨h.magic, hversion.mpr h.version, hflags.mpr h.flags, htree.mpr h.treeId,
      hgeneration.mpr h.generation, hindex.mpr h.chunkIndex, hcount.mpr h.chunkCount,
      hnext.mpr h.next, htotal.mpr h.totalLength, hchecksum.mpr h.checksum,
      hlength.mpr h.chunkLength, hreserved.mpr h.reserved, h.chunk⟩

lemma overflowChunkLength_eq_ok {totalLength chunkIndex chunkCount length : Nat} :
    overflowChunkLength totalLength chunkIndex chunkCount = .ok length ↔
      chunkIndex < chunkCount ∧ overflowChunkCount totalLength = chunkCount ∧
      length = if chunkIndex + 1 = chunkCount then totalLength - chunkIndex * maxOverflowChunkBytes
        else maxOverflowChunkBytes := by
  rw [overflowChunkLength, Except.ite_error_eq_ok, Except.ite_error_eq_ok, not_or, not_not, not_le]
  split
  · rw [Except.ok.injEq]
    exact ⟨fun ⟨⟨_, h⟩, h', h''⟩ => ⟨h, h', h''.symm⟩,
      fun ⟨h, h', h''⟩ => ⟨⟨by omega, h⟩, h', h''.symm⟩⟩
  · rw [Except.ok.injEq]
    exact ⟨fun ⟨⟨_, h⟩, h', h''⟩ => ⟨h, h', h''.symm⟩,
      fun ⟨h, h', h''⟩ => ⟨⟨by omega, h⟩, h', h''.symm⟩⟩

/-- What a page of a chain has whatever page it stands on: a chunk of the length its position gives,
and a next page unless it is the last. -/
structure Chained (page : OverflowPage) : Prop where
  index : page.chunkIndex < page.chunkCount
  count : overflowChunkCount page.totalLength = page.chunkCount
  length : page.chunk.length = if page.chunkIndex + 1 = page.chunkCount then
    page.totalLength - page.chunkIndex * maxOverflowChunkBytes else maxOverflowChunkBytes
  last : page.chunkIndex + 1 = page.chunkCount ↔ page.nextPageId = none
  next : ∀ next ∈ page.nextPageId, IsDataPage next

lemma chunkLength_le {page : OverflowPage} (h : page.Chained) :
    page.chunk.length ≤ maxOverflowChunkBytes := by
  have hcount := h.count
  have hlength := h.length
  have hchunk : maxOverflowChunkBytes = 4008 := rfl
  rw [overflowChunkCount, hchunk] at hcount
  rw [hchunk] at hlength ⊢
  split at hlength
  · omega
  · omega

lemma Chained.numbered {page : OverflowPage} (h : page.Chained) (htree : page.treeId < 256 ^ 8)
    (hgeneration : page.generation < 256 ^ 8) (htotal : page.totalLength < 256 ^ 4) :
    page.Numbered := by
  have hchunk : maxOverflowChunkBytes = 4008 := rfl
  have hcount := h.count
  have hindex := h.index
  have hlength := chunkLength_le h
  rw [overflowChunkCount, hchunk] at hcount
  rw [hchunk] at hlength
  refine ⟨htree, hgeneration, by omega, by omega, ?_, htotal, by omega⟩
  intro next hnext
  exact Nat.lt_trans (h.next next hnext).2 (by decide)

lemma validateNext_eq_ok {page : OverflowPage} {pageId : Nat} :
    page.validateNext pageId = .ok () ↔
      (∀ next ∈ page.nextPageId, IsDataPage next) ∧ page.nextPageId ≠ some pageId := by
  rw [validateNext]
  cases page.nextPageId with
  | none => simp
  | some next =>
    dsimp only
    rw [Except.check_bind_eq_ok, validateOverflowPageId_eq_ok, Except.ite_error_eq_ok]
    simp

/-- An overflow page encodes exactly when it belongs to a chain and does not name itself. -/
lemma encode_eq_ok {page : OverflowPage} {pageId : Nat} {encoded : Page} :
    page.encode pageId = .ok encoded ↔
      IsDataPage pageId ∧ page.treeId ≠ 0 ∧ page.generation ≠ 0 ∧
      (page.totalLength ≠ 0 ∧ page.totalLength ≤ maxBtreeValueBytes) ∧ page.Chained ∧
      page.nextPageId ≠ some pageId ∧ encoded = ⟨pageId, .overflow, page.payload⟩ := by
  constructor
  · intro h
    obtain ⟨hid, h⟩ := Except.check_bind_eq_ok.mp h
    obtain ⟨htree, h⟩ := Except.check_bind_eq_ok.mp h
    obtain ⟨hgeneration, h⟩ := Except.ite_error_eq_ok.mp h
    obtain ⟨-, h⟩ := Except.ite_error_eq_ok.mp h
    obtain ⟨htotal, h⟩ := Except.ite_error_eq_ok.mp h
    obtain ⟨-, h⟩ := Except.ite_error_eq_ok.mp h
    obtain ⟨expected, hexpected, h⟩ := Except.bind_eq_ok.mp h
    obtain ⟨hlength, h⟩ := Except.ite_error_eq_ok.mp h
    obtain ⟨hlast, h⟩ := Except.ite_error_eq_ok.mp h
    obtain ⟨hmore, h⟩ := Except.ite_error_eq_ok.mp h
    obtain ⟨hnext, h⟩ := Except.check_bind_eq_ok.mp h
    obtain ⟨-, h⟩ := Except.check_bind_eq_ok.mp h
    obtain ⟨-, h⟩ := Except.ite_error_eq_ok.mp h
    rw [not_or, not_lt] at htotal
    rw [not_not] at hlength
    rw [overflowChunkLength_eq_ok, ← hlength] at hexpected
    rw [validateNext_eq_ok] at hnext
    refine ⟨validateOverflowPageId_eq_ok.mp hid, validateTreeId_eq_ok.mp htree, hgeneration, htotal,
      ⟨hexpected.1, hexpected.2.1, hexpected.2.2, ⟨?_, ?_⟩, hnext.1⟩, hnext.2,
      (Except.ok.inj h).symm⟩
    · intro hend
      by_contra hne
      exact hlast ⟨hend, hne⟩
    · intro hnone
      by_contra hne
      exact hmore ⟨hne, hnone⟩
  · rintro ⟨hid, htree, hgeneration, htotal, hchained, hself, rfl⟩
    have hcount : page.chunkCount ≠ 0 ∧ page.chunkCount ≤ maxOverflowPageCount := by
      rw [← hchained.count]
      exact ⟨overflowChunkCount_pos htotal.1, overflowChunkCount_le htotal.2⟩
    have hexpected := overflowChunkLength_eq_ok.mpr
      ⟨hchained.index, hchained.count, hchained.length⟩
    have hsmall := chunkLength_le hchained
    have hpayload : ¬page.payload.length > maxPagePayloadSize := by
      rw [length_payload]
      have hsum : overflowHeaderSize + maxOverflowChunkBytes = maxPagePayloadSize := rfl
      omega
    have hpage : Page.new pageId .overflow page.payload = .ok ⟨pageId, .overflow, page.payload⟩ := by
      rw [Page.new, validatePageId, if_neg (Nat.not_le.mpr hid.2)]
      simp only [bind, Except.bind]
      rw [if_neg hpayload]
    rw [encode, validateOverflowPageId_eq_ok.mpr hid, validateTreeId_eq_ok.mpr htree]
    simp only [bind, Except.bind]
    rw [if_neg hgeneration, if_neg (by
      rw [not_or, not_or, not_lt, not_le]
      exact ⟨hcount.1, hcount.2, hchained.index⟩),
      if_neg (by rw [not_or, not_lt]; exact htotal), if_neg (not_not.mpr hchained.count.symm),
      hexpected]
    dsimp only
    rw [if_neg (not_not.mpr rfl), if_neg (fun h => h.2 (hchained.last.mp h.1)),
      if_neg (fun h => h.1 (hchained.last.mpr h.2)),
      validateNext_eq_ok.mpr ⟨hchained.next, hself⟩]
    exact hpage

lemma decodeNext_eq_ok {raw : Nat} {next : Option Nat} :
    decodeNext raw = .ok next ↔ raw = next.getD noPageId ∧ ∀ id ∈ next, IsDataPage id := by
  have hnone : ¬IsDataPage noPageId := by decide
  rw [decodeNext]
  split
  · next hraw =>
    rw [Except.ok.injEq]
    constructor
    · rintro rfl
      exact ⟨hraw, fun _ h => (nomatch h)⟩
    · rintro ⟨heq, hdata⟩
      cases next with
      | none => rfl
      | some id =>
        have : id = noPageId := heq.symm.trans hraw
        exact absurd (this ▸ hdata id rfl) hnone
  · next hraw =>
    rw [Except.check_bind_eq_ok, validateOverflowPageId_eq_ok, Except.ok.injEq]
    constructor
    · rintro ⟨hdata, rfl⟩
      exact ⟨rfl, by rintro _ ⟨⟩; exact hdata⟩
    · rintro ⟨heq, hdata⟩
      cases next with
      | none => exact absurd heq hraw
      | some id =>
        have : raw = id := heq
        exact ⟨this ▸ hdata id rfl, by rw [this]⟩

lemma checkHeader_eq_ok {page : Page} : checkHeader page = .ok () ↔
    page.pageType = .overflow ∧ overflowHeaderSize ≤ page.payload.length ∧
    page.payload.take 4 = overflowMagic ∧ readU16 page.payload 4 = overflowFormatVersion ∧
    readU16 page.payload 6 = overflowFlags ∧ ∀ b ∈ slice page.payload 52 56, b = 0 := by
  rw [checkHeader]
  simp only [Except.ite_error_eq_ok, not_not, not_lt, Node.any_ne_zero_eq_false_iff, and_true]

lemma readU32_eq_toNat_iff {bytes : List UInt8} {offset : Nat} {checksum : UInt32} :
    readU32 bytes offset = checksum.toNat ↔ UInt32.ofNat (readU32 bytes offset) = checksum := by
  have hlt : readU32 bytes offset < 2 ^ 32 := readLe_lt bytes offset 4
  constructor
  · intro heq
    rw [heq, UInt32.ofNat_toNat]
  · rintro rfl
    rw [UInt32.toNat_ofNat_of_lt' hlt]

/-- A page stands where a chain expects it: the tree, the descriptor's fields and the position. -/
structure Placed (page : OverflowPage) (treeId : Nat) (descriptor : OverflowDescriptor)
    (index count : Nat) : Prop where
  treeId : page.treeId = treeId
  generation : page.generation = descriptor.generation
  chunkIndex : page.chunkIndex = index
  chunkCount : page.chunkCount = count
  totalLength : page.totalLength = descriptor.totalLength
  checksum : page.checksum = descriptor.checksum

/-- A page decodes to an overflow page exactly when it is that page's and stands in its place. It
may name itself as its next page. -/
lemma decode_eq_ok {page : Page} {overflow : OverflowPage} {treeId : Nat}
    {descriptor : OverflowDescriptor} {index count : Nat} :
    decode page treeId descriptor index count = .ok overflow ↔
      IsDataPage page.id ∧ page.pageType = .overflow ∧ page.payload = overflow.payload ∧
      overflow.Chained ∧ overflow.treeId < 256 ^ 8 ∧ overflow.generation < 256 ^ 8 ∧
      overflow.totalLength < 256 ^ 4 ∧ overflow.Placed treeId descriptor index count := by
  constructor
  · intro h
    obtain ⟨hid, h⟩ := Except.check_bind_eq_ok.mp h
    obtain ⟨hheader, h⟩ := Except.check_bind_eq_ok.mp h
    obtain ⟨hplaced, h⟩ := Except.ite_error_eq_ok.mp h
    obtain ⟨expected, hexpected, h⟩ := Except.bind_eq_ok.mp h
    obtain ⟨hlength, h⟩ := Except.ite_error_eq_ok.mp h
    obtain ⟨next, hnext, h⟩ := Except.bind_eq_ok.mp h
    obtain ⟨hlast, h⟩ := Except.ite_error_eq_ok.mp h
    obtain ⟨htype, hlong, hmagic, hversion, hflags, hreserved⟩ := checkHeader_eq_ok.mp hheader
    simp only [not_or, not_not] at hplaced hlength hlast
    obtain ⟨htree, hgeneration, hindex, hcount, htotal, hchecksum⟩ := hplaced
    obtain ⟨hraw, hdata⟩ := decodeNext_eq_ok.mp hnext
    have hoverflow := Except.ok.inj h
    have hchunk : (page.payload.drop overflowHeaderSize).length = readU32 page.payload 48 := by
      rw [List.length_drop]
      omega
    rw [← hlength.1, ← hchunk, overflowChunkLength_eq_ok] at hexpected
    have hchained : overflow.Chained := by
      rw [← hoverflow]
      exact ⟨hexpected.1, hexpected.2.1, hexpected.2.2, hlast, hdata⟩
    have htreeSmall : overflow.treeId < 256 ^ 8 := by
      rw [← hoverflow]
      exact readLe_lt page.payload 8 8
    have hgenerationSmall : overflow.generation < 256 ^ 8 := by
      rw [← hoverflow]
      exact readLe_lt page.payload 16 8
    have htotalSmall : overflow.totalLength < 256 ^ 4 := by
      rw [← hoverflow]
      exact readLe_lt page.payload 40 4
    refine ⟨validateOverflowPageId_eq_ok.mp hid, htype, ?_, hchained, htreeSmall,
      hgenerationSmall, htotalSmall, ?_⟩
    · have hlen : page.payload.length = overflowHeaderSize + overflow.chunk.length := by
        rw [← hoverflow]
        dsimp only
        omega
      refine (payload_eq_iff (hchained.numbered htreeSmall hgenerationSmall htotalSmall) hlen).mpr ?_
      rw [← hoverflow]
      exact ⟨hmagic, hversion, hflags, rfl, rfl, rfl, rfl, hraw, rfl, readU32_eq_toNat_iff.mpr rfl,
        hchunk.symm, hreserved, rfl⟩
    · rw [← hoverflow]
      exact ⟨htree, hgeneration, hindex, hcount, htotal, hchecksum⟩
  · rintro ⟨hid, htype, hpayload, hchained, htree, hgeneration, htotal, hplaced⟩
    have hlen : page.payload.length = overflowHeaderSize + overflow.chunk.length := by
      rw [hpayload, length_payload]
    have hat := (payload_eq_iff (hchained.numbered htree hgeneration htotal) hlen).mp hpayload
    have hheader : checkHeader page = .ok () := checkHeader_eq_ok.mpr
      ⟨htype, by omega, hat.magic, hat.version, hat.flags, hat.reserved⟩
    have hexpected := overflowChunkLength_eq_ok.mpr
      ⟨hchained.index, hchained.count, hchained.length⟩
    have hnext := decodeNext_eq_ok.mpr ⟨hat.next, hchained.next⟩
    rw [decode, validateOverflowPageId_eq_ok.mpr hid, hheader]
    simp only [bind, Except.bind, hat.treeId, hat.generation, hat.chunkIndex, hat.chunkCount,
      hat.totalLength, hat.chunkLength, readU32_eq_toNat_iff.mp hat.checksum, hexpected, hnext,
      hat.chunk]
    rw [if_neg, if_neg, if_neg]
    · exact not_not.mpr hchained.last
    · rw [not_or, not_not, not_not]
      exact ⟨rfl, hlen.symm⟩
    · simp only [not_or, not_not]
      exact ⟨hplaced.treeId, hplaced.generation, hplaced.chunkIndex, hplaced.chunkCount,
        hplaced.totalLength, hplaced.checksum⟩

end OverflowPage

end TinyJoin
