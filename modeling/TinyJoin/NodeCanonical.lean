import TinyJoin.NodeFormat

/-! Nodes and their pages: what each check accepts, that a page decodes to a node exactly when the
node encodes to that page, and so that neither direction loses anything. -/
namespace TinyJoin
open Bytes

/-! What each check accepts. -/

lemma validateTreeId_eq_ok {treeId : Nat} : validateTreeId treeId = .ok () ↔ treeId ≠ 0 := by
  rw [validateTreeId, Except.ite_error_eq_ok, and_iff_left rfl]

lemma validateKey_eq_ok {key : List UInt8} :
    validateKey key = .ok () ↔ key.length ≤ maxBtreeKeyBytes := by
  rw [validateKey, Except.ite_error_eq_ok, and_iff_left rfl, not_lt]

lemma validateOverflowPageId_eq_ok {id : Nat} :
    validateOverflowPageId id = .ok () ↔ IsDataPage id := by
  rw [validateOverflowPageId, Except.ite_error_eq_ok, and_iff_left rfl, not_not]

lemma validateChildPage_eq_ok {parent child : Nat} :
    validateChildPage parent child = .ok () ↔ IsDataPage child ∧ child ≠ parent := by
  rw [validateChildPage, Except.ite_error_eq_ok, Except.ite_error_eq_ok, not_not, and_iff_left rfl]

/-- A descriptor that a leaf of the given generation may hold. -/
structure OverflowDescriptor.Valid (descriptor : OverflowDescriptor) (leafGeneration : Nat) :
    Prop where
  page : IsDataPage descriptor.firstPageId
  written : descriptor.generation ≠ 0
  generation : descriptor.generation ≤ leafGeneration
  nonempty : descriptor.totalLength ≠ 0
  length : descriptor.totalLength ≤ maxBtreeValueBytes

lemma overflowChunkCount_pos {length : Nat} (h : length ≠ 0) : overflowChunkCount length ≠ 0 := by
  have hchunk : maxOverflowChunkBytes = 4008 := rfl
  rw [overflowChunkCount, hchunk]
  omega

lemma overflowChunkCount_le {length : Nat} (h : length ≤ maxBtreeValueBytes) :
    overflowChunkCount length ≤ maxOverflowPageCount :=
  Nat.div_le_div_right (by omega)

lemma validateOverflowDescriptor_eq_ok {descriptor : OverflowDescriptor} {leafGeneration : Nat} :
    validateOverflowDescriptor descriptor leafGeneration = .ok () ↔
      descriptor.Valid leafGeneration := by
  rw [validateOverflowDescriptor, Except.check_bind_eq_ok, validateOverflowPageId_eq_ok]
  simp only [Except.ite_error_eq_ok, not_or, not_lt]
  constructor
  · rintro ⟨hid, ⟨hzero, hgeneration⟩, ⟨hempty, hlength⟩, -⟩
    exact ⟨hid, hzero, hgeneration, hempty, hlength⟩
  · rintro ⟨hid, hzero, hgeneration, hempty, hlength⟩
    exact ⟨hid, ⟨hzero, hgeneration⟩, ⟨hempty, hlength⟩,
      ⟨overflowChunkCount_pos hempty, overflowChunkCount_le hlength⟩, trivial⟩

/-- A value that a leaf of the given generation may hold under a key. -/
def LeafValue.Valid (key : List UInt8) (leafGeneration : Nat) : LeafValue → Prop
  | .inline value => value.length ≤ maxBtreeInlineValueBytes ∧
      key.length + value.length ≤ maxBtreeInlineEntryBytes
  | .overflow descriptor => descriptor.Valid leafGeneration

def LeafEntry.Valid (entry : LeafEntry) (leafGeneration : Nat) : Prop :=
  entry.key.length ≤ maxBtreeKeyBytes ∧ entry.value.Valid entry.key leafGeneration

lemma validateStoredEntry_eq_ok {entry : LeafEntry} {leafGeneration : Nat} :
    validateStoredEntry entry.key entry.value leafGeneration = .ok () ↔
      entry.Valid leafGeneration := by
  obtain ⟨key, value⟩ := entry
  cases value with
  | inline value =>
    simp only [validateStoredEntry, Except.check_bind_eq_ok, validateKey_eq_ok,
      Except.ite_error_eq_ok, not_or, not_lt, and_true, LeafEntry.Valid, LeafValue.Valid]
  | overflow descriptor =>
    simp only [validateStoredEntry, Except.check_bind_eq_ok, validateKey_eq_ok,
      validateOverflowDescriptor_eq_ok, LeafEntry.Valid, LeafValue.Valid]

lemma validateStrictlySorted_eq_ok {previous : Option (List UInt8)} {keys : List (List UInt8)} :
    validateStrictlySorted previous keys = .ok () ↔
      (previous.toList ++ keys).IsChain (· < ·) := by
  induction keys generalizing previous with
  | nil => cases previous <;> simp [validateStrictlySorted]
  | cons key keys ih =>
    rw [validateStrictlySorted, Except.ite_error_eq_ok, ih]
    cases previous with
    | none => simp
    | some before => simp [not_le]

lemma forM_eq_ok {α : Type} {check : α → Result Unit} {l : List α} :
    l.forM check = .ok () ↔ ∀ a ∈ l, check a = .ok () := by
  induction l with
  | nil => simp [pure, Except.pure]
  | cons a l ih =>
    rw [List.forM_eq_forM, List.forM_cons, Except.check_bind_eq_ok, List.forall_mem_cons, ← ih]
    rfl

lemma validateSortedLeafEntries_eq_ok {entries : List LeafEntry} {leafGeneration : Nat} :
    validateSortedLeafEntries entries leafGeneration = .ok () ↔
      (∀ entry ∈ entries, entry.Valid leafGeneration) ∧
      (entries.map LeafEntry.key).IsChain (· < ·) := by
  rw [validateSortedLeafEntries, Except.check_bind_eq_ok, validateStrictlySorted_eq_ok, forM_eq_ok]
  simp only [validateStoredEntry_eq_ok, Option.toList_none, List.nil_append]

/-- A separator that an internal page may hold. -/
def InternalEntry.Valid (entry : InternalEntry) (pageId : Nat) : Prop :=
  entry.key.length ≤ maxBtreeKeyBytes ∧ IsDataPage entry.rightChild ∧ entry.rightChild ≠ pageId

lemma validateChildren_eq_ok {pageId : Nat} {children : List Nat} {entries : List InternalEntry} :
    validateChildren pageId children entries = .ok () ↔
      (∀ entry ∈ entries, entry.Valid pageId) ∧ (entries.map InternalEntry.rightChild).Nodup ∧
      (∀ entry ∈ entries, entry.rightChild ∉ children) := by
  induction entries generalizing children with
  | nil => simp [validateChildren]
  | cons entry entries ih =>
    rw [validateChildren, Except.check_bind_eq_ok, Except.check_bind_eq_ok,
      Except.ite_error_eq_ok, ih, validateKey_eq_ok, validateChildPage_eq_ok,
      List.forall_mem_cons, List.forall_mem_cons, List.map_cons, List.nodup_cons]
    simp only [List.mem_map, List.mem_cons, not_or, InternalEntry.Valid]
    constructor
    · rintro ⟨hkey, hchild, hnew, hall, hnodup, hfresh⟩
      refine ⟨⟨⟨hkey, hchild⟩, hall⟩, ⟨?_, hnodup⟩, hnew, fun e he => (hfresh e he).2⟩
      rintro ⟨e, he, heq⟩
      exact (hfresh e he).1 heq
    · rintro ⟨⟨⟨hkey, hchild⟩, hall⟩, ⟨hnot, hnodup⟩, hnew, hfresh⟩
      exact ⟨hkey, hchild, hnew, hall, hnodup,
        fun e he => ⟨fun heq => hnot ⟨e, he, heq⟩, hfresh e he⟩⟩

lemma validateSortedInternalEntries_eq_ok {pageId leftmost : Nat} {entries : List InternalEntry} :
    validateSortedInternalEntries pageId leftmost entries = .ok () ↔
      (∀ entry ∈ entries, entry.Valid pageId) ∧
      (leftmost :: entries.map InternalEntry.rightChild).Nodup ∧
      (entries.map InternalEntry.key).IsChain (· < ·) := by
  rw [validateSortedInternalEntries, Except.check_bind_eq_ok, validateStrictlySorted_eq_ok,
    validateChildren_eq_ok]
  simp only [Option.toList_none, List.nil_append, List.nodup_cons,
    List.mem_map, List.mem_singleton]
  constructor
  · rintro ⟨⟨hall, hnodup, hfresh⟩, hsorted⟩
    refine ⟨hall, ⟨?_, hnodup⟩, hsorted⟩
    rintro ⟨entry, hentry, heq⟩
    exact hfresh entry hentry heq
  · rintro ⟨hall, ⟨hleft, hnodup⟩, hsorted⟩
    exact ⟨⟨hall, hnodup, fun entry hentry heq => hleft ⟨entry, hentry, heq⟩⟩, hsorted⟩

lemma validatePackedCell_eq_ok {pageId freeEnd index offset cellEnd expected : Nat} :
    validatePackedCell pageId freeEnd index offset cellEnd expected = .ok () ↔
      freeEnd ≤ offset ∧ cellEnd = expected := by
  rw [validatePackedCell, Except.ite_error_eq_ok, and_iff_left rfl, not_or, not_lt, not_not]

lemma validateCellFloor_eq_ok {pageId actual expected : Nat} :
    validateCellFloor pageId actual expected = .ok () ↔ actual = expected := by
  rw [validateCellFloor, Except.ite_error_eq_ok, and_iff_left rfl, not_not]

lemma checkedEnd_eq_ok {offset length bound stop : Nat} :
    checkedEnd offset length bound = .ok stop ↔ stop = offset + length ∧ stop ≤ bound := by
  rw [checkedEnd]
  split
  · rw [Except.ok.injEq]
    constructor
    · rintro rfl
      exact ⟨rfl, ‹_›⟩
    · exact fun h => h.1.symm
  · constructor
    · exact fun h => (nomatch h)
    · rintro ⟨rfl, h⟩
      exact absurd h ‹_›

/-! Cells. -/

lemma LeafValue.length_encoded (value : LeafValue) : value.encoded.length = value.encodedLen := by
  cases value with
  | inline value => rfl
  | overflow descriptor => simp [encoded, encodedLen, overflowDescriptorSize]

lemma LeafEntry.length_cell (entry : LeafEntry) : entry.cell.length =
    leafCellHeaderSize + entry.key.length + entry.value.encodedLen := by
  simp only [cell, List.length_append, length_leBytes, LeafValue.length_encoded,
    leafCellHeaderSize]

lemma InternalEntry.length_cell (entry : InternalEntry) :
    entry.cell.length = internalCellHeaderSize + entry.key.length := by
  simp only [cell, List.length_append, length_leBytes, internalCellHeaderSize]

/-- Where the fields of a leaf cell stand. -/
lemma slice_eq_leafCell_iff {bytes : List UInt8} {offset : Nat} {entry : LeafEntry}
    (hkey : entry.key.length < 256 ^ 2) (hvalue : entry.value.encodedLen < 256 ^ 4)
    (h : offset + leafCellHeaderSize + entry.key.length + entry.value.encodedLen ≤ bytes.length) :
    slice bytes offset (offset + leafCellHeaderSize + entry.key.length + entry.value.encodedLen) =
        entry.cell ↔
      readU16 bytes offset = entry.key.length ∧ readU16 bytes (offset + 2) = entry.value.flags ∧
      readU32 bytes (offset + 4) = entry.value.encodedLen ∧
      slice bytes (offset + leafCellHeaderSize)
        (offset + leafCellHeaderSize + entry.key.length) = entry.key ∧
      slice bytes (offset + leafCellHeaderSize + entry.key.length)
        (offset + leafCellHeaderSize + entry.key.length + entry.value.encodedLen) =
          entry.value.encoded := by
  have hheader : leafCellHeaderSize = 8 := rfl
  rw [hheader] at h ⊢
  have hflags : entry.value.flags < 256 ^ 2 := by
    cases entry.value with
    | inline => exact Nat.zero_lt_succ _
    | overflow => exact Nat.succ_lt_succ (Nat.zero_lt_succ _)
  rw [LeafEntry.cell, List.append_assoc, List.append_assoc, List.append_assoc,
    slice_eq_append_iff (by rw [length_leBytes]; omega) h, length_leBytes,
    slice_eq_leBytes_iff hkey (by omega),
    slice_eq_append_iff (by rw [length_leBytes]; omega) h, length_leBytes,
    slice_eq_leBytes_iff hflags (by omega),
    slice_eq_append_iff (by rw [length_leBytes]; omega) h, length_leBytes,
    slice_eq_leBytes_iff hvalue (by omega),
    slice_eq_append_iff (by omega) h]
  rfl

/-- What the fields of a leaf cell alone must satisfy to be read. -/
def LeafEntry.Readable (entry : LeafEntry) (leafGeneration : Nat) : Prop :=
  entry.key.length < 256 ^ 2 ∧ entry.value.Valid entry.key leafGeneration ∧
    ((∃ value, entry.value = .inline value) → entry.key.length ≤ maxBtreeKeyBytes)

lemma LeafEntry.Valid.readable {entry : LeafEntry} {leafGeneration : Nat}
    (h : entry.Valid leafGeneration) : entry.Readable leafGeneration := by
  have hkey := h.1
  rw [maxBtreeKeyBytes] at hkey
  exact ⟨by omega, h.2, fun _ => h.1⟩

lemma slice_eq_descriptor_iff {bytes : List UInt8} {offset : Nat} {descriptor : OverflowDescriptor}
    {leafGeneration : Nat} (hvalid : descriptor.Valid leafGeneration)
    (hgeneration : leafGeneration < 256 ^ 8)
    (h : offset + overflowDescriptorSize ≤ bytes.length) :
    slice bytes offset (offset + overflowDescriptorSize) =
        (LeafValue.overflow descriptor).encoded ↔
      decodeDescriptor bytes offset = descriptor := by
  have hsize : overflowDescriptorSize = 24 := rfl
  rw [hsize] at h ⊢
  have hpage := hvalid.page.2
  have hgen := hvalid.generation
  have hlength := hvalid.length
  rw [maxPageCount] at hpage
  rw [maxBtreeValueBytes] at hlength
  rw [LeafValue.encoded, List.append_assoc, List.append_assoc,
    slice_eq_append_iff (by rw [length_leBytes]; omega) h, length_leBytes,
    slice_eq_leBytes_iff (by omega) (by omega),
    slice_eq_append_iff (by rw [length_leBytes]; omega) h, length_leBytes,
    slice_eq_leBytes_iff (by omega) (by omega),
    slice_eq_append_iff (by rw [length_leBytes]; omega) h, length_leBytes,
    slice_eq_leBytes_iff (by omega) (by omega)]
  have hlast : slice bytes (offset + 8 + 8 + 4) (offset + 24) =
      leBytes 4 descriptor.checksum.toNat ↔
      readU32 bytes (offset + 20) = descriptor.checksum.toNat :=
    @slice_eq_leBytes_iff bytes (offset + 20) 4 _ descriptor.checksum.toNat_lt (by omega)
  rw [hlast]
  obtain ⟨firstPageId, generation, totalLength, checksum⟩ := descriptor
  rw [decodeDescriptor, OverflowDescriptor.mk.injEq]
  have hchecksum : readU32 bytes (offset + 20) = checksum.toNat ↔
      UInt32.ofNat (readU32 bytes (offset + 20)) = checksum := by
    have hlt : readU32 bytes (offset + 20) < 2 ^ 32 := readLe_lt bytes (offset + 20) 4
    constructor
    · intro heq
      rw [heq, UInt32.ofNat_toNat]
    · rintro rfl
      rw [UInt32.toNat_ofNat_of_lt' hlt]
  rw [hchecksum]
  rfl

/-- A leaf cell that is read, field by field. -/
lemma leafCell_of_decode {bytes : List UInt8} {leafGeneration offset stop : Nat}
    {entry : LeafEntry} (hgeneration : leafGeneration < 256 ^ 8)
    (h : decodeLeafCell bytes leafGeneration offset = .ok (entry, stop)) :
    entry.Readable leafGeneration ∧
      stop = offset + leafCellHeaderSize + entry.key.length + entry.value.encodedLen ∧
      stop ≤ bytes.length ∧ readU16 bytes offset = entry.key.length ∧
      readU16 bytes (offset + 2) = entry.value.flags ∧
      readU32 bytes (offset + 4) = entry.value.encodedLen ∧
      slice bytes (offset + leafCellHeaderSize)
        (offset + leafCellHeaderSize + entry.key.length) = entry.key ∧
      slice bytes (offset + leafCellHeaderSize + entry.key.length) stop = entry.value.encoded := by
  obtain ⟨headerEnd, hheader, h⟩ := Except.bind_eq_ok.mp h
  obtain ⟨keyEnd, hkey, h⟩ := Except.bind_eq_ok.mp h
  obtain ⟨valueEnd, hvalue, h⟩ := Except.bind_eq_ok.mp h
  obtain ⟨rfl, -⟩ := checkedEnd_eq_ok.mp hheader
  obtain ⟨rfl, -⟩ := checkedEnd_eq_ok.mp hkey
  obtain ⟨hend, hle⟩ := checkedEnd_eq_ok.mp hvalue
  generalize hkeyBytes : slice bytes (offset + leafCellHeaderSize)
    (offset + leafCellHeaderSize + readU16 bytes offset) = key at h
  have hkeyLength : readU16 bytes offset = key.length := by
    rw [← hkeyBytes, length_slice (by omega)]
    omega
  have hkeySmall : readU16 bytes offset < 256 ^ 2 := readLe_lt bytes offset 2
  rw [hkeyLength] at h hkeyBytes hkeySmall hend
  split at h
  · next hflags =>
    obtain ⟨hinline, h⟩ := Except.check_bind_eq_ok.mp h
    rw [Except.ok.injEq, Prod.mk.injEq] at h
    obtain ⟨rfl, rfl⟩ := h
    rw [validateDecodedInlineEntry, Except.ite_error_eq_ok, not_or, not_or, not_lt, not_lt,
      not_lt] at hinline
    obtain ⟨⟨hkeyMax, hvalueMax, hentry⟩, -⟩ := hinline
    have hvalueLength : readU32 bytes (offset + 4) =
        (slice bytes (offset + leafCellHeaderSize + key.length) valueEnd).length := by
      rw [length_slice hle]
      omega
    rw [hvalueLength] at hvalueMax hentry
    exact ⟨⟨hkeySmall, ⟨hvalueMax, hentry⟩, fun _ => hkeyMax⟩,
      hend.trans (congrArg _ hvalueLength), hle, hkeyLength, hflags, hvalueLength, hkeyBytes, rfl⟩
  · obtain ⟨hflags, h⟩ : readU16 bytes (offset + 2) = overflowCellFlags ∧ _ := by
      split at h
      · next hflags => exact ⟨hflags, h⟩
      · cases h
    obtain ⟨hsize, h⟩ := Except.ite_error_eq_ok.mp h
    obtain ⟨hdescriptor, h⟩ := Except.check_bind_eq_ok.mp h
    rw [Except.ok.injEq, Prod.mk.injEq] at h
    obtain ⟨rfl, rfl⟩ := h
    have hvalid := validateOverflowDescriptor_eq_ok.mp hdescriptor
    rw [not_not] at hsize
    rw [hsize] at hend
    refine ⟨⟨hkeySmall, hvalid, fun ⟨_, h⟩ => (nomatch h)⟩, hend, hle, hkeyLength, hflags, hsize,
      hkeyBytes, ?_⟩
    rw [hend] at hle ⊢
    exact (slice_eq_descriptor_iff hvalid hgeneration hle).mpr rfl

/-- A leaf cell whose fields stand in their places is read. -/
lemma decode_of_leafCell {bytes : List UInt8} {leafGeneration offset : Nat}
    {entry : LeafEntry} (hgeneration : leafGeneration < 256 ^ 8)
    (hreadable : entry.Readable leafGeneration)
    (hle : offset + leafCellHeaderSize + entry.key.length + entry.value.encodedLen ≤ bytes.length)
    (hkeyLength : readU16 bytes offset = entry.key.length)
    (hflags : readU16 bytes (offset + 2) = entry.value.flags)
    (hvalueLength : readU32 bytes (offset + 4) = entry.value.encodedLen)
    (hkey : slice bytes (offset + leafCellHeaderSize)
      (offset + leafCellHeaderSize + entry.key.length) = entry.key)
    (hvalue : slice bytes (offset + leafCellHeaderSize + entry.key.length)
      (offset + leafCellHeaderSize + entry.key.length + entry.value.encodedLen) =
        entry.value.encoded) :
    decodeLeafCell bytes leafGeneration offset = .ok (entry,
      offset + leafCellHeaderSize + entry.key.length + entry.value.encodedLen) := by
  obtain ⟨-, hvalid, hinline⟩ := hreadable
  have hheader : checkedEnd offset leafCellHeaderSize bytes.length =
      .ok (offset + leafCellHeaderSize) := checkedEnd_eq_ok.mpr ⟨rfl, by omega⟩
  have hkeyEnd : checkedEnd (offset + leafCellHeaderSize) entry.key.length bytes.length =
      .ok (offset + leafCellHeaderSize + entry.key.length) :=
    checkedEnd_eq_ok.mpr ⟨rfl, by omega⟩
  have hvalueEnd : checkedEnd (offset + leafCellHeaderSize + entry.key.length)
      entry.value.encodedLen bytes.length =
      .ok (offset + leafCellHeaderSize + entry.key.length + entry.value.encodedLen) :=
    checkedEnd_eq_ok.mpr ⟨rfl, hle⟩
  obtain ⟨key, value⟩ := entry
  rw [decodeLeafCell, hheader]
  simp only [bind, Except.bind, hkeyLength, hkeyEnd, hvalueLength, hvalueEnd, hflags, hkey]
  cases value with
  | inline value =>
    have hcheck : validateDecodedInlineEntry key.length value.length = .ok () := by
      rw [validateDecodedInlineEntry, if_neg]
      rw [not_or, not_or, not_lt, not_lt, not_lt]
      exact ⟨hinline ⟨value, rfl⟩, hvalid⟩
    have hread : slice bytes (offset + leafCellHeaderSize + key.length)
        (offset + leafCellHeaderSize + key.length + (LeafValue.inline value).encodedLen) = value :=
      hvalue
    have hflag : (LeafValue.inline value).flags = inlineCellFlags := rfl
    have hlength : (LeafValue.inline value).encodedLen = value.length := rfl
    rw [if_pos hflag, hread, hlength, hcheck]
  | overflow descriptor =>
    have hread : decodeDescriptor bytes (offset + leafCellHeaderSize + key.length) = descriptor :=
      (slice_eq_descriptor_iff hvalid hgeneration hle).mp hvalue
    have hnot : (LeafValue.overflow descriptor).flags ≠ inlineCellFlags := Nat.succ_ne_zero 0
    have hflag : (LeafValue.overflow descriptor).flags = overflowCellFlags := rfl
    have hlength : ¬(LeafValue.overflow descriptor).encodedLen ≠ overflowDescriptorSize :=
      not_not.mpr rfl
    rw [if_neg hnot, if_pos hflag, if_neg hlength, hread,
      validateOverflowDescriptor_eq_ok.mpr hvalid]

lemma decodeLeafCell_eq_ok {bytes : List UInt8} {leafGeneration offset stop : Nat}
    {entry : LeafEntry} (hgeneration : leafGeneration < 256 ^ 8) :
    decodeLeafCell bytes leafGeneration offset = .ok (entry, stop) ↔
      entry.Readable leafGeneration ∧ stop = offset + entry.cell.length ∧
      stop ≤ bytes.length ∧ slice bytes offset stop = entry.cell := by
  have hend : offset + entry.cell.length =
      offset + leafCellHeaderSize + entry.key.length + entry.value.encodedLen := by
    rw [LeafEntry.length_cell]
    omega
  rw [hend]
  constructor
  · intro h
    obtain ⟨hreadable, rfl, hle, hfields⟩ := leafCell_of_decode hgeneration h
    have hvalue : entry.value.encodedLen < 256 ^ 4 := hfields.2.2.1 ▸ readLe_lt bytes (offset + 4) 4
    exact ⟨hreadable, rfl, hle, (slice_eq_leafCell_iff hreadable.1 hvalue hle).mpr hfields⟩
  · rintro ⟨hreadable, rfl, hle, hcell⟩
    have hvalue : entry.value.encodedLen < 256 ^ 4 := by
      have hvalid := hreadable.2.1
      cases hkind : entry.value with
      | inline value =>
        rw [hkind] at hvalid
        exact Nat.lt_of_le_of_lt hvalid.1 (by decide)
      | overflow descriptor => exact show 24 < 256 ^ 4 by decide
    obtain ⟨hkeyLength, hflags, hvalueLength, hkey, hencoded⟩ :=
      (slice_eq_leafCell_iff hreadable.1 hvalue hle).mp hcell
    exact decode_of_leafCell hgeneration hreadable hle hkeyLength hflags hvalueLength hkey hencoded

lemma slice_eq_internalCell_iff {bytes : List UInt8} {offset : Nat} {entry : InternalEntry}
    (hkey : entry.key.length < 256 ^ 2) (hchild : entry.rightChild < 256 ^ 8)
    (h : offset + internalCellHeaderSize + entry.key.length ≤ bytes.length) :
    slice bytes offset (offset + internalCellHeaderSize + entry.key.length) = entry.cell ↔
      readU16 bytes offset = entry.key.length ∧ readU16 bytes (offset + 2) = inlineCellFlags ∧
      readU64 bytes (offset + 4) = entry.rightChild ∧
      readU64 bytes (offset + 12) = entry.childHash.toNat ∧
      slice bytes (offset + internalCellHeaderSize)
        (offset + internalCellHeaderSize + entry.key.length) = entry.key := by
  have hheader : internalCellHeaderSize = 20 := rfl
  rw [hheader] at h ⊢
  rw [InternalEntry.cell, List.append_assoc, List.append_assoc, List.append_assoc,
    slice_eq_append_iff (by rw [length_leBytes]; omega) h, length_leBytes,
    slice_eq_leBytes_iff hkey (by omega),
    slice_eq_append_iff (by rw [length_leBytes]; omega) h, length_leBytes,
    slice_eq_leBytes_iff (by decide) (by omega),
    slice_eq_append_iff (by rw [length_leBytes]; omega) h, length_leBytes,
    slice_eq_leBytes_iff hchild (by omega),
    slice_eq_append_iff (by rw [length_leBytes]; omega) h, length_leBytes,
    slice_eq_leBytes_iff entry.childHash.toNat_lt (by omega)]
  rfl

lemma readU64_eq_toNat_iff {bytes : List UInt8} {offset : Nat} {hash : UInt64} :
    readU64 bytes offset = hash.toNat ↔ UInt64.ofNat (readU64 bytes offset) = hash := by
  have hlt : readU64 bytes offset < 2 ^ 64 := readLe_lt bytes offset 8
  constructor
  · intro heq
    rw [heq, UInt64.ofNat_toNat]
  · rintro rfl
    rw [UInt64.toNat_ofNat_of_lt' hlt]

lemma decodeChildCell_eq_ok {pageId : Nat} {bytes : List UInt8} {offset stop : Nat}
    {entry : InternalEntry} :
    decodeChildCell pageId bytes offset = .ok (entry, stop) ↔
      entry.Valid pageId ∧ stop = offset + entry.cell.length ∧
      stop ≤ bytes.length ∧ slice bytes offset stop = entry.cell := by
  have hend : offset + entry.cell.length = offset + internalCellHeaderSize + entry.key.length := by
    rw [InternalEntry.length_cell]
    omega
  rw [hend]
  constructor
  · intro h
    obtain ⟨⟨entry', stop'⟩, hread, hcheck⟩ := Except.bind_eq_ok.mp h
    obtain ⟨hchild, hcheck⟩ := Except.check_bind_eq_ok.mp hcheck
    rw [Except.ok.injEq, Prod.mk.injEq] at hcheck
    obtain ⟨rfl, rfl⟩ := hcheck
    have hvalid := validateChildPage_eq_ok.mp hchild
    obtain ⟨headerEnd, hheader, h⟩ := Except.bind_eq_ok.mp hread
    obtain ⟨rfl, -⟩ := checkedEnd_eq_ok.mp hheader
    obtain ⟨hflags, h⟩ := Except.ite_error_eq_ok.mp h
    obtain ⟨hkeyMax, h⟩ := Except.ite_error_eq_ok.mp h
    obtain ⟨keyEnd, hkey, h⟩ := Except.bind_eq_ok.mp h
    obtain ⟨rfl, hle⟩ := checkedEnd_eq_ok.mp hkey
    generalize hkeyBytes : slice bytes (offset + internalCellHeaderSize)
      (offset + internalCellHeaderSize + readU16 bytes offset) = key at h
    have hkeyLength : readU16 bytes offset = key.length := by
      rw [← hkeyBytes, length_slice hle]
      omega
    have hsmall : readU16 bytes offset < 256 ^ 2 := readLe_lt bytes offset 2
    have hright : readU64 bytes (offset + 4) < 256 ^ 8 := readLe_lt bytes (offset + 4) 8
    rw [not_lt] at hkeyMax
    rw [hkeyLength] at hkeyMax hkeyBytes hsmall hle h
    rw [Except.ok.injEq, Prod.mk.injEq] at h
    obtain ⟨rfl, rfl⟩ := h
    have hfields := (@slice_eq_internalCell_iff bytes offset ⟨key, readU64 bytes (offset + 4),
      UInt64.ofNat (readU64 bytes (offset + 12))⟩ hsmall hright hle).mpr
      ⟨hkeyLength, not_not.mp hflags, rfl, readU64_eq_toNat_iff.mpr rfl, hkeyBytes⟩
    exact ⟨⟨hkeyMax, hvalid⟩, rfl, hle, hfields⟩
  · rintro ⟨⟨hkeyMax, hpage, hself⟩, rfl, hle, hcell⟩
    have hsmall : entry.key.length < 256 ^ 2 := Nat.lt_of_le_of_lt hkeyMax (by decide)
    have hchild : entry.rightChild < 256 ^ 8 := Nat.lt_trans hpage.2 (by decide)
    obtain ⟨hkeyLength, hflags, hright, hhash, hkey⟩ :=
      (slice_eq_internalCell_iff hsmall hchild hle).mp hcell
    have hheader : checkedEnd offset internalCellHeaderSize bytes.length =
        .ok (offset + internalCellHeaderSize) := checkedEnd_eq_ok.mpr ⟨rfl, by omega⟩
    have hkeyEnd : checkedEnd (offset + internalCellHeaderSize) entry.key.length bytes.length =
        .ok (offset + internalCellHeaderSize + entry.key.length) := checkedEnd_eq_ok.mpr ⟨rfl, hle⟩
    have hread : decodeInternalCell bytes offset =
        .ok (entry, offset + internalCellHeaderSize + entry.key.length) := by
      rw [decodeInternalCell, hheader]
      simp only [bind, Except.bind, hkeyLength, hflags, hkeyEnd, hright, hkey,
        readU64_eq_toNat_iff.mp hhash]
      rw [if_neg (not_not.mpr rfl), if_neg (not_lt.mpr hkeyMax)]
    rw [decodeChildCell, hread]
    simp only [bind, Except.bind, validateChildPage_eq_ok.mpr ⟨hpage, hself⟩]

end TinyJoin
