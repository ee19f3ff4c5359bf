import TinyJoin.NodeCanonical

/-! A page decodes to a node exactly when the node encodes to that page. -/
namespace TinyJoin
open Bytes

namespace Node

/-! The layout of a node's payload. -/

/-- The header of a node whose cells start at `freeEnd`, in order. -/
def laidHeader (node : Node) (leftmostChild : Nat) (leftmostChildHash : UInt64)
    (count freeEnd : Nat) : List (Nat × List UInt8) :=
  (node.headerFields leftmostChild leftmostChildHash count).take 8 ++ (28, leBytes 2 freeEnd) ::
    (node.headerFields leftmostChild leftmostChildHash count).drop 8

lemma inOrder_laidHeader (node : Node) (leftmostChild : Nat) (leftmostChildHash : UInt64)
    (count freeEnd : Nat) :
    InOrder nodeHeaderSize 0 (node.laidHeader leftmostChild leftmostChildHash count freeEnd) := by
  simp [laidHeader, headerFields, InOrder, nodeMagic, nodeHeaderSize]

lemma put_headerFields (node : Node) (leftmostChild : Nat) (leftmostChildHash : UInt64)
    (count freeEnd : Nat) :
    put (putAll (List.replicate nodeHeaderSize 0)
        (node.headerFields leftmostChild leftmostChildHash count)) 28 (leBytes 2 freeEnd) =
      putAll (List.replicate nodeHeaderSize 0)
        (node.laidHeader leftmostChild leftmostChildHash count freeEnd) := by
  have hfirst : InOrder nodeHeaderSize 0
      ((node.headerFields leftmostChild leftmostChildHash count).take 8) := by
    simp [headerFields, InOrder, nodeMagic, nodeHeaderSize]
  have hlast : InOrder nodeHeaderSize 32
      ((node.headerFields leftmostChild leftmostChildHash count).drop 8) := by
    simp [headerFields, InOrder, nodeHeaderSize]
  rw [laidHeader]
  conv_lhs => rw [← List.take_append_drop 8
    (node.headerFields leftmostChild leftmostChildHash count)]
  generalize (node.headerFields leftmostChild leftmostChildHash count).take 8 = first at *
  generalize (node.headerFields leftmostChild leftmostChildHash count).drop 8 = last at *
  have hlen : (putAll (List.replicate nodeHeaderSize (0 : UInt8)) first).length =
      nodeHeaderSize := by
    rw [length_putAll (by rw [List.length_replicate]; exact hfirst), List.length_replicate]
  have hsplit : putAll (List.replicate nodeHeaderSize 0) (first ++ last) =
      putAll (putAll (List.replicate nodeHeaderSize 0) first) last := by
    rw [putAll, putAll, putAll, List.foldl_append]
  have hcomm := @put_putAll_comm UInt8 (putAll (List.replicate nodeHeaderSize 0) first)
    (leBytes 2 freeEnd) 28 32 last (by rw [length_leBytes]; omega) (by rw [hlen]; exact hlast)
  rw [hsplit, hcomm, putAll, putAll, putAll, List.foldl_append, List.foldl_cons]

/-- The header, the slots, the free space and the cells, from the last to the first. -/
lemma layout_eq (node : Node) (leftmostChild : Nat) (leftmostChildHash : UInt64)
    {cells : List (List UInt8)}
    (hfits : nodeHeaderSize + cells.length * slotSize + Slotted.size cells ≤ maxPagePayloadSize) :
    node.layout leftmostChild leftmostChildHash cells =
      putAll (List.replicate nodeHeaderSize 0) (node.laidHeader leftmostChild leftmostChildHash
        cells.length (maxPagePayloadSize - Slotted.size cells)) ++
      (Slotted.slots maxPagePayloadSize cells ++
        (List.replicate (maxPagePayloadSize - nodeHeaderSize -
          (Slotted.size cells + cells.length * 2)) 0 ++ cells.reverse.flatten)) := by
  have hheader : InOrder nodeHeaderSize 0
      (node.headerFields leftmostChild leftmostChildHash cells.length) := by
    simp [headerFields, InOrder, nodeMagic, nodeHeaderSize]
  have hzeros : List.replicate maxPagePayloadSize (0 : UInt8) =
      List.replicate nodeHeaderSize 0 ++
        List.replicate (maxPagePayloadSize - nodeHeaderSize) 0 := by
    rw [List.replicate_append_replicate]
    rfl
  have hlen : (putAll (List.replicate nodeHeaderSize (0 : UInt8))
      (node.headerFields leftmostChild leftmostChildHash cells.length)).length =
        nodeHeaderSize := by
    rw [length_putAll (by rw [List.length_replicate]; exact hheader), List.length_replicate]
  have hpack := @Slotted.pack_eq nodeHeaderSize 0 maxPagePayloadSize
    (maxPagePayloadSize - nodeHeaderSize) _ [] cells hlen (by rw [hlen]; rfl) (by
      rw [slotSize] at hfits
      omega)
  rw [List.append_nil, List.append_nil] at hpack
  rw [layout, hzeros, putAll_append_right _ (by rw [List.length_replicate]; exact hheader), hpack]
  dsimp only
  rw [put_append_of_le (by rw [hlen, length_leBytes]; decide), put_headerFields]

/-! The parts of a node that its kind decides. -/

def pageType (node : Node) : PageType :=
  match node.kind with
  | .leaf _ => .btreeLeaf
  | .internal _ => .btreeInternal

def leftmostChild (node : Node) : Nat :=
  match node.kind with
  | .leaf _ => noPageId
  | .internal internal => internal.leftmostChild

def leftmostChildHash (node : Node) : UInt64 :=
  match node.kind with
  | .leaf _ => emptyHash
  | .internal internal => internal.leftmostChildHash

def cells (node : Node) : List (List UInt8) :=
  match node.kind with
  | .leaf entries => entries.map LeafEntry.cell
  | .internal internal => internal.entries.map InternalEntry.cell

def payload (node : Node) : List UInt8 :=
  node.layout node.leftmostChild node.leftmostChildHash node.cells

/-- What the kind of a node on page `pageId` must satisfy: the entries of a leaf are storable and in
key order; an internal node has separators in key order and distinct children. -/
def KindValid (node : Node) (pageId : Nat) : Prop :=
  match node.kind with
  | .leaf entries => node.level = 0 ∧ (∀ entry ∈ entries, entry.Valid node.generation) ∧
      (entries.map LeafEntry.key).IsChain (· < ·)
  | .internal internal => node.level ≠ 0 ∧
      (IsDataPage internal.leftmostChild ∧ internal.leftmostChild ≠ pageId) ∧
      (∀ entry ∈ internal.entries, entry.Valid pageId) ∧
      (internal.leftmostChild :: internal.entries.map InternalEntry.rightChild).Nodup ∧
      (internal.entries.map InternalEntry.key).IsChain (· < ·)

/-- A node that may stand on page `pageId`: what its kind asks for, a generation, and cells that
fit the page. -/
structure Valid (node : Node) (pageId : Nat) : Prop where
  generation : node.generation ≠ 0
  kind : node.KindValid pageId
  fits : nodeHeaderSize + node.cells.length * slotSize + Slotted.size node.cells ≤
    maxPagePayloadSize

lemma mapM_eq_ok {α β : Type} {check : α → Result Unit} {f : α → β} {l : List α} {r : List β}
    (hcheck : ∀ a ∈ l, check a = .ok ()) :
    l.mapM (fun a => check a >>= fun _ => (.ok (f a) : Result β)) = .ok r ↔ r = l.map f := by
  induction l generalizing r with
  | nil => simp [pure, Except.pure, eq_comm]
  | cons a l ih =>
    obtain ⟨ha, hl⟩ := List.forall_mem_cons.mp hcheck
    rw [List.mapM_cons, ha]
    simp only [bind, Except.bind]
    constructor
    · intro h
      obtain ⟨r', hr', h⟩ := Except.bind_eq_ok.mp h
      rw [(ih hl).mp hr'] at h
      rw [List.map_cons]
      exact (Except.ok.inj h).symm
    · rintro rfl
      have := (ih hl).mpr rfl
      simp only [bind, Except.bind] at this
      rw [this]
      rfl

lemma parts_eq_ok {node : Node} {pageId : Nat}
    {parts : PageType × Nat × UInt64 × List (List UInt8)} :
    node.parts pageId = .ok parts ↔ node.KindValid pageId ∧
      parts = (node.pageType, node.leftmostChild, node.leftmostChildHash, node.cells) := by
  obtain ⟨treeId, generation, level, kind⟩ := node
  cases kind with
  | leaf entries =>
    simp only [Node.parts, KindValid, pageType, Node.leftmostChild, Node.leftmostChildHash, cells]
    rw [Except.ite_error_eq_ok, Except.check_bind_eq_ok, validateSortedLeafEntries_eq_ok, not_not]
    constructor
    · rintro ⟨hlevel, ⟨hall, hsorted⟩, h⟩
      obtain ⟨r, hr, h⟩ := Except.bind_eq_ok.mp h
      rw [(mapM_eq_ok (fun entry hentry => validateKey_eq_ok.mpr (hall entry hentry).1)).mp hr] at h
      exact ⟨⟨hlevel, hall, hsorted⟩, (Except.ok.inj h).symm⟩
    · rintro ⟨⟨hlevel, hall, hsorted⟩, rfl⟩
      refine ⟨hlevel, ⟨hall, hsorted⟩, Except.bind_eq_ok.mpr ⟨_, ?_, rfl⟩⟩
      exact (mapM_eq_ok (fun entry hentry => validateKey_eq_ok.mpr (hall entry hentry).1)).mpr rfl
  | internal internal =>
    simp only [Node.parts, KindValid, pageType, Node.leftmostChild, Node.leftmostChildHash, cells]
    rw [Except.ite_error_eq_ok, Except.check_bind_eq_ok, Except.check_bind_eq_ok,
      validateChildPage_eq_ok, validateSortedInternalEntries_eq_ok]
    constructor
    · rintro ⟨hlevel, hleft, ⟨hall, hrest⟩, h⟩
      obtain ⟨r, hr, h⟩ := Except.bind_eq_ok.mp h
      rw [(mapM_eq_ok (fun entry hentry => validateKey_eq_ok.mpr (hall entry hentry).1)).mp hr] at h
      exact ⟨⟨hlevel, hleft, hall, hrest⟩, (Except.ok.inj h).symm⟩
    · rintro ⟨⟨hlevel, hleft, hall, hrest⟩, rfl⟩
      refine ⟨hlevel, hleft, ⟨hall, hrest⟩, Except.bind_eq_ok.mpr ⟨_, ?_, rfl⟩⟩
      exact (mapM_eq_ok (fun entry hentry => validateKey_eq_ok.mpr (hall entry hentry).1)).mpr rfl

/-! A payload is a node's exactly when each of its parts stands in its place. -/

/-- The numbers of a node fit the fields they are written in. -/
structure Numbered (node : Node) : Prop where
  treeId : node.treeId < 256 ^ 8
  generation : node.generation < 256 ^ 8
  leftmostChild : node.leftmostChild < 256 ^ 8

/-- `bytes` starts with the header of a node of `n` cells which start at `floor`. -/
structure HeaderAt (node : Node) (bytes : List UInt8) (n floor : Nat) : Prop where
  magic : bytes.take 4 = nodeMagic
  version : readU16 bytes 4 = nodeFormatVersion
  level : byteAt bytes 6 = node.level
  flags : byteAt bytes 7 = nodeFlags
  treeId : readU64 bytes 8 = node.treeId
  generation : readU64 bytes 16 = node.generation
  count : readU16 bytes 24 = n
  freeStart : readU16 bytes 26 = nodeHeaderSize + n * slotSize
  freeEnd : readU16 bytes 28 = floor
  reserved : slice bytes 30 32 = List.replicate 2 0
  leftmostChild : readU64 bytes 32 = node.leftmostChild
  leftmostChildHash : readU64 bytes 40 = node.leftmostChildHash.toNat

lemma header_eq_iff {node : Node} {bytes : List UInt8} {count freeEnd : Nat}
    (hlen : nodeHeaderSize ≤ bytes.length) (hnumbered : node.Numbered)
    (hcount : nodeHeaderSize + count * slotSize < 256 ^ 2) (hfree : freeEnd < 256 ^ 2) :
    putAll (List.replicate nodeHeaderSize 0) (node.laidHeader node.leftmostChild
        node.leftmostChildHash count freeEnd) = bytes.take nodeHeaderSize ↔
      node.HeaderAt bytes count freeEnd := by
  have hsize : nodeHeaderSize = 48 := rfl
  have hmagic : nodeMagic.length = 4 := rfl
  rw [hsize] at hlen
  have hslot : slotSize = 2 := rfl
  have htake : ∀ {start stop : Nat}, stop ≤ 48 →
      slice (bytes.take 48) start stop = slice bytes start stop := by
    intro start stop hstop
    conv_rhs => rw [← List.take_append_drop 48 bytes]
    rw [slice_append_left (by rw [List.length_take]; omega)]
  have hnone : (bytes.take 48).drop 48 = (List.replicate 48 (0 : UInt8)).drop 48 := by
    rw [List.drop_eq_nil_of_le (by rw [List.length_take]; omega),
      List.drop_eq_nil_of_le (by rw [List.length_replicate])]
  rw [putAll_eq_iff (by rw [List.length_take, List.length_replicate]; omega)
    (by rw [List.length_replicate]; exact node.inOrder_laidHeader _ _ _ _), laidHeader,
    headerFields]
  simp only [List.take_succ_cons, List.take_zero, List.drop_succ_cons, List.drop_zero,
    List.cons_append, List.nil_append, Holds, length_leBytes, List.length_singleton, hmagic,
    Nat.reduceAdd, slice_self, true_and, hsize, hnone, and_true]
  rw [htake (by omega), htake (by omega), htake (by omega), htake (by omega), htake (by omega),
    htake (by omega), htake (by omega), htake (by omega), htake (by omega), htake (by omega),
    htake (by omega), htake (by omega)]
  have hnumber : ∀ {offset width n : Nat}, n < 256 ^ width → offset + width ≤ 48 →
      (slice bytes offset (offset + width) = leBytes width n ↔ readLe bytes offset width = n) :=
    fun hn hend => slice_eq_leBytes_iff hn (by omega)
  have hbyte : ∀ {offset : Nat} {b : UInt8}, offset < 48 →
      (slice bytes offset (offset + 1) = [b] ↔ byteAt bytes offset = b) := by
    intro offset b hoffset
    constructor
    · exact byteAt_of_slice
    · rintro rfl
      exact slice_of_byteAt (by omega)
  have hzeros : slice (List.replicate 48 (0 : UInt8)) 30 32 = List.replicate 2 0 := by decide
  have hcount' : count < 256 ^ 2 := by
    rw [hslot] at hcount
    omega
  have hversion := @hnumber 4 2 nodeFormatVersion (by decide) (by omega)
  have htree := @hnumber 8 8 _ hnumbered.treeId (by omega)
  have hgeneration := @hnumber 16 8 _ hnumbered.generation (by omega)
  have hitems := @hnumber 24 2 _ hcount' (by omega)
  have hstart := @hnumber 26 2 _ hcount (by omega)
  have hend := @hnumber 28 2 _ hfree (by omega)
  have hleft := @hnumber 32 8 _ hnumbered.leftmostChild (by omega)
  have hhash := @hnumber 40 8 _ node.leftmostChildHash.toNat_lt (by omega)
  have hlevel := @hbyte 6 node.level (by omega)
  have hflags := @hbyte 7 nodeFlags (by omega)
  rw [hzeros]
  constructor
  · rintro ⟨h1, h2, h3, h4, h5, h6, h7, h8, h9, h10, h11, h12⟩
    exact ⟨h1, hversion.mp h2, hlevel.mp h3, hflags.mp h4, htree.mp h5, hgeneration.mp h6,
      hitems.mp h7, hstart.mp h8, hend.mp h9, h10, hleft.mp h11, hhash.mp h12⟩
  · intro h
    exact ⟨h.magic, hversion.mpr h.version, hlevel.mpr h.level, hflags.mpr h.flags,
      htree.mpr h.treeId, hgeneration.mpr h.generation, hitems.mpr h.count, hstart.mpr h.freeStart,
      hend.mpr h.freeEnd, h.reserved, hleft.mpr h.leftmostChild, hhash.mpr h.leftmostChildHash⟩

/-- A payload is a node's exactly when it has the node's header, its slots, zeros, and its cells. -/
lemma payload_eq_iff {node : Node} {bytes : List UInt8} (hlen : bytes.length = maxPagePayloadSize)
    (hnumbered : node.Numbered)
    (hfits : nodeHeaderSize + node.cells.length * slotSize + Slotted.size node.cells ≤
      maxPagePayloadSize) :
    bytes = node.payload ↔
      node.HeaderAt bytes node.cells.length (maxPagePayloadSize - Slotted.size node.cells) ∧
      slice bytes nodeHeaderSize (nodeHeaderSize + node.cells.length * slotSize) =
        Slotted.slots maxPagePayloadSize node.cells ∧
      (∀ b ∈ slice bytes (nodeHeaderSize + node.cells.length * slotSize)
        (maxPagePayloadSize - Slotted.size node.cells), b = 0) ∧
      slice bytes (maxPagePayloadSize - Slotted.size node.cells) maxPagePayloadSize =
        node.cells.reverse.flatten := by
  have hmax : maxPagePayloadSize < 256 ^ 2 := by decide
  have hslots : node.cells.length * slotSize = node.cells.length * 2 := rfl
  have hlaid : (putAll (List.replicate nodeHeaderSize 0) (node.laidHeader node.leftmostChild
      node.leftmostChildHash node.cells.length
      (maxPagePayloadSize - Slotted.size node.cells))).length = nodeHeaderSize := by
    have horder := node.inOrder_laidHeader node.leftmostChild node.leftmostChildHash
      node.cells.length (maxPagePayloadSize - Slotted.size node.cells)
    rw [length_putAll (by rw [List.length_replicate]; exact horder), List.length_replicate]
  have hheader := @header_eq_iff node bytes node.cells.length
    (maxPagePayloadSize - Slotted.size node.cells) (by omega) hnumbered (by omega) (by omega)
  have hsplit : bytes = bytes.take nodeHeaderSize ++
      (slice bytes nodeHeaderSize (nodeHeaderSize + node.cells.length * slotSize) ++
      (slice bytes (nodeHeaderSize + node.cells.length * slotSize)
        (maxPagePayloadSize - Slotted.size node.cells) ++
      slice bytes (maxPagePayloadSize - Slotted.size node.cells) maxPagePayloadSize)) := by
    rw [slice_append_slice (by omega) (by omega), slice_append_slice (by omega) (by omega),
      take_append_slice (by omega), List.take_of_length_le (by omega)]
  have hgap : (slice bytes (nodeHeaderSize + node.cells.length * slotSize)
      (maxPagePayloadSize - Slotted.size node.cells)).length =
        maxPagePayloadSize - nodeHeaderSize -
          (Slotted.size node.cells + node.cells.length * 2) := by
    rw [length_slice (by omega)]
    omega
  rw [← hheader, payload, node.layout_eq _ _ hfits]
  constructor
  · intro h
    rw [hsplit] at h
    obtain ⟨h1, h⟩ := List.append_inj h (by rw [List.length_take, hlaid]; omega)
    obtain ⟨h2, h⟩ := List.append_inj h (by
      rw [length_slice (by omega), Slotted.length_slots]
      omega)
    obtain ⟨h3, h4⟩ := List.append_inj h (by rw [hgap, List.length_replicate])
    refine ⟨h1.symm, h2, ?_, h4⟩
    rw [h3]
    exact fun b hb => List.eq_of_mem_replicate hb
  · rintro ⟨h1, h2, h3, h4⟩
    conv_lhs => rw [hsplit]
    rw [← h1, h2, h4, eq_replicate_of_all hgap h3]

/-! Decoding. -/

lemma decodeCells_eq_ok {α : Type} {page : Page} {decodeCell : Nat → Result (α × Nat)}
    {Good : α → Prop} {cell : α → List UInt8} {entries : List α}
    (hlen : page.payload.length = maxPagePayloadSize)
    (hcell : ∀ offset entry stop, decodeCell offset = .ok (entry, stop) ↔ Good entry ∧
      stop = offset + (cell entry).length ∧ stop ≤ page.payload.length ∧
      slice page.payload offset stop = cell entry)
    (hstart : readU16 page.payload 26 = nodeHeaderSize + readU16 page.payload 24 * slotSize)
    (hbounds : readU16 page.payload 26 ≤ readU16 page.payload 28 ∧
      readU16 page.payload 28 ≤ maxPagePayloadSize) :
    decodeCells page decodeCell = .ok entries ↔
      entries.length = readU16 page.payload 24 ∧ (∀ entry ∈ entries, Good entry) ∧
      readU16 page.payload 28 + Slotted.size (entries.map cell) = maxPagePayloadSize ∧
      slice page.payload nodeHeaderSize (nodeHeaderSize + readU16 page.payload 24 * slotSize) =
        Slotted.slots maxPagePayloadSize (entries.map cell) ∧
      slice page.payload (readU16 page.payload 28) maxPagePayloadSize =
        (entries.map cell).reverse.flatten := by
  have hslots : readU16 page.payload 24 * slotSize = readU16 page.payload 24 * 2 := rfl
  have hread : ∀ index, index < readU16 page.payload 24 →
      readSlot page.payload (readU16 page.payload 26) index =
        .ok (readLe page.payload (nodeHeaderSize + index * 2) 2) := by
    intro index hindex
    rw [readSlot, if_neg]
    · rfl
    · have : index * slotSize = index * 2 := rfl
      have : slotSize = 2 := rfl
      omega
  have hunpack := fun floor => @Slotted.unpack_eq_ok EngineError α
    (readSlot page.payload (readU16 page.payload 26)) decodeCell
    (validatePackedCell page.id (readU16 page.payload 28)) page.payload nodeHeaderSize
    (readU16 page.payload 28) (readU16 page.payload 24) Good cell hread hcell
    (fun _ _ _ _ => validatePackedCell_eq_ok) (by omega) (readU16 page.payload 24) 0
    maxPagePayloadSize floor entries (by omega) (by omega) (by decide)
  simp only [Nat.zero_mul, Nat.add_zero, Nat.zero_add] at hunpack
  constructor
  · intro h
    obtain ⟨⟨_, floor⟩, hcells, h⟩ := Except.bind_eq_ok.mp h
    obtain ⟨hfloor, h⟩ := Except.check_bind_eq_ok.mp h
    rw [Except.ok.injEq] at h
    subst h
    obtain rfl := validateCellFloor_eq_ok.mp hfloor
    obtain ⟨hcount, hgood, -, hsize, hslot, hbytes⟩ := (hunpack _).mp hcells
    exact ⟨hcount, hgood, hsize, hslot, hbytes⟩
  · rintro ⟨hcount, hgood, hsize, hslot, hbytes⟩
    have hoffsets : ∀ offset ∈ Slotted.offsets maxPagePayloadSize (entries.map cell),
        readU16 page.payload 28 ≤ offset := by
      intro offset hoffset
      have := Slotted.le_of_mem_offsets hoffset
      omega
    have hcells := (hunpack _).mpr ⟨hcount, hgood, hoffsets, hsize, hslot, hbytes⟩
    rw [decodeCells, hcells]
    simp only [bind, Except.bind, validateCellFloor_eq_ok.mpr]

lemma any_ne_zero_eq_false_iff {l : List UInt8} :
    ¬l.any (· != 0) = true ↔ ∀ b ∈ l, b = 0 := by
  simp [List.any_eq_true]

lemma reserved_iff {bytes : List UInt8} (hlen : 32 ≤ bytes.length) :
    slice bytes 30 32 = List.replicate 2 0 ↔ ∀ b ∈ slice bytes 30 32, b = 0 := by
  constructor
  · intro h
    rw [h]
    exact fun b hb => List.eq_of_mem_replicate hb
  · exact eq_replicate_of_all (length_slice hlen)

/-- What a node's header must say to be accepted in a view. -/
structure Header (page : Page) (treeId viewGeneration : Nat) (requireViewGeneration : Bool) :
    Prop where
  length : page.payload.length = maxPagePayloadSize
  magic : page.payload.take 4 = nodeMagic
  version : readU16 page.payload 4 = nodeFormatVersion
  flags : byteAt page.payload 7 = nodeFlags
  treeId : readU64 page.payload 8 = treeId
  written : readU64 page.payload 16 ≠ 0
  generation : readU64 page.payload 16 ≤ viewGeneration
  candidate : requireViewGeneration = true → readU64 page.payload 16 = viewGeneration
  freeStart : readU16 page.payload 26 = nodeHeaderSize + readU16 page.payload 24 * slotSize
  bounds : readU16 page.payload 26 ≤ readU16 page.payload 28 ∧
    readU16 page.payload 28 ≤ maxPagePayloadSize
  reserved : ∀ b ∈ slice page.payload 30 32, b = 0
  free : ∀ b ∈ slice page.payload (readU16 page.payload 26) (readU16 page.payload 28), b = 0

lemma checkHeader_eq_ok {page : Page} {treeId viewGeneration : Nat}
    {requireViewGeneration : Bool} :
    checkHeader page treeId viewGeneration requireViewGeneration = .ok () ↔
      Header page treeId viewGeneration requireViewGeneration := by
  rw [checkHeader]
  simp only [Except.ite_error_eq_ok, not_or, not_not, not_and, not_lt, any_ne_zero_eq_false_iff,
    and_true]
  constructor
  · rintro ⟨hlength, hmagic, hversion, hflags, htree, ⟨hzero, hgeneration⟩, hcandidate,
      ⟨hstart, hbounds⟩, hreserved, hfree⟩
    exact ⟨hlength, hmagic, hversion, hflags, htree, hzero, hgeneration, hcandidate, hstart, hbounds,
      hreserved, hfree⟩
  · intro h
    exact ⟨h.length, h.magic, h.version, h.flags, h.treeId, ⟨h.written, h.generation⟩, h.candidate,
      ⟨h.freeStart, h.bounds⟩, h.reserved, h.free⟩

/-- The node that a page's header and entries give. -/
def assembled (page : Page) (kind : NodeKind) : Node :=
  ⟨readU64 page.payload 8, readU64 page.payload 16, byteAt page.payload 6, kind⟩

/-- The cells of a node stand in a page as its header says. -/
def CellsAt (page : Page) (node : Node) : Prop :=
  node.cells.length = readU16 page.payload 24 ∧
    readU16 page.payload 28 + Slotted.size node.cells = maxPagePayloadSize ∧
    slice page.payload nodeHeaderSize (nodeHeaderSize + readU16 page.payload 24 * slotSize) =
      Slotted.slots maxPagePayloadSize node.cells ∧
    slice page.payload (readU16 page.payload 28) maxPagePayloadSize = node.cells.reverse.flatten

lemma decodeKind_leaf {id : Nat} {bytes : List UInt8} {kind : NodeKind} :
    decodeKind ⟨id, .btreeLeaf, bytes⟩ = .ok kind ↔ ∃ entries, kind = .leaf entries ∧
      byteAt bytes 6 = 0 ∧ readU64 bytes 32 = noPageId ∧ readU64 bytes 40 = emptyHash.toNat ∧
      decodeCells ⟨id, .btreeLeaf, bytes⟩ (decodeLeafCell bytes (readU64 bytes 16)) = .ok entries ∧
      (∀ entry ∈ entries, entry.Valid (readU64 bytes 16)) ∧
      (entries.map LeafEntry.key).IsChain (· < ·) := by
  constructor
  · intro h
    obtain ⟨hfields, h⟩ := Except.ite_error_eq_ok.mp h
    obtain ⟨entries, hcells, h⟩ := Except.bind_eq_ok.mp h
    obtain ⟨hsorted, h⟩ := Except.check_bind_eq_ok.mp h
    rw [not_or, not_or, not_not, not_not, not_not] at hfields
    obtain ⟨hlevel, hleft, hhash⟩ := hfields
    rw [Except.mapError_eq_ok, validateSortedLeafEntries_eq_ok] at hsorted
    exact ⟨entries, (Except.ok.inj h).symm, hlevel, hleft, readU64_eq_toNat_iff.mpr hhash, hcells,
      hsorted⟩
  · rintro ⟨entries, rfl, hlevel, hleft, hhash, hcells, hsorted⟩
    have hcheck := Except.mapError_eq_ok (f := asCorruption).mpr
      (validateSortedLeafEntries_eq_ok.mpr hsorted)
    rw [decodeKind]
    dsimp only
    rw [hlevel, hleft, readU64_eq_toNat_iff.mp hhash, if_neg (by decide), hcells]
    simp only [bind, Except.bind, hcheck]

lemma decodeKind_internal {id : Nat} {bytes : List UInt8} {kind : NodeKind} :
    decodeKind ⟨id, .btreeInternal, bytes⟩ = .ok kind ↔ ∃ entries,
      kind = .internal ⟨readU64 bytes 32, UInt64.ofNat (readU64 bytes 40), entries⟩ ∧
      byteAt bytes 6 ≠ 0 ∧ (IsDataPage (readU64 bytes 32) ∧ readU64 bytes 32 ≠ id) ∧
      decodeCells ⟨id, .btreeInternal, bytes⟩ (decodeChildCell id bytes) = .ok entries ∧
      (∀ entry ∈ entries, entry.Valid id) ∧
      (readU64 bytes 32 :: entries.map InternalEntry.rightChild).Nodup ∧
      (entries.map InternalEntry.key).IsChain (· < ·) := by
  constructor
  · intro h
    obtain ⟨hlevel, h⟩ := Except.ite_error_eq_ok.mp h
    obtain ⟨hleft, h⟩ := Except.check_bind_eq_ok.mp h
    obtain ⟨entries, hcells, h⟩ := Except.bind_eq_ok.mp h
    obtain ⟨hsorted, h⟩ := Except.check_bind_eq_ok.mp h
    rw [Except.mapError_eq_ok, validateSortedInternalEntries_eq_ok] at hsorted
    exact ⟨entries, (Except.ok.inj h).symm, hlevel, validateChildPage_eq_ok.mp hleft, hcells,
      hsorted⟩
  · rintro ⟨entries, rfl, hlevel, hleft, hcells, hsorted⟩
    have hcheck := Except.mapError_eq_ok (f := asCorruption).mpr
      (validateSortedInternalEntries_eq_ok.mpr hsorted)
    rw [decodeKind]
    dsimp only
    rw [if_neg hlevel, validateChildPage_eq_ok.mpr hleft]
    simp only [bind, Except.bind, hcells, hcheck]

/-- What is read of a page's kind: the header fields its kind decides, and the cells. -/
lemma decodeKind_eq_ok {page : Page} {treeId viewGeneration : Nat} {requireViewGeneration : Bool}
    {kind : NodeKind} (hheader : Header page treeId viewGeneration requireViewGeneration) :
    decodeKind page = .ok kind ↔
      page.pageType = (assembled page kind).pageType ∧
      readU64 page.payload 32 = (assembled page kind).leftmostChild ∧
      readU64 page.payload 40 = (assembled page kind).leftmostChildHash.toNat ∧
      (assembled page kind).KindValid page.id ∧ CellsAt page (assembled page kind) := by
  have hgeneration : readU64 page.payload 16 < 256 ^ 8 := readLe_lt page.payload 16 8
  obtain ⟨hlen, -, -, -, -, -, -, -, hstart, hbounds, -, -⟩ := hheader
  obtain ⟨id, pageType, bytes⟩ := page
  dsimp only at hlen hstart hbounds hgeneration ⊢
  have hleaf := fun entries => @decodeCells_eq_ok LeafEntry ⟨id, pageType, bytes⟩ _ _ _ entries hlen
    (fun _ _ _ => decodeLeafCell_eq_ok hgeneration) hstart hbounds
  have hinternal := fun entries => @decodeCells_eq_ok InternalEntry ⟨id, pageType, bytes⟩ _ _ _
    entries hlen (fun _ _ _ => @decodeChildCell_eq_ok id _ _ _ _) hstart hbounds
  dsimp only at hleaf hinternal
  cases pageType with
  | btreeLeaf =>
    rw [decodeKind_leaf]
    constructor
    · rintro ⟨entries, rfl, hlevel, hleft, hhash, hcells, hvalid, hsorted⟩
      obtain ⟨hcount, -, hsize, hslots, hbytes⟩ := (hleaf entries).mp hcells
      exact ⟨rfl, hleft, hhash, ⟨hlevel, hvalid, hsorted⟩,
        ⟨(List.length_map ..).trans hcount, hsize, hslots, hbytes⟩⟩
    · rintro ⟨htype, hleft, hhash, hkind, hcount, hsize, hslots, hbytes⟩
      cases kind with
      | leaf entries =>
        obtain ⟨hlevel, hvalid, hsorted⟩ := hkind
        refine ⟨entries, rfl, hlevel, hleft, hhash, (hleaf entries).mpr ?_, hvalid, hsorted⟩
        exact ⟨(List.length_map ..).symm.trans hcount,
          fun entry hentry => (hvalid entry hentry).readable, hsize, hslots, hbytes⟩
      | internal internal => cases htype
  | btreeInternal =>
    rw [decodeKind_internal]
    constructor
    · rintro ⟨entries, rfl, hlevel, hleft, hcells, hvalid, hsorted⟩
      obtain ⟨hcount, -, hsize, hslots, hbytes⟩ := (hinternal entries).mp hcells
      exact ⟨rfl, rfl, readU64_eq_toNat_iff.mpr rfl, ⟨hlevel, hleft, hvalid, hsorted⟩,
        ⟨(List.length_map ..).trans hcount, hsize, hslots, hbytes⟩⟩
    · rintro ⟨htype, hleft, hhash, hkind, hcount, hsize, hslots, hbytes⟩
      cases kind with
      | leaf entries => cases htype
      | internal internal =>
        obtain ⟨leftmostChild, leftmostChildHash, entries⟩ := internal
        obtain ⟨hlevel, hchild, hvalid, hsorted⟩ := hkind
        have hleft' : readU64 bytes 32 = leftmostChild := hleft
        have hhash' := readU64_eq_toNat_iff.mp hhash
        refine ⟨entries, ?_, hlevel, ?_, (hinternal entries).mpr ?_, hvalid, ?_⟩
        · rw [hleft', hhash']
          rfl
        · rw [hleft']
          exact hchild
        · exact ⟨(List.length_map ..).symm.trans hcount, hvalid, hsize, hslots, hbytes⟩
        · rw [hleft']
          exact hsorted
  | superblock => cases kind <;> simp [decodeKind, assembled, Node.pageType]
  | allocationBitmap => cases kind <;> simp [decodeKind, assembled, Node.pageType]
  | overflow => cases kind <;> simp [decodeKind, assembled, Node.pageType]

lemma length_payload {node : Node}
    (hfits : nodeHeaderSize + node.cells.length * slotSize + Slotted.size node.cells ≤
      maxPagePayloadSize) : node.payload.length = maxPagePayloadSize := by
  have horder := node.inOrder_laidHeader node.leftmostChild node.leftmostChildHash
    node.cells.length (maxPagePayloadSize - Slotted.size node.cells)
  have hslots : node.cells.length * slotSize = node.cells.length * 2 := rfl
  rw [payload, node.layout_eq _ _ hfits, List.length_append, List.length_append,
    List.length_append, length_putAll (by rw [List.length_replicate]; exact horder),
    List.length_replicate, List.length_replicate, Slotted.length_slots,
    Slotted.length_reverse_flatten]
  omega

lemma leftmostChild_lt {node : Node} {pageId : Nat} (h : node.KindValid pageId) :
    node.leftmostChild < 256 ^ 8 := by
  obtain ⟨treeId, generation, level, kind⟩ := node
  cases kind with
  | leaf entries => exact show noPageId < 256 ^ 8 by decide
  | internal internal => exact Nat.lt_trans h.2.1.1.2 (by decide)

/-- A page decodes to a node exactly when it is the node's page, in a view the node belongs to. -/
lemma decode_eq_ok {page : Page} {node : Node} {treeId viewGeneration : Nat}
    {requireViewGeneration : Bool} :
    decode page treeId viewGeneration requireViewGeneration = .ok node ↔
      page.pageType = node.pageType ∧ page.payload = node.payload ∧ node.Valid page.id ∧
      node.treeId < 256 ^ 8 ∧ node.generation < 256 ^ 8 ∧ node.treeId = treeId ∧
      node.generation ≤ viewGeneration ∧
      (requireViewGeneration = true → node.generation = viewGeneration) := by
  constructor
  · intro h
    obtain ⟨hcheck, h⟩ := Except.check_bind_eq_ok.mp h
    obtain ⟨kind, hkind, h⟩ := Except.bind_eq_ok.mp h
    have hheader := checkHeader_eq_ok.mp hcheck
    obtain ⟨htype, hleft, hhash, hvalid, hcount, hsize, hslots, hbytes⟩ :=
      (decodeKind_eq_ok hheader).mp hkind
    obtain rfl : node = assembled page kind := (Except.ok.inj h).symm
    generalize hnode : assembled page kind = node at *
    have htree : readU64 page.payload 8 = node.treeId := by rw [← hnode]; rfl
    have hgeneration : readU64 page.payload 16 = node.generation := by rw [← hnode]; rfl
    have hlevel : byteAt page.payload 6 = node.level := by rw [← hnode]; rfl
    have hnumbered : node.Numbered := ⟨htree ▸ readLe_lt page.payload 8 8,
      hgeneration ▸ readLe_lt page.payload 16 8, leftmostChild_lt hvalid⟩
    have hproduct : readU16 page.payload 24 * slotSize = node.cells.length * slotSize := by
      rw [hcount]
    have hstart := hheader.freeStart
    have hbounds := hheader.bounds
    have hfits : nodeHeaderSize + node.cells.length * slotSize + Slotted.size node.cells ≤
        maxPagePayloadSize := by omega
    have hend : readU16 page.payload 28 = maxPagePayloadSize - Slotted.size node.cells := by omega
    have hfree := hheader.free
    rw [hstart, hproduct, hend] at hfree
    rw [hproduct] at hslots
    rw [hend] at hbytes
    refine ⟨htype, ?_, ⟨hgeneration ▸ hheader.written, hvalid, hfits⟩, hnumbered.treeId,
      hnumbered.generation, htree ▸ hheader.treeId, hgeneration ▸ hheader.generation,
      fun hrequire => hgeneration ▸ hheader.candidate hrequire⟩
    refine (payload_eq_iff hheader.length hnumbered hfits).mpr ⟨?_, hslots, hfree, hbytes⟩
    exact ⟨hheader.magic, hheader.version, hlevel, hheader.flags, htree, hgeneration, hcount.symm,
      by rw [hstart, hproduct], hend,
      (reserved_iff (by rw [hheader.length]; decide)).mpr hheader.reserved, hleft, hhash⟩
  · rintro ⟨htype, hpayload, hvalid, htreeSmall, hgenerationSmall, rfl, hview, hrequire⟩
    have hnumbered : node.Numbered :=
      ⟨htreeSmall, hgenerationSmall, leftmostChild_lt hvalid.kind⟩
    have hfits := hvalid.fits
    have hlen : page.payload.length = maxPagePayloadSize := by
      rw [hpayload, length_payload hfits]
    obtain ⟨hat, hslots, hfree, hbytes⟩ := (payload_eq_iff hlen hnumbered hfits).mp hpayload
    have hassembled : assembled page node.kind = node := by
      rw [assembled, hat.treeId, hat.generation, hat.level]
    have hheader : Header page node.treeId viewGeneration requireViewGeneration := by
      refine ⟨hlen, hat.magic, hat.version, hat.flags, hat.treeId, ?_, ?_, ?_, ?_, ?_, ?_, ?_⟩
      · rw [hat.generation]
        exact hvalid.generation
      · rw [hat.generation]
        exact hview
      · rw [hat.generation]
        exact hrequire
      · rw [hat.freeStart, hat.count]
      · rw [hat.freeStart, hat.freeEnd]
        omega
      · exact (reserved_iff (by rw [hlen]; decide)).mp hat.reserved
      · rw [hat.freeStart, hat.freeEnd]
        exact hfree
    have hkind : decodeKind page = .ok node.kind := by
      refine (decodeKind_eq_ok hheader).mpr ?_
      rw [hassembled]
      refine ⟨htype, hat.leftmostChild, hat.leftmostChildHash, hvalid.kind, hat.count.symm, ?_, ?_,
        ?_⟩
      · rw [hat.freeEnd]
        omega
      · rw [hat.count]
        exact hslots
      · rw [hat.freeEnd]
        exact hbytes
    rw [decode, checkHeader_eq_ok.mpr hheader]
    simp only [bind, Except.bind, hkind]
    exact congrArg Except.ok hassembled

/-- A node encodes to a page exactly when it is valid there. -/
lemma encode_eq_ok {node : Node} {pageId : Nat} {page : Page} {hash : UInt64} :
    node.encode pageId = .ok (page, hash) ↔
      node.treeId ≠ 0 ∧ node.Valid pageId ∧ pageId < maxPageCount ∧
      page = ⟨pageId, node.pageType, node.payload⟩ ∧ hash = node.subtreeHash := by
  constructor
  · intro h
    obtain ⟨htree, h⟩ := Except.check_bind_eq_ok.mp h
    obtain ⟨hgeneration, h⟩ := Except.ite_error_eq_ok.mp h
    obtain ⟨parts, hparts, h⟩ := Except.bind_eq_ok.mp h
    obtain ⟨hkind, rfl⟩ := parts_eq_ok.mp hparts
    obtain ⟨-, h⟩ := Except.ite_error_eq_ok.mp h
    obtain ⟨hfits, h⟩ := Except.ite_error_eq_ok.mp h
    obtain ⟨page', hpage, h⟩ := Except.bind_eq_ok.mp h
    rw [Except.ok.injEq, Prod.mk.injEq] at h
    obtain ⟨rfl, rfl⟩ := h
    obtain ⟨hid, hpage⟩ := Except.check_bind_eq_ok.mp hpage
    obtain ⟨-, hpage⟩ := Except.ite_error_eq_ok.mp hpage
    rw [validatePageId, Except.ite_error_eq_ok, not_le] at hid
    exact ⟨validateTreeId_eq_ok.mp htree, ⟨hgeneration, hkind, Nat.not_lt.mp hfits⟩, hid.1,
      (Except.ok.inj hpage).symm, rfl⟩
  · rintro ⟨htree, ⟨hgeneration, hkind, hfits⟩, hid, rfl, rfl⟩
    have hcells : ¬node.cells.length > 2 ^ 16 - 1 := by
      have hmax : maxPagePayloadSize = 4064 := rfl
      have hslots : node.cells.length * slotSize = node.cells.length * 2 := rfl
      omega
    have hpage : Page.new pageId node.pageType (node.layout node.leftmostChild
        node.leftmostChildHash node.cells) = .ok ⟨pageId, node.pageType, node.payload⟩ := by
      have hlen := length_payload hfits
      rw [payload] at hlen
      rw [Page.new, validatePageId, if_neg (by omega)]
      simp only [bind, Except.bind, hlen]
      rw [if_neg (Nat.lt_irrefl _)]
      rfl
    rw [encode, validateTreeId_eq_ok.mpr htree]
    simp only [bind, Except.bind]
    rw [if_neg hgeneration, parts_eq_ok.mpr ⟨hkind, rfl⟩]
    dsimp only
    rw [if_neg hcells, if_neg (Nat.not_lt.mpr hfits), hpage]

end Node

end TinyJoin
