import TinyJoin.Lib.Slotted
import TinyJoin.KeyCodec
import TinyJoin.PageCanonical

/-! The pages of a B-tree. A node is a header of 48 bytes, an array of slots and the cells the slots
point at: the entries of a leaf, or the separators and children of an internal node, whose leftmost
child stands in its header. Tree IDs, page IDs and generations are natural numbers. -/
namespace TinyJoin
open Bytes

def maxBtreeInlineValueBytes : Nat := 1024
def maxBtreeInlineEntryBytes : Nat := 1536
def maxBtreeValueBytes : Nat := 1024 * 1024

/-- `TGBT`. -/
def nodeMagic : List UInt8 := [0x54, 0x47, 0x42, 0x54]
def nodeFormatVersion : Nat := 2
def nodeFlags : UInt8 := 0
def nodeHeaderSize : Nat := 48
def slotSize : Nat := 2
def leafCellHeaderSize : Nat := 8
def overflowDescriptorSize : Nat := 24
def internalCellHeaderSize : Nat := 20
def inlineCellFlags : Nat := 0
def overflowCellFlags : Nat := 1
def noPageId : Nat := 2 ^ 64 - 1
def maxTreeDepth : Nat := 64

def overflowHeaderSize : Nat := 56
def maxOverflowChunkBytes : Nat := maxPagePayloadSize - overflowHeaderSize

/-- How many pages of overflow a value of `length` bytes takes. -/
def overflowChunkCount (length : Nat) : Nat :=
  (length + maxOverflowChunkBytes - 1) / maxOverflowChunkBytes

def maxOverflowPageCount : Nat := overflowChunkCount maxBtreeValueBytes

def emptyHash : UInt64 := 0

/-- Fingerprints combine in any order. -/
def combine (left right : UInt64) : UInt64 := left ^^^ right

def invalidBtree (message : String) : EngineError := ⟨"INVALID_BTREE_PAGE", message⟩
def unsupportedBtree (message : String) : EngineError := ⟨"UNSUPPORTED_BTREE_PAGE", message⟩
def limitError (message : String) : EngineError := ⟨"BTREE_LIMIT", message⟩
def invalidOverflow (message : String) : EngineError := ⟨"INVALID_OVERFLOW_PAGE", message⟩
def unsupportedOverflow (message : String) : EngineError := ⟨"UNSUPPORTED_OVERFLOW_PAGE", message⟩
def asCorruption (error : EngineError) : EngineError := invalidBtree error.message

def nodeFull (required : Nat) : EngineError := ⟨"BTREE_NODE_FULL",
  s!"B-tree node requires {required} bytes, exceeding the {maxPagePayloadSize}-byte payload"⟩

structure OverflowDescriptor where
  firstPageId : Nat
  generation : Nat
  totalLength : Nat
  checksum : UInt32
deriving DecidableEq, Repr

inductive LeafValue
  | inline (value : List UInt8)
  | overflow (descriptor : OverflowDescriptor)
deriving DecidableEq, Repr

structure LeafEntry where
  key : List UInt8
  value : LeafValue
deriving DecidableEq, Repr

structure InternalEntry where
  key : List UInt8
  rightChild : Nat
  childHash : UInt64
deriving DecidableEq, Repr

structure InternalNode where
  leftmostChild : Nat
  leftmostChildHash : UInt64
  entries : List InternalEntry
deriving DecidableEq, Repr

inductive NodeKind
  | leaf (entries : List LeafEntry)
  | internal (node : InternalNode)
deriving DecidableEq, Repr

structure Node where
  treeId : Nat
  generation : Nat
  level : UInt8
  kind : NodeKind
deriving DecidableEq, Repr

namespace LeafValue

def flags : LeafValue → Nat
  | inline _ => inlineCellFlags
  | overflow _ => overflowCellFlags

/-- The bytes of the value a leaf cell holds. -/
def encoded : LeafValue → List UInt8
  | inline value => value
  | overflow descriptor => leBytes 8 descriptor.firstPageId ++ leBytes 8 descriptor.generation ++
      leBytes 4 descriptor.totalLength ++ leBytes 4 descriptor.checksum.toNat

def encodedLen : LeafValue → Nat
  | inline value => value.length
  | overflow _ => overflowDescriptorSize

end LeafValue

/-! Fingerprints of entries. -/

def keyHash (key : List UInt8) : UInt64 := xxh64 key 0

/-- An entry's fingerprint from the hash of its key and the value its cell holds. An overflow value
is represented by its length and checksum, hashed from the complement of the seed. -/
def valueHash (keyHash : UInt64) : LeafValue → UInt64
  | .inline value => xxh64 value keyHash
  | .overflow descriptor =>
      xxh64 (leBytes 4 descriptor.totalLength ++ leBytes 4 descriptor.checksum.toNat) (~~~keyHash)

def cellHash (key : List UInt8) (value : LeafValue) : UInt64 := valueHash (keyHash key) value

def leafEntryHash (entry : LeafEntry) : UInt64 := cellHash entry.key entry.value

/-! The checks that encoding and decoding share. -/

def validateTreeId (treeId : Nat) : Result Unit :=
  if treeId = 0 then .error ⟨"INVALID_BTREE_ARGUMENT", "B-tree ID zero is reserved"⟩ else .ok ()

def validateKey (key : List UInt8) : Result Unit :=
  if key.length > maxBtreeKeyBytes then
    .error (limitError s!"B-tree key is {key.length} bytes, exceeding {maxBtreeKeyBytes}")
  else .ok ()

def validateValue (value : List UInt8) : Result Unit :=
  if value.length > maxBtreeValueBytes then
    .error (limitError s!"B-tree value is {value.length} bytes, exceeding {maxBtreeValueBytes}")
  else .ok ()

/-- Whether `id` is a page that data may occupy. -/
def IsDataPage (id : Nat) : Prop := firstDataPageId ≤ id ∧ id < maxPageCount

instance (id : Nat) : Decidable (IsDataPage id) := inferInstanceAs (Decidable (_ ∧ _))

def validateOverflowPageId (id : Nat) : Result Unit :=
  if ¬IsDataPage id then
    .error (invalidOverflow s!"Overflow page ID {id} is outside the data-page range")
  else .ok ()

def validateOverflowDescriptor (descriptor : OverflowDescriptor) (leafGeneration : Nat) :
    Result Unit := do
  validateOverflowPageId descriptor.firstPageId
  if descriptor.generation = 0 ∨ descriptor.generation > leafGeneration then
    .error (invalidOverflow (s!"Overflow generation {descriptor.generation} is outside leaf " ++
      s!"generation {leafGeneration}"))
  else if descriptor.totalLength = 0 ∨ descriptor.totalLength > maxBtreeValueBytes then
    .error (invalidOverflow (s!"Overflow total length {descriptor.totalLength} is outside " ++
      s!"1..={maxBtreeValueBytes}"))
  else
    let chunkCount := overflowChunkCount descriptor.totalLength
    if chunkCount = 0 ∨ chunkCount > maxOverflowPageCount then
      .error (invalidOverflow s!"Overflow descriptor requires invalid chunk count {chunkCount}")
    else .ok ()

def validateStoredEntry (key : List UInt8) (value : LeafValue) (leafGeneration : Nat) :
    Result Unit := do
  validateKey key
  match value with
  | .inline value =>
    if value.length > maxBtreeInlineValueBytes ∨
        key.length + value.length > maxBtreeInlineEntryBytes then
      .error (limitError (s!"Inline B-tree key and value total {key.length + value.length} bytes " ++
        "outside supported bounds"))
    else .ok ()
  | .overflow descriptor => validateOverflowDescriptor descriptor leafGeneration

def validateDecodedInlineEntry (keyLength valueLength : Nat) : Result Unit :=
  if keyLength > maxBtreeKeyBytes ∨ valueLength > maxBtreeInlineValueBytes ∨
      keyLength + valueLength > maxBtreeInlineEntryBytes then
    .error (invalidBtree (s!"Decoded inline entry lengths {keyLength}+{valueLength} exceed the " ++
      "supported bounds"))
  else .ok ()

def validateChildPage (parentPageId childPageId : Nat) : Result Unit :=
  if ¬IsDataPage childPageId then
    .error (invalidBtree
      s!"Internal page {parentPageId} references invalid child page {childPageId}")
  else if childPageId = parentPageId then
    .error (invalidBtree s!"Internal page {parentPageId} references itself")
  else .ok ()

def validateStrictlySorted (previous : Option (List UInt8)) : List (List UInt8) → Result Unit
  | [] => .ok ()
  | key :: keys =>
    if ∃ before ∈ previous, before ≥ key then
      .error (invalidBtree "B-tree keys must be in strictly increasing byte order")
    else validateStrictlySorted (some key) keys

def validateSortedLeafEntries (entries : List LeafEntry) (leafGeneration : Nat) : Result Unit := do
  entries.forM (fun entry => validateStoredEntry entry.key entry.value leafGeneration)
  validateStrictlySorted none (entries.map LeafEntry.key)

/-- Checks each child of an internal node, against the children before it. -/
def validateChildren (pageId : Nat) : List Nat → List InternalEntry → Result Unit
  | _, [] => .ok ()
  | children, entry :: entries => do
    validateKey entry.key
    validateChildPage pageId entry.rightChild
    if entry.rightChild ∈ children then
      .error (invalidBtree
        s!"Internal page {pageId} references child {entry.rightChild} more than once")
    else validateChildren pageId (entry.rightChild :: children) entries

def validateSortedInternalEntries (pageId leftmostChild : Nat) (entries : List InternalEntry) :
    Result Unit := do
  validateChildren pageId [leftmostChild] entries
  validateStrictlySorted none (entries.map InternalEntry.key)

/-! Encoding. -/

/-- The cell of a leaf entry. -/
def LeafEntry.cell (entry : LeafEntry) : List UInt8 :=
  leBytes 2 entry.key.length ++ leBytes 2 entry.value.flags ++ leBytes 4 entry.value.encodedLen ++
    entry.key ++ entry.value.encoded

/-- The cell of a separator and the child to its right. -/
def InternalEntry.cell (entry : InternalEntry) : List UInt8 :=
  leBytes 2 entry.key.length ++ leBytes 2 inlineCellFlags ++ leBytes 8 entry.rightChild ++
    leBytes 8 entry.childHash.toNat ++ entry.key

def encodeLeafCell (entry : LeafEntry) : Result (List UInt8) := do
  validateKey entry.key
  .ok entry.cell

def encodeInternalCell (entry : InternalEntry) : Result (List UInt8) := do
  validateKey entry.key
  .ok entry.cell

namespace Node

/-- The fingerprint of every entry beneath a node: a leaf combines its own entries, an internal
node the fingerprints its children reported when they were written. -/
def subtreeHash (node : Node) : UInt64 :=
  match node.kind with
  | .leaf entries => entries.foldl (fun hash entry => combine hash (leafEntryHash entry)) emptyHash
  | .internal internal => internal.entries.foldl (fun hash entry => combine hash entry.childHash)
      internal.leftmostChildHash

/-- The header fields written before the cells. -/
def headerFields (node : Node) (leftmostChild : Nat) (leftmostChildHash : UInt64) (count : Nat) :
    List (Nat × List UInt8) :=
  [(0, nodeMagic),
    (4, leBytes 2 nodeFormatVersion),
    (6, [node.level]),
    (7, [nodeFlags]),
    (8, leBytes 8 node.treeId),
    (16, leBytes 8 node.generation),
    (24, leBytes 2 count),
    (26, leBytes 2 (nodeHeaderSize + count * slotSize)),
    (32, leBytes 8 leftmostChild),
    (40, leBytes 8 leftmostChildHash.toNat)]

/-- What the two kinds of node lay out differently: the page type, the leftmost child with its
fingerprint, and the cells. -/
def parts (node : Node) (pageId : Nat) : Result (PageType × Nat × UInt64 × List (List UInt8)) :=
  match node.kind with
  | .leaf entries => do
    if node.level ≠ 0 then .error (invalidBtree "A leaf node must have level zero")
    else
      validateSortedLeafEntries entries node.generation
      let cells ← entries.mapM encodeLeafCell
      .ok (.btreeLeaf, noPageId, emptyHash, cells)
  | .internal internal => do
    if node.level = 0 then .error (invalidBtree "An internal node must have a positive level")
    else
      validateChildPage pageId internal.leftmostChild
      validateSortedInternalEntries pageId internal.leftmostChild internal.entries
      let cells ← internal.entries.mapM encodeInternalCell
      .ok (.btreeInternal, internal.leftmostChild, internal.leftmostChildHash, cells)

/-- The payload of a node with the given cells. -/
def layout (node : Node) (leftmostChild : Nat) (leftmostChildHash : UInt64)
    (cells : List (List UInt8)) : List UInt8 :=
  let header := putAll (List.replicate maxPagePayloadSize 0)
    (node.headerFields leftmostChild leftmostChildHash cells.length)
  let (payload, freeEnd) := Slotted.pack nodeHeaderSize cells 0 maxPagePayloadSize header
  put payload 28 (leBytes 2 freeEnd)

/-- Encodes the node and reports the fingerprint of the subtree it roots. -/
def encode (node : Node) (pageId : Nat) : Result (Page × UInt64) := do
  validateTreeId node.treeId
  if node.generation = 0 then .error (invalidBtree "B-tree page generation must be positive")
  else
    let (pageType, leftmostChild, leftmostChildHash, cells) ← node.parts pageId
    if cells.length > 2 ^ 16 - 1 then .error (limitError "A B-tree node contains too many cells")
    else
      let required := nodeHeaderSize + cells.length * slotSize + Slotted.size cells
      if required > maxPagePayloadSize then .error (nodeFull required)
      else
        let page ← Page.new pageId pageType
          (node.layout leftmostChild leftmostChildHash cells)
        .ok (page, node.subtreeHash)

end Node

/-! Decoding. -/

/-- Where a cell field of `length` bytes at `offset` ends, if it ends within `bound`. -/
def checkedEnd (offset length bound : Nat) : Result Nat :=
  if offset + length ≤ bound then .ok (offset + length)
  else .error (invalidBtree
    s!"B-tree cell range {offset}..{offset + length} exceeds page payload {bound}")

def decodeDescriptor (bytes : List UInt8) (offset : Nat) : OverflowDescriptor where
  firstPageId := readU64 bytes offset
  generation := readU64 bytes (offset + 8)
  totalLength := readU32 bytes (offset + 16)
  checksum := UInt32.ofNat (readU32 bytes (offset + 20))

def decodeLeafCell (bytes : List UInt8) (leafGeneration offset : Nat) :
    Result (LeafEntry × Nat) := do
  let headerEnd ← checkedEnd offset leafCellHeaderSize bytes.length
  let keyLength := readU16 bytes offset
  let flags := readU16 bytes (offset + 2)
  let valueLength := readU32 bytes (offset + 4)
  let keyEnd ← checkedEnd headerEnd keyLength bytes.length
  let valueEnd ← checkedEnd keyEnd valueLength bytes.length
  if flags = inlineCellFlags then
    validateDecodedInlineEntry keyLength valueLength
    .ok (⟨slice bytes headerEnd keyEnd, .inline (slice bytes keyEnd valueEnd)⟩, valueEnd)
  else if flags = overflowCellFlags then
    if valueLength ≠ overflowDescriptorSize then
      .error (invalidBtree
        s!"Overflow descriptor is {valueLength} bytes, not {overflowDescriptorSize}")
    else
      let descriptor := decodeDescriptor bytes keyEnd
      validateOverflowDescriptor descriptor leafGeneration
      .ok (⟨slice bytes headerEnd keyEnd, .overflow descriptor⟩, valueEnd)
  else .error (unsupportedBtree s!"Leaf cell flags {Page.hex4 flags} are not supported")

def decodeInternalCell (bytes : List UInt8) (offset : Nat) : Result (InternalEntry × Nat) := do
  let headerEnd ← checkedEnd offset internalCellHeaderSize bytes.length
  let keyLength := readU16 bytes offset
  let flags := readU16 bytes (offset + 2)
  if flags ≠ inlineCellFlags then
    .error (unsupportedBtree s!"Internal cell flags {Page.hex4 flags} are not supported")
  else if keyLength > maxBtreeKeyBytes then
    .error (invalidBtree s!"Internal key length {keyLength} exceeds {maxBtreeKeyBytes}")
  else
    let keyEnd ← checkedEnd headerEnd keyLength bytes.length
    .ok (⟨slice bytes headerEnd keyEnd, readU64 bytes (offset + 4),
      UInt64.ofNat (readU64 bytes (offset + 12))⟩, keyEnd)

/-- Reads an internal cell and checks the child it names, as decoding a node does. -/
def decodeChildCell (pageId : Nat) (bytes : List UInt8) (offset : Nat) :
    Result (InternalEntry × Nat) := do
  let (entry, cellEnd) ← decodeInternalCell bytes offset
  validateChildPage pageId entry.rightChild
  .ok (entry, cellEnd)

def readSlot (bytes : List UInt8) (freeStart index : Nat) : Result Nat :=
  let offset := nodeHeaderSize + index * slotSize
  if offset + slotSize > freeStart ∨ offset + slotSize > bytes.length then
    .error (invalidBtree s!"B-tree slot {index} lies outside the slot array")
  else .ok (readU16 bytes offset)

def unpackedCell (pageId index : Nat) : EngineError := invalidBtree
  (s!"B-tree page {pageId} cell {index} is overlapping, out of order, or not tightly packed")

def validatePackedCell (pageId freeEnd index offset cellEnd expectedCellEnd : Nat) : Result Unit :=
  if offset < freeEnd ∨ cellEnd ≠ expectedCellEnd then .error (unpackedCell pageId index)
  else .ok ()

def validateCellFloor (pageId actual expected : Nat) : Result Unit :=
  if actual ≠ expected then
    .error (invalidBtree s!"B-tree page {pageId} cell area starts at {actual}, not {expected}")
  else .ok ()

def PageType.debug : PageType → String
  | .superblock => "Superblock"
  | .allocationBitmap => "AllocationBitmap"
  | .btreeInternal => "BtreeInternal"
  | .btreeLeaf => "BtreeLeaf"
  | .overflow => "Overflow"

/-- A number of 8 bits as `0x` and two digits. -/
def hex2 (n : Nat) : String :=
  "0x" ++ String.ofList (List.leftpad 2 '0' (Nat.toDigits 16 n))

namespace Node

/-- Checks a node's header, up to its free space. -/
def checkHeader (page : Page) (expectedTreeId viewGeneration : Nat)
    (requireViewGeneration : Bool) : Result Unit :=
  let bytes := page.payload
  let generation := readU64 bytes 16
  let freeStart := readU16 bytes 26
  let freeEnd := readU16 bytes 28
  if bytes.length ≠ maxPagePayloadSize then
    .error (invalidBtree (s!"B-tree page {page.id} payload is {bytes.length} bytes, not " ++
      s!"{maxPagePayloadSize}"))
  else if bytes.take 4 ≠ nodeMagic then
    .error (invalidBtree s!"B-tree page {page.id} magic does not match")
  else if readU16 bytes 4 ≠ nodeFormatVersion then
    .error (unsupportedBtree
      s!"B-tree page {page.id} format version {readU16 bytes 4} is not supported")
  else if byteAt bytes 7 ≠ nodeFlags then
    .error (unsupportedBtree
      s!"B-tree page {page.id} flags {hex2 (byteAt bytes 7).toNat} are not supported")
  else if readU64 bytes 8 ≠ expectedTreeId then
    .error (invalidBtree (s!"B-tree page {page.id} belongs to tree {readU64 bytes 8}, not tree " ++
      s!"{expectedTreeId}"))
  else if generation = 0 ∨ generation > viewGeneration then
    .error (invalidBtree (s!"B-tree page {page.id} generation {generation} is outside view " ++
      s!"generation {viewGeneration}"))
  else if requireViewGeneration ∧ generation ≠ viewGeneration then
    .error (invalidBtree (s!"Candidate B-tree page {page.id} has generation {generation}, not " ++
      s!"{viewGeneration}"))
  else if freeStart ≠ nodeHeaderSize + readU16 bytes 24 * slotSize ∨ freeStart > freeEnd ∨
      freeEnd > maxPagePayloadSize then
    .error (invalidBtree
      s!"B-tree page {page.id} has invalid free-space bounds {freeStart}..{freeEnd}")
  else if (slice bytes 30 32).any (· != 0) then
    .error (invalidBtree s!"B-tree page {page.id} reserved header bytes must be zero")
  else if (slice bytes freeStart freeEnd).any (· != 0) then
    .error (invalidBtree s!"B-tree page {page.id} free space must be zero-filled")
  else .ok ()

/-- Reads the cells of a node, each with `decodeCell`, down to the floor its header gives. -/
def decodeCells {α : Type} (page : Page) (decodeCell : Nat → Result (α × Nat)) :
    Result (List α) := do
  let bytes := page.payload
  let freeEnd := readU16 bytes 28
  let (entries, floor) ← Slotted.unpack (readSlot bytes (readU16 bytes 26)) decodeCell
    (validatePackedCell page.id freeEnd) (readU16 bytes 24) 0 maxPagePayloadSize
  validateCellFloor page.id floor freeEnd
  .ok entries

def decodeKind (page : Page) : Result NodeKind :=
  let bytes := page.payload
  let level := byteAt bytes 6
  let generation := readU64 bytes 16
  let leftmostChild := readU64 bytes 32
  let leftmostChildHash := UInt64.ofNat (readU64 bytes 40)
  match page.pageType with
  | .btreeLeaf =>
    if level ≠ 0 ∨ leftmostChild ≠ noPageId ∨ leftmostChildHash ≠ emptyHash then
      .error (invalidBtree s!"B-tree leaf page {page.id} has internal-node header fields")
    else do
      let entries ← decodeCells page (decodeLeafCell bytes generation)
      (validateSortedLeafEntries entries generation).mapError asCorruption
      .ok (.leaf entries)
  | .btreeInternal =>
    if level = 0 then
      .error (invalidBtree s!"B-tree internal page {page.id} has no level")
    else do
      validateChildPage page.id leftmostChild
      let entries ← decodeCells page (decodeChildCell page.id bytes)
      (validateSortedInternalEntries page.id leftmostChild entries).mapError asCorruption
      .ok (.internal ⟨leftmostChild, leftmostChildHash, entries⟩)
  | other => .error (invalidBtree
      s!"Page {page.id} has type {other.debug}, not a B-tree page")

def decode (page : Page) (expectedTreeId viewGeneration : Nat) (requireViewGeneration : Bool) :
    Result Node := do
  checkHeader page expectedTreeId viewGeneration requireViewGeneration
  let kind ← decodeKind page
  .ok ⟨readU64 page.payload 8, readU64 page.payload 16, byteAt page.payload 6, kind⟩

end Node

end TinyJoin
