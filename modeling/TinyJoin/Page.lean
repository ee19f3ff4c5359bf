import TinyJoin.Checksum
import TinyJoin.Value

/-! Physical pages: 4 KiB, each a header of 32 bytes, a payload and zero padding. The checksum in
the header covers the page with its own field read as zero. Page IDs are natural numbers. -/
namespace TinyJoin
open Bytes

def pageSize : Nat := 4096
def maxPageCount : Nat := 65536
def pageHeaderSize : Nat := 32
def maxPagePayloadSize : Nat := pageSize - pageHeaderSize
def superblockPageCount : Nat := 2
def bitmapChunkCount : Nat := 2
def bitmapPageCount : Nat := bitmapChunkCount * 2
def firstDataPageId : Nat := superblockPageCount + bitmapPageCount

/-- `TGRPAGE` and a zero byte. -/
def pageMagic : List UInt8 := [0x54, 0x47, 0x52, 0x50, 0x41, 0x47, 0x45, 0]
def pageFormatVersion : Nat := 2
def pageFlags : Nat := 0
def pageChecksumOffset : Nat := 28

def invalidPage (message : String) : EngineError := ⟨"INVALID_PAGE", message⟩
def unsupportedPage (message : String) : EngineError := ⟨"UNSUPPORTED_PAGE", message⟩

/-- A physical page, exactly `pageSize` bytes. -/
structure PageBytes where
  bytes : List UInt8
  length_eq : bytes.length = pageSize
deriving DecidableEq

namespace PageBytes

@[ext] lemma ext {p q : PageBytes} (h : p.bytes = q.bytes) : p = q := by
  cases p
  cases q
  simpa using h

def zero : PageBytes := ⟨List.replicate pageSize 0, by simp⟩

/-- Writes `value` at `offset`; no caller asks for a write past the page. -/
def put (page : PageBytes) (offset : Nat) (value : List UInt8) : PageBytes :=
  if h : offset + value.length ≤ pageSize then
    ⟨Bytes.put page.bytes offset value, by rw [length_put (by rw [page.length_eq]; exact h),
      page.length_eq]⟩
  else page

lemma bytes_put {page : PageBytes} {offset : Nat} {value : List UInt8}
    (h : offset + value.length ≤ pageSize) :
    (page.put offset value).bytes = Bytes.put page.bytes offset value := by
  simp [put, h]

lemma slice_put_same {page : PageBytes} {offset stop : Nat} {value : List UInt8}
    (h : stop ≤ pageSize) (hs : stop = offset + value.length) :
    slice (page.put offset value).bytes offset stop = value := by
  rw [bytes_put (by omega)]
  exact Bytes.slice_put_same (by rw [page.length_eq]; omega) hs

lemma slice_put_before (page : PageBytes) (value : List UInt8) (start : Nat) {offset stop : Nat}
    (h : stop ≤ offset) : slice (page.put offset value).bytes start stop =
      slice page.bytes start stop := by
  rw [put]
  split
  · next hin => exact Bytes.slice_put_before (by rw [page.length_eq]; exact hin) h
  · rfl

lemma slice_put_after (page : PageBytes) {value : List UInt8} {offset start : Nat} (stop : Nat)
    (h : offset + value.length ≤ start) : slice (page.put offset value).bytes start stop =
      slice page.bytes start stop := by
  rw [put]
  split
  · next hin => exact Bytes.slice_put_after (by rw [page.length_eq]; exact hin) h
  · rfl

lemma take_put (page : PageBytes) (value : List UInt8) {offset n : Nat} (h : n ≤ offset) :
    (page.put offset value).bytes.take n = page.bytes.take n := by
  simpa [slice] using slice_put_before page value 0 h

lemma drop_put (page : PageBytes) {value : List UInt8} {offset n : Nat}
    (h : offset + value.length ≤ n) : (page.put offset value).bytes.drop n = page.bytes.drop n := by
  have hrest := slice_put_after page pageSize h
  rw [slice, slice, List.take_of_length_le (by simp [length_eq]),
    List.take_of_length_le (by simp [length_eq])] at hrest
  exact hrest

/-- Fields of a page's payload, each written at its offset. -/
def putFields (page : PageBytes) (fields : List (Nat × List UInt8)) : PageBytes :=
  fields.foldl (fun page field => page.put (pageHeaderSize + field.1) field.2) page

end PageBytes

inductive PageType
  | superblock
  | allocationBitmap
  | btreeInternal
  | btreeLeaf
  | overflow
deriving DecidableEq, Repr

namespace PageType

def toByte : PageType → UInt8
  | superblock => 1
  | allocationBitmap => 2
  | btreeInternal => 3
  | btreeLeaf => 4
  | overflow => 5

def fromByte (value : UInt8) : Option PageType :=
  if value = 1 then some superblock
  else if value = 2 then some allocationBitmap
  else if value = 3 then some btreeInternal
  else if value = 4 then some btreeLeaf
  else if value = 5 then some overflow
  else none

def tryFrom (value : UInt8) : Result PageType :=
  match fromByte value with
  | some pageType => .ok pageType
  | none => .error (invalidPage s!"Unknown page type {value}")

@[simp] lemma fromByte_toByte (t : PageType) : fromByte t.toByte = some t := by
  cases t <;> decide

lemma tryFrom_toByte (t : PageType) : tryFrom t.toByte = .ok t := by
  rw [tryFrom, fromByte_toByte]

end PageType

/-- The byte at `offset` of a page; every page has one at each offset asked for. -/
def byteAt (bytes : List UInt8) (offset : Nat) : UInt8 := bytes.getD offset 0

def readU16 (bytes : List UInt8) (offset : Nat) : Nat := readLe bytes offset 2
def readU32 (bytes : List UInt8) (offset : Nat) : Nat := readLe bytes offset 4
def readU64 (bytes : List UInt8) (offset : Nat) : Nat := readLe bytes offset 8

/-- The checksum a sealed page carries. -/
def pageChecksum (bytes : List UInt8) : Nat := readU32 bytes pageChecksumOffset

/-- The stripes of a page folded into its hash: those not all zero, with the stripe bitmap. -/
def stripeStep (acc : Xxh64 × Nat × Nat) (indexed : Nat × List UInt8) : Xxh64 × Nat × Nat :=
  let (hash, present, count) := acc
  let (index, stripe) := indexed
  let read := Xxh64.lanes stripe
  -- The checksum field is the upper half of the first stripe's last lane.
  let lanes := if index = 0 then { read with fourth := read.fourth &&& 0xffffffff } else read
  if lanes.first ||| lanes.second ||| lanes.third ||| lanes.fourth != 0 then
    (hash.stripe lanes, present ||| (1 <<< index), count + 1)
  else acc

def computeChecksum (bytes : List UInt8) : Nat :=
  if byteAt bytes 20 = PageType.superblock.toByte then
    let checksum := crc32Update 0xffffffff (bytes.take pageChecksumOffset)
    let checksum := crc32Update checksum [0, 0, 0, 0]
    (~~~crc32Update checksum (bytes.drop (pageChecksumOffset + 4))).toNat
  else
    let (hash, present, count) :=
      ((asChunks 32 bytes).1.zipIdx.map Prod.swap).foldl stripeStep (Xxh64.new 0, 0, 0)
    (fold (hash.finish (count * 32 + 16) (leBytes 16 present))).toNat

/-- Writes a page's checksum, which covers the page with its own field read as zero. -/
def sealPage (page : PageBytes) : PageBytes :=
  page.put pageChecksumOffset (leBytes 4 (computeChecksum page.bytes))

def writePageHeader (bytes : PageBytes) (id : Nat) (pageType : PageType)
    (payloadLength : Nat) : PageBytes :=
  (((((bytes.put 0 pageMagic).put 8 (leBytes 2 pageFormatVersion)).put 10
    (leBytes 2 pageFlags)).put 12 (leBytes 8 id)).put 20 [pageType.toByte]).put 24
    (leBytes 4 payloadLength)

def validatePageId (id : Nat) : Result Unit :=
  if id ≥ maxPageCount then
    .error (invalidPage s!"Page ID {id} exceeds the maximum page ID {maxPageCount - 1}")
  else .ok ()

structure Page where
  id : Nat
  pageType : PageType
  payload : List UInt8
deriving DecidableEq

namespace Page

def payloadTooLong (length : Nat) : EngineError :=
  invalidPage s!"Page payload is {length} bytes, exceeding the {maxPagePayloadSize}-byte limit"

def new (id : Nat) (pageType : PageType) (payload : List UInt8) : Result Page := do
  validatePageId id
  if payload.length > maxPagePayloadSize then .error (payloadTooLong payload.length)
  else .ok ⟨id, pageType, payload⟩

/-- Encodes the page with its checksum field zero, for a page sealed only when it is written to
the device. -/
def encodeUnsealed (page : Page) : Result PageBytes := do
  validatePageId page.id
  if page.payload.length > maxPagePayloadSize then .error (payloadTooLong page.payload.length)
  else .ok ((writePageHeader PageBytes.zero page.id page.pageType page.payload.length).put
    pageHeaderSize page.payload)

def wrongLength (length : Nat) : EngineError :=
  invalidPage s!"A physical page must be exactly {pageSize} bytes, not {length}"

def payloadLengthError (length : Nat) : EngineError :=
  invalidPage s!"Page payload length {length} exceeds the {maxPagePayloadSize}-byte limit"

/-- A number of 16 bits as `0x` and four digits. -/
def hex4 (n : Nat) : String :=
  "0x" ++ String.ofList (List.leftpad 4 '0' (Nat.toDigits 16 n))

/-- Checks a physical page's checksum and every envelope field. -/
def verify (bytes : List UInt8) : Result Unit := do
  if bytes.length ≠ pageSize then .error (wrongLength bytes.length)
  else if computeChecksum bytes ≠ readU32 bytes pageChecksumOffset then
    .error (invalidPage "Page checksum does not match")
  else if bytes.take 8 ≠ pageMagic then .error (invalidPage "Page magic does not match")
  else if readU16 bytes 8 ≠ pageFormatVersion then
    .error (unsupportedPage s!"Page format version {readU16 bytes 8} is not supported")
  else if readU16 bytes 10 ≠ pageFlags then
    .error (unsupportedPage s!"Page flags {hex4 (readU16 bytes 10)} are not supported")
  else
    validatePageId (readU64 bytes 12)
    let _ ← PageType.tryFrom (byteAt bytes 20)
    if (slice bytes 21 24).any (· != 0) then
      .error (invalidPage "Page header reserved bytes must be zero")
    else if readU32 bytes 24 > maxPagePayloadSize then
      .error (payloadLengthError (readU32 bytes 24))
    else if (bytes.drop (pageHeaderSize + readU32 bytes 24)).any (· != 0) then
      .error (invalidPage "Page padding bytes must be zero")
    else .ok ()

/-- Decodes a page which `verify` accepted, or which the engine encoded itself. -/
def decodeVerified (bytes : List UInt8) : Result Page :=
  if bytes.length ≠ pageSize then .error (wrongLength bytes.length)
  else if readU32 bytes 24 > maxPagePayloadSize then
    .error (payloadLengthError (readU32 bytes 24))
  else do
    let pageType ← PageType.tryFrom (byteAt bytes 20)
    .ok ⟨readU64 bytes 12, pageType,
      slice bytes pageHeaderSize (pageHeaderSize + readU32 bytes 24)⟩

/-- The page `bytes` hold, if its type and payload length are valid. -/
def whole (bytes : PageBytes) : Option Page :=
  match PageType.fromByte (byteAt bytes.bytes 20) with
  | some pageType =>
    if readU32 bytes.bytes 24 ≤ maxPagePayloadSize then
      some ⟨readU32 bytes.bytes 12 ||| (readU32 bytes.bytes 16 <<< 32), pageType,
        slice bytes.bytes pageHeaderSize (pageHeaderSize + readU32 bytes.bytes 24)⟩
    else none
  | none => none

/-- Reads a whole page as `decodeVerified` does. -/
def decodeWhole (bytes : PageBytes) : Result Page :=
  match whole bytes with
  | some page => .ok page
  | none => decodeVerified bytes.bytes

end Page

lemma ofLeBytes_append (x y : List UInt8) :
    ofLeBytes (x ++ y) = ofLeBytes x + 256 ^ x.length * ofLeBytes y := by
  induction x with
  | nil => simp [ofLeBytes]
  | cons b x ih =>
    rw [List.cons_append, ofLeBytes, ofLeBytes, ih, List.length_cons, Nat.pow_succ']
    ring

/-- The low half of a lane is what its first four bytes say. -/
lemma u64FromLe_and_low {x y : List UInt8} (hx : x.length = 4) (hy : y.length = 4) :
    u64FromLe (x ++ y) &&& 0xffffffff = u64FromLe x := by
  have hlow : ofLeBytes x < 256 ^ 4 := by
    have := ofLeBytes_lt x
    rwa [hx] at this
  have hhigh : ofLeBytes y < 256 ^ 4 := by
    have := ofLeBytes_lt y
    rwa [hy] at this
  apply UInt64.toNat_inj.mp
  have hmask : (0xffffffff : UInt64).toNat = 2 ^ 32 - 1 := by decide
  rw [UInt64.toNat_and, hmask, Nat.and_two_pow_sub_one_eq_mod, u64FromLe, u64FromLe,
    UInt64.toNat_ofNat', UInt64.toNat_ofNat', ofLeBytes_append, hx]
  omega

lemma zipIdx_map_range {α : Type} (f : Nat → α) (n : Nat) :
    ((List.range n).map f).zipIdx.map Prod.swap = (List.range n).map (fun i => (i, f i)) := by
  apply List.ext_getElem
  · simp
  · intro i h₁ h₂
    simp

/-- Two stripes that agree up to the checksum field fold alike at the start of a page. -/
lemma stripeStep_first {s s' : List UInt8} (acc : Xxh64 × Nat × Nat)
    (h : s.take 28 = s'.take 28) (hs : s.length = 32) (hs' : s'.length = 32) :
    stripeStep acc (0, s) = stripeStep acc (0, s') := by
  have hpart : ∀ start stop, stop ≤ 28 → slice s start stop = slice s' start stop := by
    intro start stop hstop
    rw [← List.take_append_drop 28 s, ← List.take_append_drop 28 s', h,
      slice_append_left (by simp; omega), slice_append_left (by simp; omega)]
  have hlast : ∀ r : List UInt8, r.length = 32 →
      u64FromLe (slice r 24 32) &&& 0xffffffff = u64FromLe (slice r 24 28) := by
    intro r hr
    have hsplit : slice r 24 28 ++ slice r 28 32 = slice r 24 32 :=
      slice_append_slice (by omega) (by omega)
    rw [← hsplit]
    exact u64FromLe_and_low (length_slice (by omega)) (length_slice (by omega))
  simp only [stripeStep, Xxh64.lanes, if_pos, hlast s hs, hlast s' hs', hpart 0 8 (by omega),
    hpart 8 16 (by omega), hpart 16 24 (by omega), hpart 24 28 (by omega)]

lemma foldl_congr_mem {α β : Type} {f g : β → α → β} {l : List α}
    (h : ∀ b, ∀ a ∈ l, f b a = g b a) (b : β) : l.foldl f b = l.foldl g b := by
  induction l generalizing b with
  | nil => rfl
  | cons a l ih =>
    rw [List.foldl_cons, List.foldl_cons, h b a List.mem_cons_self]
    exact ih (fun b a ha => h b a (List.mem_cons_of_mem _ ha)) _

lemma byteAt_eq_slice (bytes : List UInt8) (offset : Nat) :
    byteAt bytes offset = (slice bytes offset (offset + 1)).getD 0 0 := by
  simp [byteAt, slice, List.getD_eq_getElem?_getD]

/-- The checksum reads its own field as zero, so writing the field does not change it. -/
lemma computeChecksum_put {page : PageBytes} {value : List UInt8} (h : value.length = 4) :
    computeChecksum (page.put pageChecksumOffset value).bytes = computeChecksum page.bytes := by
  have hbyte : byteAt (page.put pageChecksumOffset value).bytes 20 = byteAt page.bytes 20 := by
    rw [byteAt_eq_slice, byteAt_eq_slice, PageBytes.slice_put_before _ _ _ (by decide)]
  have htake := PageBytes.take_put page value (Nat.le_refl pageChecksumOffset)
  have hdrop : (page.put pageChecksumOffset value).bytes.drop (pageChecksumOffset + 4) =
      page.bytes.drop (pageChecksumOffset + 4) := PageBytes.drop_put page (by omega)
  rw [computeChecksum, computeChecksum, hbyte, htake, hdrop]
  split
  · rfl
  · have hfold : ∀ acc, ((asChunks 32 (page.put pageChecksumOffset value).bytes).1.zipIdx.map
        Prod.swap).foldl stripeStep acc =
        ((asChunks 32 page.bytes).1.zipIdx.map Prod.swap).foldl stripeStep acc := by
      intro acc
      simp only [asChunks, zipIdx_map_range, List.foldl_map, PageBytes.length_eq]
      apply foldl_congr_mem
      intro acc index hindex
      have hlt : index < 128 := by simpa [pageSize] using hindex
      rcases Nat.eq_zero_or_pos index with rfl | hpos
      · apply stripeStep_first
        · simpa [slice, List.take_take, pageChecksumOffset] using
            PageBytes.slice_put_before page value 0 (Nat.le_refl pageChecksumOffset)
        · exact length_slice (by rw [PageBytes.length_eq]; decide)
        · exact length_slice (by rw [PageBytes.length_eq]; decide)
      · rw [PageBytes.slice_put_after _ _ (by simp only [h, pageChecksumOffset]; omega)]
    rw [hfold]

lemma computeChecksum_lt (bytes : List UInt8) : computeChecksum bytes < 2 ^ 32 := by
  rw [computeChecksum]
  split <;> exact UInt32.toNat_lt _

@[simp] lemma computeChecksum_sealPage (page : PageBytes) :
    computeChecksum (sealPage page).bytes = computeChecksum page.bytes :=
  computeChecksum_put (length_leBytes _ _)

lemma slice_checksum_sealPage (page : PageBytes) :
    slice (sealPage page).bytes pageChecksumOffset (pageChecksumOffset + 4) =
      leBytes 4 (computeChecksum page.bytes) :=
  PageBytes.slice_put_same (by decide) (by rw [length_leBytes])

lemma readLe_eq_of_slice {bytes : List UInt8} {offset width n : Nat} (hn : n < 256 ^ width)
    (h : slice bytes offset (offset + width) = leBytes width n) : readLe bytes offset width = n := by
  rw [readLe, h, ofLeBytes_leBytes_of_lt hn]

@[simp] lemma pageChecksum_sealPage (page : PageBytes) :
    pageChecksum (sealPage page).bytes = computeChecksum page.bytes :=
  readLe_eq_of_slice (computeChecksum_lt _) (slice_checksum_sealPage page)

lemma sealPage_drop (page : PageBytes) {n : Nat} (h : pageChecksumOffset + 4 ≤ n) :
    (sealPage page).bytes.drop n = page.bytes.drop n :=
  PageBytes.drop_put _ (by rw [length_leBytes]; exact h)

/-- The header fields before the checksum are those of page `id`. -/
structure Envelope (page : PageBytes) (id : Nat) (pageType : PageType) (length : Nat) :
    Prop where
  magic : page.bytes.take 8 = pageMagic
  version : slice page.bytes 8 10 = leBytes 2 pageFormatVersion
  flags : slice page.bytes 10 12 = leBytes 2 pageFlags
  id : slice page.bytes 12 20 = leBytes 8 id
  pageType : slice page.bytes 20 21 = [pageType.toByte]
  reserved : slice page.bytes 21 24 = [0, 0, 0]
  length : slice page.bytes 24 28 = leBytes 4 length

section Envelopes
variable {page : PageBytes} {id : Nat} {pageType : PageType} {length : Nat}

lemma Envelope.put (h : Envelope page id pageType length) (value : List UInt8) {offset : Nat}
    (hoffset : pageChecksumOffset ≤ offset) :
    Envelope (page.put offset value) id pageType length := by
  have hkept : ∀ start stop, stop ≤ 28 →
      slice (page.put offset value).bytes start stop = slice page.bytes start stop :=
    fun start stop hstop =>
      PageBytes.slice_put_before _ _ _ (Nat.le_trans hstop hoffset)
  refine ⟨?_, ?_, ?_, ?_, ?_, ?_, ?_⟩
  · rw [PageBytes.take_put _ _ (Nat.le_trans (by decide) hoffset)]
    exact h.magic
  · rw [hkept _ _ (by omega)]
    exact h.version
  · rw [hkept _ _ (by omega)]
    exact h.flags
  · rw [hkept _ _ (by omega)]
    exact h.id
  · rw [hkept _ _ (by omega)]
    exact h.pageType
  · rw [hkept _ _ (by omega)]
    exact h.reserved
  · rw [hkept _ _ (by omega)]
    exact h.length

lemma Envelope.sealPage (h : Envelope page id pageType length) :
    Envelope (TinyJoin.sealPage page) id pageType length :=
  h.put _ (Nat.le_refl _)

lemma slice_zero {start stop : Nat} (h : stop ≤ pageSize) :
    slice PageBytes.zero.bytes start stop = List.replicate (stop - start) 0 := by
  rw [slice, PageBytes.zero, List.drop_replicate, List.take_replicate]
  congr 1
  omega

lemma envelope_writePageHeader (id : Nat) (pageType : PageType) (length : Nat) :
    Envelope (writePageHeader PageBytes.zero id pageType length) id pageType length := by
  have hmagic : pageMagic.length = 8 := rfl
  have hpast : ∀ (p : PageBytes) (v : List UInt8) (offset start stop : Nat), stop ≤ offset →
      slice (p.put offset v).bytes start stop = slice p.bytes start stop :=
    fun p v offset start stop h => PageBytes.slice_put_before p v start h
  refine ⟨?_, ?_, ?_, ?_, ?_, ?_, ?_⟩
  · have h := @PageBytes.slice_put_same PageBytes.zero 0 8 pageMagic (by decide) rfl
    have hkept : slice (writePageHeader PageBytes.zero id pageType length).bytes 0 8 =
        pageMagic := by
      rw [writePageHeader, hpast _ _ _ _ _ (by omega), hpast _ _ _ _ _ (by omega),
        hpast _ _ _ _ _ (by omega), hpast _ _ _ _ _ (by omega), hpast _ _ _ _ _ (by omega), h]
    simpa [slice] using hkept
  · rw [writePageHeader, hpast _ _ _ _ _ (by omega), hpast _ _ _ _ _ (by omega),
      hpast _ _ _ _ _ (by omega), hpast _ _ _ _ _ (by omega)]
    exact PageBytes.slice_put_same (by decide) (by rw [length_leBytes])
  · rw [writePageHeader, hpast _ _ _ _ _ (by omega), hpast _ _ _ _ _ (by omega),
      hpast _ _ _ _ _ (by omega)]
    exact PageBytes.slice_put_same (by decide) (by rw [length_leBytes])
  · rw [writePageHeader, hpast _ _ _ _ _ (by omega), hpast _ _ _ _ _ (by omega)]
    exact PageBytes.slice_put_same (by decide) (by rw [length_leBytes])
  · rw [writePageHeader, hpast _ _ _ _ _ (by omega)]
    exact PageBytes.slice_put_same (by decide) rfl
  · rw [writePageHeader, hpast _ _ _ _ _ (by omega), PageBytes.slice_put_after _ _ (by simp),
      PageBytes.slice_put_after _ _ (by simp), PageBytes.slice_put_after _ _ (by simp),
      PageBytes.slice_put_after _ _ (by simp), PageBytes.slice_put_after _ _ (by simp [hmagic]),
      slice_zero (by decide)]
    rfl
  · exact PageBytes.slice_put_same (by decide) (by rw [length_leBytes])

lemma drop_writePageHeader (id : Nat) (pageType : PageType) (length : Nat) {n : Nat}
    (h : pageHeaderSize ≤ n) :
    (writePageHeader PageBytes.zero id pageType length).bytes.drop n =
      List.replicate (pageSize - n) 0 := by
  have hmagic : pageMagic.length = 8 := rfl
  have hn : 32 ≤ n := h
  rw [writePageHeader, PageBytes.drop_put _ (by simp; omega), PageBytes.drop_put _ (by simp; omega),
    PageBytes.drop_put _ (by simp; omega), PageBytes.drop_put _ (by simp; omega),
    PageBytes.drop_put _ (by simp; omega), PageBytes.drop_put _ (by omega), PageBytes.zero,
    List.drop_replicate]

lemma Envelope.byteAt_type (h : Envelope page id pageType length) :
    byteAt page.bytes 20 = pageType.toByte := by
  rw [byteAt_eq_slice, h.pageType]
  rfl

lemma Envelope.readU64_id (h : Envelope page id pageType length) (hid : id < maxPageCount) :
    readU64 page.bytes 12 = id :=
  readLe_eq_of_slice (Nat.lt_trans hid (by decide)) h.id

lemma Envelope.readU32_length (h : Envelope page id pageType length)
    (hlen : length ≤ maxPagePayloadSize) : readU32 page.bytes 24 = length :=
  readLe_eq_of_slice (Nat.lt_of_le_of_lt hlen (by decide)) h.length

/-- An envelope, its checksum and zero padding are what verification asks for. -/
lemma verify_of_envelope (h : Envelope page id pageType length) (hid : id < maxPageCount)
    (hlen : length ≤ maxPagePayloadSize)
    (hsum : computeChecksum page.bytes = pageChecksum page.bytes)
    (hpad : ∀ b ∈ page.bytes.drop (pageHeaderSize + length), b = 0) :
    Page.verify page.bytes = .ok () := by
  have hversion : readU16 page.bytes 8 = pageFormatVersion :=
    readLe_eq_of_slice (by decide) h.version
  have hflags : readU16 page.bytes 10 = pageFlags := readLe_eq_of_slice (by decide) h.flags
  have hvalid : validatePageId id = .ok () := by
    rw [validatePageId, if_neg (by omega)]
  have hpadding : (page.bytes.drop (pageHeaderSize + length)).any (· != 0) = false := by
    rw [List.any_eq_false]
    intro b hb
    simp [hpad b hb]
  have hsum' : computeChecksum page.bytes = readU32 page.bytes pageChecksumOffset := hsum
  rw [Page.verify]
  simp only [page.length_eq, ne_eq, not_true_eq_false, if_false, hsum', h.magic, hversion, hflags,
    h.readU64_id hid, hvalid, h.byteAt_type, PageType.tryFrom_toByte, h.reserved,
    h.readU32_length hlen, hpadding]
  simp [Nat.not_lt.mpr hlen]
  rfl

lemma decodeVerified_of_envelope (h : Envelope page id pageType length) (hid : id < maxPageCount)
    (hlen : length ≤ maxPagePayloadSize) :
    Page.decodeVerified page.bytes =
      .ok ⟨id, pageType, slice page.bytes pageHeaderSize (pageHeaderSize + length)⟩ := by
  rw [Page.decodeVerified]
  simp only [page.length_eq, ne_eq, not_true_eq_false, if_false, h.readU64_id hid, h.byteAt_type,
    PageType.tryFrom_toByte, h.readU32_length hlen]
  rw [if_neg (Nat.not_lt.mpr hlen)]
  rfl

end Envelopes

namespace Page

/-- A page within the limits of the format. -/
def Valid (page : Page) : Prop :=
  page.id < maxPageCount ∧ page.payload.length ≤ maxPagePayloadSize

lemma encodeUnsealed_eq_ok {page : Page} {raw : PageBytes} (h : page.encodeUnsealed = .ok raw) :
    page.Valid ∧ raw = (writePageHeader PageBytes.zero page.id page.pageType
      page.payload.length).put pageHeaderSize page.payload := by
  rw [encodeUnsealed, validatePageId] at h
  by_cases hid : page.id ≥ maxPageCount
  · rw [if_pos hid] at h
    cases h
  · rw [if_neg hid] at h
    by_cases hlen : page.payload.length > maxPagePayloadSize
    · simp only [if_pos hlen] at h
      cases h
    · simp only [if_neg hlen] at h
      cases h
      exact ⟨⟨by omega, by omega⟩, rfl⟩

lemma encodeUnsealed_of_valid {page : Page} (h : page.Valid) :
    ∃ raw, page.encodeUnsealed = .ok raw := by
  rw [encodeUnsealed, validatePageId, if_neg (Nat.not_le.mpr h.1), if_neg (Nat.not_lt.mpr h.2)]
  exact ⟨_, rfl⟩

section Encoded
variable {page : Page} {raw : PageBytes}

lemma envelope_of_encodeUnsealed (h : page.encodeUnsealed = .ok raw) :
    Envelope raw page.id page.pageType page.payload.length := by
  obtain ⟨-, rfl⟩ := encodeUnsealed_eq_ok h
  exact (envelope_writePageHeader _ _ _).put _ (by decide)

lemma payload_of_encodeUnsealed (h : page.encodeUnsealed = .ok raw) :
    slice raw.bytes pageHeaderSize (pageHeaderSize + page.payload.length) = page.payload := by
  obtain ⟨hvalid, rfl⟩ := encodeUnsealed_eq_ok h
  have hfits : pageHeaderSize + page.payload.length ≤ pageSize := by
    have := hvalid.2
    simp only [maxPagePayloadSize, pageSize, pageHeaderSize] at this ⊢
    omega
  exact PageBytes.slice_put_same hfits rfl

lemma padding_of_encodeUnsealed (h : page.encodeUnsealed = .ok raw) :
    ∀ b ∈ raw.bytes.drop (pageHeaderSize + page.payload.length), b = 0 := by
  obtain ⟨-, rfl⟩ := encodeUnsealed_eq_ok h
  intro b hb
  rw [PageBytes.drop_put _ (Nat.le_refl _), drop_writePageHeader _ _ _ (by omega)] at hb
  exact List.eq_of_mem_replicate hb

/-- A page as encoded, sealed or not, decodes to itself. -/
lemma decodeVerified_encodeUnsealed (h : page.encodeUnsealed = .ok raw) :
    decodeVerified raw.bytes = .ok page := by
  obtain ⟨hid, hlen⟩ := (encodeUnsealed_eq_ok h).1
  rw [decodeVerified_of_envelope (envelope_of_encodeUnsealed h) hid hlen,
    payload_of_encodeUnsealed h]

lemma decodeVerified_sealPage (h : page.encodeUnsealed = .ok raw) :
    decodeVerified (sealPage raw).bytes = .ok page := by
  obtain ⟨hid, hlen⟩ := (encodeUnsealed_eq_ok h).1
  rw [decodeVerified_of_envelope (envelope_of_encodeUnsealed h).sealPage hid hlen, sealPage,
    PageBytes.slice_put_after _ _ (by rw [length_leBytes]; decide), payload_of_encodeUnsealed h]

lemma verify_sealPage (h : page.encodeUnsealed = .ok raw) :
    verify (sealPage raw).bytes = .ok () := by
  obtain ⟨hid, hlen⟩ := (encodeUnsealed_eq_ok h).1
  apply verify_of_envelope (envelope_of_encodeUnsealed h).sealPage hid hlen
  · rw [computeChecksum_sealPage, pageChecksum_sealPage]
  · intro b hb
    rw [(sealPage_drop raw (by simp only [pageHeaderSize, pageChecksumOffset]; omega))] at hb
    exact padding_of_encodeUnsealed h b hb

end Encoded

lemma readU64_eq_or (bytes : List UInt8) (offset : Nat) :
    readU32 bytes offset ||| (readU32 bytes (offset + 4) <<< 32) = readU64 bytes offset := by
  have hsplit : slice bytes offset (offset + 4) ++ slice bytes (offset + 4) (offset + 8) =
      slice bytes offset (offset + 8) := slice_append_slice (by omega) (by omega)
  have hlow : readU32 bytes offset < 2 ^ 32 := readLe_lt bytes offset 4
  rcases Nat.lt_or_ge bytes.length (offset + 4) with hshort | hlong
  · -- no upper half: both sides read the bytes there are
    have hnone : slice bytes (offset + 4) (offset + 8) = [] := by
      rw [slice, List.drop_eq_nil_of_le (by omega), List.take_nil]
    have hhigh : readU32 bytes (offset + 4) = 0 := by
      rw [readU32, readLe, hnone]
      rfl
    rw [hnone, List.append_nil] at hsplit
    rw [hhigh, readU64, readU32, readLe, readLe, hsplit]
    simp
  · have hlen : (slice bytes offset (offset + 4)).length = 4 := by
      rw [length_slice hlong]
      omega
    rw [readU64, readLe, ← hsplit, ofLeBytes_append, hlen, Nat.shiftLeft_eq, Nat.or_comm,
      Nat.mul_comm, ← Nat.two_pow_add_eq_or_of_lt hlow, Nat.add_comm]
    rfl

lemma decodeWhole_eq (page : PageBytes) : decodeWhole page = decodeVerified page.bytes := by
  rw [decodeWhole, whole, decodeVerified]
  simp only [page.length_eq, ne_eq, not_true_eq_false, if_false, PageType.tryFrom]
  have hid := readU64_eq_or page.bytes 12
  rcases Nat.lt_or_ge maxPagePayloadSize (readU32 page.bytes 24) with hlen | hlen
  · have hover : ¬readU32 page.bytes 24 ≤ maxPagePayloadSize := Nat.not_le.mpr hlen
    cases PageType.fromByte (byteAt page.bytes 20) <;> simp [hlen, hover]
  · have hfits : readU32 page.bytes 24 ≤ maxPagePayloadSize := hlen
    rw [if_neg (Nat.not_lt.mpr hlen)]
    cases PageType.fromByte (byteAt page.bytes 20) with
    | none => rfl
    | some pageType =>
      simp only [hid, hfits, if_true]
      rfl

end Page

end TinyJoin
