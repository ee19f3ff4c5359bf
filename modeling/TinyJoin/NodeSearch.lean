import TinyJoin.Lib.WordOrder
import TinyJoin.NodeCanonical

/-! A view of a node, which checks the header and reads the cells it is asked for. A search reads each
key it probes in place, where the checked readers call a reader for each, and finds what they find. -/
namespace TinyJoin
open Bytes WordOrder

/-- A reading of one page. Its slots stand before its cells, and its cells within the payload. -/
structure NodeView where
  pageId : Nat
  level : UInt8
  generation : Nat
  leaf : Bool
  leftmostChild : Nat
  itemCount : Nat
  freeEnd : Nat
  bytes : List UInt8
  length_eq : bytes.length = maxPagePayloadSize
  slots_le : nodeHeaderSize + itemCount * slotSize ≤ freeEnd
  freeEnd_le : freeEnd ≤ maxPagePayloadSize

/-- The order of a cell's key and another key, decided by their first eight bytes as little-endian
words where these differ, or are all there is. -/
def keyOrder (cell key : List UInt8) : Ordering :=
  if 8 ≤ cell.length ∧ 8 ≤ key.length then
    let a := word (cell.take 8)
    let b := word (key.take 8)
    if a ≠ b then
      let shift := shift (a ^^^ b)
      cmp (WordOrder.byteAt a.toNat shift) (WordOrder.byteAt b.toNat shift)
    else if cell.length = 8 ∧ key.length = 8 then .eq
    else cmp cell key
  else cmp cell key

/-- The bytes of `start..stop`, where there are such. -/
def getRange (bytes : List UInt8) (start stop : Nat) : Option (List UInt8) :=
  if start ≤ stop ∧ stop ≤ bytes.length then some (slice bytes start stop) else none

/-- The place of an order among `Less`, `Equal` and `Greater`. -/
def orderRank : Ordering → Nat
  | .lt => 0
  | .eq => 1
  | .gt => 2

namespace NodeView

lemma bounds_of_free {start stop slots limit : Nat} (h : ¬(start ≠ slots ∨ start > stop ∨ stop > limit)) :
    slots ≤ stop ∧ stop ≤ limit := by
  omega

def fromPayload (pageId : Nat) (pageType : PageType) (payload : List UInt8)
    (expectedTreeId viewGeneration : Nat) (requireViewGeneration : Bool) : Result NodeView :=
  let version := readU16 payload 4
  let treeId := readU64 payload 8
  let generation := readU64 payload 16
  let level := byteAt payload 6
  let itemCount := readU16 payload 24
  let freeStart := readU16 payload 26
  let freeEnd := readU16 payload 28
  let leftmostChild := readU64 payload 32
  if hlength : payload.length ≠ maxPagePayloadSize ∨ payload.take 4 ≠ nodeMagic then
    .error (invalidBtree s!"Page {pageId} is not a B-tree node")
  else if version ≠ nodeFormatVersion ∨ byteAt payload 7 ≠ nodeFlags then
    .error (unsupportedBtree
      s!"B-tree page {pageId} format version {version} or flags are not supported")
  else if treeId ≠ expectedTreeId then
    .error (invalidBtree
      s!"B-tree page {pageId} belongs to tree {treeId}, not tree {expectedTreeId}")
  else if generation = 0 ∨ generation > viewGeneration ∨
      requireViewGeneration ∧ generation ≠ viewGeneration then
    .error (invalidBtree (s!"B-tree page {pageId} generation {generation} does not fit view " ++
      s!"generation {viewGeneration}"))
  else do
    let leaf ← match pageType with
      | .btreeLeaf => if level = 0 then .ok true else .error (wrongLevel pageId .btreeLeaf level)
      | .btreeInternal =>
        if level > 0 then .ok false else .error (wrongLevel pageId .btreeInternal level)
      | other => .error (wrongLevel pageId other level)
    if hfree : freeStart ≠ nodeHeaderSize + itemCount * slotSize ∨ freeStart > freeEnd ∨
        freeEnd > maxPagePayloadSize then
      .error (invalidBtree
        s!"B-tree page {pageId} has invalid free-space bounds {freeStart}..{freeEnd}")
    else
      if leaf = false then validateChildPage pageId leftmostChild
      .ok ⟨pageId, level, generation, leaf, leftmostChild, itemCount, freeEnd, payload,
        not_not.mp fun h => hlength (.inl h), (bounds_of_free hfree).1, (bounds_of_free hfree).2⟩
where
  wrongLevel (pageId : Nat) (pageType : PageType) (level : UInt8) : EngineError := invalidBtree
    s!"Page {pageId} of type {pageType.debug} at level {level} is not a valid B-tree node"

variable (view : NodeView)

def cellError (index : Nat) : EngineError :=
  if index ≥ view.itemCount then
    invalidBtree s!"B-tree page {view.pageId} has no cell {index}"
  else invalidBtree s!"B-tree page {view.pageId} cell {index} lies outside its cell area"

def cellOffset (index : Nat) : Result Nat :=
  if index ≥ view.itemCount then .error (view.cellError index)
  else
    let offset := readU16 view.bytes (nodeHeaderSize + index * slotSize)
    if offset < view.freeEnd ∨ offset ≥ view.bytes.length then .error (view.cellError index)
    else .ok offset

/-- The key of a cell that has a header of `headerSize` bytes. -/
def cellKey (headerSize index : Nat) : Result (List UInt8) := do
  let offset ← view.cellOffset index
  let headerEnd ← checkedEnd offset headerSize view.bytes.length
  let keyLength := readU16 view.bytes offset
  let keyEnd ← checkedEnd headerEnd keyLength view.bytes.length
  .ok (slice view.bytes headerEnd keyEnd)

def leafKey (index : Nat) : Result (List UInt8) := view.cellKey leafCellHeaderSize index

def internalKey (index : Nat) : Result (List UInt8) := view.cellKey internalCellHeaderSize index

/-- The rounds of a binary search from `low..high`. -/
def partitionFrom (before : Nat → Result Bool) (low high : Nat) : Result Nat :=
  if low < high then do
    let middle := low + (high - low) / 2
    if (← before middle) then partitionFrom before (middle + 1) high
    else partitionFrom before low middle
  else .ok low
termination_by high - low

/-- The number of leading entries for which `before` holds, by binary search over sorted cells, all
of which before `low` it holds for. -/
def partition (low : Nat) (before : Nat → Result Bool) : Result Nat :=
  partitionFrom before (min low view.itemCount) view.itemCount

/-- The child to follow for `key`: past every separator key at or below it. -/
def childIndexFor (key : List UInt8) : Result Nat :=
  view.partition 0 fun index => do .ok (decide ((← view.internalKey index) ≤ key))

def lowerBoundFrom (low : Nat) (key : List UInt8) : Result Nat :=
  view.partition low fun index => do .ok (decide ((← view.leafKey index) < key))

/-- The first leaf entry at or after `key`. -/
def lowerBound (key : List UInt8) : Result Nat := view.lowerBoundFrom 0 key

/-- The order of the key in the cell that slot `middle` points at and `key`, read in place. -/
def probe (header : Nat) (key : List UInt8) (middle : Nat) : Option Ordering := do
  let slot ← getRange view.bytes (nodeHeaderSize + middle * slotSize)
    (nodeHeaderSize + middle * slotSize + slotSize)
  let offset := ofLeBytes slot
  if offset < view.freeEnd then none
  else
    let length ← getRange view.bytes offset (offset + 2)
    let start := offset + header
    let cell ← getRange view.bytes start (start + ofLeBytes length)
    some (keyOrder cell key)

/-- The rounds of a search from `low..high`. -/
def searchFrom (probe : Nat → Option Ordering) (passed : Ordering) (low high : Nat)
    (found : Bool) : Option (Nat × Bool) :=
  if low < high then do
    let middle := low + (high - low) / 2
    let order ← probe middle
    if orderRank order ≤ orderRank passed then searchFrom probe passed (middle + 1) high found
    else searchFrom probe passed low middle (decide (order = .eq))
  else some (low, found)
termination_by high - low

/-- Where `key` falls among the node's keys, and whether the key there is `key` itself. -/
def search (key : List UInt8) : Option (Nat × Bool) :=
  if view.bytes.length ≠ maxPagePayloadSize then none
  else
    let header := if view.leaf then leafCellHeaderSize else internalCellHeaderSize
    -- A leaf's search passes the keys below `key`, and an internal node's those at or below.
    let passed := if view.leaf then .lt else .eq
    searchFrom (view.probe header key) passed 0 view.itemCount false

/-- What the readers find that a search stands in for. -/
def searched (key : List UInt8) : Result Nat :=
  if view.leaf then view.lowerBound key else view.childIndexFor key

end NodeView

/-! ## The order of keys -/

lemma cmp_of_lt {x y : List UInt8} (h : x < y) : cmp x y = .lt := if_pos h

lemma cmp_of_gt {x y : List UInt8} (h : y < x) : cmp x y = .gt :=
  (if_neg (lt_asymm h)).trans (if_pos h)

lemma cmp_refl (x : List UInt8) : cmp x x = .eq :=
  (if_neg (lt_irrefl x)).trans (if_neg (lt_irrefl x))

lemma cmp_cases (x y : List UInt8) :
    (cmp x y = .lt ↔ x < y) ∧ (cmp x y = .eq ↔ x = y) ∧ (cmp x y = .gt ↔ y < x) := by
  rcases lt_trichotomy x y with hlt | rfl | hgt
  · rw [cmp_of_lt hlt]
    simp [hlt, hlt.ne, hlt.le]
  · rw [cmp_refl]
    simp
  · rw [cmp_of_gt hgt]
    simp [hgt, hgt.ne', hgt.le]

/-- The orders that a leaf's search passes, and an internal node's. -/
lemma orderRank_cmp (x y : List UInt8) : (orderRank (cmp x y) ≤ orderRank .lt ↔ x < y) ∧
    (orderRank (cmp x y) ≤ orderRank .eq ↔ x ≤ y) := by
  rcases lt_trichotomy x y with hlt | rfl | hgt
  · rw [cmp_of_lt hlt]
    simp [orderRank, hlt, hlt.le]
  · rw [cmp_refl]
    simp [orderRank]
  · rw [cmp_of_gt hgt]
    simp [orderRank, hgt, hgt.le]

lemma cmp_parting {x y p s t : List UInt8} {b c : UInt8} (hx : p ++ b :: s = x)
    (hy : p ++ c :: t = y) (h : b ≠ c) : cmp x y = cmp b c := by
  subst hx hy
  rcases lt_or_gt_of_ne h with hlt | hgt
  · rw [cmp_of_lt ((OrderCode.Before.here hlt).prepend p).lt]
    exact (if_pos hlt).symm
  · rw [cmp_of_gt ((OrderCode.Before.here hgt).prepend p).lt]
    exact ((if_neg (lt_asymm hgt)).trans (if_pos hgt)).symm

/-- The fast comparison is the lexicographic order of the bytes. -/
lemma keyOrder_eq_cmp (cell key : List UInt8) : keyOrder cell key = cmp cell key := by
  by_cases hlen : 8 ≤ cell.length ∧ 8 ≤ key.length
  · have hx : (cell.take 8).length = 8 := List.length_take_of_le hlen.1
    have hy : (key.take 8).length = 8 := List.length_take_of_le hlen.2
    have hcell := List.take_append_drop 8 cell
    have hkey := List.take_append_drop 8 key
    by_cases hstart : cell.take 8 = key.take 8
    · have hword : ¬word (cell.take 8) ≠ word (key.take 8) := fun h => h (by rw [hstart])
      rw [keyOrder, if_pos hlen, if_neg hword]
      by_cases height : cell.length = 8 ∧ key.length = 8
      · rw [if_pos height]
        rw [List.take_of_length_le height.1.le, List.take_of_length_le height.2.le] at hstart
        rw [hstart, cmp_refl]
      · rw [if_neg height]
    · have hword : word (cell.take 8) ≠ word (key.take 8) := fun h =>
        hstart ((word_inj hx hy).mp h)
      obtain ⟨p, s, t, hp, hq, hbyte⟩ := exists_parting hx hy hstart
      rw [hp, List.append_assoc, List.cons_append] at hcell
      rw [hq, List.append_assoc, List.cons_append] at hkey
      rw [keyOrder, if_pos hlen, if_pos hword, cmp_parting hcell hkey hbyte]
  · rw [keyOrder, if_neg hlen]

namespace NodeView
variable {view : NodeView} {header : Nat} {key : List UInt8} {passed : Ordering}

/-! ## One probe -/

lemma slot_eq {middle : Nat} (h : middle < view.itemCount) :
    getRange view.bytes (nodeHeaderSize + middle * slotSize)
      (nodeHeaderSize + middle * slotSize + slotSize) =
      some (slice view.bytes (nodeHeaderSize + middle * slotSize)
        (nodeHeaderSize + middle * slotSize + slotSize)) := by
  have hslots := view.slots_le
  have hfree := view.freeEnd_le
  have hlength := view.length_eq
  apply if_pos
  simp only [slotSize] at hslots ⊢
  omega

/-- Where the key of a cell lies, if the cell is within its page. -/
def Holds (view : NodeView) (header index : Nat) : Prop :=
  let offset := readU16 view.bytes (nodeHeaderSize + index * slotSize)
  view.freeEnd ≤ offset ∧
    offset + header + readU16 view.bytes offset ≤ view.bytes.length

instance (index : Nat) : Decidable (view.Holds header index) :=
  inferInstanceAs (Decidable (_ ∧ _))

/-- The bytes a cell would hold as its key. -/
def keyBytes (view : NodeView) (header index : Nat) : List UInt8 :=
  let offset := readU16 view.bytes (nodeHeaderSize + index * slotSize)
  slice view.bytes (offset + header) (offset + header + readU16 view.bytes offset)

/-- The checked reader reads the key of a cell that is within its page, and fails on any other. -/
lemma cellKey_eq_ok {index : Nat} {cell : List UInt8} (hheader : 0 < header)
    (h : index < view.itemCount) :
    view.cellKey header index = .ok cell ↔
      view.Holds header index ∧ cell = view.keyBytes header index := by
  have hoffset : ∀ {offset : Nat}, view.cellOffset index = .ok offset ↔
      offset = readU16 view.bytes (nodeHeaderSize + index * slotSize) ∧
        view.freeEnd ≤ offset ∧ offset < view.bytes.length := by
    intro offset
    rw [cellOffset, if_neg (by omega), Except.ite_error_eq_ok]
    constructor
    · rintro ⟨hin, heq⟩
      obtain rfl := Except.ok.inj heq
      exact ⟨rfl, by omega⟩
    · rintro ⟨rfl, hlow, hhigh⟩
      exact ⟨by omega, rfl⟩
  simp only [cellKey, Except.bind_eq_ok, hoffset, checkedEnd_eq_ok]
  constructor
  · rintro ⟨offset, ⟨rfl, hlow, -⟩, headerEnd, ⟨rfl, -⟩, keyEnd, ⟨rfl, hend⟩, heq⟩
    exact ⟨⟨hlow, hend⟩, (Except.ok.inj heq).symm⟩
  · rintro ⟨⟨hlow, hend⟩, rfl⟩
    exact ⟨_, ⟨rfl, hlow, by omega⟩, _, ⟨rfl, by omega⟩, _, ⟨rfl, hend⟩, rfl⟩

/-- A probe reads the key that the checked reader does, and stops where it does. -/
lemma probe_eq {middle : Nat} (hheader : 2 ≤ header) (h : middle < view.itemCount) :
    view.probe header key middle = if view.Holds header middle then
      some (keyOrder (view.keyBytes header middle) key) else none := by
  have hslot : ofLeBytes (slice view.bytes (nodeHeaderSize + middle * slotSize)
      (nodeHeaderSize + middle * slotSize + slotSize)) =
      readU16 view.bytes (nodeHeaderSize + middle * slotSize) := rfl
  simp only [probe, slot_eq h, Option.bind_eq_bind, Option.bind_some, hslot]
  by_cases hlow : readU16 view.bytes (nodeHeaderSize + middle * slotSize) < view.freeEnd
  · rw [if_pos hlow, if_neg (fun hholds => absurd hholds.1 (by omega))]
  rw [if_neg hlow]
  by_cases hholds : view.Holds header middle
  · obtain ⟨-, hend⟩ := id hholds
    rw [if_pos hholds, keyBytes]
    generalize readU16 view.bytes (nodeHeaderSize + middle * slotSize) = offset at hend ⊢
    have hlength : getRange view.bytes offset (offset + 2) =
        some (slice view.bytes offset (offset + 2)) := if_pos (by omega)
    have hread : ofLeBytes (slice view.bytes offset (offset + 2)) = readU16 view.bytes offset := rfl
    rw [hlength, Option.bind_some, hread, getRange, if_pos (by omega)]
    rfl
  · have hend : ¬readU16 view.bytes (nodeHeaderSize + middle * slotSize) + header +
        readU16 view.bytes (readU16 view.bytes (nodeHeaderSize + middle * slotSize)) ≤
          view.bytes.length := fun hend => hholds ⟨by omega, hend⟩
    rw [if_neg hholds]
    generalize readU16 view.bytes (nodeHeaderSize + middle * slotSize) = offset at hend ⊢
    rw [getRange]
    split_ifs with hlength
    · have hread : ofLeBytes (slice view.bytes offset (offset + 2)) = readU16 view.bytes offset :=
        rfl
      rw [Option.bind_some, hread, getRange, if_neg (fun hfits => hend hfits.2)]
      rfl
    · rfl

/-! ## The search -/

section Loops
variable {probe : Nat → Option Ordering} {before : Nat → Result Bool} {low high count : Nat}
  {found : Bool}

/-- A search whose probes answer as the checked tests do ends where the checked search ends, and stops
where it fails. -/
lemma searchFrom_fst (h : ∀ i < high,
    (probe i).map (fun order => decide (orderRank order ≤ orderRank passed)) = (before i).toOption) :
    (searchFrom probe passed low high found).map Prod.fst =
      (partitionFrom before low high).toOption := by
  induction hsize : high - low using Nat.strongRecOn generalizing low high found with
  | ind size ih =>
    rw [searchFrom, partitionFrom]
    by_cases hlow : low < high
    · rw [if_pos hlow, if_pos hlow]
      dsimp only
      have hprobe := h (low + (high - low) / 2) (by omega)
      cases hbefore : before (low + (high - low) / 2) with
      | error e =>
        rw [hbefore] at hprobe
        rw [Option.map_eq_none_iff.mp hprobe]
        rfl
      | ok passes =>
        rw [hbefore] at hprobe
        obtain ⟨order, horder, hpasses⟩ := Option.map_eq_some_iff.mp hprobe
        rw [horder]
        change (if orderRank order ≤ orderRank passed then _ else _ : Option _).map _ =
          (if passes = true then _ else _ : Result Nat).toOption
        cases passes with
        | true =>
          rw [if_pos (of_decide_eq_true hpasses)]
          exact ih _ (by omega) h rfl
        | false =>
          rw [if_neg (of_decide_eq_false hpasses)]
          exact ih _ (by omega) (fun i hi => h i (by omega)) rfl
    · rw [if_neg hlow, if_neg hlow]
      rfl

/-- The mark a search ends with tells whether its last end, where it lies within `count`, was an equal
key: it is set with each move of that end. -/
lemma searchFrom_snd {i : Nat} {f : Bool} (hhigh : high ≤ count) (hle : low ≤ high)
    (hfound : found = true ↔ high < count ∧ probe high = some .eq)
    (h : searchFrom probe passed low high found = some (i, f)) :
    f = true ↔ i < count ∧ probe i = some .eq := by
  induction hsize : high - low using Nat.strongRecOn generalizing low high found with
  | ind size ih =>
    rw [searchFrom] at h
    by_cases hlow : low < high
    · rw [if_pos hlow] at h
      obtain ⟨order, horder, h⟩ := Option.bind_eq_some_iff.mp h
      split_ifs at h with hpasses
      · exact ih _ (by omega) hhigh (by omega) hfound h rfl
      · refine ih _ (by omega) (by omega) (by omega) ?_ h rfl
        rw [decide_eq_true_iff, horder, Option.some_inj]
        exact ⟨fun heq => ⟨by omega, heq⟩, And.right⟩
    · rw [if_neg hlow] at h
      obtain ⟨rfl, rfl⟩ := Prod.mk.inj (Option.some.inj h)
      obtain rfl : low = high := by omega
      exact hfound

end Loops

/-- The checked reader of a cell returns its key or fails. -/
lemma cellKey_cases (hheader : 0 < header) {index : Nat} (h : index < view.itemCount) :
    (view.Holds header index ∧ view.cellKey header index = .ok (view.keyBytes header index)) ∨
      (¬view.Holds header index ∧ ∃ e, view.cellKey header index = .error e) := by
  by_cases hholds : view.Holds header index
  · exact .inl ⟨hholds, (cellKey_eq_ok hheader h).mpr ⟨hholds, rfl⟩⟩
  · refine .inr ⟨hholds, ?_⟩
    cases hkey : view.cellKey header index with
    | error e => exact ⟨e, rfl⟩
    | ok cell => exact absurd ((cellKey_eq_ok hheader h).mp hkey).1 hholds

/-- A probe passes the keys that the test `passes` holds for, and stops where their reader does. -/
lemma probe_passes (passes : List UInt8 → Bool) (hheader : 2 ≤ header)
    (hpasses : ∀ cell, (orderRank (cmp cell key) ≤ orderRank passed) ↔ passes cell = true)
    {index : Nat} (h : index < view.itemCount) :
    (view.probe header key index).map (fun order => decide (orderRank order ≤ orderRank passed)) =
      (do .ok (passes (← view.cellKey header index)) : Result Bool).toOption := by
  rw [probe_eq hheader h]
  rcases cellKey_cases (Nat.zero_lt_of_lt hheader) h with ⟨hholds, hkey⟩ | ⟨hholds, e, hkey⟩
  · rw [if_pos hholds, hkey, Option.map_some, keyOrder_eq_cmp]
    exact congrArg some (Bool.eq_iff_iff.mpr (decide_eq_true_iff.trans (hpasses _)))
  · rw [if_neg hholds, hkey]
    rfl

lemma search_fst (view : NodeView) (key : List UInt8) :
    (view.search key).map Prod.fst = (view.searched key).toOption := by
  rw [search, if_neg (not_not.mpr view.length_eq), searched]
  cases view.leaf with
  | true =>
    exact searchFrom_fst fun i hi => probe_passes (fun cell => decide (cell < key)) (by decide)
      (fun cell => (orderRank_cmp cell key).1.trans decide_eq_true_iff.symm) hi
  | false =>
    exact searchFrom_fst fun i hi => probe_passes (fun cell => decide (cell ≤ key)) (by decide)
      (fun cell => (orderRank_cmp cell key).2.trans decide_eq_true_iff.symm) hi

lemma search_snd {i : Nat} {f : Bool} (hleaf : view.leaf = true)
    (h : view.search key = some (i, f)) :
    f = true ↔ i < view.itemCount ∧ view.leafKey i = .ok key := by
  rw [search, if_neg (not_not.mpr view.length_eq), hleaf] at h
  have hunset : false = true ↔ view.itemCount < view.itemCount ∧
      view.probe leafCellHeaderSize key view.itemCount = some .eq :=
    ⟨fun hf => absurd hf Bool.false_ne_true, fun hin => absurd hin.1 (Nat.lt_irrefl _)⟩
  rw [searchFrom_snd (Nat.le_refl _) (Nat.zero_le _) hunset h]
  apply and_congr_right
  intro hi
  rw [probe_eq (by decide) hi, leafKey, cellKey_eq_ok (by decide) hi, keyOrder_eq_cmp,
    Option.ite_none_right_eq_some, Option.some_inj, (cmp_cases _ _).2.1, eq_comm]

end NodeView

/-- A search of a node finds what its checked readers find, says of a leaf whether the key is there,
and stops exactly where they fail; and the comparison it makes is the lexicographic one. -/
theorem search_finds_as_readers :
    (∀ (pageId : Nat) (pageType : PageType) (payload : List UInt8)
      (expectedTreeId viewGeneration : Nat) (requireViewGeneration : Bool) (view : NodeView)
      (key : List UInt8), NodeView.fromPayload pageId pageType payload expectedTreeId
        viewGeneration requireViewGeneration = .ok view →
      (∀ i, (∃ f, view.search key = some (i, f)) ↔ view.searched key = .ok i) ∧
      (view.search key = none ↔ ∃ e, view.searched key = .error e) ∧
      (∀ i f, view.leaf = true → view.search key = some (i, f) →
        (f = true ↔ i < view.itemCount ∧ view.leafKey i = .ok key))) ∧
    (∀ cell key : List UInt8, (keyOrder cell key = .lt ↔ cell < key) ∧
      (keyOrder cell key = .eq ↔ cell = key) ∧ (keyOrder cell key = .gt ↔ key < cell)) := by
  refine ⟨fun _ _ _ _ _ _ view key _ => ?_, fun cell key => ?_⟩
  · have hfst := view.search_fst key
    refine ⟨fun i => ?_, ?_, fun i f hleaf h => NodeView.search_snd hleaf h⟩
    · have hmap : (∃ f, view.search key = some (i, f)) ↔
          (view.search key).map Prod.fst = some i := by
        rw [Option.map_eq_some_iff]
        exact ⟨fun ⟨f, h⟩ => ⟨(i, f), h, rfl⟩, fun ⟨⟨_, f⟩, h, hi⟩ => ⟨f, hi ▸ h⟩⟩
      rw [hmap, hfst]
      cases view.searched key with
      | error e => exact ⟨fun h => (nomatch h), fun h => (nomatch h)⟩
      | ok index => exact ⟨fun h => congrArg _ (Option.some.inj h), fun h => congrArg _ (Except.ok.inj h)⟩
    · rw [← Option.map_eq_none_iff, hfst]
      cases view.searched key with
      | error e => exact ⟨fun _ => ⟨e, rfl⟩, fun _ => rfl⟩
      | ok index => exact ⟨fun h => (nomatch h), fun ⟨_, h⟩ => (nomatch h)⟩
  · rw [keyOrder_eq_cmp]
    exact cmp_cases cell key

/-- The payload of a leaf of one key. -/
def oneKeyLeaf : List UInt8 :=
  Node.layout ⟨1, 1, 0, .leaf [⟨[7], .inline [9]⟩]⟩ noPageId emptyHash
    [LeafEntry.cell ⟨[7], .inline [9]⟩]

/-- A leaf of one key is searched as it is read. -/
theorem search_finds_as_readers_one_key :
    ∃ view, NodeView.fromPayload 6 .btreeLeaf oneKeyLeaf 1 1 true = .ok view ∧
      ∀ i, (∃ f, view.search [7] = some (i, f)) ↔ view.searched [7] = .ok i := by
  have hok : (NodeView.fromPayload 6 .btreeLeaf oneKeyLeaf 1 1 true).isOk = true := by
    decide +kernel
  cases hview : NodeView.fromPayload 6 .btreeLeaf oneKeyLeaf 1 1 true with
  | error e =>
    rw [hview] at hok
    cases hok
  | ok view => exact ⟨view, rfl, (search_finds_as_readers.1 _ _ _ _ _ _ view [7] hview).1⟩

end TinyJoin
