import TinyJoin.Page
import TinyJoin.Lib.Bitmap

/-! The allocation bitmap of a root: a bit for each page, and how many are set. -/
namespace TinyJoin
open Bytes

def allocationBitmapBytes : Nat := maxPageCount / 8

/-- The set bits of a word, each found as the lowest and then cleared, until one is past `stop`. -/
def freshPages (word stop : Nat) : Nat → Nat → List Nat
  | 0, _ => []
  | fuel + 1, fresh =>
    if fresh = 0 then []
    else
      let id := word * 64 + Bitmap.trailingZeros fresh
      if id ≥ stop then [] else id :: freshPages word stop fuel (fresh &&& (fresh - 1))

/-- The bits set in words of eight bytes, and in the bytes after them. -/
def countOnes (bits : List UInt8) : Nat :=
  let chunks := asChunks 8 bits
  (chunks.1.map (fun word => (List.range 64).countP (ofLeBytes word).testBit)).sum +
    (chunks.2.map (fun byte => (List.range 8).countP byte.toNat.testBit)).sum

lemma fits_bitmap {bits : List UInt8} (h : bits.length = allocationBitmapBytes) {id : Nat}
    (hid : id < maxPageCount) : id < bits.length * 8 := by
  rw [h]
  exact hid

/-- Setting the first `n` bits of an empty bitmap sets those and no others. -/
lemma metadata_bits (n : Nat) (h : n ≤ maxPageCount) :
    let bits := (List.range n).foldl Bitmap.setBit (List.replicate allocationBitmapBytes 0)
    bits.length = allocationBitmapBytes ∧ (∀ k, Bitmap.bitAt bits k = decide (k < n)) ∧
      Bitmap.count bits = n := by
  induction n with
  | zero =>
    refine ⟨by simp, ?_, Bitmap.count_replicate_zero _⟩
    intro k
    rw [List.range_zero, List.foldl_nil, Bitmap.bitAt_replicate_zero]
    rfl
  | succ n ih =>
    obtain ⟨hlen, hbits, hcount⟩ := ih (by omega)
    have hfits := fits_bitmap hlen (Nat.lt_of_succ_le h)
    have hclear : Bitmap.bitAt ((List.range n).foldl Bitmap.setBit
        (List.replicate allocationBitmapBytes 0)) n = false := by
      rw [hbits]
      simp
    dsimp only
    rw [List.range_succ, List.foldl_append, List.foldl_cons, List.foldl_nil]
    refine ⟨by rw [Bitmap.length_setBit, hlen], ?_, ?_⟩
    · intro k
      rw [Bitmap.bitAt_setBit hfits, hbits k, Bool.eq_iff_iff]
      simp only [Bool.or_eq_true, decide_eq_true_eq]
      omega
    · have hstep := Bitmap.count_flipBit hfits
      rw [hclear] at hstep
      rw [Bitmap.setBit_eq_flipBit hfits hclear]
      simpa [hcount] using hstep

lemma countOnes_eq {bits : List UInt8} (h : bits.length = allocationBitmapBytes) :
    countOnes bits = Bitmap.count bits := by
  have hcount : bits.length / 8 = 1024 := by
    rw [h]
    rfl
  have hwords : (asChunks 8 bits).1 =
      (List.range 1024).map (fun index => slice bits (index * 8) (index * 8 + 8)) := by
    rw [asChunks, hcount]
  have hrest : (asChunks 8 bits).2 = [] := by
    rw [asChunks]
    exact List.drop_eq_nil_of_le (by rw [h]; decide)
  have hlen : bits.length * 8 = 1024 * 64 := by
    rw [h]
    rfl
  rw [countOnes, hwords, hrest, List.map_map, List.map_nil, List.sum_nil, Nat.add_zero,
    Bitmap.count, hlen, ← Bitmap.sum_count_words bits 1024]
  rfl

/-- Which pages a root allocates, a bit for each. -/
structure AllocationBitmap where
  bits : List UInt8
  /-- How many bits are set, which every commit reads and records. -/
  allocated : Nat
  length_bits : bits.length = allocationBitmapBytes
  allocated_eq : allocated = Bitmap.count bits
deriving DecidableEq

namespace AllocationBitmap

@[ext] lemma ext {a b : AllocationBitmap} (h : a.bits = b.bits) : a = b := by
  cases a
  cases b
  simp_all

def allocates (bitmap : AllocationBitmap) (id : Nat) : Bool :=
  decide (id < maxPageCount) && Bitmap.bitAt bitmap.bits id

def isAllocated (bitmap : AllocationBitmap) (id : Nat) : Result Bool := do
  validatePageId id
  return bitmap.allocates id

def allocatedPageCount (bitmap : AllocationBitmap) : Nat := bitmap.allocated

/-- A bitmap that allocates only the metadata pages. -/
def new : AllocationBitmap where
  bits := (List.range firstDataPageId).foldl Bitmap.setBit (List.replicate allocationBitmapBytes 0)
  allocated := firstDataPageId
  length_bits := by simp [firstDataPageId, superblockPageCount, bitmapPageCount, bitmapChunkCount,
    List.range_succ]
  allocated_eq := (metadata_bits firstDataPageId (by decide)).2.2.symm

/-- The bitmap with the bit of page `id` flipped. -/
def flip (bitmap : AllocationBitmap) (id : Nat) (hid : id < maxPageCount) : AllocationBitmap where
  bits := Bitmap.flipBit bitmap.bits id
  allocated := if Bitmap.bitAt bitmap.bits id then bitmap.allocated - 1 else bitmap.allocated + 1
  length_bits := by rw [Bitmap.length_flipBit, bitmap.length_bits]
  allocated_eq := by
    have hstep := Bitmap.count_flipBit (fits_bitmap bitmap.length_bits hid)
    rw [bitmap.allocated_eq]
    split at hstep
    · simp_all
      omega
    · simp_all

def setAllocated (bitmap : AllocationBitmap) (id : Nat) (allocated : Bool) :
    Result AllocationBitmap := do
  validatePageId id
  if id < firstDataPageId ∧ allocated = false then
    .error (invalidPage "Metadata pages cannot be deallocated")
  else if hid : id < maxPageCount then
    if Bitmap.bitAt bitmap.bits id ≠ allocated then .ok (bitmap.flip id hid) else .ok bitmap
  else .ok bitmap

/-- The pages taken in the word of `id`, those before `id` among them. -/
def taken (bitmap other : AllocationBitmap) (id : Nat) : Nat :=
  Bitmap.word bitmap.bits (id / 64) ||| Bitmap.word other.bits (id / 64)
    ||| ((1 <<< (id % 64)) - 1)

/-- The first page of the word of `id` that is not taken, when one is. -/
def freeInWord (taken id : Nat) : Nat :=
  id / 64 * 64 + Bitmap.trailingZeros (taken ^^^ (2 ^ 64 - 1))

/-- The search of `firstFree` from page `id`, over at most `fuel` words. -/
def firstFreeFrom (bitmap other : AllocationBitmap) (stop : Nat) : Nat → Nat → Option Nat
  | 0, _ => none
  | fuel + 1, id =>
    if id < stop then
      if taken bitmap other id ≠ 2 ^ 64 - 1 then
        if freeInWord (taken bitmap other id) id < stop then
          some (freeInWord (taken bitmap other id) id)
        else none
      else firstFreeFrom bitmap other stop fuel ((id / 64 + 1) * 64)
    else none

/-- The first page from `start` up to `stop` that neither bitmap allocates. -/
def firstFree (bitmap other : AllocationBitmap) (start stop : Nat) : Option Nat :=
  firstFreeFrom bitmap other (min stop maxPageCount) (maxPageCount / 64 + 1) start

/-- The pages allocated here but not in `base`, below `stop`, in order, found 64 at a time. -/
def allocatedSince (bitmap base : AllocationBitmap) (stop : Nat) : List Nat :=
  let stop := min stop maxPageCount
  (List.range ((stop + 63) / 64)).flatMap (fun word =>
    freshPages word stop 64
      (Bitmap.word bitmap.bits word &&& (Bitmap.word base.bits word ^^^ (2 ^ 64 - 1))))

def validateMetadataPages (bitmap : AllocationBitmap) : Result Unit :=
  if (List.range firstDataPageId).all bitmap.allocates then .ok ()
  else .error (invalidPage "Allocation bitmap does not reserve every metadata page")

/-- The bitmap of every page's bits, which must allocate each metadata page. -/
def fromBits (bits : List UInt8) : Result AllocationBitmap :=
  if hlen : bits.length ≠ allocationBitmapBytes then
    .error (invalidPage "Allocation bitmap has the wrong total length")
  else do
    let bitmap : AllocationBitmap :=
      ⟨bits, countOnes bits, not_not.mp hlen, countOnes_eq (not_not.mp hlen)⟩
    bitmap.validateMetadataPages
    return bitmap

variable {bitmap other base : AllocationBitmap} {id : Nat}

lemma lt_of_allocates (h : bitmap.allocates id = true) : id < maxPageCount := by
  rw [allocates, Bool.and_eq_true, decide_eq_true_eq] at h
  exact h.1

@[simp] lemma allocates_new (id : Nat) : new.allocates id = decide (id < firstDataPageId) := by
  rw [allocates, new, (metadata_bits firstDataPageId (by decide)).2.1, Bool.eq_iff_iff,
    Bool.and_eq_true, decide_eq_true_eq, decide_eq_true_eq]
  exact ⟨fun h => h.2, fun h => ⟨Nat.lt_trans h (by decide), h⟩⟩

lemma isAllocated_of_lt (bitmap : AllocationBitmap) (h : id < maxPageCount) :
    bitmap.isAllocated id = .ok (bitmap.allocates id) := by
  rw [isAllocated, validatePageId, if_neg (Nat.not_le.mpr h)]
  rfl

lemma isAllocated_eq_ok {answer : Bool} (h : bitmap.isAllocated id = .ok answer) :
    id < maxPageCount ∧ answer = bitmap.allocates id := by
  rw [isAllocated, validatePageId] at h
  split at h
  · cases h
  · next hid =>
    cases h
    exact ⟨Nat.not_le.mp hid, rfl⟩

lemma allocates_flip (hid : id < maxPageCount) (k : Nat) :
    (bitmap.flip id hid).allocates k = (bitmap.allocates k ^^ decide (id = k)) := by
  rw [allocates, allocates, flip, Bitmap.bitAt_flipBit (fits_bitmap bitmap.length_bits hid)]
  by_cases hk : id = k
  · subst hk
    simp [hid]
  · simp [hk]

/-- Setting a page's bit changes that page alone. -/
lemma setAllocated_eq_ok {allocated : Bool} {next : AllocationBitmap}
    (h : bitmap.setAllocated id allocated = .ok next) :
    id < maxPageCount ∧
      ∀ k, next.allocates k = if k = id then allocated else bitmap.allocates k := by
  rw [setAllocated, validatePageId] at h
  split at h
  · cases h
  · next hlt =>
    have hid := Nat.not_le.mp hlt
    refine ⟨hid, ?_⟩
    intro k
    have hbit : bitmap.allocates id = Bitmap.bitAt bitmap.bits id := by simp [allocates, hid]
    simp only [bind, Except.bind] at h
    split at h
    · cases h
    · split at h
      · next hdiff =>
        cases h
        rw [allocates_flip hid]
        by_cases hk : k = id
        · subst hk
          rw [hbit]
          cases hb : Bitmap.bitAt bitmap.bits k <;> cases allocated <;> simp_all
        · simp [hk, Ne.symm hk]
      · next hsame =>
        cases h
        by_cases hk : k = id
        · subst hk
          rw [if_pos rfl, hbit]
          exact not_not.mp hsame
        · rw [if_neg hk]

lemma setAllocated_of_data (bitmap : AllocationBitmap) (allocated : Bool)
    (hlow : firstDataPageId ≤ id) (hid : id < maxPageCount) :
    ∃ next, bitmap.setAllocated id allocated = .ok next := by
  rw [setAllocated, validatePageId, if_neg (Nat.not_le.mpr hid)]
  simp only [bind, Except.bind]
  rw [if_neg (by omega), dif_pos hid]
  split
  · exact ⟨_, rfl⟩
  · exact ⟨_, rfl⟩

/-- The pages a word gives are its set bits below `stop`, in order. -/
lemma freshPages_spec {word stop fuel fresh low : Nat} (hfresh : fresh < 2 ^ 64)
    (hlow : ∀ k, k < low → fresh.testBit k = false) (hfuel : 64 ≤ fuel + low) :
    (∀ id, id ∈ freshPages word stop fuel fresh ↔
      ∃ k, k < 64 ∧ fresh.testBit k = true ∧ id = word * 64 + k ∧ id < stop) ∧
      (freshPages word stop fuel fresh).Pairwise (· < ·) := by
  induction fuel generalizing fresh low with
  | zero =>
    refine ⟨?_, List.Pairwise.nil⟩
    intro id
    simp only [freshPages, List.not_mem_nil, false_iff]
    rintro ⟨k, hk, hbit, -⟩
    rw [hlow k (by omega)] at hbit
    cases hbit
  | succ fuel ih =>
    rw [freshPages]
    by_cases hzero : fresh = 0
    · subst hzero
      simp
    · obtain ⟨htz, hbit, hbelow⟩ := Bitmap.trailingZeros_spec hfresh hzero
      simp only [if_neg hzero]
      have hleast : ∀ k, fresh.testBit k = true → Bitmap.trailingZeros fresh ≤ k := by
        intro k hk
        by_contra hlt
        rw [hbelow k (by omega)] at hk
        cases hk
      split
      · next hstop =>
        refine ⟨?_, List.Pairwise.nil⟩
        intro id
        simp only [List.not_mem_nil, false_iff]
        rintro ⟨k, -, hk, rfl, hlt⟩
        have := hleast k hk
        omega
      · next hstop =>
        have hclear := Bitmap.testBit_and_pred hbit hbelow
        have hge : low ≤ Bitmap.trailingZeros fresh := by
          by_contra hlt
          rw [hlow _ (by omega)] at hbit
          cases hbit
        have hrest := @ih (fresh &&& (fresh - 1)) (Bitmap.trailingZeros fresh + 1)
          (Nat.lt_of_le_of_lt Nat.and_le_left hfresh)
          (by
            intro k hk
            rw [hclear k]
            by_cases heq : k = Bitmap.trailingZeros fresh
            · simp [heq]
            · rw [hbelow k (by omega)]
              rfl)
          (by omega)
        refine ⟨?_, ?_⟩
        · intro id
          rw [List.mem_cons, hrest.1]
          constructor
          · rintro (rfl | ⟨k, hk, hkbit, rfl, hlt⟩)
            · exact ⟨_, htz, hbit, rfl, by omega⟩
            · rw [hclear, Bool.and_eq_true] at hkbit
              exact ⟨k, hk, hkbit.1, rfl, hlt⟩
          · rintro ⟨k, hk, hkbit, rfl, hlt⟩
            by_cases heq : k = Bitmap.trailingZeros fresh
            · subst heq
              exact Or.inl rfl
            · refine Or.inr ⟨k, hk, ?_, rfl, hlt⟩
              rw [hclear, hkbit]
              simp [heq]
        · refine List.Pairwise.cons ?_ hrest.2
          intro id hid
          obtain ⟨k, -, hkbit, rfl, -⟩ := (hrest.1 id).mp hid
          rw [hclear, Bool.and_eq_true, decide_eq_true_eq] at hkbit
          have := hleast k hkbit.1
          omega

lemma testBit_complement {n k : Nat} (h : k < 64) :
    (n ^^^ (2 ^ 64 - 1)).testBit k = !n.testBit k := by
  rw [Nat.testBit_xor, Nat.testBit_two_pow_sub_one]
  simp [h]

lemma allocates_word {k : Nat} (hk : k < 64) {word : Nat} (hword : word * 64 + k < maxPageCount) :
    (Bitmap.word bitmap.bits word).testBit k = bitmap.allocates (word * 64 + k) := by
  rw [Bitmap.testBit_word hk, allocates]
  simp [hword]

lemma fresh_lt (word : Nat) : Bitmap.word bitmap.bits word &&&
    (Bitmap.word base.bits word ^^^ (2 ^ 64 - 1)) < 2 ^ 64 :=
  Nat.lt_of_le_of_lt Nat.and_le_left (Bitmap.word_lt _ _)

lemma mem_allocatedSince {stop : Nat} : id ∈ bitmap.allocatedSince base stop ↔
    id < stop ∧ bitmap.allocates id = true ∧ base.allocates id = false := by
  have hspec := fun word => @freshPages_spec word (min stop maxPageCount) 64 _ 0
    (@fresh_lt bitmap base word) (by omega) (by omega)
  simp only [allocatedSince, List.mem_flatMap, List.mem_range, (hspec _).1]
  constructor
  · rintro ⟨word, -, k, hk, hbit, rfl, hlt⟩
    have hmax : word * 64 + k < maxPageCount := by omega
    rw [Nat.testBit_and, testBit_complement hk, allocates_word hk hmax, allocates_word hk hmax,
      Bool.and_eq_true, Bool.not_eq_true'] at hbit
    exact ⟨by omega, hbit.1, hbit.2⟩
  · rintro ⟨hlt, hin, hout⟩
    have hmax := lt_of_allocates hin
    have hsplit : id / 64 * 64 + id % 64 = id := by omega
    have hk : id % 64 < 64 := Nat.mod_lt _ (by omega)
    refine ⟨id / 64, by omega, id % 64, hk, ?_, hsplit.symm, by omega⟩
    rw [Nat.testBit_and, testBit_complement hk, allocates_word hk (by omega),
      allocates_word hk (by omega), hsplit, hin, hout]
    rfl

lemma pairwise_allocatedSince (bitmap base : AllocationBitmap) (stop : Nat) :
    (bitmap.allocatedSince base stop).Pairwise (· < ·) := by
  have hspec := fun word => @freshPages_spec word (min stop maxPageCount) 64 _ 0
    (@fresh_lt bitmap base word) (by omega) (by omega)
  simp only [allocatedSince]
  rw [List.pairwise_flatMap]
  refine ⟨fun word _ => (hspec word).2, ?_⟩
  refine List.Pairwise.imp ?_ List.pairwise_lt_range
  intro w w' hw id hid id' hid'
  obtain ⟨k, hk, -, rfl, -⟩ := ((hspec w).1 id).mp hid
  obtain ⟨k', -, -, rfl, -⟩ := ((hspec w').1 id').mp hid'
  omega

/-- A page no bitmap allocates, with every page before it from `start` taken. -/
def FirstFree (bitmap other : AllocationBitmap) (start stop id : Nat) : Prop :=
  start ≤ id ∧ id < stop ∧ bitmap.allocates id = false ∧ other.allocates id = false ∧
    ∀ k, start ≤ k → k < id → bitmap.allocates k = true ∨ other.allocates k = true

lemma testBit_taken {start k : Nat} (hk : k < 64) (hmax : start / 64 * 64 + k < maxPageCount) :
    (taken bitmap other start).testBit k =
      ((bitmap.allocates (start / 64 * 64 + k) || other.allocates (start / 64 * 64 + k)) ||
        decide (k < start % 64)) := by
  rw [taken, Nat.testBit_or, Nat.testBit_or, allocates_word hk hmax, allocates_word hk hmax,
    Nat.one_shiftLeft, Nat.testBit_two_pow_sub_one]

lemma taken_lt (bitmap other : AllocationBitmap) (start : Nat) :
    taken bitmap other start < 2 ^ 64 := by
  have hmod : start % 64 < 64 := Nat.mod_lt _ (by omega)
  have hpow : 2 ^ (start % 64) < 2 ^ 64 := Nat.pow_lt_pow_right (by omega) hmod
  refine Nat.or_lt_two_pow (Nat.or_lt_two_pow (Bitmap.word_lt _ _) (Bitmap.word_lt _ _)) ?_
  rw [Nat.one_shiftLeft]
  omega

/-- A page from `start` on whose bit is set in the word of `start` is allocated. -/
lemma allocates_of_taken {start j : Nat} (hj : j < 64) (hmax : start / 64 * 64 + j < maxPageCount)
    (hstart : start ≤ start / 64 * 64 + j) (hset : (taken bitmap other start).testBit j = true) :
    bitmap.allocates (start / 64 * 64 + j) = true ∨
      other.allocates (start / 64 * 64 + j) = true := by
  rw [testBit_taken hj hmax] at hset
  simp only [Bool.or_eq_true, decide_eq_true_eq] at hset
  rcases hset with h | h
  · exact h
  · omega

/-- In a word that is not full, the free page found is free and the first. -/
lemma freeInWord_spec {start : Nat} (h : taken bitmap other start ≠ 2 ^ 64 - 1) :
    start ≤ freeInWord (taken bitmap other start) start ∧
      (freeInWord (taken bitmap other start) start < maxPageCount →
        bitmap.allocates (freeInWord (taken bitmap other start) start) = false ∧
        other.allocates (freeInWord (taken bitmap other start) start) = false) ∧
      ∀ k, start ≤ k → k < freeInWord (taken bitmap other start) start → k < maxPageCount →
        bitmap.allocates k = true ∨ other.allocates k = true := by
  have hne : taken bitmap other start ^^^ (2 ^ 64 - 1) ≠ 0 :=
    fun hzero => h (Nat.xor_eq_zero_iff.mp hzero)
  have hcomp : taken bitmap other start ^^^ (2 ^ 64 - 1) < 2 ^ 64 :=
    Nat.xor_lt_two_pow (taken_lt _ _ _) (by omega)
  obtain ⟨htz, hbit, hleast⟩ := Bitmap.trailingZeros_spec hcomp hne
  rw [freeInWord]
  generalize Bitmap.trailingZeros (taken bitmap other start ^^^ (2 ^ 64 - 1)) = free
    at htz hbit hleast
  rw [testBit_complement htz, Bool.not_eq_true'] at hbit
  -- the bits below `start` are set, so the free one is not among them
  have hpast : start % 64 ≤ free := by
    by_contra hlt
    have hword : ((1 <<< (start % 64)) - 1).testBit free = true := by
      rw [Nat.one_shiftLeft, Nat.testBit_two_pow_sub_one, decide_eq_true_eq]
      omega
    rw [taken, Nat.testBit_or, hword, Bool.or_true] at hbit
    cases hbit
  refine ⟨by omega, ?_, ?_⟩
  · intro hmax
    rw [testBit_taken htz hmax] at hbit
    simp only [Bool.or_eq_false_iff] at hbit
    exact hbit.1
  · intro k hk hlt hmax
    obtain ⟨j, rfl⟩ : ∃ j, k = start / 64 * 64 + j := ⟨k - start / 64 * 64, by omega⟩
    have hj : j < 64 := by omega
    have hset := hleast j (by omega)
    rw [testBit_complement hj, Bool.not_eq_false'] at hset
    exact allocates_of_taken hj hmax hk hset

lemma allocates_of_full {start k : Nat} (h : taken bitmap other start = 2 ^ 64 - 1)
    (hk : start ≤ k) (hlt : k < (start / 64 + 1) * 64) (hmax : k < maxPageCount) :
    bitmap.allocates k = true ∨ other.allocates k = true := by
  obtain ⟨j, rfl⟩ : ∃ j, k = start / 64 * 64 + j := ⟨k - start / 64 * 64, by omega⟩
  have hj : j < 64 := by omega
  apply allocates_of_taken hj hmax hk
  rw [h, Nat.testBit_two_pow_sub_one, decide_eq_true hj]

lemma firstFreeFrom_spec {start stop fuel : Nat} (hstop : stop ≤ maxPageCount)
    (hfuel : stop ≤ (start / 64 + fuel) * 64) :
    (∀ id, firstFreeFrom bitmap other stop fuel start = some id →
      FirstFree bitmap other start stop id) ∧
    (firstFreeFrom bitmap other stop fuel start = none →
      ∀ k, start ≤ k → k < stop → bitmap.allocates k = true ∨ other.allocates k = true) := by
  induction fuel generalizing start with
  | zero => exact ⟨fun _ h => (nomatch h), fun _ k hk hlt => by omega⟩
  | succ fuel ih =>
    rw [firstFreeFrom]
    by_cases hstart : start < stop
    · rw [if_pos hstart]
      by_cases hfull : taken bitmap other start = 2 ^ 64 - 1
      · -- every page of this word is taken: the search goes on at the next
        rw [if_neg (not_not.mpr hfull)]
        obtain ⟨hsome, hnone⟩ := @ih ((start / 64 + 1) * 64) (by omega)
        refine ⟨?_, ?_⟩
        · intro id hid
          obtain ⟨hge, hlt, hfree, hother, hbefore⟩ := hsome id hid
          refine ⟨by omega, hlt, hfree, hother, ?_⟩
          intro k hk hkid
          rcases Nat.lt_or_ge k ((start / 64 + 1) * 64) with h | h
          · exact allocates_of_full hfull hk h (by omega)
          · exact hbefore k h hkid
        · intro hid k hk hlt
          rcases Nat.lt_or_ge k ((start / 64 + 1) * 64) with h | h
          · exact allocates_of_full hfull hk h (by omega)
          · exact hnone hid k h hlt
      · rw [if_pos hfull]
        obtain ⟨hge, hfree, hbefore⟩ := freeInWord_spec hfull
        by_cases hlt : freeInWord (taken bitmap other start) start < stop
        · rw [if_pos hlt]
          refine ⟨?_, fun h => nomatch h⟩
          rintro id hid
          cases hid
          obtain ⟨h₁, h₂⟩ := hfree (by omega)
          exact ⟨hge, hlt, h₁, h₂, fun k hk hkid => hbefore k hk hkid (by omega)⟩
        · rw [if_neg hlt]
          exact ⟨fun _ h => (nomatch h), fun _ k hk hkstop => hbefore k hk (by omega) (by omega)⟩
    · rw [if_neg hstart]
      exact ⟨fun _ h => (nomatch h), fun _ k hk hlt => by omega⟩

lemma firstFree_eq_some {start stop : Nat} (h : bitmap.firstFree other start stop = some id) :
    FirstFree bitmap other start (min stop maxPageCount) id :=
  (firstFreeFrom_spec (Nat.min_le_right _ _) (by simp only [maxPageCount]; omega)).1 id h

lemma firstFree_eq_none {start stop : Nat} (h : bitmap.firstFree other start stop = none) {k : Nat}
    (hk : start ≤ k) (hstop : k < stop) (hmax : k < maxPageCount) :
    bitmap.allocates k = true ∨ other.allocates k = true :=
  (firstFreeFrom_spec (Nat.min_le_right _ _) (by simp only [maxPageCount]; omega)).2 h k hk
    (by omega)

end AllocationBitmap
end TinyJoin
