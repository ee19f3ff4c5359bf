import TinyJoin.CrcTables
import TinyJoin.Lib.Presence
import TinyJoin.Page

/-! The message that a page's checksum is the hash of: the stripes that are not all zero, with the
checksum's own field read as zero, and then the bitmap of which stripes those are. The bitmap tells a
page from every other that differs from it anywhere but in that field. -/
namespace TinyJoin
open Bytes

/-- Whether a stripe has a byte that is not zero. -/
def stripePresent (stripe : List UInt8) : Bool := !stripe.all (· == 0)

/-- A page with its checksum's field read as zero. -/
def PageBytes.unsealed (page : PageBytes) : PageBytes := page.put pageChecksumOffset [0, 0, 0, 0]

/-- A page's stripes, with the checksum's field read as zero. -/
def PageBytes.stripes (page : PageBytes) : List (List UInt8) := (asChunks 32 page.unsealed.bytes).1

/-- The message a page's checksum hashes. -/
def PageBytes.message (page : PageBytes) : List UInt8 :=
  (page.stripes.filter stripePresent).flatten
    ++ leBytes 16 (Presence.bitmap stripePresent 0 page.stripes)

/-! ### Chunks -/

/-- A message of whole chunks and fewer bytes than one is cut where it was put together. -/
lemma asChunks_flatten {n : Nat} {pieces : List (List UInt8)} {rest : List UInt8}
    (hpieces : ∀ piece ∈ pieces, piece.length = n) (hrest : rest.length < n) :
    asChunks n (pieces.flatten ++ rest) = (pieces, rest) := by
  have hlength : (pieces.flatten ++ rest).length = pieces.length * n + rest.length := by
    rw [List.length_append, List.length_flatten, List.map_congr_left hpieces, List.map_const',
      List.sum_replicate_nat]
  have hcount : (asChunks n (pieces.flatten ++ rest)).1.length = pieces.length := by
    rw [asChunks, List.length_map, List.length_range, hlength,
      Nat.add_comm, Nat.add_mul_div_right _ _ (Nat.zero_lt_of_lt hrest), Nat.div_eq_of_lt hrest,
      Nat.zero_add]
  obtain ⟨hfirst, hsecond⟩ := Presence.eq_of_flatten_append (fun _ => length_of_mem_asChunks)
    hpieces hcount (asChunks_append n (pieces.flatten ++ rest))
  exact Prod.ext hfirst hsecond

namespace PageBytes
variable {page : PageBytes}

lemma length_stripes : page.stripes.length = 128 := by
  rw [stripes, asChunks, List.length_map, List.length_range, length_eq]
  rfl

lemma flatten_stripes : page.stripes.flatten = page.unsealed.bytes := by
  have hwhole := asChunks_append 32 page.unsealed.bytes
  have hrest : (asChunks 32 page.unsealed.bytes).2 = [] := by
    rw [asChunks, length_eq]
    exact List.drop_eq_nil_of_le (by rw [length_eq]; decide)
  rwa [hrest, List.append_nil] at hwhole

/-! ### The message tells the page -/

lemma eq_of_absent {stripe other : List UInt8} (hstripe : stripe.length = 32) (hother : other.length = 32)
    (ha : stripePresent stripe = false) (hb : stripePresent other = false) : stripe = other := by
  have hzero {stripe : List UInt8} (hlength : stripe.length = 32) (h : stripePresent stripe = false) :
      stripe = List.replicate 32 0 := by
    rw [List.eq_replicate_iff]
    refine ⟨hlength, fun byte hbyte => ?_⟩
    rw [stripePresent, Bool.not_eq_false', List.all_eq_true] at h
    simpa using h byte hbyte
  rw [hzero hstripe ha, hzero hother hb]

lemma length_message (page : PageBytes) :
    page.message.length = (page.stripes.filter stripePresent).length * 32 + 16 := by
  have hwidth : ∀ stripe ∈ page.stripes.filter stripePresent, stripe.length = 32 :=
    fun _ h => length_of_mem_asChunks (List.mem_of_mem_filter h)
  rw [message, List.length_append, List.length_flatten, List.map_congr_left hwidth, List.map_const',
    List.sum_replicate_nat, length_leBytes]

/-- The length of a message tells how many stripes it has, its end tells which they are, and what is
left is the stripes. -/
lemma unsealed_eq_of_message_eq {page other : PageBytes} (h : page.message = other.message) :
    page.unsealed.bytes = other.unsealed.bytes := by
  have hwidth (page : PageBytes) : ∀ stripe ∈ page.stripes.filter stripePresent, stripe.length = 32 :=
    fun _ h => length_of_mem_asChunks (List.mem_of_mem_filter h)
  have hcount : (page.stripes.filter stripePresent).length
      = (other.stripes.filter stripePresent).length := by
    have hlength := congrArg List.length h
    rw [length_message, length_message] at hlength
    omega
  obtain ⟨hfilter, hends⟩ := Presence.eq_of_flatten_append (hwidth page) (hwidth other) hcount h
  have hsame : page.stripes.length = other.stripes.length := length_stripes.trans length_stripes.symm
  have hbitmap : Presence.bitmap stripePresent 0 page.stripes
      = Presence.bitmap stripePresent 0 other.stripes := by
    have hbound (page : PageBytes) : Presence.bitmap stripePresent 0 page.stripes < 256 ^ 16 :=
      Presence.bitmap_lt length_stripes.le
    rw [← ofLeBytes_leBytes_of_lt (hbound page), hends, ofLeBytes_leBytes_of_lt (hbound other)]
  rw [← flatten_stripes, ← flatten_stripes]
  congr 1
  exact Presence.eq_of_filter_eq (Presence.map_eq_of_bitmap_eq hsame hbitmap) hfilter
    (fun _ ha _ hb => eq_of_absent (length_of_mem_asChunks ha) (length_of_mem_asChunks hb))

/-- A byte outside the checksum's field. -/
lemma byteAt_unsealed (page : PageBytes) {offset : Nat} (h : offset < 28 ∨ 32 ≤ offset) :
    byteAt page.unsealed.bytes offset = byteAt page.bytes offset := by
  rw [byteAt, byteAt, List.getD_eq_getElem?_getD, List.getD_eq_getElem?_getD, unsealed,
    bytes_put (by decide), getElem?_put (by rw [length_eq]; decide) h]

end PageBytes

/-! ### The message is what is hashed -/

lemma ofLeBytes_eq_zero (bytes : List UInt8) : ofLeBytes bytes = 0 ↔ ∀ byte ∈ bytes, byte = 0 := by
  induction bytes with
  | nil => simp [ofLeBytes]
  | cons byte bytes ih =>
    have hbyte : byte.toNat = 0 ↔ byte = 0 := UInt8.toNat_inj (b := 0)
    rw [ofLeBytes, List.forall_mem_cons, ← ih, ← hbyte]
    omega

lemma u64FromLe_eq_zero {bytes : List UInt8} (h : bytes.length = 8) :
    u64FromLe bytes = 0 ↔ ∀ byte ∈ bytes, byte = 0 := by
  have hbound : ofLeBytes bytes < 2 ^ 64 := (ofLeBytes_lt bytes).trans_le (by rw [h]; decide)
  rw [← ofLeBytes_eq_zero, ← UInt64.toNat_inj, u64FromLe, UInt64.toNat_ofNat_of_lt' hbound]
  rfl

/-- A stripe's lanes are all zero where its bytes are. -/
lemma lanes_present {stripe : List UInt8} (h : stripe.length = 32) :
    ((Xxh64.lanes stripe).first ||| (Xxh64.lanes stripe).second ||| (Xxh64.lanes stripe).third
      ||| (Xxh64.lanes stripe).fourth != 0) = stripePresent stripe := by
  have hlanes : stripe = slice stripe 0 8 ++ (slice stripe 8 16 ++ (slice stripe 16 24
      ++ slice stripe 24 32)) := by
    rw [slice_append_slice (by decide) (by decide), slice_append_slice (by decide) (by decide),
      slice_append_slice (by decide) (by decide), ← h, slice_zero_length]
  have hzero (start : Nat) (hstart : start + 8 ≤ 32) : u64FromLe (slice stripe start (start + 8)) = 0 ↔
      ∀ byte ∈ slice stripe start (start + 8), byte = 0 :=
    u64FromLe_eq_zero (by rw [length_slice (by omega)]; omega)
  have hbytes : (∀ byte ∈ stripe, byte = 0) ↔ (Xxh64.lanes stripe).first ||| (Xxh64.lanes stripe).second
      ||| (Xxh64.lanes stripe).third ||| (Xxh64.lanes stripe).fourth = 0 := by
    rw [UInt64.or_eq_zero_iff, UInt64.or_eq_zero_iff, UInt64.or_eq_zero_iff]
    conv_lhs => rw [hlanes, List.forall_mem_append, List.forall_mem_append, List.forall_mem_append,
      ← hzero 0 (by decide), ← hzero 8 (by decide), ← hzero 16 (by decide), ← hzero 24 (by decide)]
    tauto
  rw [Bool.eq_iff_iff, bne_iff_ne, ne_eq, ← hbytes, stripePresent, Bool.not_eq_true',
    ← Bool.not_eq_true, List.all_eq_true]
  simp

/-- Past the first stripe, and over it too where the checksum's field is zero, a step takes a stripe that
is present. -/
lemma stripeStep_eq {acc : Xxh64 × Nat × Nat} {index : Nat} {stripe : List UInt8}
    (hlength : stripe.length = 32) (hfield : index = 0 → slice stripe 28 32 = [0, 0, 0, 0]) :
    stripeStep acc (index, stripe) = if stripePresent stripe then
      (acc.1.stripe (Xxh64.lanes stripe), acc.2.1 ||| (1 <<< index), acc.2.2 + 1) else acc := by
  have hlanes : (if index = 0 then
      { Xxh64.lanes stripe with fourth := (Xxh64.lanes stripe).fourth &&& 0xffffffff }
      else Xxh64.lanes stripe) = Xxh64.lanes stripe := by
    split
    · next hfirst =>
      have hfourth : u64FromLe (slice stripe 24 32) &&& 0xffffffff = u64FromLe (slice stripe 24 32) := by
        have hsplit : slice stripe 24 28 ++ slice stripe 28 32 = slice stripe 24 32 :=
          slice_append_slice (by decide) (by decide)
        rw [← hsplit, hfield hfirst, u64FromLe_and_low (length_slice (by omega)) rfl, u64FromLe,
          u64FromLe, ofLeBytes_append]
        rfl
      rw [Xxh64.lanes, hfourth]
    · rfl
  simp only [stripeStep, hlanes, lanes_present hlength]

lemma foldl_stripeStep {stripes : List (List UInt8)} {index : Nat} (acc : Xxh64 × Nat × Nat)
    (hlength : ∀ stripe ∈ stripes, stripe.length = 32)
    (hfield : index = 0 → ∀ stripe, stripes[0]? = some stripe → slice stripe 28 32 = [0, 0, 0, 0]) :
    ((stripes.zipIdx index).map Prod.swap).foldl stripeStep acc =
      ((stripes.filter stripePresent).foldl (fun hash stripe => hash.stripe (Xxh64.lanes stripe)) acc.1,
        acc.2.1 ||| Presence.bitmap stripePresent index stripes,
        acc.2.2 + (stripes.filter stripePresent).length) := by
  induction stripes generalizing index acc with
  | nil => simp [Presence.bitmap]
  | cons stripe stripes ih =>
    have hrest := @ih (index + 1) (stripeStep acc (index, stripe))
      (fun s hs => hlength s (List.mem_cons_of_mem _ hs)) (fun h => absurd h (Nat.succ_ne_zero _))
    have hstep := @stripeStep_eq acc index stripe (hlength stripe List.mem_cons_self)
      (fun h => hfield h stripe rfl)
    rw [List.zipIdx_cons, List.map_cons, List.foldl_cons]
    change ((stripes.zipIdx (index + 1)).map Prod.swap).foldl stripeStep (stripeStep acc (index, stripe))
      = _
    rw [hrest, hstep, Presence.bitmap]
    cases hpresent : stripePresent stripe with
    | true =>
      rw [List.filter_cons_of_pos hpresent, List.foldl_cons, List.length_cons, if_pos rfl, if_pos rfl,
        Nat.or_assoc, Nat.add_assoc, Nat.add_comm 1]
    | false =>
      rw [List.filter_cons_of_neg (by simp [hpresent]), if_neg Bool.false_ne_true,
        if_neg Bool.false_ne_true, Nat.zero_or]

lemma computeChecksum_eq_message {page : PageBytes}
    (htype : byteAt page.bytes 20 ≠ PageType.superblock.toByte) :
    computeChecksum page.bytes = (fold (xxh64 page.message 0)).toNat := by
  have hwidth : ∀ stripe ∈ page.stripes.filter stripePresent, stripe.length = 32 :=
    fun _ h => length_of_mem_asChunks (List.mem_of_mem_filter h)
  have hfield : ∀ stripe, page.stripes[0]? = some stripe → slice stripe 28 32 = [0, 0, 0, 0] := by
    intro stripe hstripe
    have hfirst : slice page.unsealed.bytes 0 32 = stripe := by
      simpa [PageBytes.stripes, asChunks, PageBytes.length_eq, pageSize] using hstripe
    have hwhole : slice page.unsealed.bytes 28 32 = slice stripe 28 32 := by
      rw [← hfirst]
      conv_lhs => rw [← List.take_append_drop 32 page.unsealed.bytes]
      exact slice_append_left (by rw [List.length_take, PageBytes.length_eq]; decide)
    rw [← hwhole]
    exact PageBytes.slice_put_same (by decide) rfl
  have hmessage : xxh64 page.message 0
      = ((page.stripes.filter stripePresent).foldl
          (fun hash stripe => hash.stripe (Xxh64.lanes stripe)) (Xxh64.new 0)).finish
          page.message.length (leBytes 16 (Presence.bitmap stripePresent 0 page.stripes)) := by
    unfold xxh64
    rw [PageBytes.message, asChunks_flatten hwidth (by rw [length_leBytes]; decide)]
  have hunsealed : computeChecksum page.bytes = computeChecksum page.unsealed.bytes :=
    (computeChecksum_put rfl).symm
  have hfold := @foldl_stripeStep page.stripes 0 (Xxh64.new 0, 0, 0)
    (fun _ h => length_of_mem_asChunks h) (fun _ => hfield)
  rw [hunsealed, computeChecksum, page.byteAt_unsealed (.inl (by decide)), if_neg htype, hmessage,
    PageBytes.length_message]
  rw [PageBytes.stripes] at hfold
  dsimp only
  rw [hfold, Nat.zero_add, Nat.zero_or]
  rfl

/-- A page that is no superblock carries the hash of its message, and pages that differ anywhere but in
the checksum's field have messages that differ. -/
theorem checksum_message :
    (∀ page : PageBytes, byteAt page.bytes 20 ≠ PageType.superblock.toByte →
      computeChecksum page.bytes = (fold (xxh64 page.message 0)).toNat) ∧
    ∀ page other : PageBytes, byteAt page.bytes 20 ≠ PageType.superblock.toByte →
      byteAt other.bytes 20 ≠ PageType.superblock.toByte →
      (∃ offset, (offset < 28 ∨ 32 ≤ offset) ∧ byteAt page.bytes offset ≠ byteAt other.bytes offset) →
      page.message ≠ other.message := by
  refine ⟨fun _ => computeChecksum_eq_message, ?_⟩
  rintro page other - - ⟨offset, hoffset, hbyte⟩ hsame
  apply hbyte
  rw [← page.byteAt_unsealed hoffset, ← other.byteAt_unsealed hoffset,
    PageBytes.unsealed_eq_of_message_eq hsame]

/-- A page of zeros, and one with a byte at 100. -/
theorem checksum_message_zero :
    computeChecksum PageBytes.zero.bytes = (fold (xxh64 PageBytes.zero.message 0)).toNat ∧
      PageBytes.zero.message ≠ (PageBytes.zero.put 100 [1]).message := by
  have hzero (offset : Nat) (h : offset < pageSize) : byteAt PageBytes.zero.bytes offset = 0 := by
    simp [byteAt, PageBytes.zero, List.getD_eq_getElem?_getD, h]
  have hother : byteAt (PageBytes.zero.put 100 [1]).bytes 20 = 0 := by
    rw [byteAt_eq_slice, PageBytes.slice_put_before _ _ _ (by decide), ← byteAt_eq_slice]
    exact hzero 20 (by decide)
  have hplace : byteAt (PageBytes.zero.put 100 [1]).bytes 100 = 1 := by
    have hput : slice (PageBytes.zero.put 100 [1]).bytes 100 101 = [1] :=
      PageBytes.slice_put_same (by decide) rfl
    rw [byteAt_eq_slice, hput]
    rfl
  refine ⟨checksum_message.1 _ ?_, checksum_message.2 _ _ ?_ ?_ ⟨100, .inr (by decide), ?_⟩⟩
  · rw [hzero 20 (by decide)]
    decide
  · rw [hzero 20 (by decide)]
    decide
  · rw [hother]
    decide
  · rw [hzero 100 (by decide), hplace]
    decide

end TinyJoin
