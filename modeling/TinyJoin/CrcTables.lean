import TinyJoin.Checksum

/-! What the CRC-32 tables mean. A bit's step, and so a byte's, distributes over exclusive or, so that a
table's entry is what its bytes come to alone and a state is the sum of what its bytes come to. -/
namespace TinyJoin
namespace Crc32
open Bytes

/-- Each bit of the argument moves the result on its own. -/
def Linear (f : UInt32 → UInt32) : Prop := ∀ x y, f (x ^^^ y) = f x ^^^ f y

lemma Linear.iterate {f : UInt32 → UInt32} (h : Linear f) (n : Nat) : Linear f^[n] := by
  induction n with
  | zero => exact fun _ _ => rfl
  | succ n ih =>
    intro x y
    rw [Function.iterate_succ_apply, Function.iterate_succ_apply, Function.iterate_succ_apply, h, ih]

lemma Linear.zero {f : UInt32 → UInt32} (h : Linear f) : f 0 = 0 := by
  have hzero := h 0 0
  rwa [UInt32.xor_self, UInt32.xor_self] at hzero

/-! ### Bits -/

lemma and_one (x : UInt32) : x &&& 1 = 0 ∨ x &&& 1 = 1 := by
  have hbit : (x &&& 1).toNat = x.toNat % 2 := by
    rw [UInt32.toNat_and]
    exact Nat.and_one_is_mod _
  rcases Nat.mod_two_eq_zero_or_one x.toNat with h | h
  · exact .inl (UInt32.toNat_inj.mp (hbit.trans h))
  · exact .inr (UInt32.toNat_inj.mp (hbit.trans h))

lemma xor_and (x y mask : UInt32) : (x ^^^ y) &&& mask = (x &&& mask) ^^^ (y &&& mask) := by
  apply UInt32.toNat_inj.mp
  rw [UInt32.toNat_and, UInt32.toNat_xor, UInt32.toNat_xor, UInt32.toNat_and, UInt32.toNat_and,
    Nat.and_xor_distrib_right]

lemma shiftBit_linear : Linear shiftBit := by
  intro x y
  have hmask : polynomial &&& (0 - ((x ^^^ y) &&& 1))
      = (polynomial &&& (0 - (x &&& 1))) ^^^ (polynomial &&& (0 - (y &&& 1))) := by
    rw [xor_and]
    rcases and_one x with hx | hx <;> rcases and_one y with hy | hy <;> rw [hx, hy] <;> decide
  unfold shiftBit
  rw [hmask, UInt32.shiftRight_xor]
  ac_rfl

/-- A bit that is clear is shifted out. -/
lemma shiftBit_of_even {x : UInt32} (h : x.toNat % 2 = 0) : (shiftBit x).toNat = x.toNat / 2 := by
  have hbit : x &&& 1 = 0 := by
    apply UInt32.toNat_inj.mp
    rw [UInt32.toNat_and]
    exact (Nat.and_one_is_mod _).trans h
  rw [shiftBit, hbit, UInt32.sub_zero, UInt32.and_zero, UInt32.xor_zero, UInt32.toNat_shiftRight]
  exact Nat.shiftRight_eq_div_pow _ 1

lemma iterate_shiftBit_of_dvd {n : Nat} {x : UInt32} (h : 2 ^ n ∣ x.toNat) :
    (shiftBit^[n] x).toNat = x.toNat / 2 ^ n := by
  induction n generalizing x with
  | zero => simp
  | succ n ih =>
    rw [Nat.pow_succ'] at h
    have heven : x.toNat % 2 = 0 := Nat.mod_eq_zero_of_dvd (dvd_of_mul_right_dvd h)
    have hhalf := shiftBit_of_even heven
    have hrest : 2 ^ n ∣ (shiftBit x).toNat := by
      rw [hhalf]
      exact Nat.dvd_div_of_mul_dvd h
    rw [Function.iterate_succ_apply, ih hrest, hhalf, Nat.div_div_eq_div_mul, Nat.pow_succ']

/-! ### Bytes -/

/-- What a state becomes over a zero byte, a bit at a time. -/
def zeroByte (state : UInt32) : UInt32 := shiftBit^[8] state

lemma zeroByte_linear : Linear zeroByte := shiftBit_linear.iterate 8

/-- The low byte of a state, and the rest of it. -/
lemma low_xor_high (x : UInt32) : (x &&& 255 : UInt32) ^^^ (x >>> 8 <<< 8 : UInt32) = x := by
  apply UInt32.toNat_inj.mp
  apply Nat.eq_of_testBit_eq
  intro i
  have hlow : x.toNat &&& 255 = x.toNat % 2 ^ 8 := Nat.and_two_pow_sub_one_eq_mod x.toNat 8
  have hlt : 32 ≤ i → x.toNat.testBit i = false := fun h =>
    Nat.testBit_lt_two_pow (x.toNat_lt.trans_le (Nat.pow_le_pow_right (by decide) h))
  rw [UInt32.toNat_xor, UInt32.toNat_and, UInt32.toNat_shiftLeft, UInt32.toNat_shiftRight,
    Nat.testBit_xor]
  change ((x.toNat &&& 255).testBit i ^^ ((x.toNat >>> 8 <<< 8) % 2 ^ 32).testBit i) = _
  rw [hlow, Nat.testBit_mod_two_pow, Nat.testBit_mod_two_pow, Nat.testBit_shiftLeft,
    Nat.testBit_shiftRight]
  by_cases h8 : i < 8
  · simp [h8, show ¬ 8 ≤ i by omega]
  · by_cases h32 : i < 32
    · simp [h8, h32, show 8 ≤ i by omega]
    · simp [h8, h32, hlt (by omega)]

lemma zeroByte_high (x : UInt32) : zeroByte (x >>> 8 <<< 8 : UInt32) = x >>> 8 := by
  have hvalue : (x >>> 8 <<< 8 : UInt32).toNat = x.toNat / 256 * 256 := by
    rw [UInt32.toNat_shiftLeft, UInt32.toNat_shiftRight]
    change (x.toNat >>> 8 <<< 8) % 2 ^ 32 = _
    rw [Nat.shiftRight_eq_div_pow, Nat.shiftLeft_eq]
    have hlt := x.toNat_lt
    omega
  apply UInt32.toNat_inj.mp
  rw [zeroByte, iterate_shiftBit_of_dvd (by rw [hvalue]; exact Nat.dvd_mul_left _ _), hvalue,
    UInt32.toNat_shiftRight]
  change x.toNat / 256 * 256 / 2 ^ 8 = x.toNat >>> 8
  rw [Nat.shiftRight_eq_div_pow]
  omega

/-- The step of a table-driven checksum: the low byte's entry, with the rest moved down. -/
lemma zeroByte_eq (x : UInt32) : zeroByte x = zeroByte (x &&& 255) ^^^ (x >>> 8) := by
  conv_lhs => rw [← low_xor_high x, zeroByte_linear, zeroByte_high]

lemma iterate_zeroByte_eq (n : Nat) (x : UInt32) :
    zeroByte^[n + 1] x = zeroByte^[n + 1] (x &&& 255) ^^^ zeroByte^[n] (x >>> 8) := by
  rw [Function.iterate_succ_apply, zeroByte_eq, zeroByte_linear.iterate n,
    ← Function.iterate_succ_apply]

/-- A table's entries: what a byte comes to with zero bytes behind it. -/
lemma table_eq (slice : Nat) (byte : UInt32) : table slice byte = zeroByte^[slice + 1] byte := by
  induction slice with
  | zero => rfl
  | succ slice ih =>
    rw [Function.iterate_succ_apply', ← ih, zeroByte_eq, UInt32.xor_comm]
    rfl

lemma shiftRight_shiftRight (x : UInt32) : x >>> 8 >>> 8 = x >>> 16 ∧ x >>> 16 >>> 8 = x >>> 24 := by
  constructor <;>
  · apply UInt32.toNat_inj.mp
    simp only [UInt32.toNat_shiftRight]
    exact (Nat.shiftRight_add _ _ _).symm

/-- A state by its four bytes, each with its own number of bytes behind it. -/
lemma iterate_zeroByte_bytes (n : Nat) (x : UInt32) :
    zeroByte^[n + 4] x = table (n + 3) (x &&& 255) ^^^ table (n + 2) ((x >>> 8) &&& 255)
      ^^^ table (n + 1) ((x >>> 16) &&& 255) ^^^ zeroByte^[n + 1] (x >>> 24) := by
  rw [table_eq, table_eq, table_eq, iterate_zeroByte_eq (n + 3) x,
    iterate_zeroByte_eq (n + 2) (x >>> 8), iterate_zeroByte_eq (n + 1) (x >>> 8 >>> 8),
    (shiftRight_shiftRight x).1, (shiftRight_shiftRight x).2]
  ac_rfl

lemma skip_eq (state : UInt32) : skip state = zeroByte^[16] state := by
  rw [iterate_zeroByte_bytes 12 state, ← table_eq]
  rfl

/-! ### 256 zero bytes -/

/-- A byte as the sum of its bits. -/
lemma bits_of_byte : ∀ value : Fin 256, (List.range 8).foldl (fun entry bit =>
    if UInt32.ofNat value.val &&& (1 <<< UInt32.ofNat bit) != 0 then
      entry ^^^ (1 <<< UInt32.ofNat bit) else entry) 0 = UInt32.ofNat value.val := by
  decide +kernel

lemma Linear.foldl {f : UInt32 → UInt32} (h : Linear f) (value : UInt32) (bits : List Nat)
    (state : UInt32) :
    bits.foldl (fun entry bit =>
      if value &&& (1 <<< UInt32.ofNat bit) != 0 then entry ^^^ f (1 <<< UInt32.ofNat bit)
      else entry) (f state)
    = f (bits.foldl (fun entry bit =>
      if value &&& (1 <<< UInt32.ofNat bit) != 0 then entry ^^^ (1 <<< UInt32.ofNat bit)
      else entry) state) := by
  induction bits generalizing state with
  | nil => rfl
  | cons bit bits ih =>
    rw [List.foldl_cons, List.foldl_cons, ← ih]
    congr 1
    split
    · rw [h]
    · rfl

lemma farBit_eq (bit : Nat) : farBit bit = zeroByte^[256] (1 <<< UInt32.ofNat bit) := by
  have hskip : skip = zeroByte^[16] := funext skip_eq
  rw [farBit, hskip, ← Function.iterate_mul]

/-- A far table's entries: what a byte of the state comes to, wherever in the state it stands. -/
lemma farTable_eq {k : Nat} (hk : k < 4) {value : UInt32} (hvalue : value.toNat < 256) :
    farTable k value = zeroByte^[256] (value <<< UInt32.ofNat (8 * k)) := by
  have hlinear : Linear (fun x => zeroByte^[256] (x <<< UInt32.ofNat (8 * k))) := by
    intro x y
    dsimp only
    rw [UInt32.shiftLeft_xor, zeroByte_linear.iterate 256]
  have hshift : ∀ k < 4, ∀ bit < 8, (1 : UInt32) <<< UInt32.ofNat (8 * k + bit)
      = 1 <<< UInt32.ofNat bit <<< UInt32.ofNat (8 * k) := by decide
  have hbits := bits_of_byte ⟨value.toNat, hvalue⟩
  rw [UInt32.ofNat_toNat] at hbits
  have hfold := hlinear.foldl value (List.range 8) 0
  rw [hbits, hlinear.zero] at hfold
  rw [← hfold]
  unfold farTable
  apply List.foldl_ext
  intro entry bit hbit
  rw [farBit_eq, hshift k hk bit (List.mem_range.mp hbit)]

lemma and_byte_lt (x : UInt32) : (x &&& 255).toNat < 256 := by
  rw [UInt32.toNat_and]
  exact Nat.lt_succ_of_le Nat.and_le_right

lemma skipFar_eq (state : UInt32) : skipFar state = zeroByte^[256] state := by
  have hhigh : (state >>> 24).toNat < 256 := by
    rw [UInt32.toNat_shiftRight]
    change state.toNat >>> 24 < 256
    rw [Nat.shiftRight_eq_div_pow]
    have hlt := state.toNat_lt
    omega
  unfold skipFar
  rw [farTable_eq (by decide) (and_byte_lt _), farTable_eq (by decide) (and_byte_lt _),
    farTable_eq (by decide) (and_byte_lt _), farTable_eq (by decide) hhigh,
    ← zeroByte_linear.iterate 256, ← zeroByte_linear.iterate 256, ← zeroByte_linear.iterate 256]
  congr 1
  have hshift (x : UInt32) : x <<< 8 <<< 8 = x <<< 16 ∧ x <<< 8 <<< 8 <<< 8 = x <<< 24 := by
    constructor <;>
    · apply UInt32.toBitVec_inj.mp
      simp [← BitVec.shiftLeft_add]
  have hsecond := low_xor_high (state >>> 8)
  have hthird := low_xor_high (state >>> 16)
  rw [(shiftRight_shiftRight state).1] at hsecond
  rw [(shiftRight_shiftRight state).2] at hthird
  calc _ = (state &&& 255 : UInt32) ^^^ (((state >>> 8) &&& 255 : UInt32)
        ^^^ (((state >>> 16) &&& 255 : UInt32) ^^^ (state >>> 24 <<< 8 : UInt32) : UInt32) <<< 8
          : UInt32) <<< 8 := by
        rw [UInt32.shiftLeft_xor, UInt32.shiftLeft_xor, UInt32.shiftLeft_xor, (hshift _).1,
          (hshift _).2, ← UInt32.xor_assoc, ← UInt32.xor_assoc]
        congr 3
        exact UInt32.shiftLeft_zero
    _ = state := by rw [hthird, hsecond, low_xor_high]

/-! ### Bytes of a message -/

/-- A byte processed one bit at a time. -/
def bitwiseByte (checksum : UInt32) (byte : UInt8) : UInt32 :=
  shiftBit^[8] (checksum ^^^ byte.toUInt32)

/-- The checksum without tables. -/
def bitwise (checksum : UInt32) (bytes : List UInt8) : UInt32 := bytes.foldl bitwiseByte checksum

lemma bitwise_append (checksum : UInt32) (bytes rest : List UInt8) :
    bitwise checksum (bytes ++ rest) = bitwise (bitwise checksum bytes) rest :=
  List.foldl_append

lemma bitwiseByte_eq (checksum : UInt32) (byte : UInt8) :
    bitwiseByte checksum byte = zeroByte (checksum ^^^ byte.toUInt32) := rfl

lemma byteStep_eq (checksum : UInt32) (byte : UInt8) :
    byteStep checksum byte = bitwiseByte checksum byte := by
  have hbyte : byte.toUInt32 >>> 8 = 0 := by
    apply UInt32.toNat_inj.mp
    rw [UInt32.toNat_shiftRight, UInt8.toNat_toUInt32]
    change byte.toNat >>> 8 = 0
    rw [Nat.shiftRight_eq_div_pow]
    have hlt := byte.toNat_lt
    omega
  rw [bitwiseByte_eq, zeroByte_eq, UInt32.shiftRight_xor, hbyte, UInt32.xor_zero, UInt32.xor_comm]
  rfl

/-- The first byte of a word, and the bytes after it. -/
lemma u32FromLe_cons (byte : UInt8) {bytes : List UInt8} (h : bytes.length < 4) :
    u32FromLe (byte :: bytes) &&& 255 = byte.toUInt32 ∧
      u32FromLe (byte :: bytes) >>> 8 = u32FromLe bytes := by
  have hbyte := byte.toNat_lt
  have hrest : ofLeBytes bytes < 256 ^ 3 := (ofLeBytes_lt bytes).trans_le
    (Nat.pow_le_pow_right (by decide) (by omega))
  have hword : (u32FromLe (byte :: bytes)).toNat = byte.toNat + 256 * ofLeBytes bytes := by
    rw [u32FromLe, UInt32.toNat_ofNat', ofLeBytes]
    omega
  constructor
  · apply UInt32.toNat_inj.mp
    rw [UInt32.toNat_and, hword, UInt8.toNat_toUInt32]
    exact (Nat.and_two_pow_sub_one_eq_mod _ 8).trans (by omega)
  · apply UInt32.toNat_inj.mp
    rw [UInt32.toNat_shiftRight, hword, u32FromLe, UInt32.toNat_ofNat']
    change (byte.toNat + 256 * ofLeBytes bytes) >>> 8 = _
    rw [Nat.shiftRight_eq_div_pow]
    omega

/-- Up to four bytes at once: they are added to the state, which then moves on by their number. -/
lemma bitwise_word (checksum : UInt32) {bytes : List UInt8} (h : bytes.length ≤ 4) :
    bitwise checksum bytes = zeroByte^[bytes.length] (checksum ^^^ u32FromLe bytes) := by
  induction bytes generalizing checksum with
  | nil => exact UInt32.xor_zero.symm
  | cons byte bytes ih =>
    obtain ⟨hlow, hhigh⟩ := u32FromLe_cons byte (Nat.lt_of_succ_le h)
    have hword := low_xor_high (u32FromLe (byte :: bytes))
    have hmoved := zeroByte_high (u32FromLe (byte :: bytes))
    rw [hlow, hhigh] at hword
    rw [hhigh] at hmoved
    have hfirst : zeroByte (checksum ^^^ u32FromLe (byte :: bytes))
        = bitwiseByte checksum byte ^^^ u32FromLe bytes := by
      rw [← hword, ← UInt32.xor_assoc, zeroByte_linear, hmoved, bitwiseByte_eq]
    calc bitwise checksum (byte :: bytes)
        = bitwise (bitwiseByte checksum byte) bytes := rfl
      _ = zeroByte^[bytes.length] (bitwiseByte checksum byte ^^^ u32FromLe bytes) :=
          ih _ (Nat.le_of_succ_le h)
      _ = zeroByte^[(byte :: bytes).length] (checksum ^^^ u32FromLe (byte :: bytes)) := by
          rw [← hfirst, List.length_cons, Function.iterate_succ_apply]

lemma bitwise_zeros (checksum : UInt32) (n : Nat) :
    bitwise checksum (List.replicate n 0) = zeroByte^[n] checksum := by
  induction n generalizing checksum with
  | zero => rfl
  | succ n ih =>
    have hfirst : bitwiseByte checksum 0 = zeroByte checksum :=
      congrArg zeroByte UInt32.xor_zero
    rw [List.replicate_succ, Function.iterate_succ_apply, ← ih, ← hfirst]
    rfl

lemma shiftRight_24_and (x : UInt32) : ((x >>> 24) &&& 255 : UInt32) = x >>> 24 := by
  apply UInt32.toNat_inj.mp
  rw [UInt32.toNat_and, UInt32.toNat_shiftRight]
  refine (Nat.and_two_pow_sub_one_eq_mod _ 8).trans (Nat.mod_eq_of_lt ?_)
  change x.toNat >>> 24 < 2 ^ 8
  rw [Nat.shiftRight_eq_div_pow]
  have hlt := x.toNat_lt
  omega

/-- The four lookups of a word, with `n` bytes behind it. -/
lemma word_lookups (n : Nat) (word : UInt32) :
    table (n + 3) ((word >>> 0) &&& 255) ^^^ table (n + 2) ((word >>> 8) &&& 255)
      ^^^ table (n + 1) ((word >>> 16) &&& 255) ^^^ table n ((word >>> 24) &&& 255)
      = zeroByte^[n + 4] word := by
  rw [iterate_zeroByte_bytes, UInt32.shiftRight_zero, shiftRight_24_and, table_eq n]

/-! ### The loop over the chunks -/

/-- A slicing step is sixteen bytes, one at a time. -/
lemma chunkStep_eq (checksum : UInt32) {chunk : List UInt8} (h : chunk.length = 16) :
    chunkStep checksum chunk = bitwise checksum chunk := by
  let word (offset : Nat) : UInt32 := u32FromLe (slice chunk offset (offset + 4))
  have hlookups : chunkStep checksum chunk
      = zeroByte^[16] (word 0 ^^^ checksum) ^^^ zeroByte^[12] (word 4)
        ^^^ zeroByte^[8] (word 8) ^^^ zeroByte^[4] (word 12) := by
    rw [← word_lookups 12, ← word_lookups 8, ← word_lookups 4, ← word_lookups 0]
    simp only [← UInt32.xor_assoc]
    rfl
  have hwords : chunk = slice chunk 0 4 ++ (slice chunk 4 8 ++ (slice chunk 8 12 ++ slice chunk 12 16)) := by
    rw [slice_append_slice (by decide) (by decide), slice_append_slice (by decide) (by decide),
      slice_append_slice (by decide) (by decide), ← h, slice_zero_length]
  have hstep (checksum : UInt32) {offset : Nat} (hoffset : offset + 4 ≤ 16) :
      bitwise checksum (slice chunk offset (offset + 4)) = zeroByte^[4] (checksum ^^^ word offset) := by
    have hlength : (slice chunk offset (offset + 4)).length = 4 := by
      rw [length_slice (by omega)]
      omega
    rw [bitwise_word checksum hlength.le, hlength]
  have hlinear (x y : UInt32) : zeroByte^[4] (x ^^^ y) = zeroByte^[4] x ^^^ zeroByte^[4] y :=
    zeroByte_linear.iterate 4 x y
  calc chunkStep checksum chunk
      = zeroByte^[4] (zeroByte^[4] (zeroByte^[4] (zeroByte^[4] (checksum ^^^ word 0) ^^^ word 4)
          ^^^ word 8) ^^^ word 12) := by
        rw [hlookups, UInt32.xor_comm (word 0), zeroByte_linear.iterate 16]
        simp only [hlinear, ← Function.iterate_add_apply]
    _ = bitwise checksum chunk := by
        conv_rhs => rw [hwords, bitwise_append, bitwise_append, bitwise_append,
          hstep _ (by decide), hstep _ (by decide), hstep _ (by decide), hstep _ (by decide)]

lemma flatten_zeroChunks {list : List (List UInt8)} (hwidth : ∀ chunk ∈ list, chunk.length = 16)
    (hzero : ∀ chunk ∈ list, zeroChunk chunk = true) :
    list.flatten = List.replicate (16 * list.length) 0 := by
  rw [List.eq_replicate_iff]
  constructor
  · rw [List.length_flatten, List.map_congr_left hwidth, List.map_const', List.sum_replicate_nat,
      Nat.mul_comm]
  · intro byte hbyte
    obtain ⟨chunk, hchunk, hbyte⟩ := List.mem_flatten.mp hbyte
    simpa using List.all_eq_true.mp (hzero chunk hchunk) byte hbyte

/-- Passing a run of zero chunks, sixteen of them at a time and then one at a time. -/
lemma skip_run (checksum : UInt32) (run : Nat) :
    skip^[run % 16] (skipFar^[run / 16] checksum) = zeroByte^[16 * run] checksum := by
  have hskip : skip = zeroByte^[16] := funext skip_eq
  have hskipFar : skipFar = zeroByte^[256] := funext skipFar_eq
  have hrun : 16 * (run % 16) + 256 * (run / 16) = 16 * run := by omega
  rw [hskip, hskipFar, ← Function.iterate_mul, ← Function.iterate_mul, ← Function.iterate_add_apply,
    hrun]

lemma chunks_eq {fuel : Nat} {list : List (List UInt8)} (checksum : UInt32)
    (hfuel : list.length ≤ fuel) (hwidth : ∀ chunk ∈ list, chunk.length = 16) :
    chunks fuel checksum list = bitwise checksum list.flatten := by
  induction fuel generalizing checksum list with
  | zero =>
    rw [List.eq_nil_of_length_eq_zero (Nat.le_zero.mp hfuel)]
    rfl
  | succ fuel ih =>
    cases list with
    | nil => rfl
    | cons chunk rest =>
      rw [chunks]
      split
      · next hzero =>
        -- The run is at least the chunk that starts it.
        have hpos : 0 < ((chunk :: rest).takeWhile zeroChunk).length := by
          rw [List.takeWhile_cons_of_pos hzero]
          exact Nat.succ_pos _
        have hsplit := @List.takeWhile_append_dropWhile _ zeroChunk (chunk :: rest)
        have hdrop : (chunk :: rest).drop ((chunk :: rest).takeWhile zeroChunk).length
            = (chunk :: rest).dropWhile zeroChunk := by
          have hleft := @List.drop_left _ ((chunk :: rest).takeWhile zeroChunk)
            ((chunk :: rest).dropWhile zeroChunk)
          rwa [hsplit] at hleft
        have hrun := flatten_zeroChunks (fun c hc => hwidth c ((List.takeWhile_subset _) hc))
          (List.all_eq_true.mp List.all_takeWhile)
        dsimp only
        rw [ih _ (by rw [List.length_drop]; omega) (fun c hc => hwidth c (List.mem_of_mem_drop hc))]
        conv_rhs => rw [← hsplit, List.flatten_append, bitwise_append, hrun, bitwise_zeros]
        rw [hdrop, ← skip_run]
      · next hother =>
        rw [ih _ (Nat.le_of_succ_le_succ hfuel) (fun c hc => hwidth c (List.mem_cons_of_mem _ hc)),
          chunkStep_eq checksum (hwidth chunk List.mem_cons_self), List.flatten_cons, bitwise_append]

end Crc32

open Bytes in
lemma length_of_mem_asChunks {n : Nat} {bytes chunk : List UInt8} (h : chunk ∈ (asChunks n bytes).1) :
    chunk.length = n := by
  obtain ⟨index, hindex, rfl⟩ := List.mem_map.mp h
  have hnext : index * n + n ≤ bytes.length / n * n := by
    rw [← Nat.succ_mul]
    exact Nat.mul_le_mul_right n (List.mem_range.mp hindex)
  rw [length_slice (hnext.trans (Nat.div_mul_le_self _ _)), Nat.add_sub_cancel_left]

open Bytes in
lemma asChunks_append (n : Nat) (bytes : List UInt8) :
    (asChunks n bytes).1.flatten ++ (asChunks n bytes).2 = bytes := by
  have hle : bytes.length / n * n ≤ bytes.length := Nat.div_mul_le_self _ _
  have hlength : (bytes.take (bytes.length / n * n)).length = bytes.length / n * n := by
    rw [List.length_take]
    exact Nat.min_eq_left hle
  have hwhole : (asChunks n bytes).1.flatten = bytes.take (bytes.length / n * n) := by
    rw [← flatMap_slices hlength, List.flatMap_def]
    unfold asChunks
    congr 1
    apply List.map_congr_left
    intro index hindex
    have hnext : index * n + n ≤ bytes.length / n * n := by
      rw [← Nat.succ_mul]
      exact Nat.mul_le_mul_right n (List.mem_range.mp hindex)
    conv_lhs => rw [← List.take_append_drop (bytes.length / n * n) bytes]
    rw [slice_append_left (by rw [hlength]; exact hnext)]
  rw [hwhole]
  exact List.take_append_drop _ _

lemma crc32Update_bitwise (checksum : UInt32) (bytes : List UInt8) :
    crc32Update checksum bytes = Crc32.bitwise checksum bytes := by
  have hbytes : Crc32.byteStep = Crc32.bitwiseByte := funext₂ Crc32.byteStep_eq
  conv_rhs => rw [← asChunks_append 16 bytes, Crc32.bitwise_append,
    ← Crc32.chunks_eq checksum (Nat.le_refl _) (fun _ => length_of_mem_asChunks)]
  unfold crc32Update Crc32.bitwise
  rw [hbytes]

/-- A message's checksum is the one taken a bit at a time, from any state, and can be continued at any
place in the message. -/
theorem crc32Update_eq_bitwise (checksum : UInt32) :
    (∀ bytes, crc32Update checksum bytes = Crc32.bitwise checksum bytes) ∧
      ∀ start rest, crc32Update checksum (start ++ rest)
        = crc32Update (crc32Update checksum start) rest := by
  refine ⟨crc32Update_bitwise checksum, ?_⟩
  intro start rest
  rw [crc32Update_bitwise, crc32Update_bitwise, crc32Update_bitwise, Crc32.bitwise_append]

end TinyJoin
