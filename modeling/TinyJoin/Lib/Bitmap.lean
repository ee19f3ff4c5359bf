import TinyJoin.Lib.Bytes
import Mathlib.Data.Nat.Bitwise
import Mathlib.Data.List.Basic

/-! Strings of bits packed into bytes, the lowest bit of the first byte first, and reading them a
word of 64 bits at a time. -/
namespace Bitmap
open Bytes

/-- The bit of its byte that `index` names. -/
def mask (index : Nat) : UInt8 := 1 <<< UInt8.ofNat (index % 8)

/-- The bit at `index`; past the last byte every bit is clear. -/
def bitAt (bytes : List UInt8) (index : Nat) : Bool :=
  match bytes[index / 8]? with
  | some byte => byte &&& mask index != 0
  | none => false

def setBit (bytes : List UInt8) (index : Nat) : List UInt8 :=
  bytes.modify (index / 8) (· ||| mask index)

def flipBit (bytes : List UInt8) (index : Nat) : List UInt8 :=
  bytes.modify (index / 8) (· ^^^ mask index)

lemma toNat_mask (index : Nat) : (mask index).toNat = 2 ^ (index % 8) := by
  have hlt : index % 8 < 8 := Nat.mod_lt _ (by omega)
  unfold mask
  generalize index % 8 = k at hlt
  revert k
  decide

lemma and_mask_ne_zero (byte : UInt8) (index : Nat) :
    (byte &&& mask index != 0) = byte.toNat.testBit (index % 8) := by
  have hnat : (byte &&& mask index).toNat = (byte.toNat.testBit (index % 8)).toNat * 2 ^ (index % 8) := by
    rw [UInt8.toNat_and, toNat_mask, Nat.and_two_pow]
  cases hbit : byte.toNat.testBit (index % 8) with
  | true =>
    rw [bne_iff_ne, ne_eq, ← UInt8.toNat_inj, hnat, hbit]
    simp
  | false =>
    rw [bne_eq_false_iff_eq, ← UInt8.toNat_inj, hnat, hbit]
    simp

lemma bitAt_eq_testBit {bytes : List UInt8} {index : Nat} (h : index / 8 < bytes.length) :
    bitAt bytes index = bytes[index / 8].toNat.testBit (index % 8) := by
  rw [bitAt, List.getElem?_eq_getElem h]
  exact and_mask_ne_zero _ _

lemma bitAt_of_le {bytes : List UInt8} {index : Nat} (h : bytes.length * 8 ≤ index) :
    bitAt bytes index = false := by
  rw [bitAt, List.getElem?_eq_none (by omega)]

@[simp] lemma length_setBit (bytes : List UInt8) (index : Nat) :
    (setBit bytes index).length = bytes.length := by
  simp [setBit]

@[simp] lemma length_flipBit (bytes : List UInt8) (index : Nat) :
    (flipBit bytes index).length = bytes.length := by
  simp [flipBit]

lemma mask_testBit {i j : Nat} (h : i / 8 = j / 8) :
    (mask i).toNat.testBit (j % 8) = decide (i = j) := by
  rw [toNat_mask, Nat.testBit_two_pow]
  congr 1
  apply propext
  omega

lemma bitAt_setBit {bytes : List UInt8} {index : Nat} (h : index < bytes.length * 8)
    (other : Nat) :
    bitAt (setBit bytes index) other = (bitAt bytes other || decide (index = other)) := by
  by_cases hbyte : index / 8 = other / 8
  · have hlen : other / 8 < bytes.length := by omega
    rw [bitAt_eq_testBit (by simpa using hlen), bitAt_eq_testBit hlen]
    simp only [setBit, hbyte, List.getElem_modify_eq, UInt8.toNat_or, Nat.testBit_or,
      mask_testBit hbyte]
  · have hne : index ≠ other := fun heq => hbyte (by rw [heq])
    simp [bitAt, setBit, hbyte, hne]

lemma bitAt_flipBit {bytes : List UInt8} {index : Nat} (h : index < bytes.length * 8)
    (other : Nat) :
    bitAt (flipBit bytes index) other = (bitAt bytes other ^^ decide (index = other)) := by
  by_cases hbyte : index / 8 = other / 8
  · have hlen : other / 8 < bytes.length := by omega
    rw [bitAt_eq_testBit (by simpa using hlen), bitAt_eq_testBit hlen]
    simp only [flipBit, hbyte, List.getElem_modify_eq, UInt8.toNat_xor, Nat.testBit_xor,
      mask_testBit hbyte]
  · have hne : index ≠ other := fun heq => hbyte (by rw [heq])
    simp [bitAt, flipBit, hbyte, hne]

/-- Bytes are told apart by their bits. -/
lemma ext {x y : List UInt8} (hlen : x.length = y.length)
    (h : ∀ index, index < x.length * 8 → bitAt x index = bitAt y index) : x = y := by
  apply List.ext_getElem hlen
  intro i hx hy
  rw [← UInt8.toNat_inj]
  apply Nat.eq_of_testBit_eq
  intro k
  by_cases hk : k < 8
  · have hbit := h (8 * i + k) (by omega)
    have hdiv : (8 * i + k) / 8 = i := by omega
    have hmod : (8 * i + k) % 8 = k := by omega
    rw [bitAt_eq_testBit (by omega), bitAt_eq_testBit (by omega)] at hbit
    simpa only [hdiv, hmod] using hbit
  · rw [Nat.testBit_lt_two_pow, Nat.testBit_lt_two_pow]
    · exact Nat.lt_of_lt_of_le y[i].toNat_lt (Nat.pow_le_pow_right (by omega) (by omega))
    · exact Nat.lt_of_lt_of_le x[i].toNat_lt (Nat.pow_le_pow_right (by omega) (by omega))

/-! Words. -/

lemma testBit_ofLeBytes (bytes : List UInt8) (k : Nat) :
    (ofLeBytes bytes).testBit k = bitAt bytes k := by
  induction bytes generalizing k with
  | nil => simp [ofLeBytes, bitAt]
  | cons b bytes ih =>
    have hb : b.toNat < 2 ^ 8 := b.toNat_lt
    have hsum : b.toNat + 256 * ofLeBytes bytes = 2 ^ 8 * ofLeBytes bytes + b.toNat := by omega
    rw [ofLeBytes, hsum, Nat.testBit_two_pow_mul_add _ hb]
    by_cases hk : k < 8
    · have hdiv : k / 8 = 0 := by omega
      have hmod : k % 8 = k := by omega
      rw [if_pos hk, bitAt_eq_testBit (by simp [hdiv])]
      simp [hdiv, hmod]
    · have hdiv : k / 8 = (k - 8) / 8 + 1 := by omega
      have hmod : (k - 8) % 8 = k % 8 := by omega
      rw [if_neg hk, ih, bitAt, bitAt, hdiv, List.getElem?_cons_succ, mask, mask, hmod]

/-- Word `index` of a bit string, 64 bits. -/
def word (bytes : List UInt8) (index : Nat) : Nat :=
  ofLeBytes (slice bytes (index * 8) (index * 8 + 8))

lemma bitAt_slice {bytes : List UInt8} {start stop k : Nat} (h : k < (stop - start) * 8) :
    bitAt (slice bytes start stop) k = bitAt bytes (start * 8 + k) := by
  have hdiv : (start * 8 + k) / 8 = start + k / 8 := by omega
  have hmod : (start * 8 + k) % 8 = k % 8 := by omega
  have hlt : k / 8 < stop - start := by omega
  rw [bitAt, bitAt, slice, List.getElem?_take_of_lt hlt, List.getElem?_drop, hdiv, mask, mask, hmod]

lemma testBit_word {bytes : List UInt8} {k : Nat} (h : k < 64) (index : Nat) :
    (word bytes index).testBit k = bitAt bytes (index * 64 + k) := by
  have hpos : index * 8 * 8 + k = index * 64 + k := by omega
  rw [word, testBit_ofLeBytes, bitAt_slice (by omega), hpos]

lemma word_lt (bytes : List UInt8) (index : Nat) : word bytes index < 2 ^ 64 := by
  have h := ofLeBytes_lt (slice bytes (index * 8) (index * 8 + 8))
  have hlen : (slice bytes (index * 8) (index * 8 + 8)).length ≤ 8 := by
    simp [slice]
  exact Nat.lt_of_lt_of_le h (Nat.pow_le_pow_right (by omega) hlen)

/-- How many zero bits stand below the lowest set bit of a word. -/
def trailingZeros (n : Nat) : Nat := ((List.range 64).find? n.testBit).getD 64

lemma trailingZeros_spec {n : Nat} (hn : n < 2 ^ 64) (h : n ≠ 0) :
    trailingZeros n < 64 ∧ n.testBit (trailingZeros n) = true ∧
      ∀ k, k < trailingZeros n → n.testBit k = false := by
  obtain ⟨k, hk⟩ := Nat.exists_testBit_of_ne_zero h
  have hk64 : k < 64 := by
    by_contra hge
    have := Nat.testBit_lt_two_pow (Nat.lt_of_lt_of_le hn
      (Nat.pow_le_pow_right (by omega) (Nat.not_lt.mp hge)))
    rw [hk] at this
    cases this
  cases hfind : (List.range 64).find? n.testBit with
  | none =>
    rw [List.find?_eq_none] at hfind
    exact absurd hk (hfind k (List.mem_range.mpr hk64))
  | some low =>
    have hspec := List.find?_range_eq_some.mp hfind
    rw [trailingZeros, hfind, Option.getD_some]
    refine ⟨List.mem_range.mp hspec.2.1, hspec.1, ?_⟩
    intro j hj
    simpa using hspec.2.2 j hj

/-- Clearing the lowest set bit. -/
lemma testBit_and_pred {n low : Nat} (hbit : n.testBit low = true)
    (hlow : ∀ k, k < low → n.testBit k = false) (k : Nat) :
    (n &&& (n - 1)).testBit k = (n.testBit k && decide (k ≠ low)) := by
  have hmod : n % 2 ^ low = 0 := by
    apply Nat.eq_of_testBit_eq
    intro j
    rw [Nat.testBit_mod_two_pow, Nat.zero_testBit]
    by_cases hj : j < low
    · simp [hlow j hj]
    · simp [hj]
  have hodd : n / 2 ^ low % 2 = 1 := by
    rw [Nat.testBit_eq_decide_div_mod_eq] at hbit
    simpa using hbit
  -- so n is a multiple of 2 ^ (low + 1), and 2 ^ low
  obtain ⟨m, hm⟩ : ∃ m, n = 2 ^ (low + 1) * m + 2 ^ low := by
    refine ⟨n / 2 ^ low / 2, ?_⟩
    have h₁ := Nat.div_add_mod n (2 ^ low)
    have h₂ := Nat.div_add_mod (n / 2 ^ low) 2
    rw [hmod, Nat.add_zero] at h₁
    rw [hodd] at h₂
    calc n = 2 ^ low * (2 * (n / 2 ^ low / 2) + 1) := by rw [h₂, h₁]
      _ = 2 ^ (low + 1) * (n / 2 ^ low / 2) + 2 ^ low := by ring
  have hpos : 0 < 2 ^ low := Nat.two_pow_pos low
  have hlt : 2 ^ low < 2 ^ (low + 1) := Nat.pow_lt_pow_right (by omega) (by omega)
  have hpred : n - 1 = 2 ^ (low + 1) * m + (2 ^ low - 1) := by omega
  rw [Nat.testBit_and, hpred, Nat.testBit_two_pow_mul_add _ (by omega), hm,
    Nat.testBit_two_pow_mul_add _ hlt, Nat.testBit_two_pow, Nat.testBit_two_pow_sub_one]
  by_cases hk : k < low + 1
  · simp only [hk, if_true]
    by_cases heq : k = low
    · simp [heq]
    · have hne : low ≠ k := Ne.symm heq
      simp [hne]
  · have hne : k ≠ low := by omega
    simp [hk, hne]

/-- How many bits are set. -/
def count (bytes : List UInt8) : Nat := (List.range (bytes.length * 8)).countP (bitAt bytes)

/-- Flipping the value at one position changes a count there by one. -/
lemma countP_range_flip {p q : Nat → Bool} {index n : Nat} (h : index < n)
    (hq : ∀ k, q k = (p k ^^ decide (index = k))) :
    (List.range n).countP q + (if p index then 1 else 0) =
      (List.range n).countP p + (if p index then 0 else 1) := by
  have hbelow : ∀ m, m ≤ index → (List.range m).countP q = (List.range m).countP p := by
    intro m hm
    apply List.countP_congr
    intro k hk
    have hne : index ≠ k := by
      have := List.mem_range.mp hk
      omega
    simp [hq, hne]
  induction n with
  | zero => omega
  | succ n ih =>
    rw [List.range_succ, List.countP_append, List.countP_append, List.countP_singleton,
      List.countP_singleton, hq n]
    rcases Nat.lt_or_ge index n with hlt | hge
    · have hne : index ≠ n := by omega
      have := ih hlt
      simp only [hne, decide_false, Bool.xor_false]
      omega
    · have heq : index = n := by omega
      subst heq
      rw [hbelow index (Nat.le_refl _)]
      cases p index <;> simp

lemma count_flipBit {bytes : List UInt8} {index : Nat} (h : index < bytes.length * 8) :
    count (flipBit bytes index) + (if bitAt bytes index then 1 else 0) =
      count bytes + (if bitAt bytes index then 0 else 1) := by
  rw [count, count, length_flipBit]
  exact countP_range_flip h (bitAt_flipBit h)

lemma setBit_eq_flipBit {bytes : List UInt8} {index : Nat} (h : index < bytes.length * 8)
    (hclear : bitAt bytes index = false) : setBit bytes index = flipBit bytes index := by
  apply ext (by simp)
  intro k _
  rw [bitAt_setBit h, bitAt_flipBit h]
  by_cases hk : index = k
  · subst hk
    simp [hclear]
  · simp [hk]

lemma bitAt_replicate_zero (n index : Nat) : bitAt (List.replicate n 0) index = false := by
  rw [bitAt, List.getElem?_replicate]
  split
  · next h =>
    split at h
    · cases h
      simp
    · cases h
  · rfl

lemma count_replicate_zero (n : Nat) : count (List.replicate n 0) = 0 := by
  rw [count, List.countP_eq_zero]
  intro index _
  simp [bitAt_replicate_zero]

/-- The bits of whole words, counted word by word. -/
lemma sum_count_words (bytes : List UInt8) (n : Nat) :
    ((List.range n).map (fun index => (List.range 64).countP (word bytes index).testBit)).sum =
      (List.range (n * 64)).countP (bitAt bytes) := by
  induction n with
  | zero => simp
  | succ n ih =>
    have hword : (List.range 64).countP (word bytes n).testBit =
        ((List.range 64).map (n * 64 + ·)).countP (bitAt bytes) := by
      rw [List.countP_map]
      apply List.countP_congr
      intro k hk
      rw [testBit_word (List.mem_range.mp hk)]
      rfl
    have hlast : List.range (n + 1) = List.range n ++ [n] := List.range_succ
    rw [hlast, List.map_append, List.sum_append, ih, List.map_singleton,
      List.sum_singleton, hword, Nat.succ_mul, List.range_add, List.countP_append]

end Bitmap
