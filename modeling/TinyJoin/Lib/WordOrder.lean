import Mathlib.Order.Compare
import TinyJoin.Lib.Bytes

/-! Strings compared as little-endian words. Of the bytes in which two words differ, the one that holds
their lowest differing bit is the first of the strings they were read from. -/
namespace WordOrder
open Bytes OrderCode

/-- The bits of a word below the byte that its lowest set bit is in. -/
def shift {w : Nat} (word : BitVec w) : Nat := word.ctz.toNat &&& 56

def byteAt (n shift : Nat) : UInt8 := UInt8.ofNat (n >>> shift)

lemma and_56 : ∀ n < 64, n &&& 56 = 8 * (n / 8) := by decide

lemma shift_eq {word : BitVec 64} (h : word ≠ 0#64) : shift word = 8 * (word.ctz.toNat / 8) := by
  have hlt : word.ctz < 64#64 := BitVec.ctz_lt_iff_ne_zero.mpr h
  apply and_56
  simpa [BitVec.lt_def] using hlt

/-- The byte `k` of a word. -/
lemma byteAt_ofLeBytes {x : List UInt8} {k : Nat} (h : k < x.length) :
    byteAt (ofLeBytes x) (8 * k) = x[k] := by
  induction k generalizing x with
  | zero =>
    cases x with
    | nil => simp at h
    | cons b x =>
      have hb : b.toNat < 256 := b.toNat_lt_size
      apply UInt8.toNat_inj.mp
      simp only [byteAt, Nat.mul_zero, Nat.shiftRight_zero, ofLeBytes, UInt8.toNat_ofNat',
        List.getElem_cons_zero]
      omega
  | succ k ih =>
    cases x with
    | nil => simp at h
    | cons b x =>
      have hb : b.toNat < 256 := b.toNat_lt_size
      have hdiv : ofLeBytes (b :: x) >>> 8 = ofLeBytes x := by
        rw [Nat.shiftRight_eq_div_pow, ofLeBytes]
        omega
      rw [List.getElem_cons_succ, ← ih (by simpa using h), byteAt, byteAt, Nat.mul_succ,
        Nat.add_comm, Nat.shiftRight_add, hdiv]

lemma take_eq_leBytes {x : List UInt8} {k : Nat} (h : k ≤ x.length) :
    x.take k = leBytes k (ofLeBytes x) := by
  have hspell := take_leBytes h (ofLeBytes x)
  rwa [leBytes_ofLeBytes] at hspell

/-- The first bytes of a word are its low bits. -/
lemma take_eq_iff {x y : List UInt8} {k : Nat} (hx : k ≤ x.length) (hy : k ≤ y.length) :
    x.take k = y.take k ↔ ofLeBytes x % 2 ^ (8 * k) = ofLeBytes y % 2 ^ (8 * k) := by
  have hpow : 2 ^ (8 * k) = 256 ^ k := by rw [Nat.pow_mul]
  rw [take_eq_leBytes hx, take_eq_leBytes hy, hpow]
  constructor
  · intro h
    rw [← ofLeBytes_leBytes, ← ofLeBytes_leBytes, h]
  · intro h
    rw [← leBytes_mod, h, leBytes_mod]

lemma mod_eq_iff_testBit {a b n : Nat} :
    a % 2 ^ n = b % 2 ^ n ↔ ∀ i < n, a.testBit i = b.testBit i := by
  constructor
  · intro h i hi
    have hbit := congrArg (fun m => m.testBit i) h
    simpa [Nat.testBit_mod_two_pow, hi] using hbit
  · intro h
    apply Nat.eq_of_testBit_eq
    intro i
    rw [Nat.testBit_mod_two_pow, Nat.testBit_mod_two_pow]
    by_cases hi : i < n
    · rw [h i hi]
    · simp [hi]

/-- The bits of two words below the lowest in which they differ, and that bit. -/
lemma testBit_of_ctz {a b : BitVec 64} (hne : a ≠ b) :
    (∀ i < (a ^^^ b).ctz.toNat, a.toNat.testBit i = b.toNat.testBit i) ∧
      a.toNat.testBit (a ^^^ b).ctz.toNat ≠ b.toNat.testBit (a ^^^ b).ctz.toNat := by
  have hxor : a ^^^ b ≠ 0#64 := fun h => hne (BitVec.xor_eq_zero_iff.mp h)
  constructor
  · intro i hi
    have hfalse := BitVec.getLsbD_false_of_lt_ctz hi
    rw [BitVec.getLsbD_xor] at hfalse
    simpa [BitVec.getLsbD] using hfalse
  · have htrue := BitVec.getLsbD_true_ctz_of_ne_zero hxor
    rw [BitVec.getLsbD_xor] at htrue
    simpa [BitVec.getLsbD] using htrue

/-- The word that eight bytes spell. -/
def word (x : List UInt8) : BitVec 64 := BitVec.ofNat 64 (ofLeBytes x)

lemma toNat_word {x : List UInt8} (h : x.length = 8) : (word x).toNat = ofLeBytes x := by
  have hlt : ofLeBytes x < 2 ^ 64 := by
    have hbytes := ofLeBytes_lt x
    rwa [h] at hbytes
  rw [word, BitVec.toNat_ofNat, Nat.mod_eq_of_lt hlt]

lemma word_inj {x y : List UInt8} (hx : x.length = 8) (hy : y.length = 8) :
    word x = word y ↔ x = y := by
  constructor
  · intro h
    have hn : ofLeBytes x = ofLeBytes y := by rw [← toNat_word hx, ← toNat_word hy, h]
    rw [← leBytes_ofLeBytes x, ← leBytes_ofLeBytes y, hx, hy, hn]
  · rintro rfl
    rfl

/-- Eight bytes that differ from another eight part with them at the byte of the lowest bit in which
the words differ. -/
lemma exists_parting {x y : List UInt8} (hx : x.length = 8) (hy : y.length = 8) (hne : x ≠ y) :
    ∃ p s t, x = p ++ byteAt (word x).toNat (shift (word x ^^^ word y)) :: s ∧
      y = p ++ byteAt (word y).toNat (shift (word x ^^^ word y)) :: t ∧
      byteAt (word x).toNat (shift (word x ^^^ word y)) ≠
        byteAt (word y).toNat (shift (word x ^^^ word y)) := by
  have hword : word x ≠ word y := fun h => hne ((word_inj hx hy).mp h)
  have hxor : word x ^^^ word y ≠ 0#64 := fun h => hword (BitVec.xor_eq_zero_iff.mp h)
  obtain ⟨hbelow, hat⟩ := testBit_of_ctz hword
  have hlt : (word x ^^^ word y).ctz.toNat < 64 := by
    simpa [BitVec.lt_def] using BitVec.ctz_lt_iff_ne_zero.mpr hxor
  rw [shift_eq hxor, toNat_word hx, toNat_word hy]
  rw [toNat_word hx, toNat_word hy] at hbelow hat
  generalize (word x ^^^ word y).ctz.toNat = bit at hbelow hat hlt
  have hkx : bit / 8 < x.length := by omega
  have hky : bit / 8 < y.length := by omega
  have htake : x.take (bit / 8) = y.take (bit / 8) :=
    (take_eq_iff hkx.le hky.le).mpr (mod_eq_iff_testBit.mpr fun i hi => hbelow i (by omega))
  rw [byteAt_ofLeBytes hkx, byteAt_ofLeBytes hky]
  refine ⟨x.take (bit / 8), x.drop (bit / 8 + 1), y.drop (bit / 8 + 1), ?_, ?_, ?_⟩
  · rw [List.getElem_cons_drop, List.take_append_drop]
  · rw [htake, List.getElem_cons_drop, List.take_append_drop]
  · intro hsame
    -- The bytes at the lowest differing bit would agree, and so would that bit.
    have hnext : x.take (bit / 8 + 1) = y.take (bit / 8 + 1) := by
      rw [List.take_succ_eq_append_getElem hkx, List.take_succ_eq_append_getElem hky, htake, hsame]
    exact hat (mod_eq_iff_testBit.mp ((take_eq_iff hkx hky).mp hnext) bit (by omega))

end WordOrder
