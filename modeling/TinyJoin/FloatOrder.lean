import TinyJoin.ColumnValues
import TinyJoin.KeyTuples
import TinyJoin.Protocol
import Mathlib.Tactic.Ring
import Mathlib.Tactic.NormNum

/-! What `f64`s denote: safe integers exactly, and a sum that starts from zero without regard to the signs
of the zeros that are added to it. -/
namespace TinyJoin
namespace F64

/-! ### Integers -/

/-- The bits of a natural number that an `f64` holds exactly. -/
lemma toNat_ofNat_bits {n : Nat} (hpos : 0 < n) (hlt : n < 2 ^ 53) :
    (ofNat n).bits.toNat =
      (Nat.log2 n + 1023) * 2 ^ 52 + (n * 2 ^ (52 - Nat.log2 n) - 2 ^ 52) ∧
    Nat.log2 n ≤ 52 ∧ 2 ^ 52 ≤ n * 2 ^ (52 - Nat.log2 n) ∧
    n * 2 ^ (52 - Nat.log2 n) < 2 ^ 53 := by
  have hne : n ≠ 0 := Nat.pos_iff_ne_zero.mp hpos
  have hlog : Nat.log2 n ≤ 52 := Nat.lt_succ_iff.mp ((Nat.log2_lt hne).mpr hlt)
  have hsplit : 2 ^ Nat.log2 n * 2 ^ (52 - Nat.log2 n) = 2 ^ 52 := by
    rw [← Nat.pow_add]
    congr 1
    omega
  have hlow : 2 ^ 52 ≤ n * 2 ^ (52 - Nat.log2 n) := by
    rw [← hsplit]
    exact Nat.mul_le_mul_right _ (Nat.log2_self_le hne)
  have hhigh : n * 2 ^ (52 - Nat.log2 n) < 2 ^ 53 := by
    have hdouble : 2 ^ (Nat.log2 n + 1) * 2 ^ (52 - Nat.log2 n) = 2 ^ 53 := by
      rw [Nat.pow_succ, Nat.mul_right_comm, hsplit, ← Nat.pow_succ]
    rw [← hdouble]
    exact Nat.mul_lt_mul_of_pos_right Nat.lt_log2_self (Nat.two_pow_pos _)
  refine ⟨?_, hlog, hlow, hhigh⟩
  rw [ofNat, if_neg hne]
  simp only [if_pos hlog]
  rw [UInt64.toNat_ofNat']
  exact Nat.mod_eq_of_lt (by omega)

/-- A natural number that an `f64` holds exactly is what its `f64` denotes. -/
lemma ofNat_spec {n : Nat} (hlt : n < 2 ^ 53) :
    (ofNat n).isFinite = true ∧ (ofNat n).scaled = n * unit := by
  rcases Nat.eq_zero_or_pos n with rfl | hpos
  · have hscaled : (ofNat 0).scaled = 0 := by decide
    exact ⟨by decide, by rw [hscaled, Nat.cast_zero, zero_mul]⟩
  · obtain ⟨hbits, hlog, hlow, hhigh⟩ := toNat_ofNat_bits hpos hlt
    have hpositive : (ofNat n).isNegative = false := by
      rw [Bool.eq_false_iff, ne_eq, isNegative_iff, hbits]
      omega
    have hmagnitude : (ofNat n).magnitude = (Nat.log2 n + 1023) * 2 ^ 52 +
        (n * 2 ^ (52 - Nat.log2 n) - 2 ^ 52) := by
      rw [magnitude, hbits]
      exact Nat.mod_eq_of_lt (by omega)
    have hexponent : (ofNat n).magnitude / 2 ^ 52 = Nat.log2 n + 1023 := by
      rw [hmagnitude]
      omega
    have hfraction : (ofNat n).magnitude % 2 ^ 52 = n * 2 ^ (52 - Nat.log2 n) - 2 ^ 52 := by
      rw [hmagnitude]
      omega
    constructor
    · rw [isFinite, hexponent, bne_iff_ne]
      omega
    · have hvalue : scaledMagnitude (ofNat n).magnitude = n * 2 ^ 1074 := by
        have hsum : 52 - Nat.log2 n + (Nat.log2 n + 1023 - 1) = 1074 := by omega
        rw [scaledMagnitude, hexponent, if_neg (by omega), hfraction, Nat.add_sub_cancel' hlow,
          Nat.mul_assoc, ← Nat.pow_add, hsum]
      rw [scaled, hpositive, if_neg Bool.false_ne_true, hvalue, unit, Nat.cast_mul, Nat.cast_pow]
      rfl

lemma unit_pos : 0 < unit := pow_pos (by decide) 1074

lemma isNegative_neg (f : F64) : f.neg.isNegative = !f.isNegative := by
  obtain ⟨bits⟩ := f
  have hsign : (bits ^^^ signBit).toNat / 2 ^ 63 = bits.toNat / 2 ^ 63 ^^^ 1 := by
    rw [UInt64.toNat_xor, signBit_toNat, Nat.xor_div_two_pow]
    rfl
  have hlt := bits.toNat_lt
  rw [Bool.eq_iff_iff, Bool.not_eq_true', Bool.eq_false_iff, ne_eq, isNegative_iff, isNegative_iff]
  have hxor : (neg ⟨bits⟩).bits.toNat / 2 ^ 63 = bits.toNat / 2 ^ 63 ^^^ 1 := hsign
  have hcases : bits.toNat / 2 ^ 63 = 0 ∨ bits.toNat / 2 ^ 63 = 1 := by omega
  rcases hcases with h | h
  · rw [h] at hxor
    have hone : (neg ⟨bits⟩).bits.toNat / 2 ^ 63 = 1 := hxor
    dsimp only
    omega
  · rw [h] at hxor
    have hzero : (neg ⟨bits⟩).bits.toNat / 2 ^ 63 = 0 := hxor
    dsimp only
    omega

lemma scaled_neg (f : F64) : f.neg.scaled = -f.scaled := by
  rw [scaled, scaled, isNegative_neg, magnitude_neg]
  cases f.isNegative <;> simp

lemma scaled_ofInt {i : Int} (h : i.natAbs ≤ maxSafeInteger) : (ofInt i).scaled = i * unit := by
  have hmax : maxSafeInteger < 2 ^ 53 := by decide
  have hspec := (@ofNat_spec i.natAbs (by omega)).2
  rw [ofInt]
  split
  · rw [scaled_neg, hspec, ← Int.neg_mul]
    congr 1
    omega
  · rw [hspec]
    congr 1
    omega

/-! ### Zeros -/

lemma scaledMagnitude_eq_zero {m : Nat} : scaledMagnitude m = 0 ↔ m = 0 := by
  rw [← scaledMagnitude_zero]
  exact scaledMagnitude_strictMono.injective.eq_iff

lemma scaled_eq_zero {f : F64} : f.scaled = 0 ↔ f.isZero = true := by
  rw [scaled, isZero, beq_iff_eq, ← scaledMagnitude_eq_zero]
  split <;> omega

/-- A number's `f64` is told by what it denotes, but for the sign of zero. -/
lemma unsigned_eq_of_scaled {f g : F64} (h : f.scaled = g.scaled) :
    (if f.isZero then zero else f) = if g.isZero then zero else g := by
  rw [← floatOfSortable_sortableFloat, sortableFloat_eq h, floatOfSortable_sortableFloat]

/-- Not the negative zero, which no sum from zero comes to. -/
def Unsigned (f : F64) : Prop := f.isNegative = true → f.scaled ≠ 0

lemma unsigned_zero : zero.Unsigned := fun h => absurd h (by decide)

lemma roundedQuotient_pos {numerator denominator : Nat} (hpos : 0 < denominator)
    (h : denominator ≤ numerator) : 0 < roundedQuotient numerator denominator := by
  have hquotient := Nat.div_pos h hpos
  unfold roundedQuotient
  dsimp only
  split <;> omega

lemma magnitude_ofBits {m : Nat} (h : m ≤ infinite) : magnitude ⟨UInt64.ofNat m⟩ = m := by
  have hinfinite : infinite < 2 ^ 63 := by decide
  rw [magnitude, UInt64.toNat_ofNat']
  omega

lemma isNegative_ofBits {m : Nat} (h : m ≤ infinite) : isNegative ⟨UInt64.ofNat m⟩ = false := by
  have hinfinite : infinite < 2 ^ 63 := by decide
  rw [Bool.eq_false_iff, ne_eq, isNegative_iff, UInt64.toNat_ofNat']
  omega

lemma ofQuotient_unsigned {negative : Bool} {n : Nat} (h : negative = true → 0 < n) :
    (ofQuotient negative n 1).Unsigned := by
  intro hnegative
  unfold ofQuotient at hnegative ⊢
  dsimp only at hnegative ⊢
  cases negative with
  | false =>
    rw [if_neg Bool.false_ne_true, isNegative_ofBits (Nat.min_le_right _ _)] at hnegative
    cases hnegative
  | true =>
    have hn := h rfl
    rw [if_pos rfl, scaled_neg, ne_eq, neg_eq_zero, scaled_eq_zero, isZero, beq_iff_eq,
      magnitude_ofBits (Nat.min_le_right _ _)]
    have hlog : 2 ^ (Nat.log2 (n / 1) - 52) ≤ n := by
      rw [Nat.div_one]
      exact (Nat.pow_le_pow_right (by decide) (Nat.sub_le _ _)).trans
        (Nat.log2_self_le (Nat.pos_iff_ne_zero.mp hn))
    have hrounded := @roundedQuotient_pos n (1 * 2 ^ (Nat.log2 (n / 1) - 52)) (by positivity)
      (by rwa [Nat.one_mul])
    have hinfinite : 0 < infinite := by decide
    omega

lemma add_unsigned {f : F64} (h : f.Unsigned) (g : F64) : (f.add g).Unsigned := by
  apply ofQuotient_unsigned
  intro hnegative
  split at hnegative
  · next hzero =>
    rw [Bool.and_eq_true] at hnegative
    have hf := h hnegative.1
    have hle (m : Nat) : -(m : Int) ≤ 0 := by omega
    rw [scaled, if_pos hnegative.1] at hf hzero
    rw [scaled, if_pos hnegative.2] at hzero
    omega
  · next hne => omega

/-- The sign of a zero that is added makes no difference. -/
lemma add_congr {f g g' : F64} (h : f.Unsigned) (hscaled : g.scaled = g'.scaled) :
    f.add g = f.add g' := by
  have hsign : f.scaled + g.scaled = 0 → (f.isNegative && g.isNegative) =
      (f.isNegative && g'.isNegative) := by
    intro hzero
    cases hf : f.isNegative with
    | false => rfl
    | true =>
      have hne := h hf
      have hpositive : 0 < g.scaled := by
        rw [scaled, if_pos hf] at hne hzero
        omega
      have hnot {x : F64} (hx : 0 < x.scaled) : x.isNegative = false := by
        rw [Bool.eq_false_iff]
        intro hnegative
        rw [scaled, if_pos hnegative] at hx
        omega
      rw [hnot hpositive, hnot (hscaled ▸ hpositive)]
  unfold add
  rw [← hscaled]
  dsimp only
  split
  · next hzero => rw [hsign hzero]
  · rfl

end F64
end TinyJoin
