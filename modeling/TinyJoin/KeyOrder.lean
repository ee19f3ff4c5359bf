import TinyJoin.KeyCodec
import Mathlib.Order.Monotone.Basic
import Mathlib.Tactic.Linarith
import Mathlib.Data.String.Basic

/-! Encoded keys compare as the tuples they encode. Each kind of component is a self-delimiting
code for the order of its values; the tuples follow by `OrderCode.lexCompare_spelled`. -/
namespace TinyJoin
open Bytes OrderCode

/-! ### Sign bits -/

lemma signBit_toNat : F64.signBit.toNat = 2 ^ 63 := by decide

lemma and_two_pow_eq_zero_iff {n k : Nat} (h : n < 2 ^ (k + 1)) :
    n &&& 2 ^ k = 0 ↔ n < 2 ^ k := by
  have bit : n.testBit k = decide (n / 2 ^ k % 2 = 1) := Nat.testBit_eq_decide_div_mod_eq
  rw [Nat.pow_succ] at h
  constructor
  · intro hand
    have hbit : (n &&& 2 ^ k).testBit k = false := by rw [hand, Nat.zero_testBit]
    rw [Nat.testBit_and, Nat.testBit_two_pow_self, Bool.and_true, bit] at hbit
    by_contra hge
    have hdiv : n / 2 ^ k = 1 := by
      apply Nat.div_eq_of_lt_le <;> omega
    simp [hdiv] at hbit
  · intro hlt
    apply Nat.eq_of_testBit_eq
    intro i
    rw [Nat.testBit_and, Nat.testBit_two_pow, Nat.zero_testBit]
    by_cases hi : k = i
    · subst hi
      rw [Nat.testBit_lt_two_pow hlt, Bool.false_and]
    · simp [hi]

lemma and_signBit_eq_zero (x : UInt64) : (x &&& F64.signBit = 0) ↔ x.toNat < 2 ^ 63 := by
  rw [← UInt64.toNat_inj, UInt64.toNat_and, signBit_toNat]
  exact and_two_pow_eq_zero_iff x.toNat_lt

lemma toNat_xor_signBit_low {x : UInt64} (h : x.toNat < 2 ^ 63) :
    (x ^^^ F64.signBit).toNat = x.toNat + 2 ^ 63 := by
  rw [UInt64.toNat_xor, signBit_toNat]
  apply Nat.eq_of_testBit_eq
  intro i
  rw [Nat.add_comm, Nat.testBit_xor, Nat.testBit_two_pow]
  rcases Nat.lt_trichotomy i 63 with hi | hi | hi
  · rw [Nat.testBit_two_pow_add_gt hi, decide_eq_false (by omega), Bool.xor_false]
  · subst hi
    rw [Nat.testBit_two_pow_add_eq]
    simp
  · rw [Nat.testBit_lt_two_pow (x := 2 ^ 63 + x.toNat)
      (Nat.lt_of_lt_of_le (by omega : 2 ^ 63 + x.toNat < 2 ^ 64)
        (Nat.pow_le_pow_right (by omega) (by omega : 64 ≤ i))),
      Nat.testBit_lt_two_pow (Nat.lt_trans h (Nat.pow_lt_pow_right (by omega) hi))]
    simp; omega

lemma toNat_xor_signBit_high {x : UInt64} (h : 2 ^ 63 ≤ x.toNat) :
    (x ^^^ F64.signBit).toNat = x.toNat - 2 ^ 63 := by
  have hx : x.toNat < 2 ^ 64 := x.toNat_lt
  have hlow : (UInt64.ofNat (x.toNat - 2 ^ 63)).toNat = x.toNat - 2 ^ 63 := by
    rw [UInt64.toNat_ofNat']
    omega
  have hback : UInt64.ofNat (x.toNat - 2 ^ 63) ^^^ F64.signBit = x := by
    rw [← UInt64.toNat_inj, toNat_xor_signBit_low (by rw [hlow]; omega), hlow]
    omega
  rw [← hback, UInt64.xor_assoc, UInt64.xor_self, UInt64.xor_zero, hlow, hback]

/-! ### Numbers -/

lemma scaledMagnitude_strictMono : StrictMono F64.scaledMagnitude := by
  apply strictMono_nat_of_lt_succ
  intro m
  unfold F64.scaledMagnitude
  by_cases hr : m % 2 ^ 52 + 1 < 2 ^ 52
  · -- The fraction grows and the exponent stays.
    have hd : (m + 1) / 2 ^ 52 = m / 2 ^ 52 := by omega
    have hm : (m + 1) % 2 ^ 52 = m % 2 ^ 52 + 1 := by omega
    rw [hd, hm]
    split
    · omega
    · exact Nat.mul_lt_mul_of_pos_right (by omega) (Nat.two_pow_pos _)
  · -- The fraction wraps and the exponent grows, which doubles the unit.
    have hd : (m + 1) / 2 ^ 52 = m / 2 ^ 52 + 1 := by omega
    have hm : (m + 1) % 2 ^ 52 = 0 := by omega
    rw [hd, hm]
    rw [if_neg (by omega : ¬ m / 2 ^ 52 + 1 = 0)]
    split
    · rename_i h0
      simp only [h0]
      omega
    · rename_i h0
      obtain ⟨k, hk⟩ : ∃ k, m / 2 ^ 52 = k + 1 := ⟨m / 2 ^ 52 - 1, by omega⟩
      rw [hk, Nat.add_sub_cancel, Nat.add_sub_cancel, Nat.pow_succ, Nat.add_zero]
      have hpos : 0 < 2 ^ k := Nat.two_pow_pos k
      have hfrac : m % 2 ^ 52 < 2 ^ 52 := Nat.mod_lt _ (by omega)
      calc (2 ^ 52 + m % 2 ^ 52) * 2 ^ k < (2 ^ 52 * 2) * 2 ^ k :=
            Nat.mul_lt_mul_of_pos_right (by omega) hpos
        _ = 2 ^ 52 * (2 ^ k * 2) := by ring

lemma scaledMagnitude_zero : F64.scaledMagnitude 0 = 0 := by
  simp [F64.scaledMagnitude]

lemma isNegative_iff (f : F64) : f.isNegative = true ↔ 2 ^ 63 ≤ f.bits.toNat := by
  simp [F64.isNegative, and_signBit_eq_zero]

/-- What the sortable bits are, by sign and magnitude. -/
lemma sortableFloat_toNat (f : F64) : (sortableFloat f).toNat =
    if f.isZero then 2 ^ 63
    else if f.isNegative then 2 ^ 63 - 1 - f.magnitude else 2 ^ 63 + f.magnitude := by
  have hb : f.bits.toNat < 2 ^ 64 := f.bits.toNat_lt
  unfold sortableFloat
  by_cases hz : f.isZero = true
  · simp [hz]
    decide
  · have hz' : f.isZero = false := by simpa using hz
    simp only [hz', Bool.false_eq_true, if_false]
    by_cases hn : f.bits.toNat < 2 ^ 63
    · have hneg : f.isNegative = false := by
        rw [Bool.eq_false_iff, ne_eq, isNegative_iff]
        omega
      have hmag : f.magnitude = f.bits.toNat := Nat.mod_eq_of_lt hn
      rw [if_pos (by simpa using (and_signBit_eq_zero _).mpr hn), toNat_xor_signBit_low hn, hneg,
        hmag]
      simp
      omega
    · have hneg : f.isNegative = true := (isNegative_iff f).mpr (by omega)
      have hmag : f.magnitude = f.bits.toNat - 2 ^ 63 := by
        unfold F64.magnitude
        omega
      rw [if_neg (by simpa [and_signBit_eq_zero] using hn), hneg, hmag, UInt64.toNat_not]
      simp only [if_true]
      have : UInt64.size = 2 ^ 64 := rfl
      omega

lemma magnitude_lt (f : F64) : f.magnitude < 2 ^ 63 := Nat.mod_lt _ (by omega)

lemma sortableFloat_lt {f g : F64} (h : f.scaled < g.scaled) :
    (sortableFloat f).toNat < (sortableFloat g).toNat := by
  rw [sortableFloat_toNat, sortableFloat_toNat]
  have hf := magnitude_lt f
  have hg := magnitude_lt g
  have mono := scaledMagnitude_strictMono
  have key : F64.scaledMagnitude f.magnitude < F64.scaledMagnitude g.magnitude ↔
      f.magnitude < g.magnitude := mono.lt_iff_lt
  have key' : F64.scaledMagnitude g.magnitude < F64.scaledMagnitude f.magnitude ↔
      g.magnitude < f.magnitude := mono.lt_iff_lt
  have zf : F64.scaledMagnitude f.magnitude = 0 ↔ f.magnitude = 0 := by
    rw [← scaledMagnitude_zero]; exact mono.injective.eq_iff
  have zg : F64.scaledMagnitude g.magnitude = 0 ↔ g.magnitude = 0 := by
    rw [← scaledMagnitude_zero]; exact mono.injective.eq_iff
  unfold F64.scaled at h
  simp only [F64.isZero, beq_iff_eq]
  split at h <;> split at h <;> split <;> split <;> simp_all <;> omega

lemma sortableFloat_eq {f g : F64} (h : f.scaled = g.scaled) :
    sortableFloat f = sortableFloat g := by
  rw [← UInt64.toNat_inj, sortableFloat_toNat, sortableFloat_toNat]
  have mono := scaledMagnitude_strictMono
  have key : F64.scaledMagnitude f.magnitude = F64.scaledMagnitude g.magnitude ↔
      f.magnitude = g.magnitude := mono.injective.eq_iff
  have zf : F64.scaledMagnitude f.magnitude = 0 ↔ f.magnitude = 0 := by
    rw [← scaledMagnitude_zero]; exact mono.injective.eq_iff
  have zg : F64.scaledMagnitude g.magnitude = 0 ↔ g.magnitude = 0 := by
    rw [← scaledMagnitude_zero]; exact mono.injective.eq_iff
  unfold F64.scaled at h
  simp only [F64.isZero, beq_iff_eq]
  split at h <;> split at h <;> split <;> split <;> simp_all <;> omega

/-- An integer in the range of `i64`, with its sign flipped, as an unsigned number. -/
lemma sortableInteger_toNat {i : Int} (hlo : -(2 ^ 63) ≤ i) (hhi : i < 2 ^ 63) :
    ((UInt64.ofInt i ^^^ F64.signBit).toNat : Int) = i + 2 ^ 63 := by
  have hofInt : ((UInt64.ofInt i).toNat : Int) = i % 2 ^ 64 := by
    simp [UInt64.ofInt]
    omega
  rcases Int.lt_or_le i 0 with hneg | hpos
  · have hn : (UInt64.ofInt i).toNat = (i + 2 ^ 64).toNat := by omega
    rw [toNat_xor_signBit_high (by omega)]
    omega
  · have hn : (UInt64.ofInt i).toNat = i.toNat := by omega
    rw [toNat_xor_signBit_low (by omega)]
    omega

/-! ### Text -/

lemma before_ofNat {a b : Nat} {s t : List UInt8} (hb : b < 256) (h : a < b) :
    Before (UInt8.ofNat a :: s) (UInt8.ofNat b :: t) := by
  apply Before.here
  rw [UInt8.lt_iff_toNat_lt, UInt8.toNat_ofNat', UInt8.toNat_ofNat']
  omega

lemma before_ofNat_of_eq {a b : Nat} {s t : List UInt8} (h : a = b) (hs : Before s t) :
    Before (UInt8.ofNat a :: s) (UInt8.ofNat b :: t) := by
  subst h
  exact .there hs

/-- UTF-8 spells code points in their order: a longer sequence starts with a larger byte, and
sequences of one length are the digits of the code points. -/
lemma utf8EncodeChar_before {c d : Char} (h : c < d) :
    Before (String.utf8EncodeChar c) (String.utf8EncodeChar d) := by
  have hcd : c.val.toNat < d.val.toNat := h
  have hd : d.val.toNat < 0x110000 := by
    have := d.valid
    simp only [UInt32.isValidChar, Nat.isValidChar] at this
    omega
  unfold String.utf8EncodeChar
  generalize c.val.toNat = n at hcd
  generalize d.val.toNat = m at hcd hd
  simp only []
  split_ifs with h1 h2 h3 h4 h5 h6 h7 h8 h9 <;> try omega
  · exact before_ofNat (by omega) (by omega)
  · exact before_ofNat (by omega) (by omega)
  · exact before_ofNat (by omega) (by omega)
  · exact before_ofNat (by omega) (by omega)
  · rcases Nat.lt_or_ge (n / 64) (m / 64) with hq | hq
    · exact before_ofNat (by omega) (by omega)
    · exact before_ofNat_of_eq (by omega) (before_ofNat (by omega) (by omega))
  · exact before_ofNat (by omega) (by omega)
  · exact before_ofNat (by omega) (by omega)
  · rcases Nat.lt_or_ge (n / 4096) (m / 4096) with hq | hq
    · exact before_ofNat (by omega) (by omega)
    · apply before_ofNat_of_eq (by omega)
      rcases Nat.lt_or_ge (n / 64) (m / 64) with hq | hq
      · exact before_ofNat (by omega) (by omega)
      · exact before_ofNat_of_eq (by omega) (before_ofNat (by omega) (by omega))
  · exact before_ofNat (by omega) (by omega)
  · rcases Nat.lt_or_ge (n / 262144) (m / 262144) with hq | hq
    · exact before_ofNat (by omega) (by omega)
    · apply before_ofNat_of_eq (by omega)
      rcases Nat.lt_or_ge (n / 4096) (m / 4096) with hq | hq
      · exact before_ofNat (by omega) (by omega)
      · apply before_ofNat_of_eq (by omega)
        rcases Nat.lt_or_ge (n / 64) (m / 64) with hq | hq
        · exact before_ofNat (by omega) (by omega)
        · exact before_ofNat_of_eq (by omega) (before_ofNat (by omega) (by omega))

lemma utf8EncodeChar_ne_nil (c : Char) : String.utf8EncodeChar c ≠ [] := by
  unfold String.utf8EncodeChar
  simp only []
  split_ifs <;> simp

lemma textBytes_lt {s t : String} (h : s < t) : textBytes s < textBytes t := by
  rw [textBytes_eq_flatMap, textBytes_eq_flatMap]
  exact flatMap_lt (fun _ _ => utf8EncodeChar_before) utf8EncodeChar_ne_nil
    (String.lt_iff_toList_lt.mp h)

@[simp] lemma escapeZeros_nil : escapeZeros [] = [] := rfl

lemma escapeZeros_cons (b : UInt8) (bs : List UInt8) : escapeZeros (b :: bs) =
    (if b = 0 then [b, textEscapedZero] else [b]) ++ escapeZeros bs := by
  simp [escapeZeros]

lemma escapeZeros_of_not_contains {bs : List UInt8} (h : bs.contains 0 = false) :
    escapeZeros bs = bs := by
  induction bs with
  | nil => rfl
  | cons b bs ih =>
    have hb : b ≠ 0 ∧ bs.contains 0 = false := by
      rw [List.contains_cons, Bool.or_eq_false_iff, beq_eq_false_iff_ne] at h
      exact ⟨fun hz => h.1 hz.symm, h.2⟩
    rw [escapeZeros_cons, if_neg hb.1, ih hb.2]
    rfl

/-- The bytes of a text component. -/
def textCode (bytes : List UInt8) : List UInt8 := escapeZeros bytes ++ [0, textTerminator]

lemma pushTextComponent_eq (key : List UInt8) (s : String) :
    pushTextComponent key s = key ++ textCode (textBytes s) := by
  unfold pushTextComponent textCode
  by_cases h : (textBytes s).contains 0 = true
  · simp only [h, if_true, List.append_assoc]
  · have h' : (textBytes s).contains 0 = false := by simpa using h
    simp only [h', Bool.false_eq_true, if_false, escapeZeros_of_not_contains h', List.append_assoc]

lemma uint8_pos_of_ne {b : UInt8} (h : b ≠ 0) : (0 : UInt8) < b := by
  rw [UInt8.lt_iff_toNat_lt]
  have hne : b.toNat ≠ 0 := fun hz => h (UInt8.toNat_inj.mp hz)
  exact Nat.pos_of_ne_zero hne

/-- The escape sorts above the terminator, and every other byte above the zero that starts
either, so the end of a text sorts below whatever could follow it. -/
lemma textCode_before {x y : List UInt8} (h : x < y) : Before (textCode x) (textCode y) := by
  unfold textCode
  induction x generalizing y with
  | nil =>
    cases y with
    | nil => exact absurd h (lt_irrefl _)
    | cons b t =>
      rw [escapeZeros_cons]
      by_cases hb : b = 0
      · subst hb
        exact .there (.here (by decide))
      · rw [if_neg hb]
        exact .here (uint8_pos_of_ne hb)
  | cons a s ih =>
    cases y with
    | nil => exact absurd h (List.not_lt_nil _)
    | cons b t =>
      rw [escapeZeros_cons, escapeZeros_cons]
      rcases List.cons_lt_cons_iff.mp h with hab | ⟨rfl, hst⟩
      · have hb : b ≠ 0 := by
          rintro rfl
          rw [UInt8.lt_iff_toNat_lt] at hab
          exact absurd hab (Nat.not_lt_zero _)
        rw [if_neg hb]
        by_cases ha : a = 0
        · rw [if_pos ha]
          exact .here hab
        · rw [if_neg ha]
          exact .here hab
      · rw [List.append_assoc, List.append_assoc]
        exact (ih hst).prepend _

/-! ### Components and tuples -/

/-- A value a key column of some type holds. -/
inductive KeyValue where
  | boolean (b : Bool)
  | integer (i : Int)
  | float (f : F64)
  | text (s : String)

namespace KeyValue

/-- The value of a key column of `dataType`, when `value` is one. -/
def ofValue (dataType : ColumnType) (value : Value) : Option KeyValue :=
  match dataType with
  | .boolean => value.asBool.map boolean
  | .integer => (safeInteger value).map integer
  | .float => (value.asF64.filter (fun f => f.isFinite)).map float
  | .text => value.asStr.map text
  | .json => none

/-- The order of values of one type: `false` before `true`, numbers by what they denote, so that
the two zeros are equal, and text by code points. -/
def compare : KeyValue → KeyValue → Ordering
  | boolean a, boolean b => compareOfLessAndEq a b
  | integer i, integer j => compareOfLessAndEq i j
  | float f, float g => compareOfLessAndEq f.scaled g.scaled
  | text s, text t => compareOfLessAndEq s t
  | _, _ => .eq

/-- The bytes of one component. -/
def code : KeyValue → List UInt8
  | boolean b => [if b then 1 else 0]
  | integer i => pushIntegerComponent [] i
  | float f => pushFloatComponent [] f
  | text s => pushTextComponent [] s

/-- What a key holds of a value: all of it but the sign of a float zero. -/
def stored : KeyValue → ValueRef
  | boolean b => .boolean b
  | integer i => .integer i
  | float f => .float (if f.isZero then F64.zero else f)
  | text s => .text s

/-- The values a column of a type can hold, integers within the safe range and finite floats. -/
def Typed : ColumnType → KeyValue → Prop
  | .boolean, boolean _ => True
  | .integer, integer i => i.natAbs ≤ maxSafeInteger
  | .float, float f => f.isFinite = true
  | .text, text _ => True
  | _, _ => False

end KeyValue

lemma safeInteger_natAbs {value : Value} {i : Int} (h : safeInteger value = some i) :
    i.natAbs ≤ maxSafeInteger := by
  unfold safeInteger at h
  cases hu : value.asU64.filter (fun n => decide (n ≤ maxSafeInteger)) with
  | some n =>
    rw [hu] at h
    have hn : n ≤ maxSafeInteger := by simpa using (Option.filter_eq_some_iff.mp hu).2
    cases h
    exact hn
  | none =>
    rw [hu] at h
    have hi := (Option.filter_eq_some_iff.mp h).2
    simp only [decide_eq_true_eq] at hi
    omega

lemma KeyValue.typed_of_ofValue {dataType : ColumnType} {value : Value} {k : KeyValue}
    (h : KeyValue.ofValue dataType value = some k) : KeyValue.Typed dataType k := by
  cases dataType <;> simp only [KeyValue.ofValue, Option.map_eq_some_iff] at h
  · obtain ⟨b, _, rfl⟩ := h
    trivial
  · obtain ⟨i, hi, rfl⟩ := h
    exact safeInteger_natAbs hi
  · obtain ⟨f, hf, rfl⟩ := h
    exact (Option.filter_eq_some_iff.mp hf).2
  · obtain ⟨s, _, rfl⟩ := h
    trivial
  · cases h

/-- Comparing by an order and spelling it gives what `Spelled` asks of a code. -/
lemma spelled_of_lt {α : Type} [LinearOrder α] {f : α → List UInt8}
    (hf : ∀ a b, a < b → Before (f a) (f b)) (a b : α) :
    Spelled (compareOfLessAndEq a b) (f a) (f b) := by
  unfold compareOfLessAndEq
  split_ifs with hlt heq
  · exact hf a b hlt
  · exact congrArg f heq
  · exact hf b a (lt_of_le_of_ne (le_of_not_gt hlt) (Ne.symm heq))

lemma integerCode_before {i j : Int} (hi : i.natAbs ≤ maxSafeInteger)
    (hj : j.natAbs ≤ maxSafeInteger) (h : i < j) :
    Before (KeyValue.code (.integer i)) (KeyValue.code (.integer j)) := by
  have hmax : maxSafeInteger < 2 ^ 63 := by decide
  have si := sortableInteger_toNat (i := i) (by omega) (by omega)
  have sj := sortableInteger_toNat (i := j) (by omega) (by omega)
  simp only [KeyValue.code, pushIntegerComponent, List.nil_append]
  exact beBytes_before (UInt64.toNat_lt _) (by omega)

lemma floatCode_before {f g : F64} (h : f.scaled < g.scaled) :
    Before (KeyValue.code (.float f)) (KeyValue.code (.float g)) := by
  simp only [KeyValue.code, pushFloatComponent, List.nil_append]
  exact beBytes_before (UInt64.toNat_lt _) (sortableFloat_lt h)

lemma textComponent_before {s t : String} (h : s < t) :
    Before (KeyValue.code (.text s)) (KeyValue.code (.text t)) := by
  simp only [KeyValue.code, pushTextComponent_eq, List.nil_append]
  exact textCode_before (textBytes_lt h)

/-- Two components of one type stand as their values compare, whatever follows them. -/
lemma KeyValue.spelled {dataType : ColumnType} {a b : KeyValue} (ha : KeyValue.Typed dataType a)
    (hb : KeyValue.Typed dataType b) : Spelled (a.compare b) a.code b.code := by
  cases dataType <;> cases a <;> cases b <;> simp only [KeyValue.Typed] at ha hb
  · rename_i p q
    cases p <;> cases q
    · exact rfl
    · exact Before.here (by decide)
    · exact Before.here (by decide)
    · exact rfl
  · rename_i i j
    simp only [KeyValue.compare, compareOfLessAndEq]
    split_ifs with hlt heq
    · exact integerCode_before ha hb hlt
    · exact congrArg (fun i => KeyValue.code (.integer i)) heq
    · exact integerCode_before hb ha (by omega)
  · rename_i f g
    simp only [KeyValue.compare, compareOfLessAndEq]
    split_ifs with hlt heq
    · exact floatCode_before hlt
    · simp only [Spelled, KeyValue.code, pushFloatComponent, sortableFloat_eq heq]
    · exact floatCode_before (by omega)
  · rename_i s t
    exact spelled_of_lt (fun _ _ => textComponent_before) s t

end TinyJoin
