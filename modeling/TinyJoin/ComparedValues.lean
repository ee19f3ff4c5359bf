import TinyJoin.PredicateFilter
import TinyJoin.ShownValues

/-! A column's value compared with constants as the value a row holds for it is: one comparison, a run of
them as bounds, and a run of them as a range of integers. -/
namespace TinyJoin

/-! ### Numbers -/

namespace F64

lemma isNan_eq_false {f : F64} (h : f.isFinite = true) : f.isNan = false := by
  have hlt := magnitude_lt f
  rw [isFinite, bne_iff_ne] at h
  rw [isNan, decide_eq_false_iff_not, infinite]
  omega

/-- Finite numbers compare as what they denote. -/
lemma compare_eq {f g : F64} (hf : f.isFinite = true) (hg : g.isFinite = true) :
    f.compare g = some (compareOfLessAndEq f.scaled g.scaled) := by
  rw [compare, isNan_eq_false hf, isNan_eq_false hg]
  rfl

lemma isFinite_ofInt {i : Int} (h : i.natAbs < 2 ^ 64) : (ofInt i).isFinite = true :=
  isFinite_of_magnitude (magnitude_ofInt_lt h)

/-- A natural number from `2 ^ 53` on is no less as an `f64`. -/
lemma scaled_ofNat_large {n : Nat} (h : 2 ^ 53 ≤ n) (hlt : n < 2 ^ 64) :
    2 ^ 53 * unit ≤ (ofNat n).scaled := by
  have hne : n ≠ 0 := by omega
  have hlog : 53 ≤ Nat.log2 n := (Nat.le_log2 hne).mpr h
  have hlog64 : Nat.log2 n < 64 := (Nat.log2_lt hne).mpr hlt
  have hkept : n / 2 ^ (Nat.log2 n - 52) < 2 ^ 53 := by
    rw [Nat.div_lt_iff_lt_mul (Nat.two_pow_pos _), ← Nat.pow_add,
      show 53 + (Nat.log2 n - 52) = Nat.log2 n + 1 by omega]
    exact Nat.lt_log2_self
  have hbits : 1076 * 2 ^ 52 ≤ (ofNat n).bits.toNat ∧ (ofNat n).bits.toNat < 2 ^ 63 := by
    unfold ofNat
    rw [if_neg hne]
    dsimp only
    rw [if_neg (show ¬Nat.log2 n ≤ 52 by omega), UInt64.toNat_ofNat']
    split <;> omega
  have hpositive : (ofNat n).isNegative = false := by
    rw [Bool.eq_false_iff, ne_eq, isNegative_iff]
    omega
  have hmagnitude : 1076 * 2 ^ 52 ≤ (ofNat n).magnitude := by
    rw [magnitude, Nat.mod_eq_of_lt hbits.2]
    exact hbits.1
  have hleast : scaledMagnitude (1076 * 2 ^ 52) = 2 ^ 53 * 2 ^ 1074 := by
    rw [scaledMagnitude, if_neg (by decide), show 1076 * 2 ^ 52 / 2 ^ 52 = 1076 by decide,
      show 1076 * 2 ^ 52 % 2 ^ 52 = 0 by decide, Nat.add_zero, ← Nat.pow_add, ← Nat.pow_add]
  have hscaled := scaledMagnitude_strictMono.monotone hmagnitude
  rw [hleast] at hscaled
  rw [scaled, hpositive, if_neg Bool.false_ne_true, unit]
  exact_mod_cast hscaled

/-- An integer beyond the safe ones stays beyond them as an `f64`. -/
lemma scaled_ofInt_large {i : Int} (h : maxSafeInteger < i.natAbs) (hlt : i.natAbs < 2 ^ 64) :
    if 0 < i then 2 ^ 53 * unit ≤ (ofInt i).scaled else (ofInt i).scaled ≤ -(2 ^ 53 * unit) := by
  have hmax : maxSafeInteger = 2 ^ 53 - 1 := by decide
  have hscaled := scaled_ofNat_large (show 2 ^ 53 ≤ i.natAbs by omega) hlt
  rw [ofInt]
  split_ifs with hpositive hnegative
  · omega
  · exact hscaled
  · rw [scaled_neg]
    omega
  · omega

/-- A safe integer compares with any other as an `f64` as the two do. -/
lemma compare_ofInt {i j : Int} (hi : i.natAbs ≤ maxSafeInteger) (hj : j.natAbs < 2 ^ 64) :
    (ofInt i).compare (ofInt j) = some (compareOfLessAndEq i j) := by
  have hmax : maxSafeInteger = 2 ^ 53 - 1 := by decide
  have hunit := unit_pos
  rw [compare_eq (isFinite_ofInt (by omega)) (isFinite_ofInt hj), scaled_ofInt hi, Option.some.injEq]
  by_cases hsafe : j.natAbs ≤ maxSafeInteger
  · rw [scaled_ofInt hsafe, compareOfLessAndEq_mul hunit]
  · have hlarge := scaled_ofInt_large (Nat.lt_of_not_ge hsafe) hj
    have hbelow : i * unit < 2 ^ 53 * unit := Int.mul_lt_mul_of_pos_right (by omega) hunit
    have habove : -(2 ^ 53 * unit) < i * unit := by
      rw [← Int.neg_mul]
      exact Int.mul_lt_mul_of_pos_right (by omega) hunit
    split_ifs at hlarge with hpositive
    · rw [compareOfLessAndEq, compareOfLessAndEq, if_pos (by omega), if_pos (by omega)]
    · rw [compareOfLessAndEq, compareOfLessAndEq, if_neg (by omega), if_neg (by omega),
        if_neg (by omega), if_neg (by omega)]

end F64

lemma Number.asF64_of_asI64 {n : Number} {i : Int} (h : n.asI64 = some i) :
    n.asF64 = F64.ofInt i ∧ i.natAbs < 2 ^ 64 ∧ -(2 ^ 63) ≤ i ∧ i < 2 ^ 63 := by
  cases n with
  | posInt m =>
    rw [Number.asI64] at h
    split at h
    · cases h
      refine ⟨?_, by omega, by omega, by omega⟩
      rw [Number.asF64, F64.ofInt, if_neg (by omega), Int.natAbs_natCast]
    · cases h
  | negInt j =>
    cases h
    have hrange := j.property
    exact ⟨rfl, by omega, hrange.1, by omega⟩
  | float f => cases h

namespace Query

/-! ### One comparison -/

/-- A reference to a value that its column holds: an integer is safe, and a float finite. -/
def Held : ValueRef → Prop
  | .integer i => i.natAbs ≤ maxSafeInteger
  | .float f => f.isFinite = true
  | _ => True

lemma compareOfLessAndEq_beq {α : Type} [LinearOrder α] [BEq α] [LawfulBEq α] (a b : α) :
    (some (compareOfLessAndEq a b) == some Ordering.eq) = (a == b) := by
  rw [Bool.eq_iff_iff, beq_iff_eq, beq_iff_eq, Option.some.injEq, compareOfLessAndEq]
  split_ifs with hlt heq
  · exact iff_of_false (by decide) hlt.ne
  · exact iff_of_true rfl heq
  · exact iff_of_false (by decide) heq

/-- An ordering decides every operator, where there is one. -/
lemma evaluateComparison_ordered {left right : Value} {operator : ComparisonOperator}
    {table column : String} {ordering : Option Ordering} (hleft : left.isNull = false)
    (hright : right.isNull = false) (hequal : valuesEqual left right = (ordering == some .eq))
    (hcompare : compareValues table column left right =
      ordering.elim (.error (comparisonError table column)) .ok) :
    evaluateComparison left right operator table column =
      orderedTruth operator ordering table column := by
  unfold evaluateComparison
  rw [hleft, hright, Bool.or_self, if_neg Bool.false_ne_true]
  cases operator with
  | eq => exact congrArg (fun equal => Except.ok (Truth.ofBool equal)) hequal
  | neq => exact congrArg (fun equal => Except.ok (Truth.ofBool !equal)) hequal
  | _ =>
    dsimp only
    rw [hcompare]
    cases ordering <;> rfl

lemma evaluateComparison_null {left right : Value} {operator : ComparisonOperator}
    {table column : String} (h : left.isNull = true ∨ right.isNull = true) :
    evaluateComparison left right operator table column = .ok .unknown := by
  unfold evaluateComparison
  rw [if_pos (Bool.or_eq_true _ _ ▸ h)]

lemma compareValues_number (left right : Number) (table column : String) :
    compareValues table column (.number left) (.number right) =
      (left.asF64.compare right.asF64).elim (.error (comparisonError table column)) .ok := by
  rw [compareValues]
  cases left.asF64.compare right.asF64 <;> rfl

/-- A number compares with a constant as its `f64` does. -/
lemma compare_number {n : Number} {right : Value} {operator : ComparisonOperator}
    {table column : String} {ref : ValueRef} (hright : right.isNull = false)
    (hnumber : ∀ m, right = .number m → orderingWith ref right = n.asF64.compare m.asF64)
    (hother : (∀ m, right ≠ .number m) → orderingWith ref right = none) :
    orderedTruth operator (orderingWith ref right) table column =
      evaluateComparison (.number n) right operator table column := by
  symm
  cases right with
  | number m =>
    rw [hnumber m rfl]
    exact evaluateComparison_ordered rfl rfl rfl (compareValues_number n m table column)
  | null => cases hright
  | _ =>
    rw [hother (by simp)]
    exact evaluateComparison_ordered rfl rfl rfl rfl

/-- A typed value that is not NULL compares with a constant by their ordering. -/
lemma compareToValue_typed {ref : ValueRef} {right : Value} (operator : ComparisonOperator)
    (table column : String) (hjson : ∀ value, ref ≠ .json value) (hnull : ref.isNull = false)
    (hright : right.isNull = false) :
    compareToValue ref right operator table column =
      orderedTruth operator (orderingWith ref right) table column := by
  have hneither : ¬(ref.isNull || right.isNull) = true := by simp [hnull, hright]
  cases ref with
  | json value => exact absurd rfl (hjson value)
  | null => cases hnull
  | boolean b => exact if_neg hneither
  | integer i => exact if_neg hneither
  | float f => exact if_neg hneither
  | text s => exact if_neg hneither

/-- A comparison with NULL is unknown. -/
lemma compareToValue_null {ref : ValueRef} {right : Value} (operator : ComparisonOperator)
    (table column : String) (hright : right.isNull = true) :
    compareToValue ref right operator table column = .ok .unknown := by
  have heither : (ref.isNull || right.isNull) = true := by simp [hright]
  cases ref with
  | json value => exact evaluateComparison_null (.inr hright)
  | null => rfl
  | boolean b => exact if_pos heither
  | integer i => exact if_pos heither
  | float f => exact if_pos heither
  | text s => exact if_pos heither

/-- A column's value compares with a constant as the value it stands for does. -/
lemma compareToValue_eq {ref : ValueRef} (hheld : Held ref) (right : Value)
    (operator : ComparisonOperator) (table column : String) :
    compareToValue ref right operator table column =
      evaluateComparison ref.intoValue right operator table column := by
  cases hright : right.isNull with
  | true => rw [evaluateComparison_null (.inr hright), compareToValue_null operator table column hright]
  | false =>
    cases ref with
    | null => exact (evaluateComparison_null (.inl rfl)).symm
    | json left => rfl
    | boolean left =>
      rw [compareToValue_typed operator table column (by simp) rfl hright]
      symm
      cases right with
      | bool right => exact evaluateComparison_ordered rfl rfl (compareOfLessAndEq_beq _ _).symm rfl
      | null => cases hright
      | _ => exact evaluateComparison_ordered rfl rfl rfl rfl
    | text left =>
      rw [compareToValue_typed operator table column (by simp) rfl hright]
      symm
      cases right with
      | string right => exact evaluateComparison_ordered rfl rfl (compareOfLessAndEq_beq _ _).symm rfl
      | null => cases hright
      | _ => exact evaluateComparison_ordered rfl rfl rfl rfl
    | integer i =>
      obtain ⟨n, hn, -, -, hf⟩ := number_of_safeInteger (safeInteger_ofI64 hheld)
      rw [compareToValue_typed operator table column (by simp) rfl hright, ValueRef.intoValue, hn]
      refine compare_number hright ?_ ?_
      · rintro m rfl
        rw [hf]
        rfl
      · intro hother
        cases right with
        | number m => exact absurd rfl (hother m)
        | _ => rfl
    | float f =>
      rw [compareToValue_typed operator table column (by simp) rfl hright, ValueRef.intoValue,
        ofF64_of_finite hheld]
      refine compare_number hright ?_ ?_
      · rintro m rfl
        rfl
      · intro hother
        cases right with
        | number m => exact absurd rfl (hother m)
        | _ => rfl

/-! ### Runs of comparisons -/

section Runs
variable {ref : ValueRef} {table name : String} {tests : List ColumnTest}

lemma orderedTruth_some (operator : ComparisonOperator) (ordering : Ordering) (table column : String) :
    orderedTruth operator (some ordering) table column = .ok (.ofBool (accepts operator ordering)) := by
  cases operator with
  | eq => cases ordering <;> rfl
  | neq => cases ordering <;> rfl
  | _ => rfl

/-- A number compares with a number by their order as `f64`s. -/
lemma compareToValue_number {left : F64} {bound : Number} {operator : ComparisonOperator}
    {ordering : Ordering} (href : comparedNumber ref = some left)
    (hordering : left.compare bound.asF64 = some ordering) :
    compareToValue ref (.number bound) operator table name =
      .ok (.ofBool (accepts operator ordering)) := by
  cases ref with
  | integer i =>
    cases href
    rw [compareToValue_typed operator table name (by simp) rfl rfl, orderingWith, hordering,
      orderedTruth_some]
  | float f =>
    cases href
    rw [compareToValue_typed operator table name (by simp) rfl rfl, orderingWith, hordering,
      orderedTruth_some]
  | _ => cases href

/-- An integer compares with an integer constant by their own order. -/
lemma compareToValue_integer {i j : Int} {value : Value} (operator : ComparisonOperator)
    (hi : i.natAbs ≤ maxSafeInteger) (hj : value.asI64 = some j) :
    compareToValue (.integer i) value operator table name =
      .ok (.ofBool (accepts operator (compareOfLessAndEq i j))) := by
  cases value with
  | number n =>
    obtain ⟨hf, hbound, -, -⟩ := Number.asF64_of_asI64 hj
    refine compareToValue_number rfl ?_
    rw [hf]
    exact F64.compare_ofInt hi hbound
  | _ => cases hj

lemma conjunction_ofBool_false {terms : List (Result Truth)} :
    Truth.conjunction false (.ok (.ofBool false) :: terms) = .ok (.ofBool false) := rfl

lemma conjunction_ofBool_true {terms : List (Result Truth)} :
    Truth.conjunction false (.ok (.ofBool true) :: terms) = Truth.conjunction false terms := rfl

/-- A test that rejected a number leaves the run false. -/
lemma matchBounds_false (left : F64) (bounds : List (ComparisonOperator × F64)) :
    matchBounds left bounds false = some false := by
  induction bounds with
  | nil => rfl
  | cons bound bounds ih => exact ih

/-- Bounds satisfied as numbers are comparisons that are true. -/
lemma compareEach_of_matchBounds {left : F64} {bounds : List (ComparisonOperator × F64)}
    {matched : Bool} (href : comparedNumber ref = some left)
    (hbounds : tests.mapM (fun (test : ColumnTest) =>
      test.2.asF64.map (fun bound => (test.1, bound))) = some bounds)
    (hmatched : matchBounds left bounds true = some matched) :
    compareEach ref table name tests = .ok (.ofBool matched) := by
  induction tests generalizing bounds with
  | nil =>
    cases hbounds
    cases hmatched
    rfl
  | cons test tests ih =>
    obtain ⟨operator, value⟩ := test
    rw [List.mapM_cons] at hbounds
    obtain ⟨first, hfirst, hbounds⟩ := Option.bind_eq_some_iff.mp hbounds
    obtain ⟨rest, hrest, hbounds⟩ := Option.bind_eq_some_iff.mp hbounds
    cases hbounds
    obtain ⟨bound, hbound, hpair⟩ := Option.map_eq_some_iff.mp hfirst
    cases hpair
    cases value with
    | number n =>
      cases hbound
      obtain ⟨ordering, hordering, hmatched⟩ := Option.bind_eq_some_iff.mp hmatched
      rw [compareEach, List.map_cons, compareToValue_number href hordering]
      cases haccepts : accepts operator ordering with
      | true =>
        rw [haccepts] at hmatched
        exact conjunction_ofBool_true.trans (ih hrest hmatched)
      | false =>
        rw [haccepts, matchBounds_false] at hmatched
        cases hmatched
        exact conjunction_ofBool_false
    | _ => cases hbound

/-- Whether an integer satisfies a comparison with another. -/
def Satisfies (operator : ComparisonOperator) (i j : Int) : Prop :=
  match operator with
  | .eq => i = j
  | .neq => i ≠ j
  | .lt => i < j
  | .lte => i ≤ j
  | .gt => j < i
  | .gte => j ≤ i

lemma accepts_iff_satisfies (operator : ComparisonOperator) (i j : Int) :
    accepts operator (compareOfLessAndEq i j) = true ↔ Satisfies operator i j := by
  unfold compareOfLessAndEq Satisfies
  cases operator <;> split_ifs <;> simp [accepts] <;> omega

/-- What one comparison makes of a range: it is narrowed to the integers that satisfy it, or is empty
as none does. -/
lemma narrowIntegers_cons {operator : ComparisonOperator} {value : Value} {low high : Int}
    {range : Int × Int} (h : narrowIntegers ((operator, value) :: tests) low high = some range) :
    ∃ bound, value.asI64 = some bound ∧
      ((∃ low' high', narrowIntegers tests low' high' = some range ∧
          ∀ i, low' ≤ i ∧ i ≤ high' ↔ (low ≤ i ∧ i ≤ high) ∧ Satisfies operator i bound) ∨
        range = (1, 0) ∧ ∀ i, minI64 ≤ i → i ≤ maxI64 → ¬Satisfies operator i bound) := by
  obtain ⟨bound, hbound, h⟩ := Option.bind_eq_some_iff.mp h
  refine ⟨bound, hbound, ?_⟩
  unfold Satisfies
  cases operator with
  | eq => exact .inl ⟨_, _, h, fun i => by omega⟩
  | neq => cases h
  | lt =>
    dsimp only at h
    split at h
    · next hleast =>
      cases h
      exact .inr ⟨rfl, fun i hi _ => by omega⟩
    · exact .inl ⟨_, _, h, fun i => by omega⟩
  | lte => exact .inl ⟨_, _, h, fun i => by omega⟩
  | gt =>
    dsimp only at h
    split at h
    · next hgreatest =>
      cases h
      exact .inr ⟨rfl, fun i _ hi => by omega⟩
    · exact .inl ⟨_, _, h, fun i => by omega⟩
  | gte => exact .inl ⟨_, _, h, fun i => by omega⟩

/-- What a range comes to lies within the one it is narrowed from. -/
lemma narrowIntegers_within {low high i : Int} {range : Int × Int}
    (h : narrowIntegers tests low high = some range) (hi : range.1 ≤ i ∧ i ≤ range.2) :
    low ≤ i ∧ i ≤ high := by
  induction tests generalizing low high with
  | nil =>
    cases h
    exact hi
  | cons test tests ih =>
    obtain ⟨bound, -, ⟨low', high', hrest, hsame⟩ | ⟨rfl, -⟩⟩ := narrowIntegers_cons h
    · exact ((hsame i).mp (ih hrest)).1
    · dsimp only at hi
      omega

/-- The range that comparisons accept is that of the integers they are all true for. -/
lemma compareEach_of_narrowIntegers {low high i : Int} {range : Int × Int}
    (hsafe : i.natAbs ≤ maxSafeInteger) (h : narrowIntegers tests low high = some range)
    (hi : low ≤ i ∧ i ≤ high) :
    compareEach (.integer i) table name tests =
      .ok (.ofBool (decide (range.1 ≤ i) && decide (i ≤ range.2))) := by
  have hmax : maxSafeInteger = 2 ^ 53 - 1 := by decide
  induction tests generalizing low high with
  | nil =>
    cases h
    rw [decide_eq_true hi.1, decide_eq_true hi.2]
    rfl
  | cons test tests ih =>
    obtain ⟨operator, value⟩ := test
    obtain ⟨bound, hbound, hrange⟩ := narrowIntegers_cons h
    rw [compareEach, List.map_cons, compareToValue_integer operator hsafe hbound]
    cases haccepts : accepts operator (compareOfLessAndEq i bound) with
    | true =>
      have hsatisfies := (accepts_iff_satisfies operator i bound).mp haccepts
      rcases hrange with ⟨low', high', hrest, hsame⟩ | ⟨-, hnone⟩
      · exact conjunction_ofBool_true.trans (ih hrest ((hsame i).mpr ⟨hi, hsatisfies⟩))
      · exact absurd hsatisfies (hnone i (by rw [minI64]; omega) (by rw [maxI64]; omega))
    | false =>
      have hfails : ¬Satisfies operator i bound := by
        rw [← accepts_iff_satisfies, haccepts]
        exact Bool.false_ne_true
      have hout : ¬(range.1 ≤ i ∧ i ≤ range.2) := by
        intro hin
        rcases hrange with ⟨low', high', hrest, hsame⟩ | ⟨rfl, -⟩
        · exact hfails ((hsame i).mp (narrowIntegers_within hrest hin)).2
        · dsimp only at hin
          omega
      rw [conjunction_ofBool_false, Except.ok.injEq, ← Bool.decide_and, decide_eq_false hout]

/-- A range of integers holds those that a run of comparisons is true for. -/
lemma compareEach_of_integerRange {i : Int} {range : Int × Int} (hsafe : i.natAbs ≤ maxSafeInteger)
    (h : integerRange tests = some range) :
    compareEach (.integer i) table name tests =
      .ok (.ofBool (decide (range.1 ≤ i) && decide (i ≤ range.2))) := by
  have hmax : maxSafeInteger = 2 ^ 53 - 1 := by decide
  refine compareEach_of_narrowIntegers hsafe h ?_
  rw [minI64, maxI64]
  omega

/-- A run of comparisons comes to the same by its bounds, by its range, and one by one. -/
lemma evaluateComparisons_eq (hheld : Held ref) :
    evaluateComparisons ref table name tests (numericBounds tests) (integerRange tests) =
      compareEach ref table name tests := by
  have hnumber : ∀ {matched : Bool}, (comparedNumber ref).bind (fun left =>
      if (numericBounds tests).isEmpty then none else matchBounds left (numericBounds tests) true) =
        some matched → compareEach ref table name tests = .ok (.ofBool matched) := by
    intro matched hmatched
    obtain ⟨left, hleft, hmatched⟩ := Option.bind_eq_some_iff.mp hmatched
    split at hmatched
    · cases hmatched
    · next hbounds =>
      rw [numericBounds] at hbounds hmatched
      cases hall : tests.mapM (fun (test : ColumnTest) =>
          test.2.asF64.map (fun bound => (test.1, bound))) with
      | none =>
        rw [hall] at hbounds
        exact absurd rfl hbounds
      | some bounds =>
        rw [hall] at hmatched
        exact compareEach_of_matchBounds hleft hall hmatched
  unfold evaluateComparisons
  split
  · next i low high hrange => exact (compareEach_of_integerRange hheld hrange).symm
  · split
    · next matched hmatched => exact (hnumber hmatched).symm
    · rfl

end Runs

end Query
end TinyJoin
