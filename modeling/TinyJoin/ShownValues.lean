import TinyJoin.AggregateMeaning

/-! What aggregates make of a value does not depend on the form in which a row shows it: typed or as JSON,
and with either sign where it is a float zero. -/
namespace TinyJoin

/-- A value without the sign of a float zero, as a column of a type holds it, or NULL. -/
structure Value.Plain (dataType : ColumnType) (value : Value) : Prop where
  unsigned : value.dropZeroSign = value
  holds : value.isNull = false → value.holds dataType = true

section Shown
variable {dataType : ColumnType} {value : Value} {ref : ValueRef}

/-- A value that another is but for the sign of zero: itself, or a zero. -/
lemma dropZeroSign_cases {shown : Value} (h : shown.dropZeroSign = value) :
    shown = value ∨ ∃ f : {f : F64 // f.isFinite = true},
      shown = .number (.float f) ∧ f.val.isZero = true ∧ value = .ofF64 F64.zero := by
  unfold Value.dropZeroSign at h
  split at h
  · next f =>
    split_ifs at h with hzero
    · exact .inr ⟨f, rfl, hzero, h.symm⟩
    · exact .inl h
  · exact .inl h

lemma eq_of_dropZeroSign {shown : Value} (h : shown.dropZeroSign = value) (hfloat : value.isF64 = false) :
    shown = value := by
  rcases dropZeroSign_cases h with rfl | ⟨f, -, -, rfl⟩
  · rfl
  · rw [ofF64_of_finite (by decide)] at hfloat
    cases hfloat

/-- The values that a reference may show a plain value as. -/
lemma ValueRef.Shows.cases (h : ref.Shows dataType value) (hplain : value.Plain dataType) :
    (ref = .fromValue value dataType ∨ ref = .json value) ∨
      ∃ f : {f : F64 // f.isFinite = true}, f.val.isZero = true ∧ value = .ofF64 F64.zero ∧
        (ref = .fromValue (.number (.float f)) dataType ∨ ref = .json (.number (.float f))) := by
  obtain ⟨shown, hsame, hform⟩ := h
  rw [hplain.unsigned] at hsame
  rcases dropZeroSign_cases hsame with rfl | ⟨f, rfl, hzero, hvalue⟩
  · exact .inl hform
  · exact .inr ⟨f, hzero, hvalue, hform⟩

lemma fromValue_null (dataType : ColumnType) : ValueRef.fromValue .null dataType = .null := by
  cases dataType <;> rfl

lemma intoValue_fromValue (value : Value) (dataType : ColumnType) :
    (ValueRef.fromValue value dataType).intoValue = value := by
  cases value with
  | null => rw [fromValue_null, ValueRef.intoValue]
  | number n =>
    cases dataType with
    | integer =>
      cases n with
      | posInt m =>
        simp only [ValueRef.fromValue, Number.asI64]
        split
        · simp only [Option.map_some, Option.getD_some, ValueRef.intoValue, Value.ofI64]
          rw [dif_neg (by omega), Int.toNat_natCast, UInt64.ofNat_toNat]
        · rfl
      | negInt i =>
        simp only [ValueRef.fromValue, Number.asI64, Option.map_some, Option.getD_some,
          ValueRef.intoValue, Value.ofI64]
        rw [dif_pos i.property]
      | float f => rfl
    | float =>
      cases n with
      | float f => exact ofF64_of_finite f.property
      | _ => rfl
    | _ => rfl
  | _ => cases dataType <;> rfl

lemma isNull_fromValue (value : Value) (dataType : ColumnType) :
    (ValueRef.fromValue value dataType).isNull = value.isNull := by
  cases value with
  | null => rw [fromValue_null, ValueRef.isNull, Value.isNull]
  | number n =>
    cases dataType with
    | integer =>
      cases n with
      | posInt m =>
        simp only [ValueRef.fromValue, Number.asI64]
        split <;> rfl
      | _ => rfl
    | float => cases n <;> rfl
    | _ => rfl
  | _ => cases dataType <;> rfl

lemma ValueRef.Shows.isNull (h : ref.Shows dataType value) : ref.isNull = value.isNull := by
  obtain ⟨shown, hsame, rfl | rfl⟩ := h
  · rw [isNull_fromValue, ← isNull_dropZeroSign, hsame, isNull_dropZeroSign]
  · rw [ValueRef.isNull, ← isNull_dropZeroSign, hsame, isNull_dropZeroSign]

lemma ValueRef.Shows.intoValue (h : ref.Shows dataType value) :
    ref.intoValue.dropZeroSign = value.dropZeroSign := by
  obtain ⟨shown, hsame, rfl | rfl⟩ := h
  · rw [intoValue_fromValue, hsame]
  · rw [ValueRef.intoValue, hsame]

/-! ### Integers -/

/-- How a safe integer is spelled. -/
lemma number_of_safeInteger {i : Int} (h : safeInteger value = some i) :
    ∃ n : Number, value = .number n ∧ n.isF64 = false ∧ n.asI64 = some i ∧ n.asF64 = F64.ofInt i := by
  have hbound := safeInteger_natAbs h
  have hmax : maxSafeInteger < 2 ^ 63 := by decide
  rw [eq_ofI64_of_safeInteger h, Value.ofI64]
  split
  · next hneg => exact ⟨.negInt ⟨i, hneg⟩, rfl, rfl, rfl, rfl⟩
  · have hnat : (UInt64.ofNat i.toNat).toNat = i.toNat := UInt64.toNat_ofNat_of_lt' (by
      rw [UInt64.size]
      omega)
    have hlt : i.toNat < 2 ^ 63 := by omega
    have hback : ((i.toNat : Nat) : Int) = i := by omega
    have habs : i.toNat = i.natAbs := by omega
    refine ⟨.posInt (UInt64.ofNat i.toNat), rfl, rfl, ?_, ?_⟩
    · rw [Number.asI64, hnat, if_pos hlt, hback]
    · rw [Number.asF64, hnat, F64.ofInt, if_neg (by omega), habs]

lemma integerInputValue_eq {i : Int} (h : safeInteger value = some i) :
    integerInputValue value = .ok i := by
  obtain ⟨n, rfl, -, hi, -⟩ := number_of_safeInteger h
  simp only [integerInputValue, Value.asI64, hi]

lemma asF64_of_safeInteger {i : Int} (h : safeInteger value = some i) :
    value.asF64 = some (F64.ofInt i) := by
  obtain ⟨n, rfl, -, -, hf⟩ := number_of_safeInteger h
  rw [Value.asF64, hf]

/-- A reference to an integer is one of its two forms. -/
lemma ValueRef.Shows.integer {i : Int} (h : ref.Shows .integer value)
    (hplain : value.Plain .integer) (hi : safeInteger value = some i) :
    ref = .integer i ∨ ref = .json value := by
  rcases h.cases hplain with hform | ⟨f, -, rfl, -⟩
  · rwa [fromValue_integer hi] at hform
  · obtain ⟨n, hn, hfloat, -⟩ := number_of_safeInteger hi
    rw [ofF64_of_finite (by decide)] at hn
    cases hn
    cases hfloat

lemma Value.Plain.integer (hplain : value.Plain .integer) (hnull : value.isNull = false) :
    ∃ i, safeInteger value = some i := Option.isSome_iff_exists.mp (hplain.holds hnull)

lemma ValueRef.Shows.integerInput {i : Int} (h : ref.Shows .integer value)
    (hplain : value.Plain .integer) (hi : safeInteger value = some i) : integerInput ref = .ok i := by
  rcases h.integer hplain hi with rfl | rfl
  · rfl
  · exact integerInputValue_eq hi

/-! ### Floats -/

lemma Value.Plain.float (hplain : value.Plain .float) (hnull : value.isNull = false) :
    ∃ f, value = .number (.float f) := by
  have hholds := hplain.holds hnull
  cases value with
  | number n =>
    cases n with
    | float f => exact ⟨f, rfl⟩
    | _ => cases hholds
  | _ => cases hholds

/-- A reference to a float is to one that denotes the same number, in one of its two forms. -/
lemma ValueRef.Shows.float {f : {f : F64 // f.isFinite = true}}
    (h : ref.Shows .float (.number (.float f))) (hplain : (Value.number (.float f)).Plain .float) :
    ∃ g : {f : F64 // f.isFinite = true}, g.val.scaled = f.val.scaled ∧
      unsignedZeroBits g.val = f.val.bits ∧
      (ref = .float g.val ∨ ref = .json (.number (.float g))) := by
  rcases h.cases hplain with hform | ⟨g, hzero, hvalue, hform⟩
  · refine ⟨f, rfl, ?_, hform⟩
    have hunsigned := hplain.unsigned
    unfold Value.dropZeroSign at hunsigned
    unfold unsignedZeroBits
    dsimp only at hunsigned
    split_ifs at hunsigned ⊢ with hzero
    · rw [ofF64_of_finite (by decide)] at hunsigned
      simp only [Value.number.injEq, Number.float.injEq] at hunsigned
      rw [← hunsigned]
      rfl
    · rfl
  · have hf : f.val = F64.zero := by
      rw [ofF64_of_finite (by decide)] at hvalue
      simp only [Value.number.injEq, Number.float.injEq] at hvalue
      rw [hvalue]
    refine ⟨g, ?_, ?_, hform⟩
    · rw [hf, F64.scaled_eq_zero.mpr hzero]
      exact (F64.scaled_eq_zero.mpr (by decide)).symm
    · rw [hf, unsignedZeroBits, if_pos hzero]
      rfl

/-! ### Grouping -/

lemma GroupValue.ofValue_integer {i : Int} (h : safeInteger value = some i) :
    GroupValue.ofValue value = .integer i := by
  obtain ⟨n, rfl, hfloat, hn, -⟩ := number_of_safeInteger h
  cases n with
  | float f => cases hfloat
  | _ => simp only [GroupValue.ofValue, hn, Option.getD_some]

theorem ValueRef.Shows.groupValue (h : ref.Shows dataType value) (hplain : value.Plain dataType)
    (htype : dataType ≠ .json) (name : String) :
    groupValue dataType name ref = .ok (GroupValue.ofValue value) := by
  cases hnull : value.isNull with
  | true =>
    obtain rfl := isNull_eq_true.mp hnull
    rcases h.cases hplain with (rfl | rfl) | ⟨_, _, hvalue, _⟩
    · rw [fromValue_null]
      cases dataType <;> rfl
    · cases dataType <;> rfl
    · rw [ofF64_of_finite (by decide)] at hvalue
      cases hvalue
  | false =>
    cases dataType with
    | boolean =>
      obtain ⟨b, hb⟩ := Option.isSome_iff_exists.mp (hplain.holds hnull)
      cases value <;> cases hb
      rcases h.cases hplain with (rfl | rfl) | ⟨_, _, hvalue, _⟩
      · rfl
      · rfl
      · rw [ofF64_of_finite (by decide)] at hvalue
        cases hvalue
    | integer =>
      obtain ⟨i, hi⟩ := hplain.integer hnull
      rw [GroupValue.ofValue_integer hi]
      rcases h.integer hplain hi with rfl | rfl
      · rfl
      · have hinput := integerInputValue_eq hi
        cases value with
        | null => cases hnull
        | _ => simp only [TinyJoin.groupValue, hinput, bind, Except.bind, pure, Except.pure]
    | float =>
      obtain ⟨f, rfl⟩ := hplain.float hnull
      obtain ⟨g, -, hbits, rfl | rfl⟩ := h.float hplain
      · exact congrArg (fun bits => Except.ok (GroupValue.float bits)) hbits
      · exact congrArg (fun bits => Except.ok (GroupValue.float bits)) hbits
    | text =>
      obtain ⟨s, hs⟩ := Option.isSome_iff_exists.mp (hplain.holds hnull)
      cases value <;> cases hs
      rcases h.cases hplain with (rfl | rfl) | ⟨_, _, hvalue, _⟩
      · rfl
      · rfl
      · rw [ofF64_of_finite (by decide)] at hvalue
        cases hvalue
    | json => exact absurd rfl htype

lemma GroupValue.ofValue_eq_null (hplain : value.Plain dataType) (htype : dataType ≠ .json)
    (h : GroupValue.ofValue value = .null) : value = .null := by
  by_contra hne
  have hnull : value.isNull = false := by
    rw [Bool.eq_false_iff]
    exact fun hnull => hne (isNull_eq_true.mp hnull)
  have hholds := hplain.holds hnull
  cases dataType with
  | boolean =>
    cases value <;> cases hholds
    cases h
  | integer =>
    obtain ⟨i, hi⟩ := hplain.integer hnull
    rw [GroupValue.ofValue_integer hi] at h
    cases h
  | float =>
    obtain ⟨f, rfl⟩ := hplain.float hnull
    cases h
  | text =>
    cases value <;> cases hholds
    cases h
  | json => exact htype rfl

/-- Values of a type are told apart by the values that group them. -/
lemma GroupValue.ofValue_inj {other : Value} (hplain : value.Plain dataType)
    (hother : other.Plain dataType) (htype : dataType ≠ .json)
    (h : GroupValue.ofValue value = GroupValue.ofValue other) : value = other := by
  cases hnull : value.isNull with
  | true =>
    obtain rfl := isNull_eq_true.mp hnull
    exact (GroupValue.ofValue_eq_null hother htype h.symm).symm
  | false =>
    have hother' : other.isNull = false := by
      rw [Bool.eq_false_iff]
      intro hnull'
      rw [isNull_eq_true.mp hnull'] at h
      rw [GroupValue.ofValue_eq_null hplain htype h] at hnull
      cases hnull
    cases dataType with
    | boolean =>
      have hholds := hplain.holds hnull
      have hholds' := hother.holds hother'
      cases value <;> cases hholds
      cases other <;> cases hholds'
      cases h
      rfl
    | integer =>
      obtain ⟨i, hi⟩ := hplain.integer hnull
      obtain ⟨j, hj⟩ := hother.integer hother'
      rw [GroupValue.ofValue_integer hi, GroupValue.ofValue_integer hj] at h
      cases h
      rw [eq_ofI64_of_safeInteger hi, eq_ofI64_of_safeInteger hj]
    | float =>
      obtain ⟨⟨⟨bits⟩, hf⟩, rfl⟩ := hplain.float hnull
      obtain ⟨⟨⟨bits'⟩, hg⟩, rfl⟩ := hother.float hother'
      cases h
      rfl
    | text =>
      have hholds := hplain.holds hnull
      have hholds' := hother.holds hother'
      cases value <;> cases hholds
      cases other <;> cases hholds'
      cases h
      rfl
    | json => exact absurd rfl htype

/-! ### Sums -/

lemma ValueRef.Shows.floatInput {f : {f : F64 // f.isFinite = true}}
    (h : ref.Shows .float (.number (.float f))) (hplain : (Value.number (.float f)).Plain .float) :
    ∃ g : F64, floatInput ref = .ok g ∧ g.scaled = f.val.scaled := by
  obtain ⟨g, hscaled, -, rfl | rfl⟩ := h.float hplain
  · exact ⟨g.val, rfl, hscaled⟩
  · exact ⟨g.val, rfl, hscaled⟩

/-- What an average adds of a value. -/
lemma ValueRef.Shows.averageInput (h : ref.Shows dataType value) (hplain : value.Plain dataType)
    (htype : dataType = .integer ∨ dataType = .float) (hnull : value.isNull = false) :
    ∃ f g : F64, value.asF64 = some f ∧ averageInput dataType ref = .ok g ∧ g.scaled = f.scaled := by
  rcases htype with rfl | rfl
  · obtain ⟨i, hi⟩ := hplain.integer hnull
    refine ⟨.ofInt i, .ofInt i, asF64_of_safeInteger hi, ?_, rfl⟩
    rw [TinyJoin.averageInput, if_pos rfl, h.integerInput hplain hi]
    rfl
  · obtain ⟨f, rfl⟩ := hplain.float hnull
    obtain ⟨g, hg, hscaled⟩ := h.floatInput hplain
    exact ⟨f.val, g, rfl, hg, hscaled⟩

/-! ### Extrema -/

/-- The types whose values have an order that aggregates select by. -/
def ColumnType.Ordered (dataType : ColumnType) : Prop :=
  dataType = .integer ∨ dataType = .float ∨ dataType = .text

lemma compareOfLessAndEq_mul {i j : Int} {unit : Int} (hunit : 0 < unit) :
    compareOfLessAndEq (i * unit) (j * unit) = compareOfLessAndEq i j := by
  unfold compareOfLessAndEq
  simp only [Int.mul_lt_mul_right hunit, Int.mul_eq_mul_right_iff hunit.ne']

/-- A value is compared with the one selected as their values are. -/
theorem ValueRef.Shows.extremumOrdering {selected other : Value} (h : ref.Shows dataType value)
    (hplain : value.Plain dataType) (hnull : value.isNull = false)
    (hselected : selected.dropZeroSign = other) (hother : other.Plain dataType)
    (hother' : other.isNull = false) (htype : dataType.Ordered) :
    ∃ a b, KeyValue.ofValue dataType value = some a ∧ KeyValue.ofValue dataType other = some b ∧
      extremumOrdering dataType ref selected = a.compare b := by
  rcases htype with rfl | rfl | rfl
  · obtain ⟨i, hi⟩ := hplain.integer hnull
    obtain ⟨j, hj⟩ := hother.integer hother'
    refine ⟨.integer i, .integer j, by rw [KeyValue.ofValue, hi]; rfl,
      by rw [KeyValue.ofValue, hj]; rfl, ?_⟩
    have hsame : selected.asF64 = some (F64.ofInt j) := by
      obtain ⟨n, hn, hfloat, -⟩ := number_of_safeInteger hj
      rw [eq_of_dropZeroSign hselected (by rw [hn]; exact hfloat)]
      exact asF64_of_safeInteger hj
    have hcompare : F64.partialCmp (some (F64.ofInt i)) selected.asF64 =
        (KeyValue.integer i).compare (.integer j) := by
      rw [hsame, F64.partialCmp, KeyValue.compare, F64.scaled_ofInt (safeInteger_natAbs hi),
        F64.scaled_ofInt (safeInteger_natAbs hj), compareOfLessAndEq_mul F64.unit_pos]
    rcases h.integer hplain hi with rfl | rfl
    · exact hcompare
    · rw [TinyJoin.extremumOrdering, compareTyped, asF64_of_safeInteger hi, hcompare]
  · obtain ⟨f, rfl⟩ := hplain.float hnull
    obtain ⟨f', rfl⟩ := hother.float hother'
    obtain ⟨g, hscaled, -, hform⟩ := h.float hplain
    refine ⟨.float f.val, .float f'.val, ?_, ?_, ?_⟩
    · simp only [KeyValue.ofValue, Value.asF64, Number.asF64, Option.filter, f.property, if_true,
        Option.map_some]
    · simp only [KeyValue.ofValue, Value.asF64, Number.asF64, Option.filter, f'.property, if_true,
        Option.map_some]
    have hsame : ∃ g' : F64, selected.asF64 = some g' ∧ g'.scaled = f'.val.scaled := by
      rcases dropZeroSign_cases hselected with rfl | ⟨g', rfl, hzero, hvalue⟩
      · exact ⟨f'.val, rfl, rfl⟩
      · refine ⟨g'.val, rfl, ?_⟩
        rw [ofF64_of_finite (by decide)] at hvalue
        cases hvalue
        rw [F64.scaled_eq_zero.mpr hzero]
        exact (F64.scaled_eq_zero.mpr (by decide)).symm
    obtain ⟨g', hselected', hscaled'⟩ := hsame
    have hcompare : F64.partialCmp (some g.val) selected.asF64 =
        (KeyValue.float f.val).compare (.float f'.val) := by
      rw [hselected', F64.partialCmp, KeyValue.compare, hscaled, hscaled']
    rcases hform with rfl | rfl
    · exact hcompare
    · exact hcompare
  · have hholds := hplain.holds hnull
    have hholds' := hother.holds hother'
    cases value <;> cases hholds
    cases other <;> cases hholds'
    rw [eq_of_dropZeroSign hselected rfl]
    refine ⟨_, _, rfl, rfl, ?_⟩
    rcases h.cases hplain with (rfl | rfl) | ⟨_, _, hvalue, _⟩
    · rfl
    · rfl
    · rw [ofF64_of_finite (by decide)] at hvalue
      cases hvalue

end Shown
end TinyJoin
