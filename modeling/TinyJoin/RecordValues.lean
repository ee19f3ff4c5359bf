import TinyJoin.RecordCodec
import TinyJoin.KeyTuples
import Mathlib.Tactic.IntervalCases

/-! The values of a record, one at a time: what a column encodes is read back, and what strict
decoding accepts is what the column would encode. -/
namespace TinyJoin
open Bytes

/-! ### Integers -/

/-- Shifting up and back down keeps the low `length` bytes, read as a signed number. -/
lemma signExtend_eq {length : Nat} (hlo : 1 ≤ length) (hhi : length ≤ 8) (value : Int) :
    signExtend (64 - 8 * length) value = Int.bmod value (256 ^ length) := by
  unfold signExtend
  rw [Int.bmod_def, Int.bmod_def]
  interval_cases length <;> norm_num <;> split <;> split <;> omega

/-- The length of an integer other than zero is the least that sign-extends to it. -/
lemma integerLength_spec {value : Int} (hlo : -(2 ^ 63) ≤ value) (hhi : value < 2 ^ 63)
    (hne : value ≠ 0) :
    (1 ≤ integerLength value ∧ integerLength value ≤ 8) ∧
      Int.bmod value (256 ^ integerLength value) = value ∧
      ∀ length, 1 ≤ length → length < integerLength value →
        Int.bmod value (256 ^ length) ≠ value := by
  unfold integerLength
  rw [if_neg hne]
  cases hfind : (List.range' 1 8).find? (fun length =>
      signExtend (64 - 8 * length) value == value) with
  | none =>
    have h8 := List.find?_eq_none.mp hfind 8 (by decide)
    rw [signExtend_eq (by omega) (by omega), beq_iff_eq] at h8
    exact absurd (Int.bmod_eq_of_le (by omega) (by omega)) h8
  | some length =>
    obtain ⟨hsome, hmem, hmin⟩ := List.find?_range'_eq_some.mp hfind
    rw [List.mem_range'_1] at hmem
    rw [beq_iff_eq, signExtend_eq (by omega) (by omega)] at hsome
    simp only [Option.getD_some]
    refine ⟨by omega, hsome, ?_⟩
    intro shorter hpos hlt heq
    have hfail := hmin shorter hpos hlt
    rw [signExtend_eq (by omega) (by omega), heq] at hfail
    simp at hfail

lemma integerLength_le {value : Int} (h : value.natAbs ≤ maxSafeInteger) :
    integerLength value ≤ 7 := by
  have hmax : maxSafeInteger = 9007199254740991 := rfl
  by_cases hne : value = 0
  · simp [integerLength, hne]
  · obtain ⟨_, _, hmin⟩ := integerLength_spec (by omega) (by omega) hne
    by_contra hlong
    exact hmin 7 (by omega) (by omega) (Int.bmod_eq_of_le (by omega) (by omega))

/-- The bytes of an integer in the safe range. -/
def integerBytes (value : Int) : List UInt8 :=
  (leBytes 8 (value % 2 ^ 64).toNat).take (integerLength value)

lemma integerBytes_eq {value : Int} (h : integerLength value ≤ 8) :
    integerBytes value = leBytes (integerLength value) (value % 2 ^ 64).toNat :=
  take_leBytes h _

/-- The low bytes of a number and of its 64-bit pattern are the same. -/
lemma toNat_emod_mod {length : Nat} (h : length ≤ 8) (value : Int) :
    (((value % 2 ^ 64).toNat % 256 ^ length : Nat) : Int) = value % (256 ^ length : Nat) := by
  have hcast : (((value % 2 ^ 64).toNat : Nat) : Int) = value % 2 ^ 64 :=
    Int.toNat_of_nonneg (Int.emod_nonneg _ (by norm_num))
  have hdvd : ((256 ^ length : Nat) : Int) ∣ 2 ^ 64 := by
    have : (256 : Nat) ^ length ∣ 256 ^ 8 := Nat.pow_dvd_pow 256 h
    exact_mod_cast this
  rw [Int.natCast_mod, hcast, Int.emod_emod_of_dvd _ hdvd]

lemma integerValue_integerBytes {value : Int} (h : value.natAbs ≤ maxSafeInteger) :
    integerValue (integerBytes value) = some value := by
  have hlen := integerLength_le h
  have hmax : maxSafeInteger = 9007199254740991 := rfl
  have hbytes : (integerBytes value).length = integerLength value := by
    rw [integerBytes_eq (by omega), length_leBytes]
  rw [integerValue, hbytes, if_neg (by omega)]
  by_cases hne : value = 0
  · subst hne
    rfl
  · obtain ⟨hrange, hextend, _⟩ := integerLength_spec (by omega) (by omega) hne
    have hcons : (integerBytes value).isEmpty = false := by
      rw [List.isEmpty_eq_false_iff]
      exact List.ne_nil_of_length_pos (by omega)
    have hback : signExtend (64 - 8 * integerLength value) (ofLeBytes (integerBytes value)) =
        value := by
      rw [signExtend_eq hrange.1 hrange.2, integerBytes_eq (by omega), ofLeBytes_leBytes,
        toNat_emod_mod (by omega), Int.emod_bmod, hextend]
    simp only [hcons, Bool.false_eq_true, if_false, hback, h, if_true]

/-- An integer of canonical length is the bytes it was read from. -/
lemma integerBytes_of_integerValue {bytes : List UInt8} {value : Int}
    (h : integerValue bytes = some value) (hlen : integerLength value = bytes.length) :
    integerBytes value = bytes := by
  unfold integerValue at h
  split at h
  · cases h
  · rename_i hshort
    rw [integerBytes_eq (by omega), hlen]
    cases bytes with
    | nil => rfl
    | cons b bs =>
      simp only [List.isEmpty_cons, Bool.false_eq_true, if_false] at h
      rw [signExtend_eq (by simp) (by omega)] at h
      split at h
      · cases h
        have hmod : ((Int.bmod (ofLeBytes (b :: bs)) (256 ^ (b :: bs).length) % 2 ^ 64).toNat) %
            256 ^ (b :: bs).length = ofLeBytes (b :: bs) := by
          have hlow := toNat_emod_mod (by omega : (b :: bs).length ≤ 8)
            (Int.bmod (ofLeBytes (b :: bs)) (256 ^ (b :: bs).length))
          rw [Int.bmod_emod, ← Int.natCast_mod, Nat.mod_eq_of_lt (ofLeBytes_lt _)] at hlow
          exact_mod_cast hlow
        rw [← leBytes_mod, hmod, leBytes_ofLeBytes]
      · cases h

/-! ### Values of every type -/

/-- The values other than NULL that a normalized row holds in a column of a type: an integer is
safe, and a FLOAT is spelled as one. -/
def Value.holds (value : Value) : ColumnType → Bool
  | .boolean => value.asBool.isSome
  | .integer => (safeInteger value).isSome
  | .float => value.isF64
  | .text => value.asStr.isSome
  | .json => !value.isNull

/-- Parsing the canonical text of a value gives the value. -/
def SerdeJson.RoundTrips (json : SerdeJson) (value : Value) : Prop :=
  ∀ bytes, encodeCanonicalJson json value = .ok bytes → json.fromSlice bytes = .ok value

lemma holds_not_null {value : Value} {dataType : ColumnType}
    (h : value.holds dataType = true) : value.isNull = false := by
  cases value with
  | null => cases dataType <;> simp [Value.holds, Value.asBool, safeInteger, Value.asU64,
      Value.asI64, Value.isF64, Value.asStr, Value.isNull] at h
  | _ => rfl

/-- A safe integer is spelled in one way. -/
lemma eq_ofI64_of_safeInteger {value : Value} {i : Int} (h : safeInteger value = some i) :
    value = .ofI64 i := by
  cases value with
  | number n =>
    cases n with
    | posInt u =>
      have hi : i = u.toNat := by
        unfold safeInteger at h
        split at h
        · rename_i n hn
          obtain ⟨hsome, _⟩ := Option.filter_eq_some_iff.mp hn
          simp only [Value.asU64, Number.asU64, Option.some.injEq] at hsome
          cases h
          rw [hsome]
        · obtain ⟨hsome, _⟩ := Option.filter_eq_some_iff.mp h
          simp only [Value.asI64, Number.asI64] at hsome
          split at hsome
          · cases hsome
            rfl
          · cases hsome
      subst hi
      rw [Value.ofI64, dif_neg (by omega), Int.toNat_natCast, UInt64.ofNat_toNat]
    | negInt j =>
      have hj : j.val = i ∧ -(maxSafeInteger : Int) ≤ i ∧ i ≤ maxSafeInteger := by
        simpa [safeInteger, Value.asU64, Number.asU64, Value.asI64, Number.asI64,
          Option.filter_eq_some_iff] using h
      rw [← hj.1, Value.ofI64, dif_pos j.property]
    | float f => simp [safeInteger, Value.asU64, Number.asU64, Value.asI64, Number.asI64] at h
  | _ => simp [safeInteger, Value.asU64, Value.asI64] at h

lemma ofI64_not_null (i : Int) : (Value.ofI64 i).isNull = false := by
  unfold Value.ofI64
  split <;> rfl

lemma safeInteger_ofI64 {i : Int} (h : i.natAbs ≤ maxSafeInteger) :
    safeInteger (.ofI64 i) = some i := by
  have hmax : maxSafeInteger = 9007199254740991 := rfl
  unfold Value.ofI64
  split
  · simp [safeInteger, Value.asU64, Number.asU64, Value.asI64, Number.asI64,
      Option.filter_eq_some_iff]
    omega
  · rename_i hneg
    have hpos : 0 ≤ i := by omega
    have hu : (UInt64.ofNat i.toNat).toNat = i.toNat := by
      rw [UInt64.toNat_ofNat']
      omega
    have hle : i.toNat ≤ maxSafeInteger := by omega
    simp [safeInteger, Value.asU64, Number.asU64, hu, Option.filter, hle, hpos]

lemma fromValue_integer {value : Value} {i : Int} (h : safeInteger value = some i) :
    ValueRef.fromValue value .integer = .integer i := by
  have hsafe := safeInteger_natAbs h
  have hmax : maxSafeInteger = 9007199254740991 := rfl
  rw [eq_ofI64_of_safeInteger h, Value.ofI64]
  split
  · rfl
  · have hu : (UInt64.ofNat i.toNat).toNat = i.toNat := by
      rw [UInt64.toNat_ofNat']
      omega
    have hlt : i.toNat < 2 ^ 63 := by omega
    have hpos : (i.toNat : Int) = i := by omega
    simp only [ValueRef.fromValue, Number.asI64, hu, hlt, if_true, Option.map_some,
      Option.getD_some, hpos]

lemma ofF64_of_finite {f : F64} (h : f.isFinite = true) : Value.ofF64 f = .number (.float ⟨f, h⟩) := by
  simp [Value.ofF64, h]

section Values
variable {json : SerdeJson} {column : ColumnDefinition} {value : Value} {table : String}

/-- A value is appended to whatever is there. -/
lemma encodeValue_append (data : List UInt8) :
    encodeValue json column value data table =
      (encodeValue json column value [] table).map (data ++ ·) := by
  unfold encodeValue
  cases column.dataType with
  | boolean => cases value.asBool <;> rfl
  | integer => cases safeInteger value <;> rfl
  | float => cases value.asF64.filter (fun f => f.isFinite) <;> rfl
  | text => cases value.asStr <;> rfl
  | json => cases encodeCanonicalJson json value <;> rfl

/-- What a column encodes of a normalized value is read back, strictly or not. -/
lemma decodeValue_encodeValue {bytes : List UInt8} (strict : Bool)
    (hholds : value.holds column.dataType = true)
    (hjson : column.dataType = .json → json.RoundTrips value)
    (h : encodeValue json column value [] table = .ok bytes) :
    ∃ ref, decodeValue json column.dataType bytes strict = .ok ref ∧ ref.intoValue = value := by
  cases htype : column.dataType with
  | boolean =>
    rw [htype] at hholds
    obtain ⟨b, hb⟩ := Option.isSome_iff_exists.mp hholds
    simp only [encodeValue, htype, hb, List.nil_append, Except.ok.injEq] at h
    have hvalue : value = .bool b := by
      cases value <;> simp_all [Value.asBool]
    refine ⟨.boolean b, ?_, hvalue.symm⟩
    rw [← h]
    cases b <;> simp [decodeValue]
  | integer =>
    rw [htype] at hholds
    obtain ⟨i, hi⟩ := Option.isSome_iff_exists.mp hholds
    simp only [encodeValue, htype, hi, List.nil_append, Except.ok.injEq] at h
    have hsafe := safeInteger_natAbs hi
    have hlen : (integerBytes i).length = integerLength i := by
      rw [integerBytes_eq (by have := integerLength_le hsafe; omega), length_leBytes]
    have hshort := integerLength_le hsafe
    refine ⟨.integer i, ?_, (eq_ofI64_of_safeInteger hi).symm⟩
    rw [← h]
    change decodeValue json .integer (integerBytes i) strict = _
    simp only [decodeValue, hlen, integerValue_integerBytes hsafe]
    simp
    omega
  | float =>
    rw [htype] at hholds
    obtain ⟨f, hf⟩ : ∃ f, value = .number (.float f) := by
      cases value with
      | number n => cases n <;> simp_all [Value.holds, Value.isF64, Number.isF64]
      | _ => simp [Value.holds, Value.isF64] at hholds
    subst hf
    simp only [encodeValue, htype, Value.asF64, Number.asF64, Option.filter, f.property, if_true,
      List.nil_append, Except.ok.injEq] at h
    refine ⟨.float f.val, ?_, ofF64_of_finite f.property⟩
    have hread : ofLeBytes (leBytes 8 f.val.bits.toNat) = f.val.bits.toNat :=
      ofLeBytes_leBytes_of_lt f.val.bits.toNat_lt
    rw [← h]
    simp [decodeValue, hread, f.property]
  | text =>
    rw [htype] at hholds
    obtain ⟨s, hs⟩ := Option.isSome_iff_exists.mp hholds
    simp only [encodeValue, htype, hs, List.nil_append, Except.ok.injEq] at h
    have hvalue : value = .string s := by
      cases value <;> simp_all [Value.asStr]
    refine ⟨.text s, ?_, hvalue.symm⟩
    rw [← h]
    simp [decodeValue, fromUtf8_textBytes]
  | json =>
    simp only [encodeValue, htype, List.nil_append] at h
    have hround := hjson htype bytes (by simpa using h)
    refine ⟨.json value, ?_, rfl⟩
    cases strict with
    | true => simp_all [decodeValue, decodeCanonicalJson]
    | false => simp [decodeValue, hround]

lemma encodeCanonicalJson_null : encodeCanonicalJson json .null = .ok (textBytes "null") := by
  rfl

/-- What strict decoding accepts, a JSON null aside, is what the column encodes of the value
read. -/
lemma encodeValue_decodeValue {bytes : List UInt8} {ref : ValueRef}
    (h : decodeValue json column.dataType bytes true = .ok ref)
    (hnull : ref.intoValue.isNull = false) :
    encodeValue json column ref.intoValue [] table = .ok bytes := by
  cases htype : column.dataType with
  | boolean =>
    simp only [decodeValue, htype] at h
    split at h
    · cases h
      simp_all [encodeValue, ValueRef.intoValue, Value.asBool]
    · split at h
      · cases h
        simp_all [encodeValue, ValueRef.intoValue, Value.asBool]
      · cases h
  | integer =>
    simp only [decodeValue, htype] at h
    split at h
    · cases h
    · split at h
      · rename_i i hvalue
        split at h
        · rename_i hlen
          cases h
          have hsafe : i.natAbs ≤ maxSafeInteger := by
            unfold integerValue at hvalue
            grind
          have hbytes := integerBytes_of_integerValue hvalue (by simpa using hlen)
          simp only [encodeValue, htype, ValueRef.intoValue, safeInteger_ofI64 hsafe,
            List.nil_append, Except.ok.injEq]
          exact hbytes
        · cases h
      · cases h
  | float =>
    simp only [decodeValue, htype] at h
    split at h
    · rename_i hlen
      split at h
      · rename_i hfinite
        cases h
        have hbits : (UInt64.ofNat (ofLeBytes bytes)).toNat = ofLeBytes bytes := by
          have hlt := ofLeBytes_lt bytes
          rw [hlen] at hlt
          rw [UInt64.toNat_ofNat']
          exact Nat.mod_eq_of_lt hlt
        have hback : leBytes 8 (ofLeBytes bytes) = bytes := hlen ▸ leBytes_ofLeBytes bytes
        simp only [encodeValue, htype, ValueRef.intoValue, ofF64_of_finite hfinite, Value.asF64,
          Number.asF64, Option.filter, hfinite, if_true, hbits, hback, List.nil_append]
      · cases h
    · cases h
  | text =>
    simp only [decodeValue, htype] at h
    split at h
    · rename_i s hs
      cases h
      simp [encodeValue, htype, ValueRef.intoValue, Value.asStr, textBytes_of_fromUtf8 hs]
    · cases h
  | json =>
    simp only [decodeValue, htype, if_true, decodeCanonicalJson, bind, Except.bind] at h
    cases hparse : json.fromSlice bytes with
    | error e => simp [hparse] at h
    | ok v =>
      cases hencode : encodeCanonicalJson json v with
      | error e => simp [hparse, hencode] at h
      | ok encoded =>
        simp only [hparse, hencode] at h
        split at h
        · cases h
        · rename_i v' hv'
          split at hv'
          · cases hv'
            cases h
            simp_all [encodeValue, ValueRef.intoValue]
          · cases hv'

/-- Two normalized values with one encoding are the same value. -/
lemma encodeValue_injective {other : Value} {bytes : List UInt8}
    (hv : value.holds column.dataType = true) (ho : other.holds column.dataType = true)
    (jv : column.dataType = .json → json.RoundTrips value)
    (jo : column.dataType = .json → json.RoundTrips other)
    (hev : encodeValue json column value [] table = .ok bytes)
    (heo : encodeValue json column other [] table = .ok bytes) : value = other := by
  obtain ⟨ref, href, rfl⟩ := decodeValue_encodeValue true hv jv hev
  obtain ⟨ref', href', rfl⟩ := decodeValue_encodeValue true ho jo heo
  rw [href] at href'
  cases href'
  rfl

/-! ### Defaults -/

lemma storedDefault_null (h : column.default.filter (fun value => !value.isNull) = none) :
    (storedDefault column).intoValue = .null := by
  unfold storedDefault
  cases hd : column.default with
  | none => rfl
  | some d =>
    have hnull : d = .null := isNull_eq_true.mp (by simpa [hd, Option.filter] using h)
    subst hnull
    cases column.dataType <;> rfl

/-- A default that can be written is read, where a record omits it, as a value with the same
encoding. -/
lemma storedDefault_encodes {default : Value} {bytes : List UInt8}
    (hdefault : column.default = some default) (hnull : default.isNull = false)
    (h : encodeValue json column default [] table = .ok bytes) :
    (storedDefault column).intoValue.holds column.dataType = true ∧
      encodeValue json column (storedDefault column).intoValue [] table = .ok bytes ∧
      (column.dataType = .json → (storedDefault column).intoValue = default) := by
  unfold storedDefault
  rw [hdefault]
  cases htype : column.dataType with
  | boolean =>
    cases default <;> simp_all [encodeValue, Value.asBool, ValueRef.fromValue,
      ValueRef.intoValue, Value.holds]
  | integer =>
    simp only [encodeValue, htype] at h
    cases hi : safeInteger default with
    | none => simp [hi] at h
    | some i =>
      simp only [hi] at h
      have hread : (ValueRef.fromValue default .integer).intoValue = default := by
        rw [fromValue_integer hi]
        exact (eq_ofI64_of_safeInteger hi).symm
      simp only [encodeValue, htype, if_false, hread, hi, Value.holds, h, reduceCtorEq,
        Option.isSome_some, false_implies, and_self]
  | float =>
    simp only [encodeValue, htype] at h
    cases hf : default.asF64.filter (fun f => f.isFinite) with
    | none => simp [hf] at h
    | some f =>
      obtain ⟨hsome, hfinite⟩ := Option.filter_eq_some_iff.mp hf
      simp only [hf] at h
      have hread : (ValueRef.float f).intoValue = .number (.float ⟨f, hfinite⟩) :=
        ofF64_of_finite hfinite
      simp only [if_true, hsome, hread]
      refine ⟨rfl, ?_, by simp⟩
      simp only [encodeValue, htype, Value.asF64, Number.asF64, Option.filter, hfinite, if_true, h]
  | text =>
    cases default <;> simp_all [encodeValue, Value.asStr, ValueRef.fromValue,
      ValueRef.intoValue, Value.holds]
  | json =>
    cases default <;> simp_all [encodeValue, ValueRef.fromValue, ValueRef.intoValue, Value.holds,
      Value.isNull]

end Values

end TinyJoin
