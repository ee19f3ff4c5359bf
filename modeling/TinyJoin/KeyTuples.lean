import TinyJoin.KeyOrder

/-! Whole key tuples: what the column loop writes, and that reading a key gives back the
components and values it was written from. -/
namespace TinyJoin
open Bytes OrderCode

/-! ### Writing -/

/-- The typed values of a tuple's columns, when the row holds a value of the column's type for
each of them. -/
def keyTuple (schema : TableDefinition) (row : Row) :
    List String → Option (List (ColumnType × KeyValue))
  | [] => some []
  | column :: columns => do
    let dataType ← (schemaColumnType schema column).toOption
    let value ← row column
    let key ← KeyValue.ofValue dataType value
    let rest ← keyTuple schema row columns
    return (dataType, key) :: rest

/-- The components of a tuple, one after another. -/
def tupleCode (tuple : List (ColumnType × KeyValue)) : List UInt8 :=
  tuple.flatMap (fun component => component.2.code)

@[simp] lemma tupleCode_nil : tupleCode [] = [] := rfl

lemma tupleCode_cons (c : ColumnType × KeyValue) (t : List (ColumnType × KeyValue)) :
    tupleCode (c :: t) = c.2.code ++ tupleCode t := by
  simp [tupleCode]

lemma tupleCode_append (s t : List (ColumnType × KeyValue)) :
    tupleCode (s ++ t) = tupleCode s ++ tupleCode t := by
  simp [tupleCode]

/-- A component is written exactly when the value is one of its column's type. -/
lemma encodeComponent_eq (key : List UInt8) (dataType : ColumnType) (value : Value)
    (table column : String) :
    (encodeComponent key dataType value table column).toOption =
      (KeyValue.ofValue dataType value).map (fun k => key ++ k.code) := by
  cases dataType with
  | boolean =>
    cases h : value.asBool <;> simp [encodeComponent, KeyValue.ofValue, h, Except.toOption,
      KeyValue.code]
  | integer =>
    cases h : safeInteger value <;> simp [encodeComponent, KeyValue.ofValue, h, Except.toOption,
      KeyValue.code, pushIntegerComponent]
  | float =>
    cases value with
    | number n =>
      by_cases h : n.asF64.isFinite = true <;> simp [encodeComponent, KeyValue.ofValue, h,
        Except.toOption, KeyValue.code, pushFloatComponent, Value.asF64, Option.filter]
    | _ => simp [encodeComponent, KeyValue.ofValue, Except.toOption, Value.asF64]
  | text =>
    cases h : value.asStr <;> simp [encodeComponent, KeyValue.ofValue, h, Except.toOption,
      KeyValue.code, pushTextComponent_eq]
  | json => simp [encodeComponent, KeyValue.ofValue, Except.toOption]

lemma toOption_eq_some {α : Type} {r : Result α} {a : α} : r.toOption = some a ↔ r = .ok a := by
  cases r with
  | ok b => simp [Except.toOption]
  | error e => simp [Except.toOption]

lemma ofValue_null (dataType : ColumnType) : KeyValue.ofValue dataType .null = none := by
  cases dataType <;> rfl

lemma isNull_eq_true {value : Value} : value.isNull = true ↔ value = .null := by
  cases value <;> simp [Value.isNull]

lemma validateKeySize_eq_ok {key : List UInt8} :
    validateKeySize key = .ok () ↔ key.length ≤ maxBtreeKeyBytes := by
  unfold validateKeySize
  split
  · simp; omega
  · simp; omega

/-- One turn of the column loop. -/
lemma encodeColumn_eq_ok (schema : TableDefinition) (row : Row) (policy : NullPolicy)
    (key out : List UInt8) (column : String) :
    encodeColumn schema row policy key column = .ok (some out) ↔
      ∃ dataType value k, schemaColumnType schema column = .ok dataType ∧
        row column = some value ∧ KeyValue.ofValue dataType value = some k ∧
        out = key ++ k.code ∧ out.length ≤ maxBtreeKeyBytes := by
  unfold encodeColumn
  cases hrow : row column with
  | none => simp
  | some value =>
    by_cases hnull : value.isNull = true
    · have hv := isNull_eq_true.mp hnull
      subst hv
      cases policy <;> simp [hnull, ofValue_null]
    · simp only [hnull, if_false, Bool.false_eq_true]
      cases htype : schemaColumnType schema column with
      | error e => simp [bind, Except.bind]
      | ok dataType =>
        have hcomp := encodeComponent_eq key dataType value schema.name column
        cases hk : KeyValue.ofValue dataType value with
        | none =>
          rw [hk, Option.map_none] at hcomp
          cases henc : encodeComponent key dataType value schema.name column with
          | error e => simp [bind, Except.bind, henc, hk]
          | ok out' => rw [henc] at hcomp; simp [Except.toOption] at hcomp
        | some k =>
          rw [hk, Option.map_some, toOption_eq_some] at hcomp
          simp only [bind, Except.bind, hcomp]
          by_cases hlen : (key ++ k.code).length ≤ maxBtreeKeyBytes
          · rw [validateKeySize_eq_ok.mpr hlen]
            simp only [pure, Except.pure, Except.ok.injEq, Option.some.injEq]
            constructor
            · rintro rfl
              exact ⟨dataType, value, k, rfl, rfl, hk, rfl, hlen⟩
            · rintro ⟨d, v, k', hd, hv, hk', rfl, _⟩
              subst hd hv
              rw [hk] at hk'
              cases hk'
              rfl
          · cases hsize : validateKeySize (key ++ k.code) with
            | ok u => exact absurd (validateKeySize_eq_ok.mp hsize) hlen
            | error e =>
              simp only [reduceCtorEq, false_iff]
              rintro ⟨d, v, k', hd, hv, hk', rfl, hshort⟩
              cases hd
              cases hv
              rw [hk] at hk'
              cases hk'
              exact hlen hshort

lemma encodeColumnsFrom_cons (schema : TableDefinition) (row : Row) (policy : NullPolicy)
    (key out : List UInt8) (column : String) (columns : List String) :
    encodeColumnsFrom schema row policy key (column :: columns) = .ok (some out) ↔
      ∃ dataType value k, schemaColumnType schema column = .ok dataType ∧
        row column = some value ∧ KeyValue.ofValue dataType value = some k ∧
        (key ++ k.code).length ≤ maxBtreeKeyBytes ∧
        encodeColumnsFrom schema row policy (key ++ k.code) columns = .ok (some out) := by
  have turn := encodeColumn_eq_ok schema row policy key
  rw [encodeColumnsFrom]
  constructor
  · intro h
    split at h
    · cases h
    · cases h
    · rename_i next hnext
      obtain ⟨d, v, k, hd, hv, hk, rfl, hlen⟩ := (turn next column).mp hnext
      exact ⟨d, v, k, hd, hv, hk, hlen, h⟩
  · rintro ⟨d, v, k, hd, hv, hk, hlen, h⟩
    rw [(turn (key ++ k.code) column).mpr ⟨d, v, k, hd, hv, hk, rfl, hlen⟩]
    exact h

/-- Rejecting nulls never leaves a tuple out. -/
lemma encodeColumnsFrom_reject (schema : TableDefinition) (row : Row) (key : List UInt8)
    (columns : List String) :
    encodeColumnsFrom schema row .reject key columns ≠ .ok none := by
  induction columns generalizing key with
  | nil => simp [encodeColumnsFrom]
  | cons column columns ih =>
    rw [encodeColumnsFrom]
    split
    · simp
    · rename_i hnone
      exfalso
      unfold encodeColumn at hnone
      split at hnone
      · cases hnone
      · split at hnone
        · cases hnone
        · simp only [bind, Except.bind, pure, Except.pure] at hnone
          repeat' split at hnone
          all_goals cases hnone
    · exact ih _

lemma keyTuple_cons_eq_some (schema : TableDefinition) (row : Row) (column : String)
    (columns : List String) (tuple : List (ColumnType × KeyValue)) :
    keyTuple schema row (column :: columns) = some tuple ↔
      ∃ dataType value k rest, schemaColumnType schema column = .ok dataType ∧
        row column = some value ∧ KeyValue.ofValue dataType value = some k ∧
        keyTuple schema row columns = some rest ∧ tuple = (dataType, k) :: rest := by
  simp only [keyTuple, Option.bind_eq_bind, Option.bind_eq_some_iff, toOption_eq_some]
  constructor
  · rintro ⟨d, hd, v, hv, k, hk, rest, hrest, h⟩
    exact ⟨d, v, k, rest, hd, hv, hk, hrest, by simpa using h.symm⟩
  · rintro ⟨d, v, k, rest, hd, hv, hk, hrest, h⟩
    exact ⟨d, hd, v, hv, k, hk, rest, hrest, by simp [h]⟩

/-- What the loop writes is the tuple's code. -/
lemma encodeColumnsFrom_eq_ok {schema : TableDefinition} {row : Row} {policy : NullPolicy}
    {columns : List String} {key out : List UInt8}
    (h : encodeColumnsFrom schema row policy key columns = .ok (some out)) :
    ∃ tuple, keyTuple schema row columns = some tuple ∧ out = key ++ tupleCode tuple ∧
      (columns ≠ [] → out.length ≤ maxBtreeKeyBytes) := by
  induction columns generalizing key with
  | nil =>
    rw [encodeColumnsFrom] at h
    cases h
    exact ⟨[], rfl, by simp, by simp⟩
  | cons column columns ih =>
    obtain ⟨d, v, k, hd, hv, hk, hlen, hrest⟩ :=
      (encodeColumnsFrom_cons schema row policy key out column columns).mp h
    obtain ⟨rest, htuple, hout, hshort⟩ := ih hrest
    refine ⟨(d, k) :: rest, ?_, ?_, ?_⟩
    · exact (keyTuple_cons_eq_some schema row column columns _).mpr
        ⟨d, v, k, rest, hd, hv, hk, htuple, rfl⟩
    · rw [hout, tupleCode_cons, List.append_assoc]
    · intro _
      by_cases hnil : columns = []
      · subst hnil
        rw [keyTuple] at htuple
        cases htuple
        simpa [hout] using hlen
      · exact hshort hnil

lemma encodeColumnsFrom_of_tuple (policy : NullPolicy) (key : List UInt8)
    {schema : TableDefinition} {row : Row} {columns : List String}
    {tuple : List (ColumnType × KeyValue)}
    (h : keyTuple schema row columns = some tuple)
    (hlen : (key ++ tupleCode tuple).length ≤ maxBtreeKeyBytes) :
    encodeColumnsFrom schema row policy key columns = .ok (some (key ++ tupleCode tuple)) := by
  induction columns generalizing key tuple with
  | nil =>
    rw [keyTuple] at h
    cases h
    simp [encodeColumnsFrom]
  | cons column columns ih =>
    obtain ⟨d, v, k, rest, hd, hv, hk, hrest, rfl⟩ :=
      (keyTuple_cons_eq_some schema row column columns tuple).mp h
    rw [encodeColumnsFrom_cons]
    rw [tupleCode_cons, ← List.append_assoc] at hlen ⊢
    refine ⟨d, v, k, hd, hv, hk, ?_, ih _ hrest hlen⟩
    simp only [List.length_append] at hlen ⊢
    omega

lemma encodePrimaryKey_eq_ok {schema : TableDefinition} {row : Row} {key : List UInt8} :
    encodePrimaryKey schema row = .ok key ↔ schema.primaryKey ≠ [] ∧
      ∃ tuple, keyTuple schema row schema.primaryKey = some tuple ∧ key = tupleCode tuple ∧
        key.length ≤ maxBtreeKeyBytes := by
  unfold encodePrimaryKey encodeColumns
  cases hpk : schema.primaryKey with
  | nil => simp [bind, Except.bind]
  | cons column columns =>
    simp only [List.isEmpty_cons, Bool.false_eq_true, if_false, ne_eq, reduceCtorEq,
      not_false_eq_true, true_and]
    constructor
    · intro h
      cases henc : encodeColumnsFrom schema row .reject [] (column :: columns) with
      | error e => simp [henc, bind, Except.bind] at h
      | ok out =>
        cases out with
        | none => exact absurd henc (encodeColumnsFrom_reject schema row [] _)
        | some out =>
          obtain ⟨tuple, htuple, hout, hshort⟩ := encodeColumnsFrom_eq_ok henc
          have hlen := hshort (by simp)
          simp only [henc, bind, Except.bind, Option.getD_some,
            validateKeySize_eq_ok.mpr hlen, pure, Except.pure, Except.ok.injEq] at h
          subst h
          exact ⟨tuple, htuple, by simpa using hout, hlen⟩
    · rintro ⟨tuple, htuple, rfl, hlen⟩
      have henc := encodeColumnsFrom_of_tuple .reject [] htuple
        (by simpa using hlen)
      simp only [henc, bind, Except.bind, Option.getD_some, List.nil_append,
        validateKeySize_eq_ok.mpr hlen, pure, Except.pure]

lemma encodeSecondaryIndexPrefix_eq_ok {schema : TableDefinition} {definition : IndexDefinition}
    {row : Row} {key : List UInt8} :
    encodeSecondaryIndexPrefix schema definition row = .ok (some key) ↔
      definition.columns ≠ [] ∧
      ∃ tuple, keyTuple schema row definition.columns = some tuple ∧ key = tupleCode tuple ∧
        key.length ≤ maxBtreeKeyBytes := by
  unfold encodeSecondaryIndexPrefix encodeColumns
  cases hcols : definition.columns with
  | nil => simp [bind, Except.bind]
  | cons column columns =>
    simp only [List.isEmpty_cons, Bool.false_eq_true, if_false, ne_eq, reduceCtorEq,
      not_false_eq_true, true_and]
    constructor
    · intro h
      cases henc : encodeColumnsFrom schema row .omit [] (column :: columns) with
      | error e => simp [henc, bind, Except.bind] at h
      | ok out =>
        cases out with
        | none => simp [henc, bind, Except.bind, pure, Except.pure] at h
        | some out =>
          obtain ⟨tuple, htuple, hout, hshort⟩ := encodeColumnsFrom_eq_ok henc
          have hlen := hshort (by simp)
          simp only [henc, bind, Except.bind, validateKeySize_eq_ok.mpr hlen, pure, Except.pure,
            Except.ok.injEq, Option.some.injEq] at h
          subst h
          exact ⟨tuple, htuple, by simpa using hout, hlen⟩
    · rintro ⟨tuple, htuple, rfl, hlen⟩
      have henc := encodeColumnsFrom_of_tuple .omit [] htuple
        (by simpa using hlen)
      simp only [henc, bind, Except.bind, List.nil_append, validateKeySize_eq_ok.mpr hlen, pure,
        Except.pure]

/-! ### Reading -/

lemma textComponentEnd_textCode (bytes post : List UInt8) (index : Nat) :
    textComponentEnd (textCode bytes ++ post) index = .ok (index + (textCode bytes).length) := by
  unfold textCode
  induction bytes generalizing index with
  | nil => simp [textComponentEnd]
  | cons b bs ih =>
    rw [escapeZeros_cons]
    by_cases hb : b = 0
    · subst hb
      have hne : textEscapedZero ≠ textTerminator := by decide
      simp only [if_true, List.cons_append, List.nil_append, textComponentEnd, if_neg hne]
      have step := ih (index + 2)
      simp only [List.append_assoc, List.cons_append, List.nil_append] at step ⊢
      rw [step]
      simp only [List.length_append, List.length_cons, List.length_nil]
      congr 1
      omega
    · simp only [if_neg hb, List.cons_append, List.nil_append]
      have step := ih (index + 1)
      -- The scan looks one byte ahead, so what follows is written as a byte and the rest.
      cases hrest : escapeZeros bs ++ [0, textTerminator] ++ post with
      | nil => simp at hrest
      | cons c rest =>
        rw [hrest] at step
        simp only [List.append_assoc, List.cons_append, List.nil_append] at hrest step ⊢
        rw [textComponentEnd, if_neg hb, step]
        simp only [List.length_append, List.length_cons, List.length_nil]
        congr 1
        omega

/-- Where the scan ends there is a whole text component. -/
lemma textComponentEnd_eq_ok (rest : List UInt8) (index stop : Nat)
    (h : textComponentEnd rest index = .ok stop) :
    ∃ bytes post, rest = textCode bytes ++ post ∧ stop = index + (textCode bytes).length := by
  induction rest, index using textComponentEnd.induct with
  | case1 => simp [textComponentEnd] at h
  | case2 => simp [textComponentEnd] at h
  | case3 byte _ hb => simp [textComponentEnd, hb] at h
  | case4 rest index =>
    simp only [textComponentEnd, if_true, Except.ok.injEq] at h
    exact ⟨[], rest, by simp [textCode], by simp [textCode, ← h]⟩
  | case5 rest index hne ih =>
    simp only [textComponentEnd, if_true, if_neg hne] at h
    obtain ⟨bytes, post, hrest, hstop⟩ := ih h
    refine ⟨0 :: bytes, post, ?_, ?_⟩
    · simp [hrest, textCode, escapeZeros_cons]
    · rw [hstop]
      simp [textCode, escapeZeros_cons]
      omega
  | case6 next rest index h1 h2 => simp [textComponentEnd, h1, h2] at h
  | case7 byte next rest index hb ih =>
    simp only [textComponentEnd, if_neg hb] at h
    obtain ⟨bytes, post, hrest, hstop⟩ := ih h
    refine ⟨byte :: bytes, post, ?_, ?_⟩
    · simp only [textCode, escapeZeros_cons, if_neg hb, List.cons_append, List.nil_append,
        hrest, List.append_assoc]
    · rw [hstop]
      simp [textCode, escapeZeros_cons, hb]
      omega

lemma unescapeZeros_escapeZeros (bytes : List UInt8) :
    unescapeZeros false (escapeZeros bytes) = bytes := by
  induction bytes with
  | nil => rfl
  | cons b bs ih =>
    rw [escapeZeros_cons]
    by_cases hb : b = 0
    · simp [hb, unescapeZeros, ih]
    · simp [hb, unescapeZeros, beq_eq_false_iff_ne.mpr hb, ih]

/-- A text component's payload, taken out of its escapes, is the text's bytes. -/
lemma payload_textCode (bytes : List UInt8) :
    (if (escapeZeros bytes).contains 0 then unescapeZeros false (escapeZeros bytes)
      else escapeZeros bytes) = bytes := by
  by_cases hz : (escapeZeros bytes).contains 0 = true
  · rw [if_pos hz, unescapeZeros_escapeZeros]
  · rw [if_neg hz]
    apply escapeZeros_of_not_contains
    rw [Bool.eq_false_iff]
    intro hb
    rw [List.contains_iff_mem] at hb
    have : (0 : UInt8) ∈ escapeZeros bytes := by
      rw [escapeZeros, List.mem_flatMap]
      exact ⟨0, hb, by simp⟩
    exact hz (List.contains_iff_mem.mpr this)

lemma decode_textCode (bytes : List UInt8) :
    decodeComponent (textCode bytes) .text = match fromUtf8 bytes with
      | some s => .ok (.text s)
      | none => .error (storageCorrupt "A text key component is not valid UTF-8") := by
  have hpayload : (textCode bytes).take ((textCode bytes).length - 2) = escapeZeros bytes := by
    simp [textCode]
  cases htext : fromUtf8 bytes with
  | none => simp only [decodeComponent, hpayload, payload_textCode, htext]
  | some s => simp only [decodeComponent, hpayload, payload_textCode, htext]

lemma ofNat_ofBeBytes_beBytes (x : UInt64) :
    UInt64.ofNat (ofBeBytes (beBytes 8 x.toNat)) = x := by
  rw [ofBeBytes_beBytes_of_lt x.toNat_lt, UInt64.ofNat_toNat]

lemma xor_signBit_cancel (x : UInt64) : x ^^^ F64.signBit ^^^ F64.signBit = x := by
  rw [UInt64.xor_assoc, UInt64.xor_self, UInt64.xor_zero]

lemma toInt_ofInt {i : Int} (hlo : -(2 ^ 63) ≤ i) (hhi : i < 2 ^ 63) :
    (UInt64.ofInt i).toInt64.toInt = i := by
  have hnat : ((UInt64.ofInt i).toNat : Int) = i % (2 ^ 64 : Nat) := by
    simp [UInt64.ofInt]
    omega
  have hcast : (UInt64.ofInt i).toInt64.toInt = ((UInt64.ofInt i).toNat : Int).bmod (2 ^ 64) :=
    BitVec.toInt_eq_toNat_bmod _
  rw [hcast, hnat, Int.emod_bmod]
  exact Int.bmod_eq_of_le (by omega) (by omega)

lemma decode_integerCode {i : Int} (h : i.natAbs ≤ maxSafeInteger) :
    decodeComponent (KeyValue.code (.integer i)) .integer = .ok (.integer i) := by
  have hmax : maxSafeInteger < 2 ^ 63 := by decide
  simp only [decodeComponent, KeyValue.code, pushIntegerComponent, List.nil_append,
    length_beBytes, if_true, ofNat_ofBeBytes_beBytes, xor_signBit_cancel]
  rw [toInt_ofInt (by omega) (by omega), if_neg (by omega)]

/-- Undoing the sortable bits gives the float, but for the sign of zero. -/
lemma floatOfSortable_sortableFloat (f : F64) :
    floatOfSortable (sortableFloat f) = if f.isZero then F64.zero else f := by
  unfold sortableFloat floatOfSortable
  generalize (if f.isZero then F64.zero else f) = g
  have hb : g.bits.toNat < 2 ^ 64 := g.bits.toNat_lt
  by_cases hn : g.bits.toNat < 2 ^ 63
  · have hand : (g.bits &&& F64.signBit == 0) = true := by simpa using (and_signBit_eq_zero _).mpr hn
    have hset : (g.bits ^^^ F64.signBit) &&& F64.signBit ≠ 0 := by
      rw [ne_eq, and_signBit_eq_zero, toNat_xor_signBit_low hn]
      omega
    simp only [hand, if_true, bne_iff_ne.mpr hset, xor_signBit_cancel]
  · have hand : (g.bits &&& F64.signBit == 0) = false := by
      simpa [and_signBit_eq_zero] using hn
    have hclear : (~~~g.bits) &&& F64.signBit = 0 := by
      rw [and_signBit_eq_zero, UInt64.toNat_not]
      have : UInt64.size = 2 ^ 64 := rfl
      omega
    simp only [hand, Bool.false_eq_true, if_false, hclear, bne_self_eq_false, UInt64.not_not]

lemma decode_floatCode {f : F64} (h : f.isFinite = true) :
    decodeComponent (KeyValue.code (.float f)) .float = .ok (KeyValue.stored (.float f)) := by
  have hvalue : floatOfSortable (UInt64.ofNat (ofBeBytes (beBytes 8 (sortableFloat f).toNat))) =
      if f.isZero then F64.zero else f := by
    rw [ofNat_ofBeBytes_beBytes, floatOfSortable_sortableFloat]
  have hvalid : validEncodedFloatComponent (beBytes 8 (sortableFloat f).toNat) = true := by
    simp only [validEncodedFloatComponent, length_beBytes, if_true, hvalue]
    by_cases hz : f.isZero = true
    · simp only [hz, if_true]
      decide
    · have hz' : f.isZero = false := by simpa using hz
      simp [hz', h]
  simp only [decodeComponent, KeyValue.code, pushFloatComponent, List.nil_append, hvalid, if_true,
    hvalue, KeyValue.stored]

/-- A component is found whole between whatever stands around it, and read back. -/
lemma component_read {dataType : ColumnType} {k : KeyValue} (h : KeyValue.Typed dataType k)
    (before after : List UInt8) :
    componentEnd (before ++ (k.code ++ after)) before.length dataType =
        .ok (before.length + k.code.length) ∧
      decodeComponent k.code dataType = .ok k.stored := by
  cases dataType <;> cases k <;> simp only [KeyValue.Typed] at h
  · rename_i b
    constructor
    · simp [componentEnd, KeyValue.code]
    · cases b <;> simp [decodeComponent, KeyValue.code, KeyValue.stored]
  · rename_i i
    constructor
    · simp [componentEnd, KeyValue.code, pushIntegerComponent]
    · exact decode_integerCode h
  · rename_i f
    constructor
    · simp [componentEnd, KeyValue.code, pushFloatComponent]
    · exact decode_floatCode h
  · rename_i s
    have hcode : KeyValue.code (.text s) = textCode (textBytes s) := by
      simp [KeyValue.code, pushTextComponent_eq]
    constructor
    · rw [hcode]
      simp only [componentEnd, List.drop_left]
      exact textComponentEnd_textCode _ _ _
    · rw [hcode, decode_textCode, fromUtf8_textBytes]
      rfl

/-- Every component of a tuple holds a value of its column's type. -/
def TupleTyped (tuple : List (ColumnType × KeyValue)) : Prop :=
  ∀ c ∈ tuple, KeyValue.Typed c.1 c.2

lemma keyTuple_typed {schema : TableDefinition} {row : Row} {columns : List String}
    {tuple : List (ColumnType × KeyValue)} (h : keyTuple schema row columns = some tuple) :
    TupleTyped tuple := by
  induction columns generalizing tuple with
  | nil =>
    rw [keyTuple] at h
    cases h
    simp [TupleTyped]
  | cons column columns ih =>
    obtain ⟨d, v, k, rest, _, _, hk, hrest, rfl⟩ :=
      (keyTuple_cons_eq_some schema row column columns tuple).mp h
    intro c hc
    rcases List.mem_cons.mp hc with rfl | hc
    · exact KeyValue.typed_of_ofValue hk
    · exact ih hrest c hc

lemma readComponents_tupleCode {tuple : List (ColumnType × KeyValue)} (h : TupleTyped tuple)
    (before after : List UInt8) :
    readComponents (before ++ (tupleCode tuple ++ after)) before.length (tuple.map (·.1)) =
      .ok (tuple.map (fun c => (c.2.code, c.2.stored)), before.length + (tupleCode tuple).length) := by
  induction tuple generalizing before with
  | nil => simp [readComponents]
  | cons c tuple ih =>
    obtain ⟨hend, hdecode⟩ := component_read (h c List.mem_cons_self) before
      (tupleCode tuple ++ after)
    have hslice : slice (before ++ (c.2.code ++ (tupleCode tuple ++ after))) before.length
        (before.length + c.2.code.length) = c.2.code := slice_of_append rfl rfl
    have rest := ih (fun c' hc' => h c' (List.mem_cons_of_mem c hc')) (before ++ c.2.code)
    rw [List.length_append, List.append_assoc] at rest
    rw [tupleCode_cons, List.append_assoc]
    simp only [List.map_cons, readComponents, hend, bind, Except.bind, hslice, hdecode, rest, pure,
      Except.pure, List.length_append]
    rw [Nat.add_assoc]

lemma tupleEnd_tupleCode {tuple : List (ColumnType × KeyValue)} (h : TupleTyped tuple)
    (before after : List UInt8) :
    tupleEnd (before ++ (tupleCode tuple ++ after)) before.length (tuple.map (·.1)) =
      .ok (before.length + (tupleCode tuple).length) := by
  induction tuple generalizing before with
  | nil => simp [tupleEnd]
  | cons c tuple ih =>
    obtain ⟨hend, _⟩ := component_read (h c List.mem_cons_self) before (tupleCode tuple ++ after)
    have rest := ih (fun c' hc' => h c' (List.mem_cons_of_mem c hc')) (before ++ c.2.code)
    rw [List.length_append, List.append_assoc] at rest
    rw [tupleCode_cons, List.append_assoc]
    simp only [List.map_cons, tupleEnd, hend, bind, Except.bind, rest, List.length_append]
    rw [Nat.add_assoc]

lemma KeyValue.code_ne_nil (k : KeyValue) : k.code ≠ [] := by
  cases k with
  | boolean b => simp [KeyValue.code]
  | integer i =>
    apply List.ne_nil_of_length_pos
    simp [KeyValue.code, pushIntegerComponent]
  | float f =>
    apply List.ne_nil_of_length_pos
    simp [KeyValue.code, pushFloatComponent]
  | text s => simp [KeyValue.code, pushTextComponent_eq, textCode]

/-! ### The order of encoded tuples -/

/-- Tuples read from two rows for the same columns have the same types, component by component. -/
lemma keyTuple_related {schema : TableDefinition} {r₁ r₂ : Row} {columns : List String}
    {t₁ t₂ : List (ColumnType × KeyValue)} (h₁ : keyTuple schema r₁ columns = some t₁)
    (h₂ : keyTuple schema r₂ columns = some t₂) :
    List.Forall₂ (fun a b => ∃ d, KeyValue.Typed d a ∧ KeyValue.Typed d b)
      (t₁.map (·.2)) (t₂.map (·.2)) := by
  induction columns generalizing t₁ t₂ with
  | nil =>
    rw [keyTuple] at h₁ h₂
    cases h₁
    cases h₂
    exact .nil
  | cons column columns ih =>
    obtain ⟨d, _, k, rest, hd, _, hk, hrest, rfl⟩ :=
      (keyTuple_cons_eq_some schema r₁ column columns t₁).mp h₁
    obtain ⟨d', _, k', rest', hd', _, hk', hrest', rfl⟩ :=
      (keyTuple_cons_eq_some schema r₂ column columns t₂).mp h₂
    have hsame : d' = d := by
      rw [hd] at hd'
      cases hd'
      rfl
    subst hsame
    exact .cons ⟨d', KeyValue.typed_of_ofValue hk, KeyValue.typed_of_ofValue hk'⟩
      (ih hrest hrest')

/-- The comparison of two tuples by their first differing component. -/
def tupleCompare (t₁ t₂ : List (ColumnType × KeyValue)) : Ordering :=
  lexCompare KeyValue.compare (t₁.map (·.2)) (t₂.map (·.2))

lemma tupleCode_spelled {schema : TableDefinition} {r₁ r₂ : Row} {columns : List String}
    {t₁ t₂ : List (ColumnType × KeyValue)} (h₁ : keyTuple schema r₁ columns = some t₁)
    (h₂ : keyTuple schema r₂ columns = some t₂) :
    Spelled (tupleCompare t₁ t₂) (tupleCode t₁) (tupleCode t₂) := by
  have spelled := lexCompare_spelled KeyValue.compare KeyValue.code
    (fun a b (h : ∃ d, KeyValue.Typed d a ∧ KeyValue.Typed d b) => by
      obtain ⟨d, ha, hb⟩ := h
      exact KeyValue.spelled ha hb) (keyTuple_related h₁ h₂)
  simpa only [tupleCompare, tupleCode, List.flatMap_map] using spelled

/-- Two encodings of tuples of the same columns: they compare as the tuples do, so they are equal
exactly when the tuples are, and neither is a proper prefix of the other. -/
def OrderEmbeds (t₁ t₂ : List (ColumnType × KeyValue)) (k₁ k₂ : List UInt8) : Prop :=
  OrderedAs (tupleCompare t₁ t₂) k₁ k₂ ∧ (k₁ <+: k₂ → k₁ = k₂) ∧ (k₂ <+: k₁ → k₁ = k₂)

lemma orderEmbeds_of_tuples {schema : TableDefinition} {r₁ r₂ : Row} {columns : List String}
    {t₁ t₂ : List (ColumnType × KeyValue)} (h₁ : keyTuple schema r₁ columns = some t₁)
    (h₂ : keyTuple schema r₂ columns = some t₂) :
    OrderEmbeds t₁ t₂ (tupleCode t₁) (tupleCode t₂) := by
  have spelled := tupleCode_spelled h₁ h₂
  exact ⟨spelled.orderedAs, spelled.eq_of_prefix, fun hp => (spelled.swap.eq_of_prefix hp).symm⟩

/-- Keys are an order embedding with unique framing. The tuples are those of any two rows that
hold values of the key columns' types; reading the concatenation of an indexed tuple and a
primary key gives back exactly their components, each with its value but for the sign of a
float zero. -/
theorem encoded_keys_order_and_split (schema : TableDefinition) (definition : IndexDefinition)
    (r₁ r₂ : Row) :
    (∀ t₁ t₂ k₁ k₂, keyTuple schema r₁ schema.primaryKey = some t₁ →
        keyTuple schema r₂ schema.primaryKey = some t₂ →
        encodePrimaryKey schema r₁ = .ok k₁ → encodePrimaryKey schema r₂ = .ok k₂ →
        OrderEmbeds t₁ t₂ k₁ k₂) ∧
    (∀ t₁ t₂ k₁ k₂, keyTuple schema r₁ definition.columns = some t₁ →
        keyTuple schema r₂ definition.columns = some t₂ →
        encodeSecondaryIndexPrefix schema definition r₁ = .ok (some k₁) →
        encodeSecondaryIndexPrefix schema definition r₂ = .ok (some k₂) →
        OrderEmbeds t₁ t₂ k₁ k₂) ∧
    (∀ t₁ t₂ k₁ k₂, keyTuple schema r₁ definition.columns = some t₁ →
        keyTuple schema r₂ schema.primaryKey = some t₂ →
        encodeSecondaryIndexPrefix schema definition r₁ = .ok (some k₁) →
        encodePrimaryKey schema r₂ = .ok k₂ →
        readComponents (k₁ ++ k₂) 0 ((t₁ ++ t₂).map (·.1)) =
            .ok ((t₁ ++ t₂).map (fun c => (c.2.code, c.2.stored)), (k₁ ++ k₂).length) ∧
          indexEntryPrimaryKey (k₁ ++ k₂) (t₁.map (·.1)) = .ok k₂) := by
  refine ⟨?_, ?_, ?_⟩
  · intro t₁ t₂ k₁ k₂ h₁ h₂ e₁ e₂
    obtain ⟨_, s₁, hs₁, rfl, _⟩ := encodePrimaryKey_eq_ok.mp e₁
    obtain ⟨_, s₂, hs₂, rfl, _⟩ := encodePrimaryKey_eq_ok.mp e₂
    rw [h₁] at hs₁
    rw [h₂] at hs₂
    cases hs₁
    cases hs₂
    exact orderEmbeds_of_tuples h₁ h₂
  · intro t₁ t₂ k₁ k₂ h₁ h₂ e₁ e₂
    obtain ⟨_, s₁, hs₁, rfl, _⟩ := encodeSecondaryIndexPrefix_eq_ok.mp e₁
    obtain ⟨_, s₂, hs₂, rfl, _⟩ := encodeSecondaryIndexPrefix_eq_ok.mp e₂
    rw [h₁] at hs₁
    rw [h₂] at hs₂
    cases hs₁
    cases hs₂
    exact orderEmbeds_of_tuples h₁ h₂
  · intro t₁ t₂ k₁ k₂ h₁ h₂ e₁ e₂
    obtain ⟨_, s₁, hs₁, rfl, _⟩ := encodeSecondaryIndexPrefix_eq_ok.mp e₁
    obtain ⟨hpk, s₂, hs₂, rfl, _⟩ := encodePrimaryKey_eq_ok.mp e₂
    rw [h₁] at hs₁
    rw [h₂] at hs₂
    cases hs₁
    cases hs₂
    constructor
    · have typed : TupleTyped (t₁ ++ t₂) := by
        intro c hc
        rcases List.mem_append.mp hc with hc | hc
        · exact keyTuple_typed h₁ c hc
        · exact keyTuple_typed h₂ c hc
      simpa [tupleCode_append] using readComponents_tupleCode typed [] []
    · have hend := tupleEnd_tupleCode (keyTuple_typed h₁) [] (tupleCode t₂)
      simp only [List.nil_append, List.length_nil, Nat.zero_add] at hend
      -- The primary key names a column, and no component is empty.
      have hne : tupleCode t₂ ≠ [] := by
        cases hcols : schema.primaryKey with
        | nil => exact absurd hcols hpk
        | cons column columns =>
          rw [hcols] at h₂
          obtain ⟨d, _, k, rest, _, _, _, _, rfl⟩ :=
            (keyTuple_cons_eq_some schema r₂ column columns t₂).mp h₂
          simp [tupleCode_cons, KeyValue.code_ne_nil]
      have hlen : (tupleCode t₁).length ≠ (tupleCode t₁ ++ tupleCode t₂).length := by
        have := List.length_pos_iff.mpr hne
        simp only [List.length_append]
        omega
      simp only [indexEntryPrimaryKey, hend, bind, Except.bind, if_neg hlen, List.drop_left, pure,
        Except.pure]

/-- Rivers by number, indexed by flow and then name. -/
def rivers : TableDefinition where
  name := "rivers"
  primaryKey := ["id"]
  columns := [⟨"id", .integer, false, none⟩, ⟨"name", .text, false, none⟩,
    ⟨"flow", .float, true, none⟩]

def riversByFlow : IndexDefinition := ⟨"by_flow", "rivers", ["flow", "name"], false⟩

def river (id : Int) (name : String) (flow : F64) : Row :=
  ((Row.empty.insert "id" (.ofI64 id)).insert "name" (.string name)).insert "flow" (.ofF64 flow)

theorem encoded_keys_order_and_split_rivers :
    OrderEmbeds [(.integer, .integer 7)] [(.integer, .integer (-2))]
        [128, 0, 0, 0, 0, 0, 0, 7] [127, 255, 255, 255, 255, 255, 255, 254] ∧
      OrderEmbeds [(.float, .float ⟨F64.signBit⟩), (.text, .text "Oder")]
        [(.float, .float F64.zero), (.text, .text "Aa")]
        [128, 0, 0, 0, 0, 0, 0, 0, 79, 100, 101, 114, 0, 1]
        [128, 0, 0, 0, 0, 0, 0, 0, 65, 97, 0, 1] ∧
      indexEntryPrimaryKey
        [128, 0, 0, 0, 0, 0, 0, 0, 79, 100, 101, 114, 0, 1,
          127, 255, 255, 255, 255, 255, 255, 254] [.float, .text] =
        .ok [127, 255, 255, 255, 255, 255, 255, 254] := by
  obtain ⟨primary, indexed, split⟩ := encoded_keys_order_and_split rivers riversByFlow
    (river 7 "Oder" ⟨F64.signBit⟩) (river (-2) "Aa" F64.zero)
  exact ⟨primary _ _ _ _ rfl rfl rfl rfl, indexed _ _ _ _ rfl rfl rfl rfl,
    (split _ _ _ _ rfl rfl rfl rfl).2⟩

end TinyJoin
