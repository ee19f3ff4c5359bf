import TinyJoin.JsonSizes
import TinyJoin.RecordCanonical
import TinyJoin.UpdatedRows

/-! The sizes that are told from a stored entry without decoding it: what its row and its key are estimated
at, which are what the maps of them are, and bounds on the JSON text of the rows that it is rewritten
with. -/
namespace TinyJoin
open Bytes OrderCode

/-! ### Estimates of values -/

def depthError : EngineError :=
  rowWriteLimitError s!"JSON cannot nest more than {maxJsonDepth} levels"

lemma estimatedScalar_cases (depth : Nat) {bytes : Nat} (hbytes : 16 ≤ bytes) :
    (∃ n, 16 ≤ n ∧ estimatedScalar depth bytes = .ok n) ∨
      estimatedScalar depth bytes = .error depthError := by
  unfold estimatedScalar
  split
  · exact .inr rfl
  · exact .inl ⟨bytes, hbytes, rfl⟩

mutual

/-- A value is estimated at a scalar's size at least, or nests too deep. -/
lemma estimatedValueBytesAtDepth_cases (depth : Nat) : ∀ value : Value,
    (∃ n, 16 ≤ n ∧ estimatedValueBytesAtDepth depth value = .ok n) ∨
      estimatedValueBytesAtDepth depth value = .error depthError
  | .null => estimatedScalar_cases depth (by decide)
  | .bool _ => estimatedScalar_cases depth (by decide)
  | .number _ => estimatedScalar_cases depth (by decide)
  | .string s => estimatedScalar_cases depth (by omega)
  | .array values => by
    rw [estimatedValueBytesAtDepth]
    split
    · next hdepth => exact .inr (by rw [estimatedScalar, if_pos hdepth]; rfl)
    · exact (estimatedElements_cases depth 32 values).imp_left
        (fun ⟨n, hn, h⟩ => ⟨n, by omega, h⟩)
  | .object entries => by
    rw [estimatedValueBytesAtDepth]
    split
    · next hdepth => exact .inr (by rw [estimatedScalar, if_pos hdepth]; rfl)
    · exact (estimatedEntries_cases depth 32 entries).imp_left
        (fun ⟨n, hn, h⟩ => ⟨n, by omega, h⟩)

lemma estimatedElements_cases (depth bytes : Nat) : ∀ values : List Value,
    (∃ n, bytes ≤ n ∧ estimatedElements depth bytes values = .ok n) ∨
      estimatedElements depth bytes values = .error depthError
  | [] => .inl ⟨bytes, Nat.le_refl _, rfl⟩
  | value :: values => by
    rw [estimatedElements]
    rcases estimatedValueBytesAtDepth_cases (depth + 1) value with ⟨n, -, h⟩ | h
    · rw [h]
      exact (estimatedElements_cases depth (bytes + 32 + n) values).imp_left
        (fun ⟨m, hm, h⟩ => ⟨m, by omega, h⟩)
    · rw [h]
      exact .inr rfl

lemma estimatedEntries_cases (depth bytes : Nat) : ∀ entries : List (String × Value),
    (∃ n, bytes ≤ n ∧ estimatedEntries depth bytes entries = .ok n) ∨
      estimatedEntries depth bytes entries = .error depthError
  | [] => .inl ⟨bytes, Nat.le_refl _, rfl⟩
  | (key, value) :: entries => by
    rw [estimatedEntries]
    rcases estimatedValueBytesAtDepth_cases (depth + 1) value with ⟨n, -, h⟩ | h
    · rw [h]
      exact (estimatedEntries_cases depth (bytes + 64 + textLength key * 2 + n) entries).imp_left
        (fun ⟨m, hm, h⟩ => ⟨m, by omega, h⟩)
    · rw [h]
      exact .inr rfl

end

/-- A row's estimate does not depend on the order of its columns. -/
lemma estimatedRowBytesFrom_perm {entries other : List (String × Value)} (h : entries.Perm other)
    (bytes : Nat) : estimatedRowBytesFrom bytes entries = estimatedRowBytesFrom bytes other := by
  induction h generalizing bytes with
  | nil => rfl
  | cons entry _ ih =>
    rw [estimatedRowBytesFrom, estimatedRowBytesFrom]
    simp only [ih]
  | swap first second rest =>
    rw [estimatedRowBytesFrom, estimatedRowBytesFrom]
    simp only [estimatedRowBytesFrom]
    rcases estimatedValueBytesAtDepth_cases 1 first.2 with ⟨n, -, hn⟩ | hn <;>
      rcases estimatedValueBytesAtDepth_cases 1 second.2 with ⟨m, -, hm⟩ | hm <;>
        simp only [hn, hm, bind, Except.bind]
    congr 1
    omega
  | trans _ _ ih ih' => rw [ih, ih']

/-! ### What an entry decodes to -/

/-- The values of a type that take a scalar's size, and those that a text takes. -/
def Value.HeldAs (value : Value) : ColumnType → Prop
  | .boolean => value.isNull = true ∨ value.asBool.isSome = true
  | .integer => value.isNull = true ∨ value.isNumber = true
  | .float => value.isNull = true ∨ value.isNumber = true
  | .text => value.isNull = true ∨ value.asStr.isSome = true
  | .json => True

lemma heldAs_of_isNull {value : Value} (h : value.isNull = true) (dataType : ColumnType) :
    value.HeldAs dataType := by
  cases dataType with
  | json => trivial
  | _ => exact .inl h

lemma heldAs_of_validateCatalogDefault {schema : TableDefinition} {column : ColumnDefinition}
    {value : Value} (h : validateCatalogDefault schema column value = .ok ()) :
    value.HeldAs column.dataType := by
  unfold validateCatalogDefault at h
  by_cases hnull : value.isNull = true
  · exact heldAs_of_isNull hnull _
  rw [if_neg hnull] at h
  cases htype : column.dataType with
  | json => trivial
  | integer =>
    refine .inr ?_
    cases value with
    | number n => rfl
    | _ => simp [htype, safeInteger, Value.asU64, Value.asI64] at h
  | _ =>
    refine .inr ?_
    simp only [htype] at h
    split at h
    · assumption
    · cases h

/-- The defaults of a valid schema are of their columns' types. -/
lemma defaults_of_valid {schema : TableDefinition} (h : validateSchemaShape schema = .ok ()) :
    ∀ column ∈ schema.columns, ∀ value, column.default = some value →
      value.HeldAs column.dataType := by
  intro column hmem value hvalue
  exact heldAs_of_validateCatalogDefault (defaultsFit_of_valid h column hmem value hvalue)

lemma heldAs_fromValue {value : Value} {dataType : ColumnType} (h : value.HeldAs dataType) :
    (ValueRef.fromValue value dataType).intoValue.HeldAs dataType := by
  cases dataType with
  | json => trivial
  | integer =>
    cases value with
    | null => exact .inl rfl
    | number n =>
      refine .inr ?_
      cases hn : n.asI64 with
      | none => simp [ValueRef.fromValue, hn, ValueRef.intoValue, Value.isNumber]
      | some i =>
        simp only [ValueRef.fromValue, hn, Option.map_some, Option.getD_some, ValueRef.intoValue,
          Value.ofI64]
        split <;> rfl
    | _ => rcases h with h | h <;> cases h
  | float =>
    cases value with
    | null => exact .inl rfl
    | number n =>
      refine .inr ?_
      cases n with
      | float f => simp [ValueRef.fromValue, Number.isF64, Number.asF64, ValueRef.intoValue,
          Value.ofF64, f.property, Value.isNumber]
      | _ => rfl
    | _ => rcases h with h | h <;> cases h
  | _ =>
    cases value with
    | null => exact .inl rfl
    | _ => exact h

lemma heldAs_storedDefault {column : ColumnDefinition}
    (h : ∀ value, column.default = some value → value.HeldAs column.dataType) :
    (storedDefault column).intoValue.HeldAs column.dataType := by
  unfold storedDefault
  cases hdefault : column.default with
  | none => exact heldAs_of_isNull rfl _
  | some value =>
    have hheld := h value hdefault
    dsimp only
    split
    · next hfloat =>
      rw [hfloat] at hheld ⊢
      cases value with
      | number n =>
        refine .inr ?_
        simp [Value.asF64, ValueRef.intoValue, Value.ofF64, n.isFinite_asF64, Value.isNumber]
      | _ => exact heldAs_fromValue hheld
    · exact heldAs_fromValue hheld

lemma heldAs_decodeValue {json : SerdeJson} {dataType : ColumnType} {bytes : List UInt8}
    {ref : ValueRef} (h : decodeValue json dataType bytes false = .ok ref) :
    ref.intoValue.HeldAs dataType := by
  cases dataType with
  | json => trivial
  | boolean =>
    simp only [decodeValue] at h
    split_ifs at h <;> cases h <;> exact .inr rfl
  | integer =>
    simp only [decodeValue] at h
    split_ifs at h
    split at h
    · cases h
      refine .inr ?_
      simp only [ValueRef.intoValue, Value.ofI64]
      split <;> rfl
    · cases h
  | float =>
    simp only [decodeValue] at h
    split_ifs at h with hlength hfinite
    cases h
    refine .inr ?_
    simp [ValueRef.intoValue, Value.ofF64, hfinite, Value.isNumber]
  | text =>
    simp only [decodeValue] at h
    split at h
    · cases h
      exact .inr rfl
    · cases h

lemma heldAs_ofValue {dataType : ColumnType} {value : Value} {k : KeyValue}
    (h : KeyValue.ofValue dataType value = some k) : value.HeldAs dataType := by
  cases dataType with
  | json => trivial
  | _ => cases value <;> simp_all [KeyValue.ofValue, Value.HeldAs, Value.isNull, Value.asBool,
      Value.isNumber, Value.asStr, safeInteger, Value.asU64, Value.asI64, Value.asF64]

lemma estimatedValueBytesAtDepth_heldAs {value : Value} {dataType : ColumnType}
    (htext : dataType ≠ .text) (hjson : dataType ≠ .json) (h : value.HeldAs dataType) :
    estimatedValueBytesAtDepth 1 value = .ok 16 := by
  cases dataType with
  | text => exact absurd rfl htext
  | json => exact absurd rfl hjson
  | _ => cases value <;> first | rfl | (rcases h with h | h <;> cases h)

/-! ### Scalars -/

/-- What columns of scalars add to an estimate, whatever their values. -/
def scalarsFrom (bytes : Nat) (names : List String) : Nat :=
  names.foldl (fun bytes name => bytes + 96 + textLength name * 2) bytes

lemma scalarsFrom_eq (bytes : Nat) (names : List String) :
    scalarsFrom bytes names = names.foldl (fun bytes name => bytes + 96 + textLength name * 2) bytes :=
  rfl

lemma scalarsFrom_cons (bytes : Nat) (name : String) (names : List String) :
    scalarsFrom bytes (name :: names) = scalarsFrom (bytes + 96 + textLength name * 2) names := rfl

lemma scalarsFrom_add (bytes more : Nat) (names : List String) :
    scalarsFrom (bytes + more) names = scalarsFrom bytes names + more := by
  induction names generalizing bytes with
  | nil => rfl
  | cons name names ih =>
    rw [scalarsFrom_cons, scalarsFrom_cons, ← ih]
    congr 1
    omega

lemma scalarEstimate_eq (schema : TableDefinition) :
    scalarEstimate schema = scalarsFrom 32 (schema.columns.map (fun column => column.name)) := by
  rw [scalarsFrom, List.foldl_map]
  rfl

lemma estimatedRowBytesFrom_scalars {row : Row} {names : List String}
    (h : ∀ name ∈ names, ∃ v, row name = some v ∧ estimatedValueBytesAtDepth 1 v = .ok 16)
    (bytes : Nat) :
    estimatedRowBytesFrom bytes (names.filterMap (fun name =>
      (row name).map (fun value => (name, value)))) = .ok (scalarsFrom bytes names) := by
  induction names generalizing bytes with
  | nil => rfl
  | cons name names ih =>
    obtain ⟨⟨v, hv, hestimate⟩, hrest⟩ := List.forall_mem_cons.mp h
    rw [List.filterMap_cons_some (by rw [hv]; rfl), estimatedRowBytesFrom, hestimate, scalarsFrom_cons,
      ← ih hrest]
    dsimp only [bind, Except.bind]
    congr 1
    omega

section Entries
variable {json : SerdeJson} {schema : TableDefinition} {layout : RecordLayout} {row : Row}
  {key value : List UInt8} {record : StoredRecord}

/-- An entry of a valid schema that is read as a row. -/
structure Decodes (json : SerdeJson) (schema : TableDefinition) (layout : RecordLayout)
    (key value : List UInt8) (record : StoredRecord) (row : Row) : Prop where
  valid : validateSchemaShape schema = .ok ()
  laid : RecordLayout.new schema = .ok layout
  opened : StoredRecord.new schema layout key value = .ok record
  read : record.toRow json = .ok row

namespace Decodes

lemma shape (h : Decodes json schema layout key value record row) : SchemaShape schema :=
  schemaShape_of_valid h.valid

lemma laidOut (h : Decodes json schema layout key value record row) : LaidOut schema layout := by
  obtain ⟨layout', hnew, hlaid⟩ := layout_new h.shape
  rw [h.laid] at hnew
  cases hnew
  exact hlaid

lemma fields (h : Decodes json schema layout key value record row) :
    record.schema = schema ∧ record.layout = layout ∧ record.key = key := by
  obtain ⟨_, _, _, -, hs, hl, hk, -⟩ := new_eq_ok h.opened
  exact ⟨hs, hl, hk⟩

lemma key_tuple (h : Decodes json schema layout key value record row) :
    ∃ tuple, keyTuple schema row schema.primaryKey = some tuple ∧ tupleCode tuple = record.key := by
  obtain ⟨hs, hl, -⟩ := h.fields
  obtain ⟨⟨components, hread, hvalues⟩, -⟩ := decode_eq_ok h.shape h.laidOut hs hl h.read
  obtain ⟨tuple, htuple, hcode, -⟩ := keyTuple_of_components h.laidOut.types (Nat.zero_le _) hread
    hvalues
  exact ⟨tuple, htuple, by rw [hcode, slice_zero_length]⟩

/-- A key column, read as its component of the key. -/
lemma key_column (h : Decodes json schema layout key value record row) {position : Nat} {name : String}
    (hname : schema.primaryKey[position]? = some name) :
    ∃ dataType v k, schemaColumnType schema name = .ok dataType ∧ row name = some v ∧
      KeyValue.ofValue dataType v = some k ∧ record.keyComponent position = .ok k.stored := by
  obtain ⟨tuple, htuple, hcode⟩ := h.key_tuple
  obtain ⟨dataType, v, k, hat, htype, hv, hkv⟩ := keyTuple_getElem? htuple hname
  refine ⟨dataType, v, k, htype, hv, hkv, ?_⟩
  exact keyComponent_eq (keyTuple_typed htuple) hcode.symm
    (by rw [h.fields.2.1, keyTuple_types htuple h.laidOut.types]) hat

/-- A stored column, read in its place. -/
lemma stored_column (h : Decodes json schema layout key value record row) {position : Nat}
    {column : ColumnDefinition}
    (hat : (storedDefinitions schema schema.columns)[position]? = some column) :
    ∃ v, readAt json record false (column, position) = .ok v ∧ row column.name = some v := by
  obtain ⟨hs, hl, -⟩ := h.fields
  exact (decode_eq_ok h.shape h.laidOut hs hl h.read).2.1 column position hat

/-- Every column has a value, of its type. -/
lemma value_heldAs (h : Decodes json schema layout key value record row) {column : ColumnDefinition}
    (hcolumn : column ∈ schema.columns) :
    ∃ v, row column.name = some v ∧ v.HeldAs column.dataType := by
  obtain ⟨index, hindex⟩ := List.mem_iff_getElem?.mp hcolumn
  rcases @slotsFrom_getElem? schema schema.columns 0 index column hindex with
    ⟨position, -, hat⟩ | ⟨position, -, hat⟩
  · obtain ⟨dataType, v, k, htype, hv, hkv, -⟩ := h.key_column hat
    rw [schemaColumnType_of_mem h.shape hcolumn, Except.ok.injEq] at htype
    exact ⟨v, hv, htype ▸ heldAs_ofValue hkv⟩
  · obtain ⟨v, hread, hv⟩ := h.stored_column hat
    refine ⟨v, hv, ?_⟩
    unfold readAt at hread
    split at hread
    · cases hread
      exact heldAs_storedDefault (defaults_of_valid h.valid column hcolumn)
    · obtain ⟨cell, -, hread⟩ := Except.bind_eq_ok.mp hread
      cases cell with
      | none =>
        cases hread
        exact heldAs_of_isNull rfl _
      | some bytes =>
        obtain ⟨ref, href, hread⟩ := Except.bind_eq_ok.mp hread
        cases hread
        exact heldAs_decodeValue href

/-! ### What an entry is estimated at -/

lemma ownedBytes_eq (ref : ValueRef) : ref.ownedBytes (estimatedValueBytesAtDepth 1) =
    estimatedValueBytesAtDepth 1 ref.intoValue := by
  cases ref with
  | integer i =>
    simp only [ValueRef.intoValue, Value.ofI64]
    split <;> rfl
  | float f =>
    simp only [ValueRef.intoValue, Value.ofF64]
    split <;> rfl
  | _ => rfl

/-- A column's place among its table's. -/
lemma slot (h : Decodes json schema layout key value record row) {index : Nat}
    {column : ColumnDefinition} (hcolumn : schema.columns[index]? = some column) :
    (∃ position, record.layout.slots[index]? = some (.key position) ∧
        schema.primaryKey[position]? = some column.name) ∨
      ∃ position, record.layout.slots[index]? = some (.stored position) ∧
        (storedDefinitions schema schema.columns)[position]? = some column := by
  rw [h.fields.2.1, h.laidOut.slots]
  have hslot := @slotsFrom_getElem? schema schema.columns 0 index column hcolumn
  simpa only [Nat.zero_add] using hslot

/-- The length that is read of a TEXT column is its text's. -/
lemma textLen_eq (h : Decodes json schema layout key value record row) {index : Nat}
    {column : ColumnDefinition} (hcolumn : schema.columns[index]? = some column)
    (htype : column.dataType = .text) {v : Value} (hv : row column.name = some v) :
    record.textLen json index = .ok (v.asStr.map textLength) := by
  unfold StoredRecord.textLen
  rcases h.slot hcolumn with ⟨position, hslot, hname⟩ | ⟨position, hslot, hat⟩
  · obtain ⟨dataType, v', k, htype', hv', hkv, hread⟩ := h.key_column hname
    rw [schemaColumnType_of_mem h.shape (List.mem_of_getElem? hcolumn), htype, Except.ok.injEq]
      at htype'
    rw [hv, Option.some.injEq] at hv'
    subst hv' htype'
    cases v <;> cases hkv
    simp only [hslot, StoredRecord.column, hread, KeyValue.stored, bind, Except.bind, pure,
      Except.pure, Value.asStr, Option.map_some]
  · obtain ⟨v', hread, hv'⟩ := h.stored_column hat
    rw [hv, Option.some.injEq] at hv'
    subst hv'
    unfold readAt at hread
    simp only [hslot]
    by_cases hpast : position ≥ record.count
    · rw [if_pos hpast, Except.ok.injEq] at hread
      rw [if_neg (by omega), StoredRecord.column, hslot, h.fields.1, hcolumn]
      dsimp only
      rw [StoredRecord.storedColumn, if_pos hpast, ← hread]
      unfold storedDefault
      cases column.default with
      | none => rfl
      | some value =>
        rw [htype]
        cases value <;> rfl
    · rw [if_neg hpast] at hread
      obtain ⟨cell, hcell, hread⟩ := Except.bind_eq_ok.mp hread
      rw [if_pos (by omega), hcell]
      cases cell with
      | none =>
        cases hread
        rfl
      | some bytes =>
        obtain ⟨ref, href, hread⟩ := Except.bind_eq_ok.mp hread
        cases hread
        rw [htype] at href
        simp only [decodeValue] at href
        split at href
        · next s hs =>
          cases href
          simp only [bind, Except.bind, pure, Except.pure, Option.map_some, ValueRef.intoValue,
            Value.asStr, textLength, textBytes_of_fromUtf8 hs]
        · cases href

/-- A sized column is estimated as its value is. -/
lemma sizedColumnBytes_eq (h : Decodes json schema layout key value record row) {index : Nat}
    {column : ColumnDefinition} (hcolumn : schema.columns[index]? = some column)
    (hsized : column.dataType = .text ∨ column.dataType = .json) {v : Value}
    (hv : row column.name = some v) :
    sizedColumnBytes json record index = estimatedValueBytesAtDepth 1 v := by
  unfold sizedColumnBytes
  rw [h.fields.1, hcolumn, Option.map_some]
  rcases hsized with htype | htype
  · rw [if_pos (by rw [htype]), h.textLen_eq hcolumn htype hv]
    obtain ⟨v', hv', hheld⟩ := h.value_heldAs (List.mem_of_getElem? hcolumn)
    rw [hv, Option.some.injEq] at hv'
    subst hv'
    rw [htype] at hheld
    cases v <;> first | rfl | (rcases hheld with hheld | hheld <;> cases hheld)
  · rw [if_neg (by rw [htype]; decide)]
    rcases h.slot hcolumn with ⟨position, -, hname⟩ | ⟨position, hslot, hat⟩
    · exact absurd htype (h.shape.key_column column (List.mem_of_getElem? hcolumn)
        (List.mem_of_getElem? hname)).2
    · obtain ⟨v', hread, hv'⟩ := h.stored_column hat
      rw [hv, Option.some.injEq] at hv'
      subst hv'
      obtain ⟨ref, href, rfl⟩ := storedColumn_of_readAt hread
      simp only [StoredRecord.column, hslot, h.fields.1, hcolumn, href, bind, Except.bind]
      exact ownedBytes_eq ref

/-- A column that is not sized is estimated as a scalar. -/
lemma scalar_estimate (h : Decodes json schema layout key value record row) {column : ColumnDefinition}
    (hcolumn : column ∈ schema.columns) (htext : column.dataType ≠ .text)
    (hjson : column.dataType ≠ .json) {v : Value} (hv : row column.name = some v) :
    estimatedValueBytesAtDepth 1 v = .ok 16 := by
  obtain ⟨v', hv', hheld⟩ := h.value_heldAs hcolumn
  rw [hv, Option.some.injEq] at hv'
  subst hv'
  exact estimatedValueBytesAtDepth_heldAs htext hjson hheld

/-- A sized column takes a scalar's estimate at least, so that what it takes beyond one is told without
underflow. -/
lemma sizedColumnBytes_ge (h : Decodes json schema layout key value record row) {index n : Nat}
    (hindex : index ∈ sizedColumns schema) (hok : sizedColumnBytes json record index = .ok n) :
    16 ≤ n := by
  obtain ⟨⟨column, index⟩, hmem, rfl⟩ := List.mem_map.mp hindex
  obtain ⟨hmem, hsized⟩ := List.mem_filter.mp hmem
  have hcolumn := List.mk_mem_zipIdx_iff_getElem?.mp hmem
  obtain ⟨v, hv, -⟩ := h.value_heldAs (List.mem_of_getElem? hcolumn)
  rw [h.sizedColumnBytes_eq hcolumn (by simpa using hsized) hv] at hok
  rcases estimatedValueBytesAtDepth_cases 1 v with ⟨m, hm, hestimate⟩ | hestimate
  · rw [hok, Except.ok.injEq] at hestimate
    omega
  · rw [hok] at hestimate
    cases hestimate

/-- The loop over the sized columns adds up what the loop over a row's columns does. -/
lemma estimatedSizedColumns_eq (h : Decodes json schema layout key value record row)
    {columns : List ColumnDefinition} {start : Nat}
    (hat : ∀ i column, columns[i]? = some column → schema.columns[start + i]? = some column)
    (bytes : Nat) :
    estimatedSizedColumns json record (scalarsFrom bytes (columns.map (fun column => column.name)))
        (((columns.zipIdx start).filter (fun column =>
          decide (column.1.dataType = .text) || decide (column.1.dataType = .json))).map Prod.snd) =
      estimatedRowBytesFrom bytes (columns.filterMap (fun column =>
        (row column.name).map (fun value => (column.name, value)))) := by
  induction columns generalizing start bytes with
  | nil => rfl
  | cons column columns ih =>
    have hcolumn : schema.columns[start]? = some column := hat 0 column rfl
    have hrest := @ih (start + 1) (fun i other hi => by
      rw [show start + 1 + i = start + (i + 1) by omega]
      exact hat (i + 1) other hi)
    obtain ⟨v, hv, -⟩ := h.value_heldAs (List.mem_of_getElem? hcolumn)
    rw [List.filterMap_cons_some (by rw [hv]; rfl), estimatedRowBytesFrom, List.zipIdx_cons,
      List.filter_cons, List.map_cons, scalarsFrom_cons]
    by_cases hsized : column.dataType = .text ∨ column.dataType = .json
    · rw [if_pos (by simpa using hsized), List.map_cons, estimatedSizedColumns,
        h.sizedColumnBytes_eq hcolumn hsized hv]
      rcases estimatedValueBytesAtDepth_cases 1 v with ⟨n, hn, hestimate⟩ | hestimate
      · simp only [hestimate, bind, Except.bind]
        rw [← hrest, ← scalarsFrom_add]
        congr 2
        omega
      · simp only [hestimate, bind, Except.bind]
    · rw [if_neg (by simpa using hsized)]
      rw [not_or] at hsized
      simp only [h.scalar_estimate (List.mem_of_getElem? hcolumn) hsized.1 hsized.2 hv, bind,
        Except.bind]
      rw [← hrest]
      congr 2
      omega

/-- A stored row is estimated as the row that it decodes to. -/
lemma estimatedRecordBytes_eq (h : Decodes json schema layout key value record row)
    {entries : List (String × Value)} (hentries : entries.Perm (rowMap schema row).entries) :
    estimatedRecordBytes json record = estimatedRowBytes ⟨entries⟩ := by
  rw [estimatedRowBytes, estimatedRowBytesFrom_perm hentries, estimatedRecordBytes, h.fields.1,
    scalarEstimate_eq]
  exact h.estimatedSizedColumns_eq (fun i column hi => by rwa [Nat.zero_add]) 32

/-- A stored row's key is estimated as the map of the row's key columns. -/
lemma estimatedKeyBytes_eq (h : Decodes json schema layout key value record row)
    {entries : List (String × Value)} (hentries : entries.Perm (keyRowMap schema row).entries) :
    estimatedKeyBytes record = estimatedRowBytes ⟨entries⟩ := by
  obtain ⟨hs, hl, hk⟩ := h.fields
  rw [estimatedRowBytes, estimatedRowBytesFrom_perm hentries, estimatedKeyBytes, hs, hl, hk,
    RecordLayout.keyEstimates]
  by_cases hsized : (layout.keyTypes.any (fun dataType => dataType = .text || dataType = .json)) = true
  · -- A key with text is measured as the map that it decodes to.
    rw [if_pos hsized]
    obtain ⟨⟨components, hread, hvalues⟩, -⟩ := decode_eq_ok h.shape h.laidOut hs hl h.read
    obtain ⟨keyRow, hkeyRow, -⟩ := Except.bind_eq_ok.mp h.read
    rw [hs, hl, hk] at hkeyRow
    obtain ⟨components', hread', hvalues'⟩ := keyRow_eq_ok h.shape h.laidOut hkeyRow
    rw [hk, hread'] at hread
    cases hread
    simp only [hkeyRow, bind, Except.bind]
    have hsame : ∀ name ∈ schema.primaryKey, keyRow name = row name := by
      intro name hname
      obtain ⟨position, hposition⟩ := List.mem_iff_getElem?.mp hname
      obtain ⟨dataType, htype⟩ := forall₂_getElem? h.laidOut.types hposition
      have hzip : (schema.primaryKey.zip layout.keyTypes)[position]? = some (name, dataType) := by
        rw [List.getElem?_zip_eq_some]
        exact ⟨hposition, htype.1⟩
      obtain ⟨component, hcomponent, hfirst⟩ := forall₂_getElem? hvalues' hzip
      obtain ⟨component', hcomponent', hsecond⟩ := forall₂_getElem? hvalues hzip
      rw [hcomponent, Option.some.injEq] at hcomponent'
      exact hfirst.trans (hcomponent' ▸ hsecond.symm)
    congr 1
    simp only [keyRowMap]
    congr 1
    exact List.filterMap_congr (fun name hname => by rw [hsame name hname])
  · rw [if_neg hsized, ← scalarsFrom_eq]
    refine (estimatedRowBytesFrom_scalars (fun name hname => ?_) 32).symm
    obtain ⟨position, hposition⟩ := List.mem_iff_getElem?.mp hname
    obtain ⟨dataType, v, k, htype, hv, hkv, -⟩ := h.key_column hposition
    obtain ⟨dataType', htypes, htype'⟩ := forall₂_getElem? h.laidOut.types hposition
    rw [htype, Except.ok.injEq] at htype'
    subst htype'
    have hscalar : ¬ (dataType = .text ∨ dataType = .json) := by
      intro hbad
      exact hsized (List.any_eq_true.mpr ⟨dataType, List.mem_of_getElem? htypes, by simpa using hbad⟩)
    rw [not_or] at hscalar
    exact ⟨v, hv, estimatedValueBytesAtDepth_heldAs hscalar.1 hscalar.2 (heldAs_ofValue hkv)⟩

end Decodes
end Entries
end TinyJoin
