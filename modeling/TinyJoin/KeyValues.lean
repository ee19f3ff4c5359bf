import TinyJoin.RecordRoundTrip

/-! Primary keys as the values of their columns: what an encoded key keeps of them, which is all but the
sign of a float zero. -/
namespace TinyJoin
open Bytes OrderCode

/-- The primary-key values of a row, in key order. -/
def keyValues (schema : TableDefinition) (row : Row) : List Value :=
  schema.primaryKey.map (fun name => (row name).getD .null)

/-- A row whose primary key has the encoding `key`, and whose key columns hold values of their
types. -/
structure Keyed (schema : TableDefinition) (row : Row) (key : List UInt8) : Prop where
  encodes : encodePrimaryKey schema row = .ok key
  values : ∀ column ∈ schema.columns, column.name ∈ schema.primaryKey →
    ∀ value, row column.name = some value → value.holds column.dataType = true

/-- The values, in key order, are those of a primary key with an encoding. -/
def Spells (schema : TableDefinition) (values : List Value) (key : List UInt8) : Prop :=
  ∃ row, Keyed schema row key ∧ values = keyValues schema row

lemma ofValue_dropZeroSign {dataType : ColumnType} {value : Value} {k : KeyValue}
    (h : KeyValue.ofValue dataType value = some k) :
    ∃ k', KeyValue.ofValue dataType value.dropZeroSign = some k' ∧ k'.code = k.code := by
  unfold Value.dropZeroSign
  split
  · next f =>
    split
    · next hzero =>
      cases dataType with
      | float =>
        have hk : k = .float f.val := by
          simpa [KeyValue.ofValue, Value.asF64, Number.asF64, Option.filter, f.property] using h.symm
        refine ⟨.float F64.zero, rfl, ?_⟩
        have hsame : sortableFloat F64.zero = sortableFloat f.val := by
          simp only [sortableFloat, hzero, ite_true, ite_self]
        rw [hk, KeyValue.code, KeyValue.code, pushFloatComponent, pushFloatComponent, hsame]
      | integer =>
        simp [KeyValue.ofValue, safeInteger, Value.asU64, Value.asI64, Number.asU64,
          Number.asI64] at h
      | boolean => simp [KeyValue.ofValue, Value.asBool] at h
      | text => simp [KeyValue.ofValue, Value.asStr] at h
      | json => cases h
    · exact ⟨k, h, rfl⟩
  · exact ⟨k, h, rfl⟩

lemma holds_dropZeroSign {dataType : ColumnType} {value : Value}
    (h : value.holds dataType = true) : value.dropZeroSign.holds dataType = true := by
  unfold Value.dropZeroSign
  split
  · split
    · cases dataType with
      | boolean => simp [Value.holds, Value.asBool] at h
      | integer =>
        simp [Value.holds, safeInteger, Value.asU64, Value.asI64, Number.asU64, Number.asI64] at h
      | float => rfl
      | text => simp [Value.holds, Value.asStr] at h
      | json => exact rfl
    · exact h
  · exact h

section Keys
variable {schema : TableDefinition} {layout : RecordLayout} {row : Row} {key : List UInt8}

lemma keyTuple_dropZeroSign {names : List String} {tuple : List (ColumnType × KeyValue)}
    (h : keyTuple schema row names = some tuple) :
    ∃ tuple', keyTuple schema (fun name => (row name).map Value.dropZeroSign) names = some tuple' ∧
      tupleCode tuple' = tupleCode tuple := by
  induction names generalizing tuple with
  | nil => exact ⟨tuple, h, rfl⟩
  | cons name names ih =>
    obtain ⟨d, v, k, rest, hd, hv, hk, hrest, rfl⟩ :=
      (keyTuple_cons_eq_some schema row name names tuple).mp h
    obtain ⟨k', hk', hcode⟩ := ofValue_dropZeroSign hk
    obtain ⟨rest', hrest', hcodes⟩ := ih hrest
    refine ⟨(d, k') :: rest', ?_, ?_⟩
    · exact (keyTuple_cons_eq_some schema _ name names _).mpr
        ⟨d, v.dropZeroSign, k', rest', hd, by rw [hv, Option.map_some], hk', hrest', rfl⟩
    · rw [tupleCode_cons, tupleCode_cons, hcode, hcodes]

/-- The sign of a float zero is no part of a key. -/
lemma Keyed.dropZeroSign (h : Keyed schema row key) :
    Keyed schema (fun name => (row name).map Value.dropZeroSign) key := by
  constructor
  · obtain ⟨hnames, tuple, htuple, hcode, hlength⟩ := encodePrimaryKey_eq_ok.mp h.encodes
    obtain ⟨tuple', htuple', hcode'⟩ := keyTuple_dropZeroSign htuple
    exact encodePrimaryKey_eq_ok.mpr ⟨hnames, tuple', htuple', by rw [hcode, hcode'], hlength⟩
  · intro column hcolumn hname value hvalue
    obtain ⟨v, hv, rfl⟩ := Option.map_eq_some_iff.mp hvalue
    exact holds_dropZeroSign (h.values column hcolumn hname v hv)

lemma keyValues_dropZeroSign :
    keyValues schema (fun name => (row name).map Value.dropZeroSign) =
      (keyValues schema row).map Value.dropZeroSign := by
  rw [keyValues, keyValues, List.map_map]
  apply List.map_congr_left
  intro name _
  cases hname : row name with
  | none => simp [hname, Value.dropZeroSign]
  | some value => simp [hname]

lemma keyTuple_values (hshape : SchemaShape schema) (h : Keyed schema row key) {names : List String}
    (hnames : ∀ name ∈ names, name ∈ schema.primaryKey) {tuple : List (ColumnType × KeyValue)}
    (htuple : keyTuple schema row names = some tuple) :
    tuple.map (fun component => component.2.stored.intoValue) =
      names.map (fun name => ((row name).getD .null).dropZeroSign) := by
  induction names generalizing tuple with
  | nil =>
    rw [keyTuple] at htuple
    cases htuple
    rfl
  | cons name names ih =>
    obtain ⟨d, v, k, rest, hd, hv, hk, hrest, rfl⟩ :=
      (keyTuple_cons_eq_some schema row name names tuple).mp htuple
    have hmem := hnames name List.mem_cons_self
    obtain ⟨column, hcolumn, rfl⟩ := hshape.key_mem name hmem
    have htype := schemaColumnType_of_mem hshape hcolumn
    rw [hd] at htype
    cases htype
    rw [List.map_cons, List.map_cons, hv, Option.getD_some,
      stored_intoValue (h.values column hcolumn hmem v hv) hk,
      ih (fun name hname => hnames name (List.mem_cons_of_mem _ hname)) hrest]

/-- What a key is decoded as: its row's values, but for the sign of a float zero. -/
lemma Keyed.readComponents_eq (hshape : SchemaShape schema) (hlaid : LaidOut schema layout)
    (h : Keyed schema row key) :
    ∃ components, readComponents key 0 layout.keyTypes = .ok (components, key.length) ∧
      components.map (fun component => component.2.intoValue) =
        (keyValues schema row).map Value.dropZeroSign := by
  obtain ⟨_, tuple, htuple, rfl, _⟩ := encodePrimaryKey_eq_ok.mp h.encodes
  have hread := readComponents_tupleCode (keyTuple_typed htuple) [] []
  simp only [List.append_nil, List.nil_append, List.length_nil, Nat.zero_add,
    keyTuple_types htuple hlaid.types] at hread
  refine ⟨_, hread, ?_⟩
  rw [List.map_map, keyValues, List.map_map]
  exact keyTuple_values hshape h (fun _ hname => hname) htuple

lemma Spells.length {values : List Value} (h : Spells schema values key) :
    values.length = schema.primaryKey.length := by
  obtain ⟨row, _, rfl⟩ := h
  exact List.length_map _

/-- Two forms of one key have the same values, but for the sign of a float zero. -/
lemma Spells.same (hshape : SchemaShape schema) {values others : List Value}
    (h : Spells schema values key) (h' : Spells schema others key) :
    values.map Value.dropZeroSign = others.map Value.dropZeroSign := by
  obtain ⟨row, hrow, rfl⟩ := h
  obtain ⟨row', hrow', rfl⟩ := h'
  obtain ⟨layout, _, hlaid⟩ := layout_new hshape
  obtain ⟨components, hread, hvalues⟩ := hrow.readComponents_eq hshape hlaid
  obtain ⟨components', hread', hvalues'⟩ := hrow'.readComponents_eq hshape hlaid
  rw [hread] at hread'
  cases hread'
  rw [← hvalues, hvalues']

end Keys

end TinyJoin
