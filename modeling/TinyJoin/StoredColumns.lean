import TinyJoin.FilterMeaning
import TinyJoin.RecordCanonical
import TinyJoin.VisitedRows

/-! A record's columns, read one by one, are those of the row it decodes to, whatever wrote it. -/
namespace TinyJoin
open Bytes Query

variable {json : SerdeJson} {schema : TableDefinition} {layout : RecordLayout} {row : Row}
  {record : StoredRecord} {column : ColumnDefinition} {ref : ValueRef}

/-! ### Defaults -/

/-- A default that is not NULL is of its column's type. -/
lemma DefaultsFit.typed (h : DefaultsFit schema) (hmem : column ∈ schema.columns) {value : Value}
    (hvalue : column.default = some value) (hnull : value.isNull = false) :
    (column.dataType = .integer → ∃ i, safeInteger value = some i) ∧
      (column.dataType = .text → ∃ text, value = .string text) := by
  have hfits := h column hmem value hvalue
  rw [validateCatalogDefault, hnull, if_neg Bool.false_ne_true] at hfits
  constructor
  · intro htype
    rw [htype] at hfits
    dsimp only at hfits
    split_ifs at hfits with hsafe
    exact Option.isSome_iff_exists.mp hsafe
  · intro htype
    rw [htype] at hfits
    dsimp only at hfits
    split_ifs at hfits with htext
    cases value with
    | string text => exact ⟨text, rfl⟩
    | _ => cases htext

/-! ### Values -/

/-- What a column that its record omits is read as. -/
lemma storedDefault_cases (h : DefaultsFit schema) (hmem : column ∈ schema.columns) :
    (column.default.all Value.isNull = true ∧ storedDefault column = .null) ∨
      ∃ value, column.default = some value ∧ value.isNull = false ∧
        (storedDefault column).isNull = false ∧ Held (storedDefault column) ∧
        (column.dataType = .integer → ∃ i, value.asI64 = some i ∧ storedDefault column = .integer i) ∧
        (column.dataType = .text → ∃ text, value = .string text ∧ storedDefault column = .text text) := by
  rw [storedDefault]
  cases hdefault : column.default with
  | none => exact .inl ⟨rfl, rfl⟩
  | some value =>
    cases hnull : value.isNull with
    | true =>
      left
      rw [isNull_eq_true.mp hnull]
      refine ⟨rfl, ?_⟩
      dsimp only
      split
      · rfl
      · exact fromValue_null _
    | false =>
      right
      obtain ⟨hinteger, htext⟩ := h.typed hmem hdefault hnull
      refine ⟨value, rfl, hnull, ?_⟩
      dsimp only
      split
      · next hfloat =>
        rw [hfloat]
        refine ⟨?_, ?_, fun htype => (by cases htype), fun htype => (by cases htype)⟩
        · cases value with
          | null => cases hnull
          | _ => rfl
        · cases value with
          | number n => exact n.isFinite_asF64
          | _ => trivial
      · refine ⟨by rw [isNull_fromValue, hnull], ?_, ?_, ?_⟩
        · cases htype : column.dataType with
          | integer =>
            obtain ⟨i, hi⟩ := hinteger htype
            rw [fromValue_integer hi]
            exact safeInteger_natAbs hi
          | float => exact absurd htype ‹_›
          | _ => cases value <;> trivial
        · intro htype
          obtain ⟨i, hi⟩ := hinteger htype
          obtain ⟨n, rfl, -, hn, -⟩ := number_of_safeInteger hi
          rw [htype, fromValue_integer hi]
          exact ⟨i, hn, rfl⟩
        · intro htype
          obtain ⟨text, rfl⟩ := htext htype
          rw [htype]
          exact ⟨text, rfl, rfl⟩

lemma held_storedDefault (h : DefaultsFit schema) (hmem : column ∈ schema.columns) :
    Held (storedDefault column) := by
  rcases storedDefault_cases h hmem with ⟨-, hnull⟩ | ⟨_, -, -, -, hheld, -⟩
  · rw [hnull]
    trivial
  · exact hheld

lemma held_of_decodeValue {dataType : ColumnType} {bytes : List UInt8}
    (h : decodeValue json dataType bytes false = .ok ref) : Held ref := by
  cases dataType with
  | boolean =>
    simp only [decodeValue] at h
    split_ifs at h
    · cases h
      trivial
    · cases h
      trivial
  | integer =>
    simp only [decodeValue] at h
    split_ifs at h
    split at h
    · next i hi =>
      simp only [Bool.not_false, Bool.true_or, if_true, Except.ok.injEq] at h
      subst h
      exact integerValue_natAbs hi
    · cases h
  | float =>
    simp only [decodeValue] at h
    split_ifs at h with hlength hfinite
    cases h
    exact hfinite
  | text =>
    simp only [decodeValue] at h
    split at h
    · cases h
      trivial
    · cases h
  | json =>
    simp only [decodeValue, Bool.false_eq_true, if_false] at h
    split at h
    · cases h
      trivial
    · cases h

/-- What a stored column is read from: its default, where the record omits it, or its bytes. -/
lemma storedColumn_eq_ok {position : Nat} (h : record.storedColumn json position column = .ok ref) :
    (record.count ≤ position ∧ ref = storedDefault column) ∨
      position < record.count ∧
        ((record.storedBytes position = .ok none ∧ ref = .null) ∨
          ∃ bytes, record.storedBytes position = .ok (some bytes) ∧ Held ref ∧
            (column.dataType = .integer → ∃ i, integerValue bytes = some i ∧ ref = .integer i) ∧
            (column.dataType = .text → ∃ text, fromUtf8 bytes = some text ∧ ref = .text text)) := by
  unfold StoredRecord.storedColumn at h
  split_ifs at h with hpast
  · exact .inl ⟨hpast, (Except.ok.inj h).symm⟩
  · right
    refine ⟨Nat.lt_of_not_ge hpast, ?_⟩
    obtain ⟨cell, hcell, h⟩ := Except.bind_eq_ok.mp h
    cases cell with
    | none => exact .inl ⟨hcell, (Except.ok.inj h).symm⟩
    | some bytes =>
      right
      refine ⟨bytes, hcell, ?_⟩
      dsimp only at h
      split at h
      · next i htype hi =>
        cases h
        exact ⟨integerValue_natAbs hi, fun _ => ⟨i, hi, rfl⟩, fun htext => (by cases htype.symm.trans htext)⟩
      · next hnot =>
        refine ⟨held_of_decodeValue h, ?_, ?_⟩
        · intro htype
          rw [htype] at h
          simp only [decodeValue] at h
          split_ifs at h
          split at h
          · next i hi => exact absurd hi (hnot i htype)
          · cases h
        · intro htype
          rw [htype] at h
          simp only [decodeValue] at h
          split at h
          · next text htext =>
            cases h
            exact ⟨text, htext, rfl⟩
          · cases h

/-! ### Stored entries -/

/-- An entry as a table stores a row. -/
structure StoredEntry (json : SerdeJson) (schema : TableDefinition) (row : Row)
    (key value : List UInt8) : Prop where
  normal : Normalized schema row
  roundTrips : JsonRoundTrips json schema row
  key : encodePrimaryKey schema row = .ok key
  value : encodeRow json schema row = .ok value

/-- A value is of a type that is tested from its bytes as such, or NULL. -/
def TypedAs (dataType : ColumnType) (ref : ValueRef) : Prop :=
  (dataType = .integer → ref = .null ∨ ∃ i, ref = .integer i) ∧
    (dataType = .text → ref = .null ∨ ∃ text, ref = .text text)

/-- An opened record whose columns are those of a row. -/
structure Readable (json : SerdeJson) (schema : TableDefinition) (layout : RecordLayout)
    (record : StoredRecord) (row : Row) : Prop where
  ofSchema : record.schema = schema
  ofLayout : record.layout = layout
  reads : ReadsRow schema (record.column json) row
  typed : ∀ index column ref, schema.columns[index]? = some column →
    record.column json index = .ok ref → TypedAs column.dataType ref
  nulls : ∀ position column ref bytes,
    (storedDefinitions schema schema.columns)[position]? = some column →
      position < record.count → record.storedBytes position = .ok (some bytes) →
      record.storedColumn json position column = .ok ref → ref.isNull = false

lemma typedAs_stored {dataType : ColumnType} {k : KeyValue} (h : KeyValue.Typed dataType k) :
    TypedAs dataType k.stored ∧ Held k.stored := by
  cases dataType <;> cases k <;> simp only [KeyValue.Typed] at h
  · exact ⟨⟨fun htype => (by cases htype), fun htype => (by cases htype)⟩, trivial⟩
  · exact ⟨⟨fun _ => .inr ⟨_, rfl⟩, fun htype => (by cases htype)⟩, h⟩
  · refine ⟨⟨fun htype => (by cases htype), fun htype => (by cases htype)⟩, ?_⟩
    rw [KeyValue.stored, Held]
    split
    · decide
    · exact h
  · exact ⟨⟨fun htype => (by cases htype), fun _ => .inr ⟨_, rfl⟩⟩, trivial⟩

lemma typedAs_storedColumn (hdefaults : DefaultsFit schema) (hmem : column ∈ schema.columns)
    {position : Nat} (h : record.storedColumn json position column = .ok ref) :
    TypedAs column.dataType ref ∧ Held ref := by
  rcases storedColumn_eq_ok h with ⟨-, rfl⟩ | ⟨-, ⟨-, rfl⟩ | ⟨bytes, -, hheld, hinteger, htext⟩⟩
  · refine ⟨?_, held_storedDefault hdefaults hmem⟩
    rcases storedDefault_cases hdefaults hmem with ⟨-, hnull⟩ | ⟨_, -, -, -, -, hinteger, htext⟩
    · exact ⟨fun _ => .inl hnull, fun _ => .inl hnull⟩
    · refine ⟨fun htype => .inr ?_, fun htype => .inr ?_⟩
      · obtain ⟨i, -, hi⟩ := hinteger htype
        exact ⟨i, hi⟩
      · obtain ⟨text, -, ht⟩ := htext htype
        exact ⟨text, ht⟩
  · exact ⟨⟨fun _ => .inl rfl, fun _ => .inl rfl⟩, trivial⟩
  · refine ⟨⟨fun htype => .inr ?_, fun htype => .inr ?_⟩, hheld⟩
    · obtain ⟨i, -, hi⟩ := hinteger htype
      exact ⟨i, hi⟩
    · obtain ⟨text, -, ht⟩ := htext htype
      exact ⟨text, ht⟩

/-- A column of a stored entry, in its key or its record. -/
lemma column_of_slot (hlaid : LaidOut schema layout) (hs : record.schema = schema)
    (hl : record.layout = layout) {index : Nat} (hcolumn : schema.columns[index]? = some column) :
    (∃ position, schema.primaryKey[position]? = some column.name ∧
        layout.slots[index]? = some (.key position) ∧
        record.column json index = record.keyComponent position) ∨
      ∃ position, (storedDefinitions schema schema.columns)[position]? = some column ∧
        layout.slots[index]? = some (.stored position) ∧
        record.column json index = record.storedColumn json position column := by
  rcases @slotsFrom_getElem? schema schema.columns 0 index column hcolumn with
    ⟨position, hslot, hat⟩ | ⟨position, hslot, hat⟩
  · refine .inl ⟨position, hat, by rw [hlaid.slots, hslot], ?_⟩
    simp only [StoredRecord.column, hs, hl, hlaid.slots, hslot]
  · rw [Nat.zero_add] at hslot
    refine .inr ⟨position, hat, by rw [hlaid.slots, hslot], ?_⟩
    simp only [StoredRecord.column, hs, hl, hlaid.slots, hslot, hcolumn]

/-- A stored entry is read as the row it stores, but for the sign of a float zero in its key. -/
lemma readable_of_stored {key value : List UInt8} (hvalid : validateSchemaShape schema = .ok ())
    (hlaid : LaidOut schema layout) (hentry : StoredEntry json schema row key value)
    (hnew : StoredRecord.new schema layout key value = .ok record) :
    Readable json schema layout record (entryRow schema row) := by
  have hshape := schemaShape_of_valid hvalid
  have hdefaults := defaultsFit_of_valid hvalid
  obtain ⟨record', columns, cells, kept, hnew', hwritten, hs, hl, hk, -⟩ :=
    written_of_encodeRow key hlaid hentry.value
  rw [hnew'] at hnew
  cases hnew
  obtain ⟨-, tuple, htuple, hcode, -⟩ := encodePrimaryKey_eq_ok.mp hentry.key
  -- A column of the key is a component of it, and any other is stored.
  have hkeyed : ∀ position name, schema.primaryKey[position]? = some name →
      ∃ dataType k, schemaColumnType schema name = .ok dataType ∧ KeyValue.Typed dataType k ∧
        record.keyComponent position = .ok k.stored := by
    intro position name hat
    obtain ⟨dataType, v, k, hcomponent, htype, -, hkv⟩ := keyTuple_getElem? htuple hat
    exact ⟨dataType, k, htype, KeyValue.typed_of_ofValue hkv,
      keyComponent_eq (keyTuple_typed htuple) (hk.trans hcode)
        (by rw [hl, keyTuple_types htuple hlaid.types]) hcomponent⟩
  have hboth : ∀ index column ref, schema.columns[index]? = some column →
      record.column json index = .ok ref → TypedAs column.dataType ref ∧ Held ref := by
    intro index column ref hcolumn href
    have hmem := List.mem_of_getElem? hcolumn
    rcases column_of_slot hlaid hs hl hcolumn with ⟨position, hat, -, heq⟩ | ⟨position, -, -, heq⟩
    · obtain ⟨dataType, k, htype, htyped, hread⟩ := hkeyed position column.name hat
      rw [schemaColumnType_of_mem hshape hmem] at htype
      cases htype
      rw [heq, hread] at href
      cases href
      exact typedAs_stored htyped
    · rw [heq] at href
      exact typedAs_storedColumn hdefaults hmem href
  refine ⟨hs, hl, ?_, fun index column ref hcolumn href => (hboth index column ref hcolumn href).1, ?_⟩
  · intro index column hcolumn
    obtain ⟨ref, href, hrow⟩ := hwritten.column_eq hshape hlaid hentry.normal hentry.roundTrips hentry.key
      hs hl hk hcolumn
    exact ⟨ref, href, (hboth index column ref hcolumn href).2, hrow⟩
  · intro position column ref bytes hat hlt hbytes href
    have hmem := (mem_of_storedDefinitions (List.mem_of_getElem? hat)).1
    obtain ⟨stored, hstored, value, hvalue, rfl⟩ := forall₂_getElem? hwritten.values hat
    obtain ⟨cell, hcell, hencode⟩ := forall₂_getElem? hwritten.trims.encodes hstored
    have hframe := hwritten.frames.cell position cell (by
      rw [List.getElem?_take, if_pos (by rw [← hwritten.count_eq]; exact hlt)]
      exact hcell)
    rw [hbytes] at hframe
    have hsome : value.isNull = false := by
      have hnull := encodeCell_isNull hencode
      rw [← Except.ok.inj hframe] at hnull
      exact hnull
    obtain ⟨value', hvalue', hread⟩ := hwritten.readAt_eq hentry.normal hentry.roundTrips false hat
    obtain ⟨ref', href', hback⟩ := storedColumn_of_readAt hread
    rw [href] at href'
    cases href'
    rw [hvalue] at hvalue'
    cases hvalue'
    rw [isNull_intoValue (typedAs_storedColumn hdefaults hmem href).2, hback, hsome]

end TinyJoin
