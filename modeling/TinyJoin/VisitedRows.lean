import TinyJoin.UpdatedRows

/-! Rows as a visit presents them to a query: whole, or as the entries of an index that holds every column
the query reads. Each form shows a column's value, typed or as JSON, and an index's entry shows it but
for the sign of a float zero. -/
namespace TinyJoin

/-- Where a secondary index's entries hold their row's columns: the indexed columns' components, and
then the primary key's. -/
structure IndexEntryLayout where
  /-- Each schema column's component, in key order, if an entry holds the column. -/
  slots : List (Option Nat)
  types : List ColumnType

namespace IndexEntryLayout

/-- The loop over an entry's columns. A column's first component is the one that is read. -/
def place (schema : TableDefinition) :
    IndexEntryLayout → List String → Result IndexEntryLayout
  | layout, [] => .ok layout
  | layout, name :: names =>
    match schema.columns.findIdx? (fun column => column.name == name) with
    | none => .error (.columnNotFound name schema.name)
    | some position =>
      let slot := ((layout.slots[position]?).join).getD layout.types.length
      let dataType := ((schema.columns[position]?).map (fun column => column.dataType)).getD .json
      place schema ⟨layout.slots.set position (some slot), layout.types ++ [dataType]⟩ names

def new (schema : TableDefinition) (definition : IndexDefinition) : Result IndexEntryLayout :=
  place schema ⟨List.replicate schema.columns.length none, []⟩ (definition.columns ++ schema.primaryKey)

/-- Whether an entry holds each column at `positions`. -/
def covers (layout : IndexEntryLayout) (positions : List Nat) : Bool :=
  positions.all (fun position => ((layout.slots[position]?).join).isSome)

end IndexEntryLayout

/-- A secondary-index entry, read as the columns its key holds. -/
structure IndexEntry where
  key : List UInt8
  layout : IndexEntryLayout

def IndexEntry.column (entry : IndexEntry) (index : Nat) : Result ValueRef :=
  match (entry.layout.slots[index]?).join with
  | none => .error (codecArgument s!"An index entry does not hold column {index}")
  | some component => do
    let start ← tupleEnd entry.key 0 (entry.layout.types.take component)
    let dataType := entry.layout.types.getD component .json
    let stop ← componentEnd entry.key start dataType
    decodeComponent (Bytes.slice entry.key start stop) dataType

/-- A row as a visitor of a query reads it. -/
inductive VisitedRow where
  | whole (row : RowRef)
  | indexed (entry : IndexEntry)

/-- The value of the column at `index`, in schema order. -/
def VisitedRow.get (json : SerdeJson) (schema : TableDefinition) (row : VisitedRow) (index : Nat) :
    Result ValueRef :=
  match row with
  | .whole (.map row) =>
    match schema.columns[index]? with
    | none => .error (.invalidQuery s!"Table `{schema.name}` has no column {index}")
    | some column =>
      match row.row column.name with
      | some value => .ok (.fromValue value column.dataType)
      | none => .error (.columnNotFound column.name schema.name)
  | .whole (.record record) => record.column json index
  | .indexed entry => entry.column index

/-! ### Values in their forms -/

/-- A reference shows a value of a column where it is that value, typed or as JSON, but for the sign of
a float zero. -/
def ValueRef.Shows (dataType : ColumnType) (value : Value) (ref : ValueRef) : Prop :=
  ∃ shown : Value, shown.dropZeroSign = value.dropZeroSign ∧
    (ref = .fromValue shown dataType ∨ ref = .json shown)

/-- A reference that holds a value of its column's type as such, or as JSON. -/
def ValueRef.Formed (dataType : ColumnType) (ref : ValueRef) : Prop :=
  ref = .fromValue ref.intoValue dataType ∨ ref = .json ref.intoValue

lemma ValueRef.Formed.shows {dataType : ColumnType} {value : Value} {ref : ValueRef}
    (h : ref.Formed dataType) (hvalue : ref.intoValue.dropZeroSign = value.dropZeroSign) :
    ref.Shows dataType value := ⟨ref.intoValue, hvalue, h⟩

lemma formed_integer {i : Int} (hlower : -(2 ^ 63) ≤ i) (hupper : i < 2 ^ 63) :
    (ValueRef.integer i).Formed .integer := by
  left
  simp only [ValueRef.intoValue, Value.ofI64]
  split
  · rfl
  · have hnat : (UInt64.ofNat i.toNat).toNat = i.toNat := UInt64.toNat_ofNat_of_lt' (by
      rw [UInt64.size]
      omega)
    have hlt : i.toNat < 2 ^ 63 := by omega
    have hback : ((i.toNat : Nat) : Int) = i := by omega
    simp only [ValueRef.fromValue, Number.asI64, hnat, if_pos hlt, Option.map_some, Option.getD_some,
      hback]

lemma formed_safeInteger {i : Int} (h : i.natAbs ≤ maxSafeInteger) :
    (ValueRef.integer i).Formed .integer := by
  have hmax : maxSafeInteger < 2 ^ 63 := by decide
  exact formed_integer (by omega) (by omega)

lemma formed_float {f : F64} (h : f.isFinite = true) : (ValueRef.float f).Formed .float := by
  left
  simp [ValueRef.intoValue, Value.ofF64, h, ValueRef.fromValue, Number.isF64, Number.asF64]

lemma formed_json (dataType : ColumnType) (value : Value) : (ValueRef.json value).Formed dataType :=
  .inr rfl

lemma formed_null (dataType : ColumnType) : (ValueRef.null).Formed dataType := by
  left
  cases dataType <;> rfl

lemma formed_fromValue (value : Value) (dataType : ColumnType) :
    (ValueRef.fromValue value dataType).Formed dataType := by
  cases value with
  | null => cases dataType <;> exact formed_null _
  | number n =>
    cases dataType with
    | integer =>
      cases n with
      | posInt m =>
        simp only [ValueRef.fromValue, Number.asI64]
        split
        · exact formed_integer (by omega) (by omega)
        · exact formed_json _ _
      | negInt i => exact formed_integer i.property.1 (by have := i.property.2; omega)
      | float f => exact formed_json _ _
    | float =>
      cases n with
      | float f => exact formed_float f.property
      | _ => exact formed_json _ _
    | _ => exact formed_json _ _
  | _ => cases dataType <;> exact .inl rfl

lemma formed_stored {dataType : ColumnType} {k : KeyValue} (h : KeyValue.Typed dataType k) :
    k.stored.Formed dataType := by
  cases dataType <;> cases k <;> simp only [KeyValue.Typed] at h
  · exact .inl rfl
  · exact formed_safeInteger h
  · rename_i f
    apply formed_float
    split
    · decide
    · exact h
  · exact .inl rfl

lemma integerValue_natAbs {bytes : List UInt8} {i : Int} (h : integerValue bytes = some i) :
    i.natAbs ≤ maxSafeInteger := by
  unfold integerValue at h
  split at h
  · cases h
  · simp only [Option.ite_none_right_eq_some, Option.some.injEq] at h
    obtain ⟨hle, rfl⟩ := h
    exact hle

lemma formed_of_decodeValue {json : SerdeJson} {dataType : ColumnType} {bytes : List UInt8}
    {ref : ValueRef} (h : decodeValue json dataType bytes false = .ok ref) :
    ref.Formed dataType := by
  cases dataType with
  | boolean =>
    simp only [decodeValue] at h
    split_ifs at h
    · cases h
      exact .inl rfl
    · cases h
      exact .inl rfl
  | integer =>
    simp only [decodeValue] at h
    split_ifs at h
    split at h
    · next i hi =>
      simp only [Bool.not_false, Bool.true_or, if_true, Except.ok.injEq] at h
      subst h
      exact formed_safeInteger (integerValue_natAbs hi)
    · cases h
  | float =>
    simp only [decodeValue] at h
    split_ifs at h with hlength hfinite
    cases h
    exact formed_float hfinite
  | text =>
    simp only [decodeValue] at h
    split at h
    · cases h
      exact .inl rfl
    · cases h
  | json =>
    simp only [decodeValue, Bool.false_eq_true, if_false] at h
    split at h
    · cases h
      exact formed_json _ _
    · cases h

lemma formed_of_storedDefault {column : ColumnDefinition} :
    (storedDefault column).Formed column.dataType := by
  unfold storedDefault
  cases column.default with
  | none => exact formed_null _
  | some value =>
    dsimp only
    split
    · next hfloat =>
      rw [hfloat]
      cases value with
      | number n => exact formed_float n.isFinite_asF64
      | _ => exact formed_fromValue _ _
    · exact formed_fromValue _ _

lemma formed_of_storedColumn {json : SerdeJson} {record : StoredRecord} {position : Nat}
    {column : ColumnDefinition} {ref : ValueRef}
    (h : record.storedColumn json position column = .ok ref) : ref.Formed column.dataType := by
  unfold StoredRecord.storedColumn at h
  split_ifs at h
  · cases h
    exact formed_of_storedDefault
  · obtain ⟨cell, -, h⟩ := Except.bind_eq_ok.mp h
    cases cell with
    | none =>
      cases h
      exact formed_null _
    | some bytes =>
      dsimp only at h
      split at h
      · next i htype hi =>
        cases h
        rw [htype]
        exact formed_safeInteger (integerValue_natAbs hi)
      · exact formed_of_decodeValue h

/-! ### Rows in their forms -/

section Rows
variable {json : SerdeJson} {schema : TableDefinition} {layout : RecordLayout} {row : Row}
  {key : List UInt8}

/-- Each column of a written entry is read back in a form of its value. -/
lemma Written.column_shows {record : StoredRecord}
    {columns : List (ColumnDefinition × StoredValue)} {cells : List Cell} {kept : Nat}
    (h : Written json schema row record columns cells kept) (hshape : SchemaShape schema)
    (hlaid : LaidOut schema layout) (hnormal : Normalized schema row)
    (hjson : JsonRoundTrips json schema row) (hkey : encodePrimaryKey schema row = .ok key)
    (hs : record.schema = schema) (hl : record.layout = layout) (hk : record.key = key)
    {index : Nat} {column : ColumnDefinition} (hcolumn : schema.columns[index]? = some column) :
    ∃ value ref, row column.name = some value ∧ record.column json index = .ok ref ∧
      ref.Shows column.dataType value := by
  rcases @slotsFrom_getElem? schema schema.columns 0 index column hcolumn with
    ⟨position, hslot, hat⟩ | ⟨position, hslot, hat⟩
  · obtain ⟨_, tuple, htuple, hcode, _⟩ := encodePrimaryKey_eq_ok.mp hkey
    obtain ⟨dataType, v, k, hcomponent, htype, hv, hkv⟩ := keyTuple_getElem? htuple hat
    have hmem := List.mem_of_getElem? hat
    refine ⟨v, k.stored, hv, ?_, ?_⟩
    · simp only [StoredRecord.column, hs, hl, hlaid.slots, hslot]
      exact keyComponent_eq (keyTuple_typed htuple) (hk.trans hcode)
        (by rw [hl, keyTuple_types htuple hlaid.types]) hcomponent
    · have hsame := keyValue_intoValue hshape hnormal hmem htype hv hkv
      rw [schemaColumnType_of_mem hshape (List.mem_of_getElem? hcolumn)] at htype
      cases htype
      refine (formed_stored (KeyValue.typed_of_ofValue hkv)).shows ?_
      rw [hsame, dropZeroSign_idem]
  · obtain ⟨v, hv, hread⟩ := h.readAt_eq hnormal hjson false hat
    obtain ⟨ref, href, hback⟩ := storedColumn_of_readAt hread
    rw [Nat.zero_add] at hslot
    refine ⟨v, ref, hv, ?_, (formed_of_storedColumn href).shows (by rw [hback])⟩
    simp only [StoredRecord.column, hs, hl, hlaid.slots, hslot, hcolumn]
    exact href

lemma getElem?_append_of_some {α : Type} {l more : List α} {index : Nat} {a : α}
    (h : l[index]? = some a) : (l ++ more)[index]? = some a := by
  obtain ⟨hlt, -⟩ := List.getElem?_eq_some_iff.mp h
  rwa [List.getElem?_append_left hlt]

/-- What an index's layout says of the columns that its entries hold, once it has placed some. -/
structure IndexEntryLayout.Places (schema : TableDefinition) (layout : IndexEntryLayout)
    (names : List String) : Prop where
  types : KeyTypes schema names layout.types
  slots : ∀ (index component : Nat), layout.slots[index]? = some (some component) →
    ∃ column, schema.columns[index]? = some column ∧ names[component]? = some column.name

lemma IndexEntryLayout.Places.place {layout layout' : IndexEntryLayout} {done names : List String}
    (hshape : SchemaShape schema) (h : layout.Places schema done)
    (hok : IndexEntryLayout.place schema layout names = .ok layout') :
    layout'.Places schema (done ++ names) := by
  induction names generalizing layout done with
  | nil =>
    rw [IndexEntryLayout.place] at hok
    cases hok
    rwa [List.append_nil]
  | cons name names ih =>
    rw [IndexEntryLayout.place] at hok
    split at hok
    · cases hok
    next position hposition =>
    obtain ⟨hlt, hname, -⟩ := List.findIdx?_eq_some_iff_getElem.mp hposition
    have hcolumn : schema.columns[position]? = some schema.columns[position] :=
      List.getElem?_eq_getElem hlt
    have hnamed : schema.columns[position].name = name := by simpa using hname
    have hlength := h.types.length_eq
    rw [List.append_cons]
    refine ih ⟨?_, ?_⟩ hok
    · refine List.rel_append h.types (.cons ?_ .nil)
      rw [hcolumn, Option.map_some, Option.getD_some, ← hnamed]
      exact schemaColumnType_of_mem hshape (List.getElem_mem hlt)
    · intro index component hslot
      dsimp only at hslot
      rw [List.getElem?_set] at hslot
      split_ifs at hslot with hindex hbound
      · subst hindex
        refine ⟨_, hcolumn, ?_⟩
        obtain rfl := Option.some.inj (Option.some.inj hslot)
        cases hbefore : (layout.slots[position]?).join with
        | none => rw [Option.getD_none, ← hlength, hnamed, List.getElem?_concat_length]
        | some component =>
          obtain ⟨column, hat, hdone⟩ := h.slots position component (Option.join_eq_some_iff.mp hbefore)
          rw [hcolumn] at hat
          cases hat
          rw [Option.getD_some]
          exact getElem?_append_of_some hdone
      · obtain ⟨column, hat, hdone⟩ := h.slots index component hslot
        exact ⟨column, hat, getElem?_append_of_some hdone⟩

lemma IndexEntryLayout.new_places {definition : IndexDefinition} {layout : IndexEntryLayout}
    (hshape : SchemaShape schema) (h : IndexEntryLayout.new schema definition = .ok layout) :
    layout.Places schema (definition.columns ++ schema.primaryKey) := by
  have hempty : IndexEntryLayout.Places schema ⟨List.replicate schema.columns.length none, []⟩ [] := by
    refine ⟨List.Forall₂.nil, ?_⟩
    intro index component hslot
    rw [List.getElem?_replicate] at hslot
    split at hslot <;> cases hslot
  have hplaced := hempty.place hshape h
  rwa [List.nil_append] at hplaced

lemma keyTuple_append {names names' : List String} {tuple tuple' : List (ColumnType × KeyValue)}
    (h : keyTuple schema row names = some tuple) (h' : keyTuple schema row names' = some tuple') :
    keyTuple schema row (names ++ names') = some (tuple ++ tuple') := by
  induction names generalizing tuple with
  | nil =>
    rw [keyTuple] at h
    cases h
    exact h'
  | cons name names ih =>
    obtain ⟨dataType, value, k, rest, htype, hvalue, hk, hrest, rfl⟩ :=
      (keyTuple_cons_eq_some schema row name names tuple).mp h
    exact (keyTuple_cons_eq_some _ _ _ _ _).mpr
      ⟨dataType, value, k, rest ++ tuple', htype, hvalue, hk, ih hrest, rfl⟩

/-- An index's entry of a row is the tuple of its columns. -/
lemma encodeSecondaryIndexEntry_tuple {definition : IndexDefinition} {length : Nat}
    (h : encodeSecondaryIndexEntry schema definition row = .ok (some (key, length))) :
    ∃ tuple, keyTuple schema row (definition.columns ++ schema.primaryKey) = some tuple ∧
      key = tupleCode tuple := by
  unfold encodeSecondaryIndexEntry at h
  obtain ⟨indexed, hindexed, h⟩ := Except.bind_eq_ok.mp h
  cases indexed with
  | none => cases h
  | some indexed =>
    obtain ⟨primary, hprimary, h⟩ := Except.bind_eq_ok.mp h
    obtain ⟨-, -, h⟩ := Except.bind_eq_ok.mp h
    obtain ⟨rfl, -⟩ := Prod.mk.inj (Option.some.inj (Except.ok.inj h))
    obtain ⟨-, tuple, htuple, rfl, -⟩ := encodeSecondaryIndexPrefix_eq_ok.mp hindexed
    obtain ⟨-, tuple', htuple', rfl, -⟩ := encodePrimaryKey_eq_ok.mp hprimary
    exact ⟨tuple ++ tuple', keyTuple_append htuple htuple', (tupleCode_append _ _).symm⟩

/-- A column that an index's entry holds is read back in a form of the row's value. -/
lemma IndexEntry.column_shows {entry : IndexEntry} {definition : IndexDefinition} {length : Nat}
    (hshape : SchemaShape schema) (hnormal : Normalized schema row)
    (hlayout : IndexEntryLayout.new schema definition = .ok entry.layout)
    (hentry : encodeSecondaryIndexEntry schema definition row = .ok (some (entry.key, length)))
    {index : Nat} {column : ColumnDefinition} (hcolumn : schema.columns[index]? = some column)
    (hcovers : ((entry.layout.slots[index]?).join).isSome = true) :
    ∃ value ref, row column.name = some value ∧ entry.column index = .ok ref ∧
      ref.Shows column.dataType value := by
  obtain ⟨component, hslot⟩ := Option.isSome_iff_exists.mp hcovers
  have hplaces := IndexEntryLayout.new_places hshape hlayout
  obtain ⟨column', hcolumn', hname⟩ := hplaces.slots index component (Option.join_eq_some_iff.mp hslot)
  rw [hcolumn] at hcolumn'
  cases hcolumn'
  obtain ⟨tuple, htuple, hkey⟩ := encodeSecondaryIndexEntry_tuple hentry
  obtain ⟨dataType, value, k, hat, htype, hvalue, hk⟩ := keyTuple_getElem? htuple hname
  have hmem := List.mem_of_getElem? hcolumn
  rw [schemaColumnType_of_mem hshape hmem] at htype
  cases htype
  have hholds : value.holds column.dataType = true := by
    have hnull : value.isNull = false := by
      rw [Bool.eq_false_iff]
      intro hn
      rw [isNull_eq_true.mp hn, ofValue_null] at hk
      cases hk
    have hholds := hnormal.values column hmem value hvalue
    rwa [if_neg (by simp [hnull])] at hholds
  refine ⟨value, k.stored, hvalue, ?_, (formed_stored (KeyValue.typed_of_ofValue hk)).shows ?_⟩
  · obtain ⟨start, hstart, hend, hdecode⟩ := tupleCode_component (keyTuple_typed htuple) hat
    have hat' : (tuple.map (fun component => component.1)).getD component .json = column.dataType := by
      rw [List.getD_eq_getElem?_getD, List.getElem?_map, hat]
      rfl
    simp only [IndexEntry.column, hslot, hkey, ← keyTuple_types htuple hplaces.types, hstart, hat', hend,
      hdecode, bind, Except.bind]
  · rw [stored_intoValue hholds hk, dropZeroSign_idem]

/-- What a visit presents of a row that its key holds, to a query that reads the columns at `read`. -/
def VisitedRow.Presents (schema : TableDefinition) (layout : RecordLayout)
    (records : List UInt8 → Option (List UInt8)) (read : List Nat) (key : List UInt8) (row : Row) :
    VisitedRow → Prop
  | .whole ref => ref.Presents schema layout records key row
  | .indexed entry => ∃ definition length,
      encodeSecondaryIndexEntry schema definition row = .ok (some (entry.key, length)) ∧
      IndexEntryLayout.new schema definition = .ok entry.layout ∧
      entry.layout.covers read = true

/-- Each column that a query reads is read in a form of the row's value. -/
theorem VisitedRow.Presents.get_shows {visited : VisitedRow}
    {records : List UInt8 → Option (List UInt8)} {rows : List UInt8 → Option Row} {read : List Nat}
    (h : visited.Presents schema layout records read key row) (hshape : SchemaShape schema)
    (hlayout : RecordLayout.new schema = .ok layout)
    (hstores : StoresRows json schema records rows) (hrow : rows key = some row)
    (hjson : JsonRoundTrips json schema row) {index : Nat} {column : ColumnDefinition}
    (hindex : index ∈ read) (hcolumn : schema.columns[index]? = some column) :
    ∃ value ref, row column.name = some value ∧ visited.get json schema index = .ok ref ∧
      ref.Shows column.dataType value := by
  obtain ⟨record, hrecord, hstored⟩ := hstores.stored key row hrow
  cases visited with
  | whole ref =>
    cases ref with
    | map held =>
      obtain rfl : held.row = row := h
      have hsome : (held.row column.name).isSome = true := (hstored.normal.columns column.name).mpr
        (List.mem_map.mpr ⟨column, List.mem_of_getElem? hcolumn, rfl⟩)
      obtain ⟨value, hvalue⟩ := Option.isSome_iff_exists.mp hsome
      refine ⟨value, .fromValue value column.dataType, hvalue, ?_, value, rfl, .inl rfl⟩
      simp only [VisitedRow.get, hcolumn, hvalue]
    | record entry =>
      obtain ⟨value, hvalue, hentry⟩ := h
      obtain rfl : record = value := Option.some.inj (hrecord.symm.trans hvalue)
      obtain ⟨layout', hlayout', hlaid⟩ := layout_new hshape
      obtain rfl : layout = layout' := Except.ok.inj (hlayout.symm.trans hlayout')
      obtain ⟨written, columns, cells, kept, hnew, hwritten, hs, hl, hk, -⟩ :=
        written_of_encodeRow key hlaid hstored.record
      obtain rfl : written = entry := Except.ok.inj (hnew.symm.trans hentry)
      exact hwritten.column_shows hshape hlaid hstored.normal hjson hstored.key hs hl hk hcolumn
  | indexed entry =>
    obtain ⟨definition, length, hentry, hlaid, hcovers⟩ := h
    exact entry.column_shows hshape hstored.normal hlaid hentry hcolumn
      (List.all_eq_true.mp hcovers index hindex)

end Rows
end TinyJoin
