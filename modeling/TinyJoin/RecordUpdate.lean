import TinyJoin.KeyValues
import TinyJoin.Storage

/-! Rewriting a stored record in place, and reading index entries off one: both give what encoding the
row itself gives. -/
namespace TinyJoin
open Bytes OrderCode

section Model
variable (json : SerdeJson)

/-- The column at a place of the record, as the updated record is written with it. `assigned` has a
place for each column of the schema. -/
def updatedValue (record : StoredRecord) (assigned : List (Option Value)) (index position : Nat) :
    Result (ColumnDefinition × StoredValue) :=
  let column := record.schema.columns.getD index ⟨"", .json, true, none⟩
  match assigned.getD index none with
  | some value => .ok (column, .value value)
  | none =>
    if position ≥ record.count then .ok (column, .value (column.default.getD .null))
    else do return (column, .encoded (← record.storedBytes position))

def updatedValues (record : StoredRecord) (assigned : List (Option Value)) :
    List (Nat × Nat) → Result (List (ColumnDefinition × StoredValue))
  | [] => .ok []
  | (index, position) :: rest => do
    return (← updatedValue record assigned index position) :: (← updatedValues record assigned rest)

def encodeUpdatedRecord (record : StoredRecord) (assigned : List (Option Value)) :
    Result (List UInt8) := do
  encodeStoredValues json record.schema
    (← updatedValues record assigned record.layout.stored.zipIdx)

/-- A stored row's index entry, with the length of its indexed tuple. -/
def encodeRecordIndexEntry (positions : List Nat) (record : StoredRecord) :
    Result (Option (List UInt8 × Nat)) := do
  match ← encodeRecordIndexPrefix json positions record with
  | none => return none
  | some tuple =>
    let key := tuple ++ record.key
    validateKeySize key
    return some (key, tuple.length)

/-- The loop that appends a tuple to what `into` held up to `start`. A tuple holding a NULL is not
appended. -/
def appendRecordIndexTuple (record : StoredRecord) (start : Nat) :
    List UInt8 → List Nat → Result (List UInt8 × Bool)
  | into, [] => .ok (into, true)
  | into, position :: positions => do
    let value ← record.column json position
    if value.isNull then return (into.take start, false)
    else
      let column := record.schema.columns.getD position ⟨"", .json, true, none⟩
      let into ← encodeComponentRef into column.dataType value record.schema.name column.name
      validateKeySize (into.drop start)
      appendRecordIndexTuple record start into positions

/-- Appends a stored row's index entry to `into`, and says whether it has one. -/
def appendRecordIndexEntry (into : List UInt8) (positions : List Nat) (record : StoredRecord) :
    Result (List UInt8 × Bool) := do
  match ← appendRecordIndexTuple json record into.length into positions with
  | (into, false) => return (into, false)
  | (written, true) =>
    let written := written ++ record.key
    validateKeySize (written.drop into.length)
    return (written, true)

end Model

/-- The row with the assigned columns replaced. -/
def Row.assign (schema : TableDefinition) (assigned : List (Option Value)) (row : Row) : Row :=
  fun name =>
    match schema.columns.findIdx? (fun column => column.name == name) with
    | some index => (assigned.getD index none).or (row name)
    | none => row name

/-! ### Updated records -/

section Updates
variable {json : SerdeJson} {schema : TableDefinition} {layout : RecordLayout} {row : Row}
  {key : List UInt8}

/-- What a record is written from, as far as what is written goes. -/
structure SameCell (json : SerdeJson) (table : String) (a b : ColumnDefinition × StoredValue) :
    Prop where
  column : a.1 = b.1
  cell : encodeCell json table a = encodeCell json table b
  isNull : a.2.isNull = b.2.isNull

lemma SameCell.refl (json : SerdeJson) (table : String) (a : ColumnDefinition × StoredValue) :
    SameCell json table a a := ⟨rfl, rfl, rfl⟩

lemma sameCell_of_cell {table : String} {column : ColumnDefinition} {a b : StoredValue}
    {cell : Cell} (ha : encodeCell json table (column, a) = .ok cell)
    (hb : encodeCell json table (column, b) = .ok cell) :
    SameCell json table (column, a) (column, b) :=
  ⟨rfl, ha.trans hb.symm, (encodeCell_isNull ha).trans (encodeCell_isNull hb).symm⟩

lemma encodeValues_congr {table : String} {xs ys : List (ColumnDefinition × StoredValue)}
    (h : List.Forall₂ (SameCell json table) xs ys) (data : List UInt8) :
    encodeValues json table data xs = encodeValues json table data ys := by
  induction h generalizing data with
  | nil => rfl
  | cons hsame _ ih =>
    rw [encodeValues_cons, encodeValues_cons, hsame.cell, hsame.isNull]
    simp only [ih]

lemma storedCount_congr {table : String} {xs ys : List (ColumnDefinition × StoredValue)}
    (h : List.Forall₂ (SameCell json table) xs ys) (data : List UInt8) (ends : List (Nat × Bool))
    (count : Nat) :
    storedCount json table xs data ends count = storedCount json table ys data ends count := by
  induction count with
  | zero => rfl
  | succ count ih =>
    rw [storedCount, storedCount, ih]
    cases hx : xs[count]? with
    | none =>
      have hlength := h.length_eq
      have hnone : ys[count]? = none := by
        rw [List.getElem?_eq_none_iff] at hx ⊢
        omega
      rw [hnone]
    | some x =>
      obtain ⟨y, hy, hsame⟩ := forall₂_getElem? h hx
      rw [hy]
      dsimp only
      rw [hsame.column]

/-- Records written from the same cells are the same. -/
lemma encodeStoredValues_congr {xs ys : List (ColumnDefinition × StoredValue)}
    (h : List.Forall₂ (SameCell json schema.name) xs ys) :
    encodeStoredValues json schema xs = encodeStoredValues json schema ys := by
  unfold encodeStoredValues
  simp only [encodeValues_congr h, storedCount_congr h, h.length_eq]

/-- A column that is omitted as its default is written again from the default. -/
lemma encodeCell_default {table : String} {column : ColumnDefinition} {cell : Cell}
    (h : isDefault json column cell table = .ok true) :
    encodeCell json table (column, .value (column.default.getD .null)) = .ok cell := by
  rcases isDefault_eq_true h with ⟨hnone, rfl⟩ | ⟨default, bytes, hsome, hnull, rfl, hwritten⟩
  · have hnull : (column.default.getD .null).isNull = true := by
      cases hdefault : column.default with
      | none => rfl
      | some default =>
        rw [hdefault, Option.filter_eq_none_iff] at hnone
        simpa using hnone default rfl
    simp [encodeCell, hnull]
  · simp [encodeCell, hsome, hnull, hwritten, Except.map]

/-- A record's places are the schema's stored columns. -/
lemma LaidOut.stored_forall₂ (hlaid : LaidOut schema layout) :
    List.Forall₂ (fun index column => schema.columns[index]? = some column) layout.stored
      (storedDefinitions schema schema.columns) := by
  have hlength : (layout.stored.filterMap (fun index => schema.columns[index]?)).length =
      layout.stored.length := by
    rw [hlaid.stored, hlaid.length]
  rw [← hlaid.stored]
  revert hlength
  induction layout.stored with
  | nil => exact fun _ => .nil
  | cons index rest ih =>
    intro hlength
    have hle := List.length_filterMap_le (fun index => schema.columns[index]?) rest
    cases hcolumn : schema.columns[index]? with
    | none =>
      simp only [List.filterMap_cons, hcolumn, List.length_cons] at hlength
      omega
    | some column =>
      rw [List.filterMap_cons_some hcolumn] at hlength ⊢
      exact .cons hcolumn (ih (by simpa using hlength))

/-- A column is found by its name at its own place. -/
lemma findIdx?_name (hshape : SchemaShape schema) {index : Nat} {column : ColumnDefinition}
    (h : schema.columns[index]? = some column) :
    schema.columns.findIdx? (fun other => other.name == column.name) = some index := by
  obtain ⟨hlt, hat⟩ := List.getElem?_eq_some_iff.mp h
  rw [List.findIdx?_eq_some_iff_getElem]
  refine ⟨hlt, by simp [hat], ?_⟩
  intro before hbefore heq
  have hnames := hshape.names_nodup
  rw [List.nodup_iff_pairwise_ne, List.pairwise_map, List.pairwise_iff_getElem] at hnames
  refine hnames before index (by omega) hlt hbefore ?_
  rw [hat]
  simpa using heq

lemma Row.assign_column (hshape : SchemaShape schema) (assigned : List (Option Value)) {index : Nat}
    {column : ColumnDefinition} (h : schema.columns[index]? = some column) :
    row.assign schema assigned column.name = (assigned.getD index none).or (row column.name) := by
  rw [Row.assign, findIdx?_name hshape h]

/-- Each column is written as the updated row's value of it would be. -/
lemma updatedValue_eq {record : StoredRecord} {columns : List (ColumnDefinition × StoredValue)}
    {cells : List Cell} {kept : Nat} (h : Written json schema row record columns cells kept)
    (hshape : SchemaShape schema) (hschema : record.schema = schema)
    (assigned : List (Option Value)) {index position : Nat} {column : ColumnDefinition}
    (hindex : schema.columns[index]? = some column)
    (hcolumn : (storedDefinitions schema schema.columns)[position]? = some column) :
    ∃ updated value, updatedValue record assigned index position = .ok updated ∧
      row.assign schema assigned column.name = some value ∧
      SameCell json schema.name updated (column, .value value) := by
  have hassign := @Row.assign_column schema row hshape assigned index column hindex
  have hat : schema.columns.getD index ⟨"", .json, true, none⟩ = column := by
    rw [List.getD_eq_getElem?_getD, hindex, Option.getD_some]
  obtain ⟨_, hstored, value, hvalue, rfl⟩ := forall₂_getElem? h.values hcolumn
  obtain ⟨cell, hcell, hencode⟩ := forall₂_getElem? h.trims.encodes hstored
  rw [updatedValue, hschema, hat]
  cases hnew : assigned.getD index none with
  | some new =>
    rw [hnew, Option.some_or] at hassign
    exact ⟨_, new, rfl, hassign, .refl json schema.name _⟩
  | none =>
    rw [hnew, Option.none_or] at hassign
    dsimp only
    rw [h.count_eq]
    split
    · next hpast =>
      obtain ⟨hlt, _⟩ := List.getElem?_eq_some_iff.mp hcell
      obtain ⟨column', cell', hc, hx, hdefault⟩ := h.trims.tail position hpast hlt
      rw [hstored] at hc
      rw [hcell] at hx
      cases hc
      cases hx
      exact ⟨_, value, rfl, hassign.trans hvalue,
        sameCell_of_cell (encodeCell_default hdefault) hencode⟩
    · next hkept =>
      have hframe := h.frames.cell position cell (by
        rw [List.getElem?_take, if_pos (by omega)]
        exact hcell)
      refine ⟨(column, .encoded cell), value, ?_, hassign.trans hvalue, sameCell_of_cell rfl hencode⟩
      simp only [hframe, bind, Except.bind, pure, Except.pure]

lemma updatedValues_eq {record : StoredRecord} {columns : List (ColumnDefinition × StoredValue)}
    {cells : List Cell} {kept : Nat} (h : Written json schema row record columns cells kept)
    (hshape : SchemaShape schema) (hschema : record.schema = schema)
    (assigned : List (Option Value)) {indices : List Nat} {definitions : List ColumnDefinition}
    {start : Nat}
    (hindices : List.Forall₂ (fun index column => schema.columns[index]? = some column) indices
      definitions)
    (hdefinitions : ∀ i, definitions[i]? =
      (storedDefinitions schema schema.columns)[start + i]? ∨ definitions[i]? = none) :
    ∃ updated valued, updatedValues record assigned (indices.zipIdx start) = .ok updated ∧
      List.Forall₂ (fun column stored => ∃ value, row.assign schema assigned column.name =
        some value ∧ stored = (column, StoredValue.value value)) definitions valued ∧
      List.Forall₂ (SameCell json schema.name) updated valued := by
  induction hindices generalizing start with
  | nil => exact ⟨[], [], rfl, .nil, .nil⟩
  | @cons index column indices definitions hindex _ ih =>
    have hcolumn : (storedDefinitions schema schema.columns)[start]? = some column := by
      rcases hdefinitions 0 with hzero | hzero
      · exact hzero.symm
      · cases hzero
    obtain ⟨updated, value, hupdated, hvalue, hsame⟩ :=
      updatedValue_eq h hshape hschema assigned hindex hcolumn
    obtain ⟨rest, valued, hrest, hvalues, hsames⟩ := @ih (start + 1) (fun i => by
      have hnext := hdefinitions (i + 1)
      rwa [List.getElem?_cons_succ, show start + (i + 1) = start + 1 + i by omega] at hnext)
    refine ⟨updated :: rest, (column, .value value) :: valued, ?_, .cons ⟨value, hvalue, rfl⟩ hvalues,
      .cons hsame hsames⟩
    rw [List.zipIdx_cons, updatedValues, hupdated]
    simp only [bind, Except.bind, hrest, pure, Except.pure]

/-- A record updated in place is the updated row's. -/
lemma Written.encodeUpdatedRecord_eq {record : StoredRecord}
    {columns : List (ColumnDefinition × StoredValue)} {cells : List Cell} {kept : Nat}
    (h : Written json schema row record columns cells kept) (hshape : SchemaShape schema)
    (hlaid : LaidOut schema layout) (hs : record.schema = schema) (hl : record.layout = layout)
    (assigned : List (Option Value)) :
    encodeUpdatedRecord json record assigned =
      encodeRow json schema (row.assign schema assigned) := by
  obtain ⟨updated, valued, hupdated, hvalued, hsame⟩ := @updatedValues_eq json schema row record
    columns cells kept h hshape hs assigned _ _ 0 hlaid.stored_forall₂ (by simp)
  have hstored : storedValues schema (row.assign schema assigned) schema.columns = .ok valued :=
    storedValues_eq_ok.mpr hvalued
  rw [encodeUpdatedRecord, encodeRow, hl, hs, hupdated, hstored]
  exact encodeStoredValues_congr hsame

end Updates

/-! ### Index entries -/

lemma encodeComponentRef_eq (key : List UInt8) (dataType : ColumnType) (ref : ValueRef)
    (table column : String) : encodeComponentRef key dataType ref table column =
      encodeComponent key dataType ref.intoValue table column := by
  unfold encodeComponentRef
  split
  · rfl
  · next i =>
    split
    · next hsafe =>
      have hvalue : safeInteger (Value.ofI64 i) = some i := safeInteger_ofI64 hsafe
      simp [encodeComponent, ValueRef.intoValue, hvalue]
    · rfl
  · next f =>
    split
    · next hfinite =>
      simp [encodeComponent, ValueRef.intoValue, ofF64_of_finite hfinite, Number.asF64, hfinite]
    · rfl
  · rfl
  · rfl

/-- A component is written behind what there is. -/
lemma encodeComponent_append (into key : List UInt8) (dataType : ColumnType) (value : Value)
    (table column : String) : encodeComponent (into ++ key) dataType value table column =
      (encodeComponent key dataType value table column).map (fun written => into ++ written) := by
  cases dataType with
  | boolean => cases h : value.asBool <;> simp [encodeComponent, h, Except.map]
  | integer =>
    cases h : safeInteger value <;> simp [encodeComponent, h, Except.map, pushIntegerComponent]
  | float =>
    cases value with
    | number n =>
      by_cases h : n.asF64.isFinite = true <;>
        simp [encodeComponent, h, Except.map, pushFloatComponent]
    | _ => rfl
  | text =>
    cases h : value.asStr <;> simp [encodeComponent, h, Except.map, pushTextComponent_eq]
  | json => rfl

section Entries
variable {json : SerdeJson} {schema : TableDefinition} {layout : RecordLayout} {row : Row}
  {key : List UInt8}

/-- A NULL is read as one. -/
lemma Written.column_null {record : StoredRecord}
    {columns : List (ColumnDefinition × StoredValue)} {cells : List Cell} {kept : Nat}
    (h : Written json schema row record columns cells kept) (hlaid : LaidOut schema layout)
    (hkey : encodePrimaryKey schema row = .ok key) (hs : record.schema = schema)
    (hl : record.layout = layout) {index : Nat} {column : ColumnDefinition}
    (hcolumn : schema.columns[index]? = some column)
    (hnull : entryRow schema row column.name = some .null) :
    record.column json index = .ok .null := by
  rcases @slotsFrom_getElem? schema schema.columns 0 index column hcolumn with
    ⟨position, hslot, hat⟩ | ⟨position, hslot, hat⟩
  · -- A key column holds a value.
    obtain ⟨_, tuple, htuple, _, _⟩ := encodePrimaryKey_eq_ok.mp hkey
    obtain ⟨dataType, v, k, _, _, hv, hk⟩ := keyTuple_getElem? htuple hat
    obtain ⟨k', hk', -⟩ := ofValue_dropZeroSign hk
    rw [entryRow, if_pos (List.mem_of_getElem? hat), hv, Option.map_some, Option.some.injEq] at hnull
    rw [hnull, ofValue_null] at hk'
    cases hk'
  · obtain ⟨_, hstored, value, hvalue, rfl⟩ := forall₂_getElem? h.values hat
    obtain ⟨cell, hcell, hencode⟩ := forall₂_getElem? h.trims.encodes hstored
    obtain ⟨_, hkey'⟩ := mem_of_storedDefinitions (List.mem_of_getElem? hat)
    rw [entryRow, if_neg hkey', hvalue, Option.some.injEq] at hnull
    subst hnull
    have hnone : cell = none := by
      have := encodeCell_isNull hencode
      simpa [StoredValue.isNull, Value.isNull] using this.symm
    subst hnone
    rw [Nat.zero_add] at hslot
    simp only [StoredRecord.column, hs, hl, hlaid.slots, hslot, hcolumn, StoredRecord.storedColumn,
      h.count_eq]
    split
    · next hpast =>
      obtain ⟨hlt, _⟩ := List.getElem?_eq_some_iff.mp hcell
      obtain ⟨column', cell', hc, hx, hdefault⟩ := h.trims.tail position hpast hlt
      rw [hstored] at hc
      rw [hcell] at hx
      cases hc
      cases hx
      rcases isDefault_eq_true hdefault with ⟨hnone, -⟩ | ⟨_, _, _, _, hsome, _⟩
      · rw [storedDefault]
        cases hd : column.default with
        | none => rfl
        | some default =>
          rw [hd, Option.filter_eq_none_iff] at hnone
          have hdefault : default = .null := isNull_eq_true.mp (by simpa using hnone default rfl)
          subst hdefault
          cases column.dataType <;> rfl
      · cases hsome
    · next hkept =>
      have hframe := h.frames.cell position none (by
        rw [List.getElem?_take, if_pos (by omega)]
        exact hcell)
      simp only [hframe, bind, Except.bind, pure, Except.pure]

/-- Each column of a written entry is read back, NULL or not. -/
lemma Written.column_reads {record : StoredRecord}
    {columns : List (ColumnDefinition × StoredValue)} {cells : List Cell} {kept : Nat}
    (h : Written json schema row record columns cells kept) (hshape : SchemaShape schema)
    (hlaid : LaidOut schema layout) (hnormal : Normalized schema row)
    (hjson : JsonRoundTrips json schema row) (hkey : encodePrimaryKey schema row = .ok key)
    (hs : record.schema = schema) (hl : record.layout = layout) (hk : record.key = key)
    {index : Nat} {column : ColumnDefinition} (hcolumn : schema.columns[index]? = some column) :
    ∃ ref, record.column json index = .ok ref ∧
      entryRow schema row column.name = some ref.intoValue ∧ ref.isNull = ref.intoValue.isNull := by
  obtain ⟨ref, href, hvalue⟩ := h.column_eq hshape hlaid hnormal hjson hkey hs hl hk hcolumn
  refine ⟨ref, href, hvalue, ?_⟩
  cases hnull : ref.intoValue.isNull with
  | true =>
    rw [isNull_eq_true.mp hnull] at hvalue
    rw [h.column_null hlaid hkey hs hl hcolumn hvalue] at href
    cases href
    rfl
  | false =>
    cases ref with
    | null => cases hnull
    | json v => exact hnull
    | _ => rfl

/-- Where the index's columns are in the schema. -/
def Positions (schema : TableDefinition) : List String → List Nat → Prop :=
  List.Forall₂ (fun name position =>
    ∃ column, schema.columns[position]? = some column ∧ column.name = name)

lemma indexColumnPositions_eq {names : List String}
    (h : ∀ name ∈ names, ∃ column ∈ schema.columns, column.name = name) :
    ∃ positions, indexColumnPositions schema names = .ok positions ∧
      Positions schema names positions := by
  induction names with
  | nil => exact ⟨[], rfl, .nil⟩
  | cons name names ih =>
    obtain ⟨positions, hrest, hpositions⟩ := ih (fun name hname => h name (by simp [hname]))
    obtain ⟨column, hcolumn, hname⟩ := h name List.mem_cons_self
    rw [indexColumnPositions]
    cases hfind : schema.columns.findIdx? (fun item => item.name == name) with
    | none =>
      rw [List.findIdx?_eq_none_iff] at hfind
      simpa [hname] using hfind column hcolumn
    | some position =>
      obtain ⟨hlt, hat, -⟩ := List.findIdx?_eq_some_iff_getElem.mp hfind
      refine ⟨position :: positions, ?_, .cons ⟨_, List.getElem?_eq_getElem hlt, ?_⟩ hpositions⟩
      · simp only [hrest, bind, Except.bind, pure, Except.pure]
      · simpa using hat

/-- Reads each column of a row off a record. -/
def ReadsColumns (json : SerdeJson) (record : StoredRecord) (row : Row) : Prop :=
  ∀ (index : Nat) column, record.schema.columns[index]? = some column →
    ∃ ref, record.column json index = .ok ref ∧ row column.name = some ref.intoValue ∧
      ref.isNull = ref.intoValue.isNull

/-- The loops over an index's columns, of a record and of its row. -/
lemma encodeRecordIndexPrefixFrom_eq {record : StoredRecord} (hshape : SchemaShape record.schema)
    (hreads : ReadsColumns json record row) {names : List String} {positions : List Nat}
    (hpositions : Positions record.schema names positions) (key : List UInt8) :
    encodeRecordIndexPrefixFrom json record key positions =
      encodeColumnsFrom record.schema row .omit key names := by
  induction hpositions generalizing key with
  | nil => rfl
  | @cons name position names positions hfirst _ ih =>
    obtain ⟨column, hcolumn, rfl⟩ := hfirst
    obtain ⟨ref, href, hvalue, hnull⟩ := hreads position column hcolumn
    have htype := schemaColumnType_of_mem hshape (List.mem_of_getElem? hcolumn)
    have hat : record.schema.columns.getD position ⟨"", .json, true, none⟩ = column := by
      rw [List.getD_eq_getElem?_getD, hcolumn, Option.getD_some]
    rw [encodeRecordIndexPrefixFrom, encodeColumnsFrom, encodeColumn, hvalue]
    simp only [href, bind, Except.bind, hnull, hat, htype, encodeComponentRef_eq]
    split
    · rfl
    · cases encodeComponent key column.dataType ref.intoValue record.schema.name column.name with
      | error e => rfl
      | ok written =>
        dsimp only
        cases validateKeySize written with
        | error e => rfl
        | ok u => exact ih written

/-- The loop has checked the size of what it wrote. -/
lemma encodeSecondaryIndexPrefix_eq {definition : IndexDefinition} (hne : definition.columns ≠ []) :
    encodeSecondaryIndexPrefix schema definition row =
      encodeColumnsFrom schema row .omit [] definition.columns := by
  rw [encodeSecondaryIndexPrefix, encodeColumns, if_neg (by simpa using hne)]
  cases hwritten : encodeColumnsFrom schema row .omit [] definition.columns with
  | error e => rfl
  | ok written =>
    cases written with
    | none => rfl
    | some tuple =>
      obtain ⟨_, _, _, hsize⟩ := encodeColumnsFrom_eq_ok hwritten
      simp only [bind, Except.bind, validateKeySize_eq_ok.mpr (hsize hne), pure, Except.pure]

lemma keyTuple_congr {row' : Row} {names : List String} (h : ∀ name ∈ names, row name = row' name) :
    keyTuple schema row names = keyTuple schema row' names := by
  induction names with
  | nil => rfl
  | cons name names ih =>
    rw [keyTuple, keyTuple, h name List.mem_cons_self,
      ih (fun name hname => h name (List.mem_cons_of_mem _ hname))]

/-- The row an entry is read as has the entry's key. -/
lemma encodePrimaryKey_entryRow (hkey : encodePrimaryKey schema row = .ok key) :
    encodePrimaryKey schema (entryRow schema row) = .ok key := by
  obtain ⟨hnames, tuple, htuple, hcode, hlength⟩ := encodePrimaryKey_eq_ok.mp hkey
  obtain ⟨tuple', htuple', hcode'⟩ := keyTuple_dropZeroSign htuple
  refine encodePrimaryKey_eq_ok.mpr ⟨hnames, tuple', ?_, by rw [hcode, hcode'], hlength⟩
  rw [← htuple']
  exact keyTuple_congr (fun name hname => if_pos hname)

/-- Appending a tuple writes behind what there is what encoding it on its own writes. -/
lemma appendRecordIndexTuple_eq (record : StoredRecord) (into key : List UInt8)
    (positions : List Nat) : appendRecordIndexTuple json record into.length (into ++ key) positions =
      (encodeRecordIndexPrefixFrom json record key positions).map (fun tuple =>
        tuple.elim (into, false) (fun tuple => (into ++ tuple, true))) := by
  induction positions generalizing key with
  | nil => rfl
  | cons position positions ih =>
    rw [appendRecordIndexTuple, encodeRecordIndexPrefixFrom]
    cases record.column json position with
    | error e => rfl
    | ok value =>
      simp only [bind, Except.bind]
      split
      · simp [pure, Except.pure, Except.map]
      · rw [encodeComponentRef_eq, encodeComponentRef_eq, encodeComponent_append]
        cases encodeComponent key _ value.intoValue record.schema.name _ with
        | error e => rfl
        | ok written =>
          simp only [Except.map, List.drop_left]
          cases validateKeySize written with
          | error e => rfl
          | ok u => exact ih written

/-- An index entry read off a record is the row's. -/
lemma encodeRecordIndexEntry_eq {record : StoredRecord} {positions : List Nat}
    {definition : IndexDefinition} (hkey : encodePrimaryKey schema row = .ok record.key)
    (htuple : encodeRecordIndexPrefix json positions record =
      encodeSecondaryIndexPrefix schema definition row) :
    encodeRecordIndexEntry json positions record =
      encodeSecondaryIndexEntry schema definition row := by
  rw [encodeRecordIndexEntry, encodeSecondaryIndexEntry, htuple, hkey]
  rfl

/-- Appending an entry appends the row's, where the row has one. -/
lemma appendRecordIndexEntry_eq {record : StoredRecord} (into : List UInt8) (positions : List Nat) :
    appendRecordIndexEntry json into positions record =
      (encodeRecordIndexEntry json positions record).map (fun entry =>
        entry.elim (into, false) (fun entry => (into ++ entry.1, true))) := by
  have htuple := @appendRecordIndexTuple_eq json record into [] positions
  rw [List.append_nil] at htuple
  rw [appendRecordIndexEntry, encodeRecordIndexEntry, encodeRecordIndexPrefix, htuple]
  cases encodeRecordIndexPrefixFrom json record [] positions with
  | error e => rfl
  | ok tuple =>
    cases tuple with
    | none => rfl
    | some tuple =>
      simp only [Except.map, bind, Except.bind, Option.elim_some, List.append_assoc,
        List.drop_left]
      cases validateKeySize (tuple ++ record.key) with
      | error e => rfl
      | ok u => rfl

/-- In-place work on a stored record comes to the same as work on its row: updating columns of the
record gives the updated row's record, and index entries read off it are those of the row it decodes
to. -/
theorem record_in_place_eq_row (json : SerdeJson) (schema : TableDefinition) (row : Row)
    (key value : List UInt8) (hvalid : validateSchemaShape schema = .ok ())
    (hnormal : Normalized schema row) (hjson : JsonRoundTrips json schema row)
    (hkey : encodePrimaryKey schema row = .ok key)
    (hvalue : encodeRow json schema row = .ok value) :
    ∃ layout record decoded, RecordLayout.new schema = .ok layout ∧
      StoredRecord.new schema layout key value = .ok record ∧ record.toRow json = .ok decoded ∧
      (∀ assigned, encodeUpdatedRecord json record assigned =
        encodeRow json schema (row.assign schema assigned)) ∧
      ∀ definition : IndexDefinition, definition.columns ≠ [] →
        (∀ name ∈ definition.columns, ∃ column ∈ schema.columns, column.name = name) →
        ∃ positions, indexColumnPositions schema definition.columns = .ok positions ∧
          encodeRecordIndexPrefix json positions record =
            encodeSecondaryIndexPrefix schema definition decoded ∧
          encodeRecordIndexEntry json positions record =
            encodeSecondaryIndexEntry schema definition decoded ∧
          ∀ into, appendRecordIndexEntry json into positions record =
            (encodeSecondaryIndexEntry schema definition decoded).map (fun entry =>
              entry.elim (into, false) (fun entry => (into ++ entry.1, true))) := by
  have hshape := schemaShape_of_valid hvalid
  obtain ⟨layout, hlayout, hlaid⟩ := layout_new hshape
  obtain ⟨record, columns, cells, kept, hnew, hwritten, hs, hl, hk, _, _, _⟩ :=
    written_of_encodeRow key hlaid hvalue
  refine ⟨layout, record, entryRow schema row, hlayout, hnew, ?_, ?_, ?_⟩
  · exact hwritten.toRow_eq hshape hlaid hnormal hjson hkey hs hl hk
  · exact hwritten.encodeUpdatedRecord_eq hshape hlaid hs hl
  · intro definition hne hcolumns
    obtain ⟨positions, hpositions, hat⟩ := indexColumnPositions_eq hcolumns
    have hreads : ReadsColumns json record (entryRow schema row) := by
      intro index column hcolumn
      rw [hs] at hcolumn
      exact hwritten.column_reads hshape hlaid hnormal hjson hkey hs hl hk hcolumn
    have htuple : encodeRecordIndexPrefix json positions record =
        encodeSecondaryIndexPrefix schema definition (entryRow schema row) := by
      rw [encodeSecondaryIndexPrefix_eq hne, encodeRecordIndexPrefix, ← hs]
      subst hs
      exact encodeRecordIndexPrefixFrom_eq hshape hreads hat []
    have hentry := encodeRecordIndexEntry_eq (hk ▸ encodePrimaryKey_entryRow hkey) htuple
    refine ⟨positions, hpositions, htuple, hentry, ?_⟩
    intro into
    rw [← hentry]
    exact appendRecordIndexEntry_eq into positions

def gaugesByNote : IndexDefinition := ⟨"by_note", "gauges", ["note", "level"], false⟩

theorem record_in_place_eq_row_gauge :
    ∃ layout record decoded, RecordLayout.new gauges = .ok layout ∧
      StoredRecord.new gauges layout [128, 0, 0, 0, 0, 0, 0, 0] [4, 3, 2, 2, 2, 44, 1] =
        .ok record ∧ record.toRow literalJson = .ok decoded ∧
      encodeUpdatedRecord literalJson record [none, none, none, some (.string "ok")] =
        .ok [4, 2, 2, 2, 44, 1] ∧
      ∃ positions, indexColumnPositions gauges gaugesByNote.columns = .ok positions ∧
        encodeRecordIndexEntry literalJson positions record =
          encodeSecondaryIndexEntry gauges gaugesByNote decoded := by
  obtain ⟨layout, record, decoded, hlayout, hnew, hrow, hupdate, hindex⟩ :=
    record_in_place_eq_row literalJson gauges
      (gauge ⟨F64.signBit⟩ (.ofI64 300) .null (.string "")) [128, 0, 0, 0, 0, 0, 0, 0]
      [4, 3, 2, 2, 2, 44, 1] rfl (gauge_normalized ⟨⟨F64.signBit⟩, by decide⟩)
      (gauge_jsonRoundTrips _) rfl rfl
  obtain ⟨positions, hpositions, _, hentry, _⟩ := hindex gaugesByNote (by decide) (by
    intro name hname
    rcases List.mem_pair.mp hname with rfl | rfl
    · exact ⟨⟨"note", .text, true, some (.string "ok")⟩, by simp [gauges], rfl⟩
    · exact ⟨⟨"level", .integer, true, none⟩, by simp [gauges], rfl⟩)
  refine ⟨layout, record, decoded, hlayout, hnew, hrow, ?_, positions, hpositions, hentry⟩
  rw [hupdate]
  rfl

end Entries

end TinyJoin
