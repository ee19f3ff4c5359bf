import TinyJoin.RecordFormat

/-! Stored entries: a normalized row is read back from its key and record, whole or column by
column, and strict decoding of a key and a record gives a row that would be written as them,
under the conditions it leaves unchecked. -/
namespace TinyJoin
open Bytes Bitmap OrderCode

/-! ### Schemas -/

/-- What the catalog's check of a schema leaves for the codec. -/
structure SchemaShape (schema : TableDefinition) : Prop where
  key_ne_nil : schema.primaryKey ≠ []
  columns_le : schema.columns.length ≤ maxColumns
  names_nodup : (schema.columns.map (fun column => column.name)).Nodup
  key_nodup : schema.primaryKey.Nodup
  key_mem : ∀ name ∈ schema.primaryKey, ∃ column ∈ schema.columns, column.name = name
  key_column : ∀ column ∈ schema.columns, column.name ∈ schema.primaryKey →
    column.nullable = false ∧ column.dataType ≠ .json

lemma bind_unit_eq_ok {α : Type} {check : Result Unit} {next : Result α} {a : α} :
    (check >>= fun _ => next) = .ok a ↔ check = .ok () ∧ next = .ok a := by
  cases check with
  | error e => simp [bind, Except.bind]
  | ok u => simp [bind, Except.bind]

lemma validateKeyNames_nodup {schema : TableDefinition} {previous names : List String}
    (h : validateKeyNames schema previous names = .ok ()) (hprevious : previous.Nodup) :
    (previous ++ names).Nodup := by
  induction names generalizing previous with
  | nil => simpa using hprevious
  | cons name names ih =>
    rw [validateKeyNames, bind_unit_eq_ok] at h
    obtain ⟨_, h⟩ := h
    split at h
    · cases h
    · rename_i hfresh
      have hnew : (previous ++ [name]).Nodup := by
        rw [List.nodup_append]
        refine ⟨hprevious, by simp, ?_⟩
        intro a ha b hb
        simp only [List.mem_singleton] at hb
        subst hb
        rintro rfl
        exact hfresh (List.contains_iff_mem.mpr ha)
      simpa using ih h hnew

/-- The checks of each column, which the columns before it share. -/
lemma validateColumns_spec {schema : TableDefinition} {previous columns : List ColumnDefinition}
    (h : validateColumns schema previous columns = .ok ())
    (hprevious : (previous.map (fun column => column.name)).Nodup) :
    ((previous ++ columns).map (fun column => column.name)).Nodup ∧
      ∀ column ∈ columns, column.name ∈ schema.primaryKey →
        column.nullable = false ∧ column.dataType ≠ .json := by
  induction columns generalizing previous with
  | nil => simpa using hprevious
  | cons column columns ih =>
    rw [validateColumns, bind_unit_eq_ok] at h
    obtain ⟨hcolumn, h⟩ := h
    rw [validateColumn, bind_unit_eq_ok] at hcolumn
    obtain ⟨_, hcolumn⟩ := hcolumn
    split at hcolumn
    · cases hcolumn
    · rename_i hfresh
      have hnew : ((previous ++ [column]).map (fun column => column.name)).Nodup := by
        rw [List.map_append, List.nodup_append]
        refine ⟨hprevious, by simp, ?_⟩
        intro a ha b hb
        simp only [List.map_cons, List.map_nil, List.mem_singleton] at hb
        subst hb
        rintro rfl
        obtain ⟨other, hmem, hname⟩ := List.mem_map.mp ha
        exact hfresh (List.any_eq_true.mpr ⟨other, hmem, by simpa using hname⟩)
      obtain ⟨hnodup, hrest⟩ := ih h hnew
      refine ⟨by simpa using hnodup, ?_⟩
      intro other hmem hkey
      rcases List.mem_cons.mp hmem with rfl | hmem
      · have hcontains : schema.primaryKey.contains other.name = true :=
          List.contains_iff_mem.mpr hkey
        simp only [hcontains, Bool.true_and] at hcolumn
        split at hcolumn
        · cases hcolumn
        · rename_i hnullable
          split at hcolumn
          · cases hcolumn
          · rename_i hjson
            exact ⟨by simpa using hnullable, by simpa using hjson⟩
      · exact hrest other hmem hkey

lemma schemaShape_of_valid {schema : TableDefinition}
    (h : validateSchemaShape schema = .ok ()) : SchemaShape schema := by
  rw [validateSchemaShape, bind_unit_eq_ok] at h
  obtain ⟨_, h⟩ := h
  split at h
  · cases h
  · split at h
    · cases h
    · rename_i hkey
      rw [bind_unit_eq_ok] at h
      obtain ⟨hnames, h⟩ := h
      split at h
      · cases h
      · rename_i hle
        rw [bind_unit_eq_ok] at h
        obtain ⟨hcolumns, h⟩ := h
        split at h
        · cases h
        · rename_i houtside
          obtain ⟨hnodup, hcolumn⟩ := validateColumns_spec hcolumns (by simp)
          refine ⟨by simpa using hkey, by omega, by simpa using hnodup,
            by simpa using validateKeyNames_nodup hnames (by simp), ?_, hcolumn⟩
          intro name hmem
          have hin := List.any_eq_false.mp (Bool.not_eq_true _ ▸ houtside) name hmem
          simpa [List.any_eq_true] using hin

/-- Each column's default is one the catalog accepts. -/
def DefaultsFit (schema : TableDefinition) : Prop :=
  ∀ column ∈ schema.columns, ∀ value, column.default = some value →
    validateCatalogDefault schema column value = .ok ()

lemma validateColumns_defaults {schema : TableDefinition} {previous columns : List ColumnDefinition}
    (h : validateColumns schema previous columns = .ok ()) :
    ∀ column ∈ columns, ∀ value, column.default = some value →
      validateCatalogDefault schema column value = .ok () := by
  induction columns generalizing previous with
  | nil => exact List.forall_mem_nil _
  | cons column columns ih =>
    rw [validateColumns, bind_unit_eq_ok] at h
    obtain ⟨hcolumn, h⟩ := h
    refine List.forall_mem_cons.mpr ⟨?_, ih h⟩
    intro value hvalue
    rw [validateColumn, bind_unit_eq_ok, hvalue] at hcolumn
    obtain ⟨-, hcolumn⟩ := hcolumn
    split_ifs at hcolumn
    exact hcolumn

lemma defaultsFit_of_valid {schema : TableDefinition} (h : validateSchemaShape schema = .ok ()) : DefaultsFit schema := by
  rw [validateSchemaShape, bind_unit_eq_ok] at h
  obtain ⟨-, h⟩ := h
  split at h
  · cases h
  · split at h
    · cases h
    · rw [bind_unit_eq_ok] at h
      obtain ⟨-, h⟩ := h
      split at h
      · cases h
      · rw [bind_unit_eq_ok] at h
        exact validateColumns_defaults h.1

/-! ### Layouts -/

/-- The columns a record stores, in record order. -/
def storedDefinitions (schema : TableDefinition) (columns : List ColumnDefinition) :
    List ColumnDefinition :=
  columns.filter (fun column => !schema.primaryKey.contains column.name)

lemma schemaColumnType_of_mem {schema : TableDefinition} (hshape : SchemaShape schema)
    {column : ColumnDefinition} (hmem : column ∈ schema.columns) :
    schemaColumnType schema column.name = .ok column.dataType := by
  have hfind : schema.columns.find? (fun definition => definition.name == column.name) =
      some column := by
    obtain ⟨before, after, hsplit⟩ := List.append_of_mem hmem
    have hnodup := hshape.names_nodup
    rw [hsplit, List.map_append, List.nodup_append] at hnodup
    rw [List.find?_eq_some_iff_append]
    refine ⟨by simp, before, after, hsplit, ?_⟩
    intro other hother
    have hne := hnodup.2.2 other.name (List.mem_map_of_mem hother) column.name (by simp)
    simpa using hne
  simp [schemaColumnType, hfind]

/-- The types of the key's columns, in key order. -/
def KeyTypes (schema : TableDefinition) : List String → List ColumnType → Prop :=
  List.Forall₂ (fun name dataType => schemaColumnType schema name = .ok dataType)

lemma keyTypesOf_eq_ok {schema : TableDefinition} (hshape : SchemaShape schema)
    {names : List String} (h : ∀ name ∈ names, name ∈ schema.primaryKey) :
    ∃ types, RecordLayout.keyTypesOf schema names = .ok types ∧ KeyTypes schema names types := by
  induction names with
  | nil => exact ⟨[], rfl, .nil⟩
  | cons name names ih =>
    obtain ⟨types, htypes, hrest⟩ := ih (fun other hother => h other (List.mem_cons_of_mem _ hother))
    obtain ⟨column, hmem, rfl⟩ := hshape.key_mem name (h name List.mem_cons_self)
    have htype := schemaColumnType_of_mem hshape hmem
    exact ⟨column.dataType :: types, by simp [RecordLayout.keyTypesOf, htype, htypes, bind,
      Except.bind, pure, Except.pure], .cons htype hrest⟩

/-- Where the loop places a run of columns, the first stored one of them at `next`. -/
def slotsFrom (schema : TableDefinition) : Nat → List ColumnDefinition → List ColumnSlot
  | _, [] => []
  | next, column :: columns =>
    match schema.primaryKey.idxOf? column.name with
    | some position => .key position :: slotsFrom schema next columns
    | none => .stored next :: slotsFrom schema (next + 1) columns

lemma place_foldl {schema : TableDefinition} {columns : List ColumnDefinition}
    {position : Nat} {layout : RecordLayout}
    (hat : ∀ index, columns[index]? = schema.columns[position + index]?) :
    let placed := (columns.zipIdx position).foldl (RecordLayout.place schema) layout
    placed.slots = layout.slots ++ slotsFrom schema layout.stored.length columns ∧
      placed.keyTypes = layout.keyTypes ∧
      placed.stored.filterMap (fun index => schema.columns[index]?) =
        layout.stored.filterMap (fun index => schema.columns[index]?) ++
          storedDefinitions schema columns ∧
      placed.stored.length = layout.stored.length + (storedDefinitions schema columns).length := by
  induction columns generalizing position layout with
  | nil => simp [slotsFrom, storedDefinitions]
  | cons column columns ih =>
    have hhead : schema.columns[position]? = some column := by simpa using (hat 0).symm
    have htail : ∀ index, columns[index]? = schema.columns[position + 1 + index]? := by
      intro index
      have := hat (index + 1)
      rw [List.getElem?_cons_succ] at this
      rw [this]
      congr 1
      omega
    rw [List.zipIdx_cons, List.foldl_cons]
    obtain ⟨hslots, htypes, hstored, hlen⟩ := @ih (position + 1)
      (RecordLayout.place schema layout (column, position)) htail
    dsimp only at hslots htypes hstored hlen ⊢
    cases hidx : schema.primaryKey.idxOf? column.name with
    | some at_ =>
      have hkey : schema.primaryKey.contains column.name = true := by
        rw [List.contains_iff_mem]
        by_contra hnot
        rw [List.idxOf?_eq_none_iff.mpr hnot] at hidx
        cases hidx
      have hskip : storedDefinitions schema (column :: columns) =
          storedDefinitions schema columns := by
        simp [storedDefinitions, List.contains_iff_mem.mp hkey]
      rw [hslots, htypes, hstored, hlen, hskip]
      simp [RecordLayout.place, hidx, slotsFrom]
    | none =>
      have hkey : column.name ∉ schema.primaryKey := List.idxOf?_eq_none_iff.mp hidx
      have hkeep : storedDefinitions schema (column :: columns) =
          column :: storedDefinitions schema columns := by
        simp [storedDefinitions, hkey]
      rw [hslots, htypes, hstored, hlen, hkeep]
      simp [RecordLayout.place, hidx, slotsFrom, hhead]
      omega

/-- What a table's layout says of its columns. -/
structure LaidOut (schema : TableDefinition) (layout : RecordLayout) : Prop where
  types : KeyTypes schema schema.primaryKey layout.keyTypes
  slots : layout.slots = slotsFrom schema 0 schema.columns
  stored : layout.stored.filterMap (fun index => schema.columns[index]?) =
    storedDefinitions schema schema.columns
  length : layout.stored.length = (storedDefinitions schema schema.columns).length

lemma layout_new {schema : TableDefinition} (hshape : SchemaShape schema) :
    ∃ layout, RecordLayout.new schema = .ok layout ∧ LaidOut schema layout := by
  obtain ⟨types, htypes, hforall⟩ := keyTypesOf_eq_ok hshape (fun _ h => h)
  obtain ⟨hslots, hkeys, hstored, hlen⟩ := @place_foldl schema schema.columns 0
    { slots := [], keyTypes := types, keys := List.replicate types.length 0, stored := [] }
    (by simp)
  refine ⟨schema.columns.zipIdx.foldl (RecordLayout.place schema)
    { slots := [], keyTypes := types, keys := List.replicate types.length 0, stored := [] },
    ?_, ?_, hslots, hstored, ?_⟩
  · simp [RecordLayout.new, htypes, bind, Except.bind, pure, Except.pure]
  · rw [hkeys]
    exact hforall
  · rw [hlen]
    simp

/-! ### Reading the columns of an entry -/

/-- The loop that reads one value after another into a row. -/
def readInto {α : Type} (name : α → String) (read : α → Result Value) :
    List α → Row → Result Row
  | [], row => .ok row
  | a :: rest, row => do
    let value ← read a
    readInto name read rest (row.insert (name a) value)

/-- When the names differ, the loop gives each name its value and leaves the others. -/
lemma readInto_eq_ok {α : Type} {name : α → String} {read : α → Result Value} {l : List α}
    {row out : Row} (hnodup : (l.map name).Nodup) :
    readInto name read l row = .ok out ↔
      (∀ a ∈ l, ∃ value, read a = .ok value ∧ out (name a) = some value) ∧
        ∀ other, other ∉ l.map name → out other = row other := by
  induction l generalizing row with
  | nil =>
    simp only [readInto, Except.ok.injEq, List.not_mem_nil, false_implies, implies_true, true_and,
      List.map_nil, not_false_eq_true, forall_const]
    constructor
    · rintro rfl other
      rfl
    · intro h
      funext other
      exact (h other).symm
  | cons a l ih =>
    rw [List.map_cons, List.nodup_cons] at hnodup
    obtain ⟨hfresh, hnodup⟩ := hnodup
    simp only [readInto]
    cases hread : read a with
    | error e =>
      simp only [bind, Except.bind, reduceCtorEq, false_iff]
      rintro ⟨hall, _⟩
      obtain ⟨value, hvalue, _⟩ := hall a List.mem_cons_self
      simp [hread] at hvalue
    | ok value =>
      simp only [bind, Except.bind, ih hnodup]
      constructor
      · rintro ⟨hall, hothers⟩
        refine ⟨?_, ?_⟩
        · intro b hb
          rcases List.mem_cons.mp hb with rfl | hb
          · exact ⟨value, hread, by rw [hothers _ hfresh, Row.insert_same]⟩
          · exact hall b hb
        · intro other hother
          rw [List.map_cons, List.mem_cons, not_or] at hother
          rw [hothers other hother.2, Row.insert_other hother.1]
      · rintro ⟨hall, hothers⟩
        refine ⟨fun b hb => hall b (List.mem_cons_of_mem _ hb), ?_⟩
        intro other hother
        by_cases hname : other = name a
        · obtain ⟨value', hvalue', hout⟩ := hall a List.mem_cons_self
          rw [hread] at hvalue'
          cases hvalue'
          rw [hname, hout, Row.insert_same]
        · rw [Row.insert_other hname]
          exact hothers other (by simp [hname, hother])

/-- A stored column read on its own. -/
def readAt (json : SerdeJson) (record : StoredRecord) (strict : Bool)
    (column : ColumnDefinition × Nat) : Result Value :=
  if column.2 ≥ record.count then .ok (storedDefault column.1).intoValue
  else do
    match ← record.storedBytes column.2 with
    | none => return .null
    | some bytes => return (← decodeValue json column.1.dataType bytes strict).intoValue

/-- The loop over the stored columns carries on from where each column on its own would start. -/
lemma decodeColumnsFrom_eq {json : SerdeJson} {record : StoredRecord} {strict : Bool}
    {columns : List ColumnDefinition} {position start : Nat} {row : Row}
    (hstart : position < record.count →
      start = if position = 0 then 0 else record.endOf (position - 1)) :
    record.decodeColumnsFrom json strict (columns.zipIdx position) start row =
      readInto (fun column => column.1.name) (readAt json record strict)
        (columns.zipIdx position) row := by
  induction columns generalizing position start row with
  | nil => rfl
  | cons column columns ih =>
    rw [List.zipIdx_cons]
    by_cases hpast : position ≥ record.count
    · simp only [StoredRecord.decodeColumnsFrom, readInto, readAt, if_pos hpast, bind, Except.bind]
      exact ih (by omega)
    · have hrest : ∀ row, record.decodeColumnsFrom json strict (columns.zipIdx (position + 1))
          (record.endOf position) row = readInto (fun column => column.1.name)
            (readAt json record strict) (columns.zipIdx (position + 1)) row :=
        fun row => ih (by simp)
      have hs := hstart (by omega)
      simp only [StoredRecord.decodeColumnsFrom, readInto, readAt, if_neg hpast,
        StoredRecord.storedBytes, ← hs, bind, Except.bind, hrest]
      split
      · rfl
      · split
        · split <;> rfl
        · dsimp only
          cases decodeValue json column.dataType (slice record.data start (record.endOf position))
            strict <;> rfl

/-! ### Keys -/

lemma readComponents_cons {key : List UInt8} {offset last : Nat} {dataType : ColumnType}
    {types : List ColumnType} {components : List (List UInt8 × ValueRef)} :
    readComponents key offset (dataType :: types) = .ok (components, last) ↔
      ∃ stop ref rest, componentEnd key offset dataType = .ok stop ∧
        decodeComponent (slice key offset stop) dataType = .ok ref ∧
        readComponents key stop types = .ok (rest, last) ∧
        components = (slice key offset stop, ref) :: rest := by
  simp only [readComponents, bind, Except.bind, pure, Except.pure]
  cases hstop : componentEnd key offset dataType with
  | error e => simp
  | ok stop =>
    cases href : decodeComponent (slice key offset stop) dataType with
    | error e => simp [href]
    | ok ref =>
      cases hrest : readComponents key stop types with
      | error e => simp [href, hrest]
      | ok rest =>
        obtain ⟨rest, last'⟩ := rest
        simp only [href, hrest, Except.ok.injEq, Prod.mk.injEq]
        constructor
        · rintro ⟨rfl, rfl⟩
          exact ⟨stop, ref, rest, rfl, href, hrest, rfl⟩
        · rintro ⟨stop', ref', rest', rfl, href', hrest', rfl⟩
          rw [href] at href'
          rw [hrest] at hrest'
          cases href'
          cases hrest'
          exact ⟨rfl, rfl⟩

/-- The row of a key is what the components of the key say of its columns, and no more. -/
lemma keyRowFrom_eq_ok {key : List UInt8} {columns : List (String × ColumnType)}
    {offset last : Nat} {row out : Row} (hnodup : (columns.map (fun column => column.1)).Nodup) :
    RecordLayout.keyRowFrom key columns offset row = .ok (out, last) ↔
      ∃ components, readComponents key offset (columns.map (fun column => column.2)) =
          .ok (components, last) ∧
        List.Forall₂ (fun column component => out column.1 = some component.2.intoValue) columns
          components ∧
        ∀ other, other ∉ columns.map (fun column => column.1) → out other = row other := by
  induction columns generalizing offset row with
  | nil =>
    simp only [RecordLayout.keyRowFrom, Except.ok.injEq, Prod.mk.injEq, List.map_nil,
      readComponents, List.not_mem_nil, not_false_eq_true, forall_const]
    constructor
    · rintro ⟨rfl, rfl⟩
      exact ⟨[], ⟨rfl, rfl⟩, .nil, fun _ => rfl⟩
    · rintro ⟨components, ⟨_, rfl⟩, _, hsame⟩
      refine ⟨?_, rfl⟩
      funext other
      exact (hsame other).symm
  | cons column columns ih =>
    obtain ⟨name, dataType⟩ := column
    rw [List.map_cons, List.nodup_cons] at hnodup
    obtain ⟨hfresh, hnodup⟩ := hnodup
    simp only [RecordLayout.keyRowFrom, List.map_cons, readComponents_cons, bind, Except.bind]
    cases hstop : componentEnd key offset dataType with
    | error e => simp
    | ok stop =>
      cases href : decodeComponent (slice key offset stop) dataType with
      | error e => simp [href]
      | ok ref =>
        simp only [href, ih hnodup]
        constructor
        · rintro ⟨rest, hread, hvalues, hothers⟩
          refine ⟨_, ⟨stop, ref, rest, rfl, href, hread, rfl⟩, .cons ?_ hvalues, ?_⟩
          · rw [hothers name hfresh, Row.insert_same]
          · intro other hother
            rw [List.mem_cons, not_or] at hother
            rw [hothers other hother.2, Row.insert_other hother.1]
        · rintro ⟨_, ⟨stop', ref', rest, hstop', href', hread, rfl⟩, hvalues, hothers⟩
          cases hstop'
          rw [href] at href'
          cases href'
          cases hvalues with
          | cons hvalue hvalues =>
            refine ⟨rest, hread, hvalues, ?_⟩
            intro other hother
            by_cases hname : other = name
            · rw [hname, hvalue, Row.insert_same]
            · rw [Row.insert_other hname]
              exact hothers other (by simp [hname, hother])

/-- What a key keeps of a value: all of it but the sign of a float zero. -/
def Value.dropZeroSign (value : Value) : Value :=
  match value with
  | .number (.float f) => if f.val.isZero then .ofF64 F64.zero else value
  | _ => value

lemma stored_intoValue {dataType : ColumnType} {value : Value} {k : KeyValue}
    (hholds : value.holds dataType = true) (h : KeyValue.ofValue dataType value = some k) :
    k.stored.intoValue = value.dropZeroSign := by
  cases dataType with
  | boolean =>
    cases value <;> simp_all [KeyValue.ofValue, Value.asBool]
    subst h
    rfl
  | integer =>
    obtain ⟨i, hi, rfl⟩ := Option.map_eq_some_iff.mp h
    rw [eq_ofI64_of_safeInteger hi, KeyValue.stored, ValueRef.intoValue]
    unfold Value.ofI64
    split <;> rfl
  | float =>
    cases value with
    | number n =>
      cases n with
      | float f =>
        simp only [KeyValue.ofValue, Value.asF64, Number.asF64, Option.filter, f.property, if_true,
          Option.map_some, Option.some.injEq] at h
        subst h
        by_cases hzero : f.val.isZero = true
        · simp [KeyValue.stored, ValueRef.intoValue, Value.dropZeroSign, hzero]
        · simp [KeyValue.stored, ValueRef.intoValue, Value.dropZeroSign, hzero,
            ofF64_of_finite f.property]
      | _ => simp [Value.holds, Value.isF64, Number.isF64] at hholds
    | _ => simp [Value.holds, Value.isF64] at hholds
  | text =>
    cases value <;> simp_all [KeyValue.ofValue, Value.asStr]
    subst h
    rfl
  | json => cases h

/-- The tuple of a row is what its key is read as, column by column. -/
lemma keyTuple_types {schema : TableDefinition} {row : Row} {names : List String}
    {types : List ColumnType} {tuple : List (ColumnType × KeyValue)}
    (h : keyTuple schema row names = some tuple) (htypes : KeyTypes schema names types) :
    tuple.map (fun component => component.1) = types := by
  induction htypes generalizing tuple with
  | nil =>
    rw [keyTuple] at h
    cases h
    rfl
  | @cons name dataType names types htype _ ih =>
    obtain ⟨d, v, k, rest, hd, _, _, hrest, rfl⟩ :=
      (keyTuple_cons_eq_some schema row name names tuple).mp h
    rw [htype] at hd
    cases hd
    rw [List.map_cons, ih hrest]

/-- The components a tuple is read as belong to its columns. -/
lemma keyTuple_components {schema : TableDefinition} {row : Row} (out : Row) {names : List String}
    {types : List ColumnType} {tuple : List (ColumnType × KeyValue)}
    (h : keyTuple schema row names = some tuple) (htypes : KeyTypes schema names types)
    (hout : ∀ name dataType value k, name ∈ names → schemaColumnType schema name = .ok dataType →
      row name = some value → KeyValue.ofValue dataType value = some k →
      out name = some k.stored.intoValue) :
    List.Forall₂ (fun column component => out column.1 = some component.2.intoValue)
      (names.zip types) (tuple.map (fun component => (component.2.code, component.2.stored))) := by
  induction htypes generalizing tuple with
  | nil =>
    rw [keyTuple] at h
    cases h
    exact .nil
  | @cons name dataType names types htype _ ih =>
    obtain ⟨d, v, k, rest, hd, hv, hk, hrest, rfl⟩ :=
      (keyTuple_cons_eq_some schema row name names tuple).mp h
    rw [List.zip_cons_cons, List.map_cons]
    refine .cons (hout name d v k List.mem_cons_self hd hv hk) (ih hrest ?_)
    intro other dataType' value k' hmem
    exact hout other dataType' value k' (List.mem_cons_of_mem _ hmem)

/-- A normalized row: it has exactly its table's columns, and each holds a value of its type. -/
structure Normalized (schema : TableDefinition) (row : Row) : Prop where
  columns : ∀ name, (row name).isSome = true ↔ name ∈ schema.columns.map (fun column => column.name)
  values : ∀ column ∈ schema.columns, ∀ value, row column.name = some value →
    if value.isNull then column.nullable = true else value.holds column.dataType = true

/-- The row its entry is read as. -/
def entryRow (schema : TableDefinition) (row : Row) : Row :=
  fun name => if name ∈ schema.primaryKey then (row name).map Value.dropZeroSign else row name

/-- The part of it that its key is read as. -/
def entryKeyRow (schema : TableDefinition) (row : Row) : Row :=
  fun name => if name ∈ schema.primaryKey then (row name).map Value.dropZeroSign else none

section Entries
variable {json : SerdeJson} {schema : TableDefinition} {layout : RecordLayout} {row : Row}
  {key : List UInt8}

/-- A value of a key column, which is never NULL, as the key holds it. -/
lemma keyValue_intoValue (hshape : SchemaShape schema) (hnormal : Normalized schema row)
    {name : String} (hmem : name ∈ schema.primaryKey) {dataType : ColumnType} {value : Value}
    {k : KeyValue} (htype : schemaColumnType schema name = .ok dataType)
    (hvalue : row name = some value) (hk : KeyValue.ofValue dataType value = some k) :
    k.stored.intoValue = value.dropZeroSign := by
  obtain ⟨column, hcolumn, rfl⟩ := hshape.key_mem name hmem
  have hnull : value.isNull = false := by
    rw [Bool.eq_false_iff]
    intro hn
    rw [isNull_eq_true.mp hn, ofValue_null] at hk
    cases hk
  have hholds := hnormal.values column hcolumn value hvalue
  rw [if_neg (by simp [hnull])] at hholds
  rw [schemaColumnType_of_mem hshape hcolumn] at htype
  cases htype
  exact stored_intoValue hholds hk

/-- The key of a normalized row is read back as its key columns. -/
lemma keyRow_encodePrimaryKey (hshape : SchemaShape schema) (hlaid : LaidOut schema layout)
    (hnormal : Normalized schema row) (hkey : encodePrimaryKey schema row = .ok key) :
    layout.keyRow schema key = .ok (entryKeyRow schema row) := by
  obtain ⟨_, tuple, htuple, rfl, _⟩ := encodePrimaryKey_eq_ok.mp hkey
  have htypes := keyTuple_types htuple hlaid.types
  have hlen := hlaid.types.length_eq
  have hread := readComponents_tupleCode (keyTuple_typed htuple) [] []
  simp only [List.append_nil, List.nil_append, List.length_nil, Nat.zero_add, htypes] at hread
  have hfst : (schema.primaryKey.zip layout.keyTypes).map (fun column => column.1) =
      schema.primaryKey := List.map_fst_zip (by omega)
  have hsnd : (schema.primaryKey.zip layout.keyTypes).map (fun column => column.2) =
      layout.keyTypes := List.map_snd_zip (by omega)
  have hrow : RecordLayout.keyRowFrom (tupleCode tuple)
      (schema.primaryKey.zip layout.keyTypes) 0 Row.empty =
      .ok (entryKeyRow schema row, (tupleCode tuple).length) := by
    refine (keyRowFrom_eq_ok (by rw [hfst]; exact hshape.key_nodup)).mpr
      ⟨_, by rw [hsnd]; exact hread, keyTuple_components _ htuple hlaid.types ?_, ?_⟩
    · intro name dataType value k hmem htype hvalue hk
      simp only [entryKeyRow, hmem, if_true, hvalue, Option.map_some,
        keyValue_intoValue hshape hnormal hmem htype hvalue hk]
    · intro other hother
      rw [hfst] at hother
      simp [entryKeyRow, hother, Row.empty]
  simp [RecordLayout.keyRow, hrow, bind, Except.bind, pure, Except.pure]

/-- The columns a record is written from are the stored ones, with the row's values. -/
lemma storedValues_eq_ok {columns : List ColumnDefinition}
    {out : List (ColumnDefinition × StoredValue)} :
    storedValues schema row columns = .ok out ↔
      List.Forall₂ (fun column stored => ∃ value, row column.name = some value ∧
        stored = (column, StoredValue.value value)) (storedDefinitions schema columns) out := by
  induction columns generalizing out with
  | nil =>
    simp only [storedValues, Except.ok.injEq, storedDefinitions, List.filter_nil,
      List.forall₂_nil_left_iff]
    exact eq_comm
  | cons column columns ih =>
    by_cases hkey : schema.primaryKey.contains column.name = true
    · have hskip : storedDefinitions schema (column :: columns) =
          storedDefinitions schema columns := by
        simp [storedDefinitions, List.contains_iff_mem.mp hkey]
      rw [storedValues, if_pos hkey, hskip]
      exact ih
    · have hkeep : storedDefinitions schema (column :: columns) =
          column :: storedDefinitions schema columns := by
        rw [storedDefinitions, List.filter_cons_of_pos (by simpa using hkey)]
        rfl
      rw [storedValues, if_neg hkey, hkeep]
      cases hvalue : row column.name with
      | none =>
        simp only [reduceCtorEq, false_iff]
        intro h
        cases h with
        | cons hfirst _ =>
          obtain ⟨value, hv, _⟩ := hfirst
          simp [hvalue] at hv
      | some value =>
        simp only [bind, Except.bind]
        constructor
        · intro h
          cases hrest : storedValues schema row columns with
          | error e => simp [hrest] at h
          | ok rest =>
            simp only [hrest, pure, Except.pure, Except.ok.injEq] at h
            subst h
            exact .cons ⟨value, hvalue, rfl⟩ (ih.mp hrest)
        · intro h
          cases h with
          | @cons _ stored _ rest hfirst htail =>
            obtain ⟨value', hv, rfl⟩ := hfirst
            rw [hvalue] at hv
            cases hv
            simp [ih.mpr htail, pure, Except.pure]

/-- The JSON a row and its table's defaults hold is read back as it was. -/
def JsonRoundTrips (json : SerdeJson) (schema : TableDefinition) (row : Row) : Prop :=
  ∀ column ∈ schema.columns, column.dataType = .json →
    (∀ value, row column.name = some value → json.RoundTrips value) ∧
      ∀ default, column.default = some default → json.RoundTrips default

lemma isDefault_eq_true {column : ColumnDefinition} {cell : Cell} {table : String}
    (h : isDefault json column cell table = .ok true) :
    (column.default.filter (fun value => !value.isNull) = none ∧ cell = none) ∨
      ∃ default bytes, column.default = some default ∧ default.isNull = false ∧
        cell = some bytes ∧ encodeValue json column default [] table = .ok bytes := by
  unfold isDefault at h
  split at h
  · rename_i hnone
    refine Or.inl ⟨hnone, ?_⟩
    simpa using h
  · cases h
  · rename_i default bytes hsome
    obtain ⟨hdefault, hnull⟩ := Option.filter_eq_some_iff.mp hsome
    cases hencode : encodeValue json column default [] table with
    | error e => simp [hencode, bind, Except.bind] at h
    | ok written =>
      simp only [hencode, bind, Except.bind, pure, Except.pure, Except.ok.injEq, beq_iff_eq] at h
      subst h
      exact Or.inr ⟨default, written, hdefault, by simpa using hnull, rfl, hencode⟩

/-- A column that is omitted as its default is read back as the value it held. -/
lemma storedDefault_of_isDefault {column : ColumnDefinition} {value : Value} {cell : Cell}
    {table : String} (hcolumn : value.isNull = false → value.holds column.dataType = true)
    (hjson : column.dataType = .json → json.RoundTrips value ∧
      ∀ default, column.default = some default → json.RoundTrips default)
    (hcell : encodeCell json table (column, .value value) = .ok cell)
    (hdefault : isDefault json column cell table = .ok true) :
    (storedDefault column).intoValue = value := by
  rcases isDefault_eq_true hdefault with ⟨hnone, rfl⟩ | ⟨default, bytes, hsome, hnull, rfl, hwritten⟩
  · have hnull := encodeCell_isNull hcell
    rw [storedDefault_null hnone]
    exact (isNull_eq_true.mp (by simpa [StoredValue.isNull] using hnull)).symm
  · have hvalue : value.isNull = false := by
      simpa [StoredValue.isNull] using encodeCell_isNull hcell
    have hencode : encodeValue json column value [] table = .ok bytes := by
      simp only [encodeCell, hvalue, Bool.false_eq_true, if_false] at hcell
      cases hv : encodeValue json column value [] table with
      | error e => simp [hv, Except.map] at hcell
      | ok written => simpa [hv, Except.map] using hcell
    obtain ⟨hholds, hback, hsame⟩ := storedDefault_encodes hsome hnull hwritten
    refine encodeValue_injective hholds (hcolumn hvalue) ?_ (fun hj => (hjson hj).1) hback hencode
    intro hj
    rw [hsame hj]
    exact (hjson hj).2 default hsome

lemma forall₂_getElem? {α β : Type} {related : α → β → Prop} {x : List α} {y : List β}
    (h : List.Forall₂ related x y) {index : Nat} {a : α} (ha : x[index]? = some a) :
    ∃ b, y[index]? = some b ∧ related a b := by
  induction h generalizing index with
  | nil => simp at ha
  | cons hab _ ih =>
    cases index with
    | zero =>
      simp only [List.getElem?_cons_zero, Option.some.injEq] at ha
      subst ha
      exact ⟨_, rfl, hab⟩
    | succ index => exact ih (by simpa using ha)

/-- A record as it was written: the cells of the row's stored columns, less the tail that holds
defaults, opened. -/
structure Written (json : SerdeJson) (schema : TableDefinition) (row : Row) (record : StoredRecord)
    (columns : List (ColumnDefinition × StoredValue)) (cells : List Cell) (kept : Nat) :
    Prop where
  values : List.Forall₂ (fun column stored => ∃ value, row column.name = some value ∧
    stored = (column, StoredValue.value value)) (storedDefinitions schema schema.columns) columns
  trims : Trims json schema.name columns cells kept
  frames : Frames record (cells.take kept)

lemma Written.count_eq {record : StoredRecord} {columns : List (ColumnDefinition × StoredValue)}
    {cells : List Cell} {kept : Nat} (h : Written json schema row record columns cells kept) :
    record.count = kept := by
  have hle := h.trims.le
  rw [h.frames.count, List.length_take]
  omega

lemma mem_of_storedDefinitions {column : ColumnDefinition} {columns : List ColumnDefinition}
    (h : column ∈ storedDefinitions schema columns) :
    column ∈ columns ∧ column.name ∉ schema.primaryKey := by
  simpa [storedDefinitions] using h

/-- Each stored column of a written record is read back, strictly or not. -/
lemma Written.readAt_eq {record : StoredRecord}
    {columns : List (ColumnDefinition × StoredValue)} {cells : List Cell} {kept : Nat}
    (h : Written json schema row record columns cells kept) (hnormal : Normalized schema row)
    (hjson : JsonRoundTrips json schema row) (strict : Bool) {column : ColumnDefinition}
    {position : Nat} (hcolumn : (storedDefinitions schema schema.columns)[position]? = some column) :
    ∃ value, row column.name = some value ∧
      readAt json record strict (column, position) = .ok value := by
  obtain ⟨_, hstored, value, hvalue, rfl⟩ := forall₂_getElem? h.values hcolumn
  obtain ⟨cell, hcell, hencode⟩ := forall₂_getElem? h.trims.encodes hstored
  obtain ⟨hmem, _⟩ := mem_of_storedDefinitions (List.mem_of_getElem? hcolumn)
  have hholds : value.isNull = false → value.holds column.dataType = true := by
    intro hnull
    simpa [hnull] using hnormal.values column hmem value hvalue
  have hround : column.dataType = .json → json.RoundTrips value ∧
      ∀ default, column.default = some default → json.RoundTrips default := by
    intro hj
    exact ⟨(hjson column hmem hj).1 value hvalue, (hjson column hmem hj).2⟩
  refine ⟨value, hvalue, ?_⟩
  unfold readAt
  rw [h.count_eq]
  split
  · rename_i hpast
    obtain ⟨hlt, _⟩ := List.getElem?_eq_some_iff.mp hcell
    obtain ⟨column', cell', hc, hx, hdefault⟩ := h.trims.tail position hpast hlt
    rw [hstored] at hc
    rw [hcell] at hx
    cases hc
    cases hx
    rw [storedDefault_of_isDefault hholds hround hencode hdefault]
  · rename_i hkept
    have hframe := h.frames.cell position cell (by
      rw [List.getElem?_take, if_pos (by omega)]
      exact hcell)
    simp only [hframe, bind, Except.bind]
    by_cases hnull : value.isNull = true
    · simp only [encodeCell, hnull, if_true, Except.ok.injEq] at hencode
      rw [← hencode, isNull_eq_true.mp hnull]
      rfl
    · have hnull' : value.isNull = false := by simpa using hnull
      simp only [encodeCell, hnull', Bool.false_eq_true, if_false] at hencode
      cases hv : encodeValue json column value [] schema.name with
      | error e => simp [hv, Except.map] at hencode
      | ok bytes =>
        simp only [hv, Except.map, Except.ok.injEq] at hencode
        obtain ⟨ref, href, hback⟩ := decodeValue_encodeValue strict (hholds hnull')
          (fun hj => (hround hj).1) hv
        rw [← hencode]
        simp [href, hback, pure, Except.pure]

lemma storedColumns_eq (hlaid : LaidOut schema layout) {record : StoredRecord}
    (hschema : record.schema = schema) (hlayout : record.layout = layout) :
    record.storedColumns = (storedDefinitions schema schema.columns).zipIdx := by
  rw [StoredRecord.storedColumns, hschema, hlayout, hlaid.stored]

lemma storedNames_nodup (hshape : SchemaShape schema) :
    ((storedDefinitions schema schema.columns).zipIdx.map (fun column => column.1.name)).Nodup := by
  have hfst : (storedDefinitions schema schema.columns).zipIdx.map (fun column => column.1.name) =
      (storedDefinitions schema schema.columns).map (fun column => column.name) := by
    conv_rhs => rw [← List.zipIdx_map_fst 0 (storedDefinitions schema schema.columns)]
    rw [List.map_map]
    rfl
  rw [hfst]
  exact hshape.names_nodup.sublist (List.filter_sublist.map _)

/-- The loop over the stored columns completes the row of the key. -/
lemma Written.decodeColumnsFrom_eq {record : StoredRecord}
    {columns : List (ColumnDefinition × StoredValue)} {cells : List Cell} {kept : Nat}
    (h : Written json schema row record columns cells kept) (hshape : SchemaShape schema)
    (hnormal : Normalized schema row) (hjson : JsonRoundTrips json schema row) (strict : Bool) :
    record.decodeColumnsFrom json strict (storedDefinitions schema schema.columns).zipIdx 0
      (entryKeyRow schema row) = .ok (entryRow schema row) := by
  rw [TinyJoin.decodeColumnsFrom_eq (by simp), readInto_eq_ok (storedNames_nodup hshape)]
  constructor
  · rintro ⟨column, position⟩ hmem
    have hat := List.mk_mem_zipIdx_iff_getElem?.mp hmem
    obtain ⟨value, hvalue, hread⟩ := h.readAt_eq hnormal hjson strict hat
    obtain ⟨_, hkey⟩ := mem_of_storedDefinitions (List.mem_of_getElem? hat)
    exact ⟨value, hread, by simp [entryRow, hkey, hvalue]⟩
  · intro other hother
    unfold entryRow entryKeyRow
    split
    · rfl
    · rename_i hkey
      -- A name that is neither a key column nor a stored one is no column of the row.
      by_contra hsome
      obtain ⟨column, hmem, rfl⟩ := List.mem_map.mp
        ((hnormal.columns other).mp (Option.isSome_iff_ne_none.mpr hsome))
      have hstored : column ∈ storedDefinitions schema schema.columns := by
        simp [storedDefinitions, hmem, hkey]
      obtain ⟨position, hat⟩ := List.mem_iff_getElem?.mp hstored
      exact hother (List.mem_map.mpr
        ⟨(column, position), List.mk_mem_zipIdx_iff_getElem?.mpr hat, rfl⟩)

/-- The cell a row's value of a column is stored as. -/
def rowCell (json : SerdeJson) (table : String) (row : Row) (column : ColumnDefinition) :
    Result Cell :=
  match row column.name with
  | some value => encodeCell json table (column, .value value)
  | none => .ok none

lemma lastValue_eq_ok {record : StoredRecord} {column : ColumnDefinition} {cell : Cell} :
    record.lastValue json row column = .ok cell ↔
      rowCell json record.schema.name row column = .ok cell := by
  unfold StoredRecord.lastValue rowCell encodeCell
  cases row column.name with
  | none => rfl
  | some value =>
    by_cases hnull : value.isNull = true
    · simp [hnull]
    · simp only [hnull, Bool.false_eq_true, if_false]
      cases encodeValue json column value [] record.schema.name <;> simp [Except.map]

/-- Strict decoding checks the header, and that the last stored column is not its default. -/
lemma checkCanonical_eq_ok {record : StoredRecord} :
    record.checkCanonical json row = .ok () ↔
      record.headerIsCanonical = true ∧ ∀ column position, 0 < record.count →
        record.storedColumns[record.count - 1]? = some (column, position) →
        ∃ cell, rowCell json record.schema.name row column = .ok cell ∧
          isDefault json column cell record.schema.name = .ok false := by
  unfold StoredRecord.checkCanonical
  cases hheader : record.headerIsCanonical with
  | false => simp
  | true =>
    by_cases hzero : record.count = 0
    · simp [hzero]
    · simp only [Bool.not_true, Bool.false_eq_true, if_false, if_neg hzero, true_and]
      cases hlast : record.storedColumns[record.count - 1]? with
      | none => simp
      | some last =>
        obtain ⟨column, position⟩ := last
        constructor
        · intro h column' position' _ heq
          cases heq
          cases hcell : record.lastValue json row column with
          | error e => simp [hcell, bind, Except.bind] at h
          | ok cell =>
            refine ⟨cell, lastValue_eq_ok.mp hcell, ?_⟩
            simp only [hcell, bind, Except.bind] at h
            split at h
            · cases h
            · cases h
            · assumption
        · intro h
          obtain ⟨cell, hcell, hdefault⟩ := h column position (by omega) rfl
          simp [lastValue_eq_ok.mpr hcell, hdefault, bind, Except.bind]

/-- Strict decoding finds nothing to reject in a record it wrote. -/
lemma Written.checkCanonical_eq {record : StoredRecord}
    {columns : List (ColumnDefinition × StoredValue)} {cells : List Cell} {kept : Nat}
    (h : Written json schema row record columns cells kept) (hlaid : LaidOut schema layout)
    (hschema : record.schema = schema) (hlayout : record.layout = layout)
    (hheader : record.headerIsCanonical = true) :
    record.checkCanonical json (entryRow schema row) = .ok () := by
  refine checkCanonical_eq_ok.mpr ⟨hheader, ?_⟩
  intro column position hpos hlast
  rw [storedColumns_eq hlaid hschema hlayout, h.count_eq, List.getElem?_zipIdx] at hlast
  obtain ⟨definition, hat, heq⟩ := Option.map_eq_some_iff.mp hlast
  cases heq
  rw [h.count_eq] at hpos
  obtain ⟨stored, cell, hstored, hcell, hdefault⟩ := h.trims.last hpos
  obtain ⟨_, hs, value, hvalue, rfl⟩ := forall₂_getElem? h.values hat
  rw [hs] at hstored
  cases hstored
  obtain ⟨cell', hc, hencode⟩ := forall₂_getElem? h.trims.encodes hs
  rw [hc] at hcell
  cases hcell
  obtain ⟨_, hkey⟩ := mem_of_storedDefinitions (List.mem_of_getElem? hat)
  refine ⟨cell, ?_, hschema ▸ hdefault⟩
  rw [rowCell, hschema]
  simp only [entryRow, hkey, if_false, hvalue]
  exact hencode

/-! ### One column at a time -/

/-- A column's slot is its position in the key, or in the record. -/
lemma slotsFrom_getElem? {columns : List ColumnDefinition} {next index : Nat}
    {column : ColumnDefinition} (h : columns[index]? = some column) :
    (∃ position, (slotsFrom schema next columns)[index]? = some (.key position) ∧
        schema.primaryKey[position]? = some column.name) ∨
      ∃ position, (slotsFrom schema next columns)[index]? = some (.stored (next + position)) ∧
        (storedDefinitions schema columns)[position]? = some column := by
  induction columns generalizing next index with
  | nil => simp at h
  | cons first columns ih =>
    cases hidx : schema.primaryKey.idxOf? first.name with
    | some at_ =>
      have hat : schema.primaryKey[at_]? = some first.name := by
        obtain ⟨hlt, hname, _⟩ := List.idxOf?_eq_some_iff.mp hidx
        rw [List.getElem?_eq_getElem hlt, hname]
      have hskip : storedDefinitions schema (first :: columns) =
          storedDefinitions schema columns := by
        simp [storedDefinitions, List.mem_of_getElem? hat]
      simp only [slotsFrom, hidx, hskip]
      cases index with
      | zero =>
        simp only [List.getElem?_cons_zero, Option.some.injEq] at h ⊢
        subst h
        exact Or.inl ⟨at_, rfl, hat⟩
      | succ index => exact ih (by simpa using h)
    | none =>
      have hkeep : storedDefinitions schema (first :: columns) =
          first :: storedDefinitions schema columns := by
        simp [storedDefinitions, List.idxOf?_eq_none_iff.mp hidx]
      simp only [slotsFrom, hidx, hkeep]
      cases index with
      | zero =>
        simp only [List.getElem?_cons_zero, Option.some.injEq] at h ⊢
        subst h
        exact Or.inr ⟨0, rfl, rfl⟩
      | succ index =>
        simp only [List.getElem?_cons_succ] at h ⊢
        rcases @ih (next + 1) index h with hkey | ⟨position, hslot, hat⟩
        · exact Or.inl hkey
        · refine Or.inr ⟨position + 1, ?_, hat⟩
          rw [hslot]
          congr 2
          omega

/-- Reading a column alone gives what the loop over all of them gives. -/
lemma storedColumn_of_readAt {record : StoredRecord} {column : ColumnDefinition} {position : Nat}
    {value : Value} (h : readAt json record false (column, position) = .ok value) :
    ∃ ref, record.storedColumn json position column = .ok ref ∧ ref.intoValue = value := by
  unfold readAt at h
  unfold StoredRecord.storedColumn
  by_cases hpast : position ≥ record.count
  · simp only [if_pos hpast, Except.ok.injEq] at h ⊢
    exact ⟨_, rfl, h⟩
  · simp only [if_neg hpast, bind, Except.bind] at h ⊢
    cases hbytes : record.storedBytes position with
    | error e => simp [hbytes] at h
    | ok cell =>
      cases cell with
      | none =>
        simp only [hbytes, pure, Except.pure, Except.ok.injEq] at h ⊢
        exact ⟨.null, rfl, h⟩
      | some bytes =>
        simp only [hbytes] at h ⊢
        cases href : decodeValue json column.dataType bytes false with
        | error e => simp [href] at h
        | ok ref =>
          simp only [href, pure, Except.pure, Except.ok.injEq] at h
          refine ⟨ref, ?_, h⟩
          split
          · rename_i i htype hi
            rw [htype] at href
            simp only [decodeValue, hi] at href
            split at href
            · cases href
            · simpa [pure, Except.pure] using href
          · exact href

/-- A component read alone, past those before it. -/
lemma tupleCode_component {tuple : List (ColumnType × KeyValue)} {component : ColumnType × KeyValue}
    {position : Nat} (htyped : TupleTyped tuple) (hat : tuple[position]? = some component) :
    ∃ start, tupleEnd (tupleCode tuple) 0
        ((tuple.map (fun component => component.1)).take position) = .ok start ∧
      componentEnd (tupleCode tuple) start component.1 = .ok (start + component.2.code.length) ∧
      decodeComponent (slice (tupleCode tuple) start (start + component.2.code.length))
        component.1 = .ok component.2.stored := by
  obtain ⟨hlt, hget⟩ := List.getElem?_eq_some_iff.mp hat
  have hsplit : tuple = tuple.take position ++ component :: tuple.drop (position + 1) := by
    rw [← hget, List.getElem_cons_drop, List.take_append_drop]
  have hcode : tupleCode tuple = tupleCode (tuple.take position) ++
      (component.2.code ++ tupleCode (tuple.drop (position + 1))) := by
    conv_lhs => rw [hsplit]
    rw [tupleCode_append, tupleCode_cons]
  have hbefore : TupleTyped (tuple.take position) :=
    fun c hc => htyped c (List.mem_of_mem_take hc)
  have hstart := tupleEnd_tupleCode hbefore []
    (component.2.code ++ tupleCode (tuple.drop (position + 1)))
  obtain ⟨hend, hdecode⟩ := component_read (htyped component (List.mem_of_getElem? hat))
    (tupleCode (tuple.take position)) (tupleCode (tuple.drop (position + 1)))
  have hslice : slice (tupleCode tuple) (tupleCode (tuple.take position)).length
      ((tupleCode (tuple.take position)).length + component.2.code.length) = component.2.code := by
    rw [hcode]
    exact slice_of_append rfl rfl
  simp only [List.nil_append, List.length_nil, Nat.zero_add] at hstart
  rw [← hcode] at hstart hend
  refine ⟨(tupleCode (tuple.take position)).length, ?_, hend, ?_⟩
  · rw [← List.map_take]
    exact hstart
  · rw [hslice, hdecode]

/-- A key column read alone. -/
lemma keyComponent_eq {record : StoredRecord} {tuple : List (ColumnType × KeyValue)}
    {component : ColumnType × KeyValue} {position : Nat} (htyped : TupleTyped tuple)
    (hkey : record.key = tupleCode tuple)
    (htypes : record.layout.keyTypes = tuple.map (fun component => component.1))
    (hat : tuple[position]? = some component) :
    record.keyComponent position = .ok component.2.stored := by
  obtain ⟨start, hstart, hend, hdecode⟩ := tupleCode_component htyped hat
  have htype : (tuple.map (fun component => component.1)).getD position .json = component.1 := by
    rw [List.getD_eq_getElem?_getD, List.getElem?_map, hat]
    rfl
  simp only [StoredRecord.keyComponent, htype, hkey, htypes, hstart, hend, hdecode, bind, Except.bind]

/-! ### Round trip -/

lemma keyTuple_getElem? {names : List String} {tuple : List (ColumnType × KeyValue)}
    (h : keyTuple schema row names = some tuple) {position : Nat} {name : String}
    (hat : names[position]? = some name) :
    ∃ dataType value k, tuple[position]? = some (dataType, k) ∧
      schemaColumnType schema name = .ok dataType ∧ row name = some value ∧
      KeyValue.ofValue dataType value = some k := by
  induction names generalizing tuple position with
  | nil => simp at hat
  | cons first names ih =>
    obtain ⟨d, v, k, rest, hd, hv, hk, hrest, rfl⟩ :=
      (keyTuple_cons_eq_some schema row first names tuple).mp h
    cases position with
    | zero =>
      simp only [List.getElem?_cons_zero, Option.some.injEq] at hat
      subst hat
      exact ⟨d, v, k, rfl, hd, hv, hk⟩
    | succ position => exact ih hrest (by simpa using hat)

/-- Opening the entry of a normalized row. -/
lemma written_of_encodeRow (key : List UInt8) (hlaid : LaidOut schema layout)
    {value : List UInt8} (h : encodeRow json schema row = .ok value) :
    ∃ record columns cells kept, StoredRecord.new schema layout key value = .ok record ∧
      Written json schema row record columns cells kept ∧ record.schema = schema ∧
      record.layout = layout ∧ record.key = key ∧ record.headerIsCanonical = true ∧
      value = recordBytes (cells.take kept) ∧ value.length ≤ maxPagedValueBytes := by
  cases hstored : storedValues schema row schema.columns with
  | error e => simp [encodeRow, hstored, bind, Except.bind] at h
  | ok columns =>
    simp only [encodeRow, hstored, bind, Except.bind] at h
    obtain ⟨cells, kept, htrims, rfl, hfits, hkept⟩ := encodeStoredValues_eq_ok.mp h
    have hvalues := storedValues_eq_ok.mp hstored
    have hle := htrims.le
    have hlen : (cells.take kept).length = kept := by
      rw [List.length_take]
      omega
    have hoffset : largestOffset (cells.take kept) < 2 ^ 32 := by
      have hbytes := length_recordBytes (cells.take kept)
      have hmax : maxPagedValueBytes = 1048576 := rfl
      have hlargest : largestOffset (cells.take kept) ≤ (cellData (cells.take kept)).length := by
        by_cases htwo : 2 ≤ (cells.take kept).length
        · rw [largestOffset_eq htwo]
          have hmono := cellData_take_le (Nat.sub_le (cells.take kept).length 1) (cells.take kept)
          rwa [List.take_length] at hmono
        · rw [largestOffset, if_neg htwo]
          exact Nat.zero_le _
      omega
    have hfit : (cells.take kept).length ≤ layout.stored.length := by
      have h1 := hvalues.length_eq
      have h2 := htrims.encodes.length_eq
      have h3 := hlaid.length
      omega
    obtain ⟨record, hopens⟩ := opens_recordBytes schema key hoffset (by omega) hfit
    exact ⟨record, columns, cells, kept, hopens.new, ⟨hvalues, htrims, hopens.frames hoffset⟩,
      hopens.schema_eq, hopens.layout_eq, hopens.key_eq, hopens.headerIsCanonical hoffset, rfl,
      hfits⟩

/-- Each column of a written entry is read back on its own. -/
lemma Written.column_eq {record : StoredRecord}
    {columns : List (ColumnDefinition × StoredValue)} {cells : List Cell} {kept : Nat}
    (h : Written json schema row record columns cells kept) (hshape : SchemaShape schema)
    (hlaid : LaidOut schema layout) (hnormal : Normalized schema row)
    (hjson : JsonRoundTrips json schema row) (hkey : encodePrimaryKey schema row = .ok key)
    (hs : record.schema = schema) (hl : record.layout = layout) (hk : record.key = key)
    {index : Nat} {column : ColumnDefinition} (hcolumn : schema.columns[index]? = some column) :
    ∃ ref, record.column json index = .ok ref ∧
      entryRow schema row column.name = some ref.intoValue := by
  rcases @slotsFrom_getElem? schema schema.columns 0 index column hcolumn with
    ⟨position, hslot, hat⟩ | ⟨position, hslot, hat⟩
  · obtain ⟨_, tuple, htuple, hcode, _⟩ := encodePrimaryKey_eq_ok.mp hkey
    obtain ⟨dataType, v, k, hcomponent, htype, hv, hkv⟩ := keyTuple_getElem? htuple hat
    have hmem := List.mem_of_getElem? hat
    refine ⟨k.stored, ?_, ?_⟩
    · simp only [StoredRecord.column, hs, hl, hlaid.slots, hslot]
      exact keyComponent_eq (keyTuple_typed htuple) (hk.trans hcode)
        (by rw [hl, keyTuple_types htuple hlaid.types]) hcomponent
    · simp [entryRow, hmem, hv, keyValue_intoValue hshape hnormal hmem htype hv hkv]
  · obtain ⟨v, hv, hread⟩ := h.readAt_eq hnormal hjson false hat
    obtain ⟨ref, href, hback⟩ := storedColumn_of_readAt hread
    obtain ⟨_, hkey'⟩ := mem_of_storedDefinitions (List.mem_of_getElem? hat)
    refine ⟨ref, ?_, ?_⟩
    · rw [Nat.zero_add] at hslot
      simp only [StoredRecord.column, hs, hl, hlaid.slots, hslot, hcolumn]
      exact href
    · simp [entryRow, hkey', hv, hback]

/-- A written entry is read back as its row. -/
lemma Written.toRow_eq {record : StoredRecord}
    {columns : List (ColumnDefinition × StoredValue)} {cells : List Cell} {kept : Nat}
    (h : Written json schema row record columns cells kept) (hshape : SchemaShape schema)
    (hlaid : LaidOut schema layout) (hnormal : Normalized schema row)
    (hjson : JsonRoundTrips json schema row) (hkey : encodePrimaryKey schema row = .ok key)
    (hs : record.schema = schema) (hl : record.layout = layout) (hk : record.key = key) :
    record.toRow json = .ok (entryRow schema row) := by
  have hkeyRow := keyRow_encodePrimaryKey hshape hlaid hnormal hkey
  have hloop := h.decodeColumnsFrom_eq hshape hnormal hjson false
  simp [StoredRecord.toRow, StoredRecord.decode, StoredRecord.decodeColumns, hs, hl, hk, hkeyRow,
    storedColumns_eq hlaid hs hl, hloop, bind, Except.bind, pure, Except.pure]

/-- A row record round trips: the entry of a normalized row is read back as the row, but for the
sign of a float zero in its key, whole, strictly, and one column at a time. -/
theorem stored_entry_round_trip (json : SerdeJson) (schema : TableDefinition) (row : Row)
    (key value : List UInt8) (hvalid : validateSchemaShape schema = .ok ())
    (hnormal : Normalized schema row) (hjson : JsonRoundTrips json schema row)
    (hkey : encodePrimaryKey schema row = .ok key)
    (hvalue : encodeRow json schema row = .ok value) :
    ∃ layout record, RecordLayout.new schema = .ok layout ∧
      StoredRecord.new schema layout key value = .ok record ∧
      record.toRow json = .ok (entryRow schema row) ∧
      record.toRowStrictly json = .ok (entryRow schema row) ∧
      ∀ index column, schema.columns[index]? = some column →
        ∃ ref, record.column json index = .ok ref ∧
          entryRow schema row column.name = some ref.intoValue := by
  have hshape := schemaShape_of_valid hvalid
  obtain ⟨layout, hlayout, hlaid⟩ := layout_new hshape
  obtain ⟨record, columns, cells, kept, hnew, hwritten, hs, hl, hk, hheader, _, _⟩ :=
    written_of_encodeRow key hlaid hvalue
  have hkeyRow := keyRow_encodePrimaryKey hshape hlaid hnormal hkey
  have hloop := fun strict => hwritten.decodeColumnsFrom_eq hshape hnormal hjson strict
  have hcheck := hwritten.checkCanonical_eq hlaid hs hl hheader
  refine ⟨layout, record, hlayout, hnew, ?_, ?_, ?_⟩
  · exact hwritten.toRow_eq hshape hlaid hnormal hjson hkey hs hl hk
  · simp [StoredRecord.toRowStrictly, StoredRecord.decode, StoredRecord.decodeColumns, hs, hl, hk,
      hkeyRow, storedColumns_eq hlaid hs hl, hloop, hcheck, bind, Except.bind, pure, Except.pure]
  · intro index column hcolumn
    exact hwritten.column_eq hshape hlaid hnormal hjson hkey hs hl hk hcolumn

/-- `serde_json` on the literals, on integers and on strings that need no escape. -/
def literalJson : SerdeJson where
  numberText
    | .posInt n => textBytes (toString n.toNat)
    | .negInt i => textBytes (toString i.val)
    | .float f => textBytes (toString f.val.scaled)
  stringText s := .ok (textBytes ("\"" ++ s ++ "\""))
  fromSlice bytes :=
    if bytes = textBytes "null" then .ok .null
    else if bytes = textBytes "true" then .ok (.bool true)
    else if bytes = textBytes "false" then .ok (.bool false)
    else .error "expected value at line 1 column 1"

/-- Gauges of a river. -/
def gauges : TableDefinition where
  name := "gauges"
  primaryKey := ["id"]
  columns := [⟨"level", .integer, true, none⟩, ⟨"id", .float, false, none⟩,
    ⟨"flags", .json, true, some (.bool true)⟩, ⟨"note", .text, true, some (.string "ok")⟩]

def gauge (id : F64) (level flags note : Value) : Row :=
  (((Row.empty.insert "id" (.ofF64 id)).insert "level" level).insert "flags" flags).insert
    "note" note

lemma gauge_normalized (id : {f : F64 // f.isFinite = true}) :
    Normalized gauges (gauge id.val (.ofI64 300) .null (.string "")) := by
  refine ⟨?_, ?_⟩
  · intro name
    simp only [gauge, Row.insert, Row.empty, gauges, List.map_cons, List.map_nil, List.mem_cons,
      List.not_mem_nil, or_false]
    split_ifs <;> simp_all
  · intro column hcolumn value hvalue
    simp only [gauges, List.mem_cons, List.not_mem_nil, or_false] at hcolumn
    rcases hcolumn with rfl | rfl | rfl | rfl
    · cases hvalue
      rfl
    · have hid : value = .number (.float id) := by
        simpa [gauge, Row.insert, ofF64_of_finite id.property] using hvalue.symm
      subst hid
      rfl
    · cases hvalue
      rfl
    · cases hvalue
      rfl

lemma literalJson_roundTrips_null : literalJson.RoundTrips .null := by
  intro bytes h
  cases h
  rfl

lemma literalJson_roundTrips_true : literalJson.RoundTrips (.bool true) := by
  intro bytes h
  cases h
  rfl

lemma gauge_jsonRoundTrips (id : F64) :
    JsonRoundTrips literalJson gauges (gauge id (.ofI64 300) .null (.string "")) := by
  intro column hcolumn htype
  simp only [gauges, List.mem_cons, List.not_mem_nil, or_false] at hcolumn
  rcases hcolumn with rfl | rfl | rfl | rfl
  · cases htype
  · cases htype
  · refine ⟨?_, ?_⟩
    · intro value hvalue
      cases hvalue
      exact literalJson_roundTrips_null
    · intro default hdefault
      cases hdefault
      exact literalJson_roundTrips_true
  · cases htype

theorem stored_entry_round_trip_gauge :
    ∃ layout record, RecordLayout.new gauges = .ok layout ∧
      StoredRecord.new gauges layout [128, 0, 0, 0, 0, 0, 0, 0] [4, 3, 2, 2, 2, 44, 1] =
        .ok record ∧
      record.toRowStrictly literalJson =
        .ok (entryRow gauges (gauge ⟨F64.signBit⟩ (.ofI64 300) .null (.string ""))) := by
  obtain ⟨layout, record, hlayout, hnew, _, hstrict, _⟩ := stored_entry_round_trip literalJson gauges
    (gauge ⟨F64.signBit⟩ (.ofI64 300) .null (.string "")) [128, 0, 0, 0, 0, 0, 0, 0]
    [4, 3, 2, 2, 2, 44, 1] rfl (gauge_normalized ⟨⟨F64.signBit⟩, by decide⟩)
    (gauge_jsonRoundTrips _) rfl rfl
  exact ⟨layout, record, hlayout, hnew, hstrict⟩

end Entries

end TinyJoin
