import TinyJoin.ReportedKeys
import TinyJoin.SizeEstimates

/-! Bounds on the JSON text of the rows that a statement writes as records. A bound is told before the
row is read, from the lengths of what it keeps and from the values that it is given, and a row that is
accepted on it passes the checks that a map of it is put to. -/
namespace TinyJoin
open Bytes OrderCode

/-! ### Planning a row as a record -/

/-- A value that a statement lists for a column. -/
inductive SqlValue where
  | value (value : Value)
  | default

/-- What planning an INSERT's rows straight into records needs. -/
structure RecordPlan where
  layout : RecordLayout
  /-- The JSON text that a row takes apart from its values. -/
  jsonOverhead : Nat

namespace RecordPlan

def new (schema : TableDefinition) (layout : RecordLayout) : RecordPlan :=
  ⟨layout, rowJsonOverhead schema⟩

/-- What a column is given: the value that is listed for it, or else its default. -/
def columnValue (values : List SqlValue) (defaultValues : Bool) (column : ColumnDefinition)
    (position : Option Nat) : Value :=
  let explicit := if defaultValues then none else position.bind (fun index => values[index]?)
  match explicit with
  | some (.value value) => value
  | some .default => column.default.getD .null
  | none => column.default.getD .null

/-- The loop over the schema's columns, which adds up the bounds of their values. -/
def valuesFrom (values : List SqlValue) (defaultValues : Bool) :
    Nat → List (ColumnDefinition × Option Nat) → Option (List Value × Nat)
  | bound, [] => some ([], bound)
  | bound, (column, position) :: columns => do
    let value := columnValue values defaultValues column position
    let valueBound ← jsonScalarBound value
    let (row, bound) ← valuesFrom values defaultValues (bound + valueBound) columns
    return (value :: row, bound)

/-- A row's values in schema order, where each is a scalar and the row's JSON text cannot pass the row
limit. -/
def values (plan : RecordPlan) (schema : TableDefinition) (positions : List (Option Nat))
    (values : List SqlValue) (defaultValues : Bool) : Option (List Value) := do
  let (row, bound) ← valuesFrom values defaultValues plan.jsonOverhead (schema.columns.zip positions)
  if bound ≤ maxLogicalRowBytes then some row else none

end RecordPlan

/-- The most JSON text that a row takes with `assigned` values in place of its own, told as a
`RecordUpdate` tells it. -/
def pointAssignedBound (overhead : Nat) (schema : TableDefinition) (assigned : List (Option Value)) :
    Option Nat := RecordUpdate.boundFrom overhead (schema.columns.zip assigned)

/-- Whether a stored row, rewritten with values within `bound`, cannot pass the row limit. -/
def pointRecordFits (record : StoredRecord) (columns bound : Nat) : Bool :=
  decide ((record.key.length + record.value.length) * 6 + columns * 25 + bound ≤ maxLogicalRowBytes)

/-! ### The text of a row -/

section Text
variable {json : SerdeJson}

/-- What an entry adds to the text of a row, but for its comma. -/
def entryTextLength (json : SerdeJson) (entry : String × Value) : Nat :=
  encodedJsonStringBytes entry.1 + 1 + (jsonText json entry.2).length

lemma length_jsonEntriesText_succ (index : Nat) (entries : List (String × Value)) :
    (jsonEntriesText json (index + 1) entries).length =
      entries.length + (entries.map (entryTextLength json)).sum := by
  induction entries generalizing index with
  | nil => rfl
  | cons entry entries ih =>
    obtain ⟨name, value⟩ := entry
    simp only [jsonEntriesText, List.length_append, ih, length_jsonStringText, jsonComma,
      List.length_cons, List.length_nil, List.map_cons, List.sum_cons, entryTextLength, ne_eq,
      Nat.succ_ne_zero, not_false_eq_true, if_true]
    omega

lemma length_jsonObjectText (entries : List (String × Value)) :
    (jsonText json (.object entries)).length =
      2 + (entries.length - 1) + (entries.map (entryTextLength json)).sum := by
  cases entries with
  | nil => rfl
  | cons entry entries =>
    obtain ⟨name, value⟩ := entry
    simp only [jsonText, jsonEntriesText, length_jsonEntriesText_succ, List.length_cons,
      List.length_append, length_jsonStringText, jsonComma, List.length_nil, List.map_cons,
      List.sum_cons, entryTextLength, ne_eq, not_true_eq_false, if_false]
    omega

lemma encodedJsonBytes_of_scalar {value : Value} {bound : Nat} (h : jsonScalarBound value = some bound) :
    encodedJsonBytes json 1 value = .ok (jsonText json value).length := by
  have hdepth (n : Nat) : estimatedScalar 1 n = .ok n := if_neg (by decide)
  cases value with
  | null => exact hdepth _
  | bool b => cases b <;> exact hdepth _
  | number n => exact (hdepth _).trans (congrArg Except.ok (length_jsonNumberText json n).symm)
  | string s => exact (hdepth _).trans (congrArg Except.ok (length_jsonStringText s).symm)
  | array => cases h
  | object => cases h

/-- A row of scalars passes the check on its size where its text is within the limit. -/
lemma validateRowEntries_eq {entries : List (String × Value)}
    (hscalar : ∀ entry ∈ entries, ∃ bound, jsonScalarBound entry.2 = some bound) {bytes index : Nat}
    (hfits : bytes + (jsonEntriesText json index entries).length ≤ maxLogicalRowBytes) :
    validateRowEntries json bytes index entries =
      .ok (bytes + (jsonEntriesText json index entries).length) := by
  induction entries generalizing bytes index with
  | nil => rfl
  | cons entry entries ih =>
    obtain ⟨name, value⟩ := entry
    obtain ⟨⟨bound, hbound⟩, hrest⟩ := List.forall_mem_cons.mp hscalar
    simp only [jsonEntriesText, List.length_append, length_jsonStringText, List.length_singleton]
      at hfits ⊢
    rw [validateRowEntries, encodedJsonBytes_of_scalar hbound]
    simp only [bind, Except.bind, add_comma]
    rw [if_neg (by omega), ih hrest (by omega)]
    congr 1
    omega

/-- A row whose JSON text is within the row limit, as the check on a map of it finds. -/
def TextWithin (json : SerdeJson) (entries : List (String × Value)) : Prop :=
  (jsonText json (.object entries)).length ≤ maxLogicalRowBytes ∧
    validateRowValueLimits json ⟨entries⟩ = .ok (jsonText json (.object entries)).length

lemma textWithin_of_scalars {entries : List (String × Value)}
    (hscalar : ∀ entry ∈ entries, ∃ bound, jsonScalarBound entry.2 = some bound)
    (hfits : (jsonText json (.object entries)).length ≤ maxLogicalRowBytes) :
    TextWithin json entries := by
  have htext : (jsonText json (.object entries)).length =
      2 + (jsonEntriesText json 0 entries).length := by
    rw [jsonText, List.length_cons, List.length_append, List.length_singleton]
    omega
  refine ⟨hfits, ?_⟩
  rw [htext] at hfits ⊢
  exact validateRowEntries_eq hscalar hfits

/-! ### Bounds on scalars -/

lemma decimalDigits_le {n k : Nat} (h : n < 10 ^ (k + 1)) : decimalDigits n ≤ k + 1 := by
  induction k generalizing n with
  | zero =>
    rw [decimalDigits, if_neg (by omega)]
  | succ k ih =>
    rw [decimalDigits]
    split
    · have := ih (show n / 10 < 10 ^ (k + 1) by rw [Nat.pow_succ] at h; omega)
      omega
    · omega

lemma encodedJsonNumberBytes_le (hfloat : ∀ f, (json.numberText (.float f)).length ≤ 25) (n : Number) :
    encodedJsonNumberBytes json n ≤ 25 := by
  cases n with
  | posInt n =>
    have hn := n.toNat_lt
    have := @decimalDigits_le n.toNat 19 (by omega)
    rw [encodedJsonNumberBytes]
    omega
  | negInt i =>
    have hi := i.property
    have := @decimalDigits_le i.val.natAbs 19 (by omega)
    rw [encodedJsonNumberBytes]
    omega
  | float f => exact hfloat f

lemma escapeBytes_le (byte : UInt8) : escapeBytes byte ≤ 5 := by
  unfold escapeBytes
  split_ifs <;> omega

lemma encodedJsonStringBytes_le (s : String) : encodedJsonStringBytes s ≤ textLength s * 6 + 2 := by
  have hbytes (bytes : List UInt8) : (bytes.map escapeBytes).sum ≤ bytes.length * 5 := by
    induction bytes with
    | nil => exact Nat.le_refl _
    | cons byte bytes ih =>
      have := escapeBytes_le byte
      rw [List.map_cons, List.sum_cons, List.length_cons]
      omega
  have := hbytes (textBytes s)
  rw [encodedJsonStringBytes, textLength]
  omega

lemma length_jsonText_le (hfloat : ∀ f, (json.numberText (.float f)).length ≤ 25) {value : Value}
    {bound : Nat} (h : jsonScalarBound value = some bound) : (jsonText json value).length ≤ bound := by
  cases value with
  | null =>
    cases h
    exact (by decide : (textBytes "null").length ≤ 5)
  | bool b =>
    cases h
    cases b with
    | false => exact (by decide : (textBytes "false").length ≤ 5)
    | true => exact (by decide : (textBytes "true").length ≤ 5)
  | number n =>
    cases h
    rw [jsonText, length_jsonNumberText]
    exact encodedJsonNumberBytes_le hfloat n
  | string s =>
    cases h
    rw [jsonText, length_jsonStringText]
    exact encodedJsonStringBytes_le s
  | array => cases h
  | object => cases h

/-- A scalar whose bound is no more than `bound`. -/
def Value.ScalarWithin (value : Value) (bound : Nat) : Prop :=
  ∃ least, jsonScalarBound value = some least ∧ least ≤ bound

lemma Value.ScalarWithin.mono {value : Value} {bound more : Nat} (h : value.ScalarWithin bound)
    (hle : bound ≤ more) : value.ScalarWithin more := by
  obtain ⟨least, hleast, hbound⟩ := h
  exact ⟨least, hleast, hbound.trans hle⟩

lemma scalarWithin_ofI64 (i : Int) : (Value.ofI64 i).ScalarWithin 25 := by
  unfold Value.ofI64
  split <;> exact ⟨25, rfl, Nat.le_refl _⟩

lemma scalarWithin_ofF64 (f : F64) : (Value.ofF64 f).ScalarWithin 25 := by
  unfold Value.ofF64
  split
  · exact ⟨25, rfl, Nat.le_refl _⟩
  · exact ⟨5, rfl, by decide⟩

lemma jsonScalarBound_respelled (column : ColumnDefinition) (value : Value) :
    jsonScalarBound (respelled column value) = jsonScalarBound value := by
  unfold respelled
  split
  · cases value with
    | number n => rw [floatValue_number]; rfl
    | _ => rfl
  · rfl

lemma scalarWithin_fromValue {value : Value} {bound : Nat} (h : jsonScalarBound value = some bound)
    (dataType : ColumnType) : (ValueRef.fromValue value dataType).intoValue.ScalarWithin (25 + bound) := by
  have hself : value.ScalarWithin (25 + bound) := ⟨bound, h, by omega⟩
  unfold ValueRef.fromValue
  split
  · exact hself
  · exact hself
  · next n =>
    cases n.asI64 with
    | none => exact hself
    | some i => exact (scalarWithin_ofI64 i).mono (by omega)
  · next n =>
    split
    · exact (scalarWithin_ofF64 _).mono (by omega)
    · exact hself
  · exact hself
  · exact hself

/-- An omitted column's default is bounded as it is catalogued, but for a number. -/
lemma scalarWithin_storedDefault {column : ColumnDefinition} {bound : Nat}
    (h : jsonScalarBound (column.default.getD .null) = some bound) :
    (storedDefault column).intoValue.ScalarWithin (25 + bound) := by
  unfold storedDefault
  cases hdefault : column.default with
  | none => exact ⟨5, rfl, by omega⟩
  | some value =>
    rw [hdefault] at h
    dsimp only
    split
    · cases value.asF64 with
      | none => exact scalarWithin_fromValue h .float
      | some f => exact (scalarWithin_ofF64 f).mono (by omega)
    · exact scalarWithin_fromValue h column.dataType

/-- A stored value is bounded by its cell. -/
lemma scalarWithin_decodeValue {dataType : ColumnType} {bytes : List UInt8} {ref : ValueRef}
    (hjson : dataType ≠ .json) (h : decodeValue json dataType bytes false = .ok ref) :
    ref.intoValue.ScalarWithin (bytes.length * 6 + 25) := by
  cases dataType with
  | json => exact absurd rfl hjson
  | boolean =>
    simp only [decodeValue] at h
    split_ifs at h <;> cases h <;> exact ⟨5, rfl, by omega⟩
  | integer =>
    simp only [decodeValue] at h
    split_ifs at h
    split at h
    · cases h
      exact (scalarWithin_ofI64 _).mono (by omega)
    · cases h
  | float =>
    simp only [decodeValue] at h
    split_ifs at h
    cases h
    exact (scalarWithin_ofF64 _).mono (by omega)
  | text =>
    simp only [decodeValue] at h
    split at h
    · next s hs =>
      cases h
      refine ⟨textLength s * 6 + 2, rfl, ?_⟩
      rw [textLength, textBytes_of_fromUtf8 hs]
      omega
    · cases h

lemma length_escapeZeros_ge (bytes : List UInt8) : bytes.length ≤ (escapeZeros bytes).length := by
  induction bytes with
  | nil => exact Nat.le_refl _
  | cons byte bytes ih =>
    rw [escapeZeros, List.flatMap_cons, List.length_append, List.length_cons, ← escapeZeros]
    split <;> simp only [List.length_cons] <;> omega

/-- A key's value is bounded by its component. -/
lemma scalarWithin_ofValue {dataType : ColumnType} {value : Value} {k : KeyValue}
    (h : KeyValue.ofValue dataType value = some k) : value.ScalarWithin (k.code.length * 6 + 25) := by
  cases value with
  | null => exact ⟨5, rfl, by omega⟩
  | bool => exact ⟨5, rfl, by omega⟩
  | number => exact ⟨25, rfl, by omega⟩
  | string s =>
    cases dataType <;> cases h
    refine ⟨textLength s * 6 + 2, rfl, ?_⟩
    have := length_escapeZeros_ge (textBytes s)
    rw [KeyValue.code, pushTextComponent_eq, List.nil_append, textCode, List.length_append, textLength]
    omega
  | array => cases dataType <;> cases h
  | object => cases dataType <;> cases h

end Text

/-! ### What a row keeps -/

/-- Sizes by name, as they are listed. -/
lemma exists_sizes {names : List String} {sizes : List Nat} (hnodup : names.Nodup)
    (hlength : names.length = sizes.length) :
    ∃ size : String → Nat, (names.map size).sum = sizes.sum ∧
      ∀ (i : Nat) name n, names[i]? = some name → sizes[i]? = some n → size name = n := by
  have hsize : ∀ (i : Nat) name n, names[i]? = some name → sizes[i]? = some n →
      sizes.getD (names.idxOf name) 0 = n := by
    intro i name n hname hn
    obtain ⟨hlt, rfl⟩ := List.getElem?_eq_some_iff.mp hname
    rw [hnodup.idxOf_getElem i hlt, List.getD_eq_getElem?_getD, hn, Option.getD_some]
  refine ⟨fun name => sizes.getD (names.idxOf name) 0, ?_, hsize⟩
  congr 1
  apply List.ext_getElem
  · rw [List.length_map, hlength]
  · intro i hi hi'
    rw [List.getElem_map]
    rw [List.length_map] at hi
    exact hsize i _ _ (List.getElem?_eq_getElem hi) (List.getElem?_eq_getElem hi')

section Kept
variable {json : SerdeJson} {schema : TableDefinition} {layout : RecordLayout} {row : Row}
  {key value : List UInt8} {record : StoredRecord}

/-- A table's columns are its key's and those that its records store. -/
lemma columnNames_perm (hshape : SchemaShape schema) :
    (schema.columns.map (fun column => column.name)).Perm (schema.primaryKey ++
      (storedDefinitions schema schema.columns).map (fun column => column.name)) := by
  have hstored : ((storedDefinitions schema schema.columns).map (fun column => column.name)).Nodup :=
    hshape.names_nodup.sublist (List.filter_sublist.map _)
  refine (List.perm_ext_iff_of_nodup hshape.names_nodup
    (List.nodup_append'.mpr ⟨hshape.key_nodup, hstored, ?_⟩)).mpr fun name => ?_
  · intro name hkey hname
    obtain ⟨column, hcolumn, rfl⟩ := List.mem_map.mp hname
    exact (mem_of_storedDefinitions hcolumn).2 hkey
  · rw [List.mem_append]
    constructor
    · intro hname
      obtain ⟨column, hcolumn, rfl⟩ := List.mem_map.mp hname
      by_cases hkey : column.name ∈ schema.primaryKey
      · exact .inl hkey
      · exact .inr (List.mem_map_of_mem (List.mem_filter.mpr ⟨hcolumn, by simpa using hkey⟩))
    · rintro (hkey | hname)
      · obtain ⟨column, hcolumn, rfl⟩ := hshape.key_mem name hkey
        exact List.mem_map_of_mem hcolumn
      · obtain ⟨column, hcolumn, rfl⟩ := List.mem_map.mp hname
        exact List.mem_map_of_mem (mem_of_storedDefinitions hcolumn).1

namespace Decodes

/-- An entry's stored cells, no longer together than its record. -/
lemma exists_cells (h : Decodes json schema layout key value record row) :
    ∃ cells, Frames record cells ∧ cells.length ≤ (storedDefinitions schema schema.columns).length ∧
      (cells.map (fun cell => (cell.getD []).length)).sum ≤ record.value.length := by
  obtain ⟨flags, count, offsets, hbytes, -, -, -, hself, -, -, -, -, -, -, hcount⟩ :=
    new_eq_ok h.opened
  rw [h.laidOut.length] at hcount
  have hread : ∀ position ∈ List.range record.count, ∃ cell, record.storedBytes position = .ok cell := by
    intro position hposition
    rw [List.mem_range] at hposition
    obtain ⟨v, hv, -⟩ := h.stored_column (List.getElem?_eq_getElem (show position <
      (storedDefinitions schema schema.columns).length by omega))
    unfold readAt at hv
    rw [if_neg (show ¬ position ≥ record.count by omega)] at hv
    obtain ⟨cell, hcell, -⟩ := Except.bind_eq_ok.mp hv
    exact ⟨cell, hcell⟩
  obtain ⟨cells, hcells⟩ := exists_forall₂ hread
  have hlength := hcells.length_eq
  rw [List.length_range] at hlength
  have hframes : Frames record cells := by
    refine ⟨hlength, fun position cell hcell => ?_⟩
    obtain ⟨hlt, -⟩ := List.getElem?_eq_some_iff.mp hcell
    obtain ⟨cell', hcell', hstored⟩ := forall₂_getElem? hcells
      (List.getElem?_range (show position < record.count by omega))
    rw [hcell, Option.some.injEq] at hcell'
    exact hcell' ▸ hstored
  refine ⟨cells, hframes, by omega, ?_⟩
  have hsum : (cells.map (fun cell => (cell.getD []).length)).sum = (cellData cells).length := by
    rw [cellData, List.length_flatMap]
  rw [hsum]
  by_cases hne : cells = []
  · rw [hne]
    exact Nat.zero_le _
  · rw [← hframes.data_eq hne, hself, hbytes]
    simp only [List.length_append]
    omega

/-- Each column that an entry keeps is bounded by what it takes of the entry. -/
lemma exists_sizes (h : Decodes json schema layout key value record row) :
    ∃ size : String → Nat,
      (schema.columns.map (fun column => size column.name)).sum ≤
        record.key.length + record.value.length ∧
      ∀ column ∈ schema.columns, column.dataType ≠ .json → ∀ bound,
        jsonScalarBound (column.default.getD .null) = some bound →
          ∃ v, row column.name = some v ∧ v.ScalarWithin (size column.name * 6 + 25 + bound) := by
  obtain ⟨tuple, htuple, hcode⟩ := h.key_tuple
  obtain ⟨cells, hframes, hcells, hsum⟩ := h.exists_cells
  have htypes := congrArg List.length (keyTuple_types htuple h.laidOut.types)
  rw [List.length_map, ← h.laidOut.types.length_eq] at htypes
  have hkeys : (tuple.map (fun component => component.2.code.length)).sum = record.key.length := by
    rw [← hcode, tupleCode, List.length_flatMap]
  have hnames := columnNames_perm h.shape
  have hlength : (schema.primaryKey ++ (storedDefinitions schema schema.columns).map
      (fun column => column.name)).length =
      (tuple.map (fun component : ColumnType × KeyValue => component.2.code.length) ++
        (cells.map (fun cell : Cell => (cell.getD []).length) ++
          List.replicate ((storedDefinitions schema schema.columns).length - cells.length) 0)).length := by
    simp only [List.length_append, List.length_map, List.length_replicate]
    omega
  obtain ⟨size, htotal, hsize⟩ :=
    TinyJoin.exists_sizes (hnames.nodup_iff.mp h.shape.names_nodup) hlength
  refine ⟨size, ?_, fun column hcolumn hjson bound hbound => ?_⟩
  · have hcolumns := (hnames.map size).sum_nat
    rw [List.map_map, htotal, List.sum_append, List.sum_append, hkeys, List.sum_replicate_nat,
      Nat.mul_zero] at hcolumns
    exact (Nat.le_of_eq hcolumns).trans (by omega)
  · obtain ⟨index, hindex⟩ := List.mem_iff_getElem?.mp hcolumn
    rcases h.slot hindex with ⟨position, -, hname⟩ | ⟨position, -, hat⟩
    · -- A key column takes its component of the key.
      obtain ⟨dataType, v, k, hcomponent, -, hv, hkv⟩ := keyTuple_getElem? htuple hname
      have hlt := (List.getElem?_eq_some_iff.mp hname).1
      have heq : size column.name = k.code.length := by
        apply hsize position
        · rw [List.getElem?_append_left hlt, hname]
        · rw [List.getElem?_append_left (by rw [List.length_map]; omega), List.getElem?_map, hcomponent]
          rfl
      exact ⟨v, hv, (scalarWithin_ofValue hkv).mono (by omega)⟩
    · obtain ⟨v, hread, hv⟩ := h.stored_column hat
      refine ⟨v, hv, ?_⟩
      unfold readAt at hread
      split at hread
      · cases hread
        exact (scalarWithin_storedDefault hbound).mono (by omega)
      · next hkept =>
        obtain ⟨cell, hcell, hread⟩ := Except.bind_eq_ok.mp hread
        cases cell with
        | none =>
          cases hread
          exact ⟨5, rfl, by omega⟩
        | some bytes =>
          obtain ⟨ref, href, hread⟩ := Except.bind_eq_ok.mp hread
          cases hread
          have hplace : position < cells.length := by
            have := hframes.count
            omega
          have hbytes := hframes.cell position _ (List.getElem?_eq_getElem hplace)
          rw [hcell, Except.ok.injEq] at hbytes
          have heq : size column.name = bytes.length := by
            apply hsize (schema.primaryKey.length + position)
            · rw [List.getElem?_append_right (by omega), Nat.add_sub_cancel_left, List.getElem?_map, hat]
              rfl
            · rw [List.getElem?_append_right (by rw [List.length_map]; omega), List.length_map,
                htypes, Nat.add_sub_cancel_left,
                List.getElem?_append_left (by rw [List.length_map]; omega), List.getElem?_map,
                List.getElem?_eq_getElem hplace, ← hbytes]
              rfl
          exact (scalarWithin_decodeValue hjson href).mono (by omega)

end Decodes
end Kept

/-! ### Rows within the limit -/

lemma rowJsonOverhead_eq (schema : TableDefinition) : rowJsonOverhead schema =
    2 + (schema.columns.length - 1) +
      (schema.columns.map (fun column => encodedJsonStringBytes column.name + 1)).sum := by
  have hfold (columns : List ColumnDefinition) (bytes : Nat) :
      columns.foldl (fun bytes column => bytes + encodedJsonStringBytes column.name + 1) bytes =
        bytes + (columns.map (fun column => encodedJsonStringBytes column.name + 1)).sum := by
    induction columns generalizing bytes with
    | nil => rfl
    | cons column columns ih =>
      rw [List.foldl_cons, ih, List.map_cons, List.sum_cons]
      omega
  exact hfold _ _

lemma sum_map_le_of_sublist {α : Type} (f : α → Nat) {l l' : List α} (h : l.Sublist l') :
    (l.map f).sum ≤ (l'.map f).sum := by
  induction h with
  | slnil => exact Nat.le_refl _
  | cons a _ ih =>
    rw [List.map_cons, List.sum_cons]
    omega
  | cons_cons a _ ih =>
    rw [List.map_cons, List.map_cons, List.sum_cons, List.sum_cons]
    omega

lemma map_fst_zip_sublist {α β : Type} (l : List α) (l' : List β) :
    ((l.zip l').map Prod.fst).Sublist l := by
  induction l generalizing l' with
  | nil => exact List.Sublist.refl _
  | cons a l ih =>
    cases l' with
    | nil => exact List.nil_sublist _
    | cons b l' => exact (ih l').cons_cons a

/-- The entries that columns make with their values. -/
def pairEntries (pairs : List (ColumnDefinition × Value)) : List (String × Value) :=
  pairs.map (fun pair => (pair.1.name, pair.2))

section Limits
variable {json : SerdeJson} {schema : TableDefinition}

/-- A row is within the limit where the bounds of its values are. -/
lemma textWithin_of_pairs (hfloat : ∀ f, (json.numberText (.float f)).length ≤ 25)
    {pairs : List (ColumnDefinition × Value)} {bounds : List Nat}
    (hpairs : List.Forall₂ (fun pair bound => pair.2.ScalarWithin bound) pairs bounds)
    (hcolumns : (pairs.map Prod.fst).Sublist schema.columns)
    (hfits : rowJsonOverhead schema + bounds.sum ≤ maxLogicalRowBytes)
    {entries : List (String × Value)} (hentries : entries.Perm (pairEntries pairs)) :
    TextWithin json entries := by
  have hscalar : ∀ entry ∈ pairEntries pairs, ∃ bound, jsonScalarBound entry.2 = some bound := by
    intro entry hentry
    obtain ⟨pair, hpair, rfl⟩ := List.mem_map.mp hentry
    obtain ⟨index, hindex⟩ := List.mem_iff_getElem?.mp hpair
    obtain ⟨_, -, least, hleast, -⟩ := forall₂_getElem? hpairs hindex
    exact ⟨least, hleast⟩
  refine textWithin_of_scalars (fun entry hentry => hscalar entry (hentries.mem_iff.mp hentry)) ?_
  have htexts : ((pairEntries pairs).map (entryTextLength json)).sum ≤
      ((pairs.map Prod.fst).map (fun column => encodedJsonStringBytes column.name + 1)).sum +
        bounds.sum := by
    clear hcolumns hentries hscalar hfits
    induction hpairs with
    | nil => exact Nat.le_refl _
    | cons hfirst _ ih =>
      obtain ⟨least, hleast, hle⟩ := hfirst
      have := length_jsonText_le hfloat hleast
      simp only [pairEntries, List.map_cons, List.sum_cons, entryTextLength] at ih ⊢
      omega
  have hnames := sum_map_le_of_sublist (fun column => encodedJsonStringBytes column.name + 1) hcolumns
  have hlength := hcolumns.length_le
  rw [List.length_map] at hlength
  have hentriesLength := hentries.length_eq
  rw [pairEntries, List.length_map] at hentriesLength
  rw [rowJsonOverhead_eq] at hfits
  rw [length_jsonObjectText, (hentries.map (entryTextLength json)).sum_nat]
  omega

/-- A row that passes both checks that normalizing a map of it makes on its size: as it is given, and
with its FLOAT values respelled. -/
structure RowTextWithin (json : SerdeJson) (schema : TableDefinition) (row : Row) : Prop where
  given : ∀ entries, entries.Perm (rowMap schema row).entries → TextWithin json entries
  respelled : ∀ entries, entries.Perm (rowMap schema (row.respell schema)).entries →
    TextWithin json entries

end Limits

/-! ### Rows that are rewritten -/

namespace RecordUpdate

/-- The bound of a column's value, as it is assigned or kept. -/
def columnBound (column : ColumnDefinition × Option Value) : Option Nat :=
  match column.2 with
  | some value => jsonScalarBound value
  | none =>
    if column.1.dataType = .json then none else jsonScalarBound (column.1.default.getD .null)

lemma boundFrom_eq_some {columns : List (ColumnDefinition × Option Value)} {bound total : Nat}
    (h : boundFrom bound columns = some total) :
    ∃ bounds, List.Forall₂ (fun column n => columnBound column = some n) columns bounds ∧
      total = bound + bounds.sum := by
  induction columns generalizing bound with
  | nil =>
    cases h
    exact ⟨[], .nil, rfl⟩
  | cons column columns ih =>
    have hstep : ∃ n, columnBound column = some n ∧ boundFrom (bound + n) columns = some total := by
      obtain ⟨definition, assigned⟩ := column
      cases assigned with
      | some v =>
        obtain ⟨n, hn, h⟩ := Option.bind_eq_some_iff.mp h
        exact ⟨n, hn, h⟩
      | none =>
        rw [boundFrom] at h
        unfold columnBound
        dsimp only at h ⊢
        split at h
        · cases h
        · next hjson =>
          obtain ⟨n, hn, h⟩ := Option.bind_eq_some_iff.mp h
          exact ⟨n, by rw [if_neg hjson, hn], h⟩
    obtain ⟨n, hn, h⟩ := hstep
    obtain ⟨bounds, hbounds, rfl⟩ := ih h
    exact ⟨n :: bounds, .cons hn hbounds, by rw [List.sum_cons, Nat.add_assoc]⟩

lemma assignedFrom_length {schema : TableDefinition} {before assigned : List (Option Value)}
    {assignments : List (String × Value)} (h : assignedFrom schema before assignments = some assigned) :
    assigned.length = before.length := by
  induction assignments generalizing before with
  | nil =>
    cases h
    rfl
  | cons assignment assignments ih =>
    rw [assignedFrom] at h
    split at h
    · split at h
      · cases h
      · rw [ih h, List.length_set]
    · cases h

end RecordUpdate

section Rewritten
variable {json : SerdeJson} {schema : TableDefinition} {layout : RecordLayout} {row : Row}
  {key value : List UInt8} {record : StoredRecord}

/-- Columns with values of their bounds, and what else an entry keeps of each. -/
lemma exists_pairs {next : Row} {size : String → Nat} {columns : List (ColumnDefinition × Option Value)}
    {bounds : List Nat}
    (h : List.Forall₂ (fun column n => RecordUpdate.columnBound column = some n) columns bounds)
    (hvalues : ∀ column ∈ columns, ∀ n, RecordUpdate.columnBound column = some n →
      ∃ v, next column.1.name = some v ∧ v.ScalarWithin (size column.1.name * 6 + 25 + n)) :
    ∃ pairs within, pairs.map Prod.fst = columns.map Prod.fst ∧
      pairEntries pairs = (columns.map Prod.fst).filterMap (fun column =>
        (next column.name).map (fun value => (column.name, value))) ∧
      List.Forall₂ (fun pair bound => pair.2.ScalarWithin bound) pairs within ∧
      within.sum = (columns.map (fun column => size column.1.name)).sum * 6 + columns.length * 25 +
        bounds.sum := by
  induction h with
  | nil => exact ⟨[], [], rfl, rfl, .nil, rfl⟩
  | @cons column n columns bounds hfirst _ ih =>
    rw [List.forall_mem_cons] at hvalues
    obtain ⟨v, hv, hwithin⟩ := hvalues.1 n hfirst
    obtain ⟨pairs, within, hcolumns, hentries, hpairs, hsum⟩ := ih hvalues.2
    refine ⟨(column.1, v) :: pairs, _ :: within, ?_, ?_, .cons hwithin hpairs, ?_⟩
    · rw [List.map_cons, List.map_cons, hcolumns]
    · rw [List.map_cons, List.filterMap_cons_some (by rw [hv]; rfl), ← hentries]
      rfl
    · rw [List.sum_cons, hsum, List.map_cons, List.sum_cons, List.length_cons, List.sum_cons]
      omega

lemma Row.respell_eq_some {name : String} {v : Value} (hshape : SchemaShape schema)
    {column : ColumnDefinition} (hcolumn : column ∈ schema.columns) (hname : column.name = name)
    (hv : row name = some v) : row.respell schema name = some (respelled column v) := by
  subst hname
  rw [Row.respell_column hshape hcolumn, hv, Option.map_some]

/-- A stored row, rewritten with values whose bound it is accepted on, is within the limit. -/
lemma Decodes.rowTextWithin (h : Decodes json schema layout key value record row)
    (hfloat : ∀ f, (json.numberText (.float f)).length ≤ 25) {assigned : List (Option Value)}
    (hlength : assigned.length = schema.columns.length) {bound : Nat}
    (hbound : RecordUpdate.boundFrom (rowJsonOverhead schema) (schema.columns.zip assigned) = some bound)
    (hfits : (record.key.length + record.value.length) * 6 + schema.columns.length * 25 + bound ≤
      maxLogicalRowBytes) :
    RowTextWithin json schema (row.assign schema assigned) := by
  obtain ⟨bounds, hbounds, rfl⟩ := RecordUpdate.boundFrom_eq_some hbound
  obtain ⟨size, htotal, hsize⟩ := h.exists_sizes
  have hcolumns : (schema.columns.zip assigned).map Prod.fst = schema.columns :=
    List.map_fst_zip (by omega)
  have hsizes : ((schema.columns.zip assigned).map (fun column => size column.1.name)).sum ≤
      record.key.length + record.value.length := by
    rw [← hcolumns, List.map_map] at htotal
    exact htotal
  have hvalue : ∀ column ∈ schema.columns.zip assigned, ∀ n,
      RecordUpdate.columnBound column = some n → ∃ v, row.assign schema assigned column.1.name = some v ∧
        v.ScalarWithin (size column.1.name * 6 + 25 + n) := by
    rintro ⟨column, given⟩ hmem n hn
    obtain ⟨index, hindex⟩ := List.mem_iff_getElem?.mp hmem
    obtain ⟨hcolumn, hgiven⟩ := List.getElem?_zip_eq_some.mp hindex
    rw [Row.assign_column h.shape assigned hcolumn, List.getD_eq_getElem?_getD, hgiven,
      Option.getD_some]
    cases given with
    | some v => exact ⟨v, rfl, n, hn, by omega⟩
    | none =>
      unfold RecordUpdate.columnBound at hn
      split at hn
      · next heq => cases heq
      · split at hn
        · cases hn
        · next hjson => exact hsize column (List.mem_of_getElem? hcolumn) hjson n hn
  have hwithin {next : Row} (hnext : ∀ column ∈ schema.columns.zip assigned, ∀ n,
      RecordUpdate.columnBound column = some n → ∃ v, next column.1.name = some v ∧
        v.ScalarWithin (size column.1.name * 6 + 25 + n)) (entries : List (String × Value))
      (hentries : entries.Perm (rowMap schema next).entries) : TextWithin json entries := by
    obtain ⟨pairs, within, hpairs, hsame, hscalar, hsum⟩ := exists_pairs hbounds hnext
    rw [hcolumns] at hpairs hsame
    refine textWithin_of_pairs hfloat hscalar (by rw [hpairs]) ?_
      (by rw [hsame]; exact hentries)
    rw [hsum, List.length_zip, hlength, Nat.min_self]
    omega
  refine ⟨hwithin hvalue, hwithin fun column hmem n hn => ?_⟩
  obtain ⟨v, hv, least, hleast, hle⟩ := hvalue column hmem n hn
  have hcolumn : column.1 ∈ schema.columns := hcolumns ▸ List.mem_map_of_mem hmem
  exact ⟨_, Row.respell_eq_some h.shape hcolumn rfl hv, least,
    (jsonScalarBound_respelled column.1 v).trans hleast, hle⟩

end Rewritten

/-! ### Rows that are listed -/

namespace RecordPlan
variable {json : SerdeJson} {schema : TableDefinition}

lemma valuesFrom_eq_some {values : List SqlValue} {defaultValues : Bool}
    {columns : List (ColumnDefinition × Option Nat)} {bound total : Nat} {row : List Value}
    (h : valuesFrom values defaultValues bound columns = some (row, total)) :
    row.length = columns.length ∧ ∃ bounds, total = bound + bounds.sum ∧
      List.Forall₂ (fun value n => jsonScalarBound value = some n) row bounds := by
  induction columns generalizing bound row with
  | nil =>
    cases h
    exact ⟨rfl, [], rfl, .nil⟩
  | cons column columns ih =>
    obtain ⟨n, hn, h⟩ := Option.bind_eq_some_iff.mp h
    obtain ⟨⟨rest, last⟩, hrest, h⟩ := Option.bind_eq_some_iff.mp h
    cases h
    obtain ⟨hlength, bounds, rfl, hbounds⟩ := ih hrest
    exact ⟨by rw [List.length_cons, hlength, List.length_cons], n :: bounds,
      by rw [List.sum_cons, Nat.add_assoc], .cons hn hbounds⟩

/-- A listed row that is planned as a record is within the limit, however its values are spelled. -/
lemma textWithin (hfloat : ∀ f, (json.numberText (.float f)).length ≤ 25) {plan : RecordPlan}
    (hplan : plan.jsonOverhead = rowJsonOverhead schema) {positions : List (Option Nat)}
    {listed : List SqlValue} {defaultValues : Bool} {row : List Value}
    (h : plan.values schema positions listed defaultValues = some row)
    (spell : ColumnDefinition → Value → Value)
    (hspell : ∀ column value, jsonScalarBound (spell column value) = jsonScalarBound value)
    (entries : List (String × Value))
    (hentries : entries.Perm
      (pairEntries ((schema.columns.zip row).map (fun pair => (pair.1, spell pair.1 pair.2))))) :
    TextWithin json entries := by
  obtain ⟨⟨read, bound⟩, hread, h⟩ := Option.bind_eq_some_iff.mp h
  dsimp only at h
  split at h
  · next hfits =>
    cases h
    obtain ⟨hlength, bounds, rfl, hbounds⟩ := valuesFrom_eq_some hread
    rw [List.length_zip] at hlength
    refine textWithin_of_pairs hfloat ?_ ?_ (hplan ▸ hfits) hentries
    · rw [List.forall₂_map_left_iff]
      refine forall₂_of_getElem? (by rw [List.length_zip, ← hbounds.length_eq]; omega) ?_
      intro index pair n hpair hn
      obtain ⟨-, hvalue⟩ := List.getElem?_zip_eq_some.mp hpair
      obtain ⟨n', hn', hscalar⟩ := forall₂_getElem? hbounds hvalue
      rw [hn, Option.some.injEq] at hn'
      exact ⟨n, by rw [hspell, hscalar, hn'], Nat.le_refl _⟩
    · rw [List.map_map]
      exact map_fst_zip_sublist _ _
  · cases h

end RecordPlan

/-- What is told from a stored entry agrees with the row that it decodes to. Its estimates are the row's
and those of the map of its key, and no sized column is taken for less than a scalar. The check on a
value tells the length of its text. A row that is planned as a record, rewritten or listed, has a text
within the row limit, and passes the check on it that planning it as a map makes. -/
theorem size_estimates_agree (json : SerdeJson)
    (hfloat : ∀ f, (json.numberText (.float f)).length ≤ 25) (schema : TableDefinition)
    (layout : RecordLayout) (key value : List UInt8) (record : StoredRecord) (row : Row)
    (hvalid : validateSchemaShape schema = .ok ()) (hlayout : RecordLayout.new schema = .ok layout)
    (hopened : StoredRecord.new schema layout key value = .ok record)
    (hread : record.toRow json = .ok row) :
    (∀ entries, entries.Perm (rowMap schema row).entries →
      estimatedRecordBytes json record = estimatedRowBytes ⟨entries⟩) ∧
    (∀ entries, entries.Perm (keyRowMap schema row).entries →
      estimatedKeyBytes record = estimatedRowBytes ⟨entries⟩) ∧
    (∀ position ∈ sizedColumns schema, ∀ n, sizedColumnBytes json record position = .ok n → 16 ≤ n) ∧
    (∀ value n, validateJsonValue json value = .ok n → n = (jsonText json value).length) ∧
    (∀ reader assignments returning plan,
      RecordUpdate.new reader schema assignments returning = some plan → plan.fits record = true →
        RowTextWithin json schema (row.assign schema plan.assigned)) ∧
    (∀ assigned bound, assigned.length = schema.columns.length →
      pointAssignedBound (rowJsonOverhead schema) schema assigned = some bound →
        pointRecordFits record schema.columns.length bound = true →
          RowTextWithin json schema (row.assign schema assigned)) ∧
    (∀ positions listed defaultValues given,
      (RecordPlan.new schema layout).values schema positions listed defaultValues = some given →
        ∀ entries, (entries.Perm (pairEntries (schema.columns.zip given)) ∨
          entries.Perm (pairEntries ((schema.columns.zip given).map
            (fun pair => (pair.1, respelled pair.1 pair.2))))) → TextWithin json entries) := by
  have h : Decodes json schema layout key value record row := ⟨hvalid, hlayout, hopened, hread⟩
  refine ⟨fun entries => h.estimatedRecordBytes_eq, fun entries => h.estimatedKeyBytes_eq,
    fun position hposition n => h.sizedColumnBytes_ge hposition, fun value n => validateJsonValue_eq,
    ?_, ?_, ?_⟩
  · intro reader assignments returning plan hplan hfits
    obtain ⟨_, -, hplan⟩ := Option.bind_eq_some_iff.mp hplan
    obtain ⟨assigned, hassigned, hplan⟩ := Option.bind_eq_some_iff.mp hplan
    obtain ⟨bound, hbound, hplan⟩ := Option.bind_eq_some_iff.mp hplan
    cases hplan
    have hlength := RecordUpdate.assignedFrom_length hassigned
    rw [List.length_replicate] at hlength
    refine h.rowTextWithin hfloat hlength hbound ?_
    rw [← hlength]
    exact of_decide_eq_true hfits
  · intro assigned bound hlength hbound hfits
    exact h.rowTextWithin hfloat hlength hbound (of_decide_eq_true hfits)
  · intro positions listed defaultValues given hgiven entries hentries
    rcases hentries with hentries | hentries
    · refine RecordPlan.textWithin hfloat rfl hgiven (fun _ value => value) (fun _ _ => rfl) entries ?_
      rwa [List.map_id']
    · exact RecordPlan.textWithin hfloat rfl hgiven respelled jsonScalarBound_respelled entries hentries

/-- `serde_json` as `literalJson` has it, on a row whose only float is zero. -/
def zeroFloatJson : SerdeJson where
  numberText
    | .float f => textBytes (if f.val.bits = 0 then "0.0" else "1.0")
    | n => literalJson.numberText n
  stringText := literalJson.stringText
  fromSlice := literalJson.fromSlice

theorem size_estimates_agree_gauge :
    ∃ layout record row plan given, RecordLayout.new gauges = .ok layout ∧
      StoredRecord.new gauges layout [128, 0, 0, 0, 0, 0, 0, 0] [4, 3, 2, 2, 2, 44, 1] = .ok record ∧
      record.toRow zeroFloatJson = .ok row ∧
      RecordUpdate.new gaugesReader gauges [("flags", .bool false), ("note", .string "\t")] none =
        some plan ∧
      (RecordPlan.new gauges layout).values gauges [some 0, some 1, none, none]
        [.value (.ofI64 300), .value (.ofF64 .zero)] false = some given ∧
      estimatedRecordBytes zeroFloatJson record = estimatedRowBytes (rowMap gauges row) ∧
      estimatedKeyBytes record = estimatedRowBytes (keyRowMap gauges row) ∧
      16 ≤ 24 ∧
      4 = (jsonText zeroFloatJson (.bool true)).length ∧
      RowTextWithin zeroFloatJson gauges (row.assign gauges plan.assigned) ∧
      RowTextWithin zeroFloatJson gauges
        (row.assign gauges [none, none, some (.bool false), none]) ∧
      TextWithin zeroFloatJson (pairEntries (gauges.columns.zip given)) := by
  refine ⟨_, _, _, _, _, rfl, rfl, rfl, rfl, rfl, ?_⟩
  have hfloat : ∀ f, (zeroFloatJson.numberText (.float f)).length ≤ 25 := by
    intro f
    unfold zeroFloatJson
    dsimp only
    split <;> decide
  obtain ⟨hrecord, hkey, hsized, hvalue, hupdate, hpoint, hlisted⟩ :=
    size_estimates_agree zeroFloatJson hfloat gauges _ [128, 0, 0, 0, 0, 0, 0, 0]
      [4, 3, 2, 2, 2, 44, 1] _ _ rfl rfl rfl rfl
  exact ⟨hrecord _ (.refl _), hkey _ (.refl _), hsized 3 (by decide) 24 rfl, hvalue (.bool true) 4 rfl,
    hupdate gaugesReader [("flags", .bool false), ("note", .string "\t")] none _ rfl rfl,
    hpoint [none, none, some (.bool false), none] _ rfl rfl rfl,
    hlisted [some 0, some 1, none, none] [.value (.ofI64 300), .value (.ofF64 .zero)] false _ rfl _
      (.inl (.refl _))⟩
end TinyJoin
