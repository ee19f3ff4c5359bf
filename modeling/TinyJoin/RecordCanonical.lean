import TinyJoin.Lib.Effect
import TinyJoin.RecordRoundTrip

/-! What strict decoding accepts. A key it reads is the encoding of the values read, and so is a
record, but for four things nothing checks: bytes after a header that stores no column, a stored
JSON `null`, the size limits of the encoder, and a default the encoder cannot write. -/
namespace TinyJoin
open Bytes Bitmap OrderCode

/-! ### Keys -/

lemma ofInt_toInt (x : UInt64) : UInt64.ofInt x.toInt64.toInt = x := by
  rw [← UInt64.toNat_inj]
  have hcast : x.toInt64.toInt = (x.toNat : Int).bmod (2 ^ 64) := BitVec.toInt_eq_toNat_bmod _
  have hlt : x.toNat < 2 ^ 64 := x.toNat_lt
  have hnat : ((UInt64.ofInt x.toInt64.toInt).toNat : Int) = x.toInt64.toInt % (2 ^ 64 : Nat) := by
    simp [UInt64.ofInt]
    omega
  rw [hcast, Int.bmod_emod, ← Int.natCast_mod, Nat.mod_eq_of_lt hlt] at hnat
  rw [← hcast] at hnat
  exact Int.ofNat.inj hnat

/-- The sortable bits a float is read from are its own, unless they spell a negative zero. -/
lemma sortableFloat_floatOfSortable {bits : UInt64}
    (h : (floatOfSortable bits).isZero = true → (floatOfSortable bits).bits = 0) :
    sortableFloat (floatOfSortable bits) = bits := by
  have hnormal : (if (floatOfSortable bits).isZero then F64.zero else floatOfSortable bits) =
      floatOfSortable bits := by
    by_cases hzero : (floatOfSortable bits).isZero = true
    · rw [if_pos hzero, F64.zero, ← h hzero]
    · rw [if_neg hzero]
  unfold sortableFloat
  rw [hnormal]
  unfold floatOfSortable
  have hb : bits.toNat < 2 ^ 64 := bits.toNat_lt
  by_cases hset : bits &&& F64.signBit = 0
  · have hlow := (and_signBit_eq_zero bits).mp hset
    have hhigh : (~~~bits) &&& F64.signBit ≠ 0 := by
      rw [ne_eq, and_signBit_eq_zero, UInt64.toNat_not]
      have : UInt64.size = 2 ^ 64 := rfl
      omega
    simp [hset, hhigh]
  · have hlow : ¬ bits.toNat < 2 ^ 63 := fun hlt => hset ((and_signBit_eq_zero bits).mpr hlt)
    have hclear : (bits ^^^ F64.signBit) &&& F64.signBit = 0 := by
      rw [and_signBit_eq_zero, toNat_xor_signBit_high (by omega)]
      omega
    simp [hset, hclear, xor_signBit_cancel]

/-- A component that is read is the encoding of the value it is read as. -/
lemma component_written {key : List UInt8} {offset stop : Nat} {dataType : ColumnType}
    {ref : ValueRef} (hend : componentEnd key offset dataType = .ok stop)
    (hread : decodeComponent (slice key offset stop) dataType = .ok ref) :
    offset ≤ stop ∧ stop ≤ key.length ∧
      ∃ k, KeyValue.ofValue dataType ref.intoValue = some k ∧ k.code = slice key offset stop := by
  have hfixed : ∀ length, (if offset + length ≤ key.length then .ok (offset + length)
      else .error (storageCorrupt "A storage key component is truncated")) =
        (.ok stop : Result Nat) → stop = offset + length ∧ stop ≤ key.length := by
    intro length h
    split at h
    · cases h
      exact ⟨rfl, by omega⟩
    · cases h
  cases dataType with
  | boolean =>
    obtain ⟨rfl, hle⟩ := hfixed 1 hend
    refine ⟨by omega, hle, ?_⟩
    simp only [decodeComponent] at hread
    split at hread
    · rename_i hbytes
      cases hread
      exact ⟨.boolean false, rfl, by rw [hbytes]; rfl⟩
    · split at hread
      · rename_i hbytes
        cases hread
        exact ⟨.boolean true, rfl, by rw [hbytes]; rfl⟩
      · cases hread
  | integer =>
    obtain ⟨rfl, hle⟩ := hfixed 8 hend
    refine ⟨by omega, hle, ?_⟩
    generalize slice key offset (offset + 8) = bytes at hread ⊢
    simp only [decodeComponent] at hread
    split at hread
    · rename_i hlen
      split at hread
      · cases hread
      · rename_i hsafe
        cases hread
        refine ⟨.integer (UInt64.ofNat (ofBeBytes bytes) ^^^ F64.signBit).toInt64.toInt, ?_, ?_⟩
        · simp only [KeyValue.ofValue, ValueRef.intoValue,
            safeInteger_ofI64 (Nat.le_of_not_gt hsafe), Option.map_some]
        · have hbits : (UInt64.ofNat (ofBeBytes bytes)).toNat = ofBeBytes bytes := by
            have hlt := ofBeBytes_lt bytes
            rw [hlen] at hlt
            rw [UInt64.toNat_ofNat']
            exact Nat.mod_eq_of_lt hlt
          simp only [KeyValue.code, pushIntegerComponent, List.nil_append, ofInt_toInt,
            xor_signBit_cancel, hbits, beBytes_ofBeBytes hlen]
    · cases hread
  | float =>
    obtain ⟨rfl, hle⟩ := hfixed 8 hend
    refine ⟨by omega, hle, ?_⟩
    generalize slice key offset (offset + 8) = bytes at hread ⊢
    simp only [decodeComponent] at hread
    split at hread
    · rename_i hvalid
      cases hread
      unfold validEncodedFloatComponent at hvalid
      split at hvalid
      · rename_i hlen
        simp only [Bool.and_eq_true, Bool.or_eq_true, Bool.not_eq_true', beq_iff_eq] at hvalid
        obtain ⟨hfinite, hzero⟩ := hvalid
        have hbits : (UInt64.ofNat (ofBeBytes bytes)).toNat = ofBeBytes bytes := by
          have hlt := ofBeBytes_lt bytes
          rw [hlen] at hlt
          rw [UInt64.toNat_ofNat']
          exact Nat.mod_eq_of_lt hlt
        refine ⟨.float (floatOfSortable (UInt64.ofNat (ofBeBytes bytes))), ?_, ?_⟩
        · simp only [KeyValue.ofValue, ValueRef.intoValue, ofF64_of_finite hfinite, Value.asF64,
            Number.asF64, Option.filter, hfinite, if_true, Option.map_some]
        · have hback : sortableFloat (floatOfSortable (UInt64.ofNat (ofBeBytes bytes))) =
              UInt64.ofNat (ofBeBytes bytes) := by
            apply sortableFloat_floatOfSortable
            intro hz
            rcases hzero with hz' | hz'
            · simp [hz] at hz'
            · exact hz'
          simp only [KeyValue.code, pushFloatComponent, List.nil_append, hback, hbits,
            beBytes_ofBeBytes hlen]
      · cases hvalid
    · cases hread
  | text =>
    obtain ⟨bytes, post, hrest, hstop⟩ := textComponentEnd_eq_ok _ _ _ hend
    have hlen : (textCode bytes).length ≤ key.length - offset := by
      have := congrArg List.length hrest
      simp only [List.length_drop, List.length_append] at this
      omega
    have hpos : 0 < (textCode bytes).length := by simp [textCode]
    have hslice : slice key offset stop = textCode bytes := by
      rw [slice, hrest, hstop, Nat.add_sub_cancel_left, List.take_left]
    refine ⟨by omega, by omega, ?_⟩
    rw [hslice] at hread ⊢
    rw [decode_textCode] at hread
    cases hs : fromUtf8 bytes with
    | none => simp [hs] at hread
    | some s =>
      simp only [hs, Except.ok.injEq] at hread
      subst hread
      refine ⟨.text s, rfl, ?_⟩
      simp [KeyValue.code, pushTextComponent_eq, textBytes_of_fromUtf8 hs]
  | json => cases hend

/-- Components that are read are the encoding of the values they are read as. -/
lemma keyTuple_of_components {schema : TableDefinition} {row : Row} {key : List UInt8}
    {names : List String} {types : List ColumnType} (htypes : KeyTypes schema names types)
    {offset last : Nat} {components : List (List UInt8 × ValueRef)}
    (hoffset : offset ≤ key.length)
    (hread : readComponents key offset types = .ok (components, last))
    (hrow : List.Forall₂ (fun column component => row column.1 = some component.2.intoValue)
      (names.zip types) components) :
    ∃ tuple, keyTuple schema row names = some tuple ∧ tupleCode tuple = slice key offset last ∧
      offset ≤ last ∧ last ≤ key.length := by
  induction htypes generalizing offset components with
  | nil =>
    simp only [readComponents, Except.ok.injEq, Prod.mk.injEq] at hread
    obtain ⟨_, rfl⟩ := hread
    exact ⟨[], rfl, by simp [slice], Nat.le_refl _, hoffset⟩
  | @cons name dataType names types htype _ ih =>
    obtain ⟨stop, ref, rest, hend, hdecode, hrest, rfl⟩ := readComponents_cons.mp hread
    obtain ⟨hle, hlen, k, hk, hcode⟩ := component_written hend hdecode
    rw [List.zip_cons_cons] at hrow
    cases hrow with
    | cons hvalue hrow =>
      obtain ⟨tuple, htuple, htail, hstop, hlast⟩ := ih hlen hrest hrow
      refine ⟨(dataType, k) :: tuple, ?_, ?_, by omega, hlast⟩
      · exact (keyTuple_cons_eq_some schema row name names _).mpr
          ⟨dataType, ref.intoValue, k, tuple, htype, hvalue, hk, htuple, rfl⟩
      · rw [tupleCode_cons, hcode, htail, slice_append_slice hle hstop]

/-! ### Records -/

section Strict
variable {json : SerdeJson} {schema : TableDefinition} {layout : RecordLayout} {row : Row}
  {key value : List UInt8} {record : StoredRecord}

/-- A key is read whole, a component for each of its columns. -/
lemma keyRow_eq_ok (hshape : SchemaShape schema) (hlaid : LaidOut schema layout)
    (h : layout.keyRow schema key = .ok row) :
    ∃ components, readComponents key 0 layout.keyTypes = .ok (components, key.length) ∧
      List.Forall₂ (fun column component => row column.1 = some component.2.intoValue)
        (schema.primaryKey.zip layout.keyTypes) components := by
  have hlen := hlaid.types.length_eq
  have hfst : (schema.primaryKey.zip layout.keyTypes).map (fun column => column.1) =
      schema.primaryKey := List.map_fst_zip (by omega)
  have hsnd : (schema.primaryKey.zip layout.keyTypes).map (fun column => column.2) =
      layout.keyTypes := List.map_snd_zip (by omega)
  obtain ⟨⟨keyRow, offset⟩, hkey, h⟩ := Except.bind_eq_ok.mp h
  dsimp only at h
  split at h
  · cases h
  · next hend =>
    cases h
    rw [ne_eq, not_not] at hend
    obtain ⟨components, hread, hvalues, _⟩ :=
      (keyRowFrom_eq_ok (by rw [hfst]; exact hshape.key_nodup)).mp hkey
    exact ⟨components, by rw [← hsnd, hread, hend], hvalues⟩

/-- What a successful decoding read: the key's components, each stored column, and, where it is strict,
a record that passes the canonical check. -/
lemma decode_eq_ok {strict : Bool} (hshape : SchemaShape schema) (hlaid : LaidOut schema layout)
    (hschema : record.schema = schema) (hlayout : record.layout = layout)
    (h : record.decode json strict = .ok row) :
    (∃ components, readComponents record.key 0 layout.keyTypes =
        .ok (components, record.key.length) ∧
      List.Forall₂ (fun column component => row column.1 = some component.2.intoValue)
        (schema.primaryKey.zip layout.keyTypes) components) ∧
    (∀ column position, (storedDefinitions schema schema.columns)[position]? = some column →
      ∃ v, readAt json record strict (column, position) = .ok v ∧ row column.name = some v) ∧
    (strict = true → record.checkCanonical json row = .ok ()) := by
  have hlen := hlaid.types.length_eq
  have hfst : (schema.primaryKey.zip layout.keyTypes).map (fun column => column.1) =
      schema.primaryKey := List.map_fst_zip (by omega)
  obtain ⟨keyRow, hkey, h⟩ := Except.bind_eq_ok.mp h
  rw [hschema, hlayout] at hkey
  obtain ⟨components, hread, hvalues⟩ := keyRow_eq_ok hshape hlaid hkey
  obtain ⟨read, hloop, h⟩ := Except.bind_eq_ok.mp h
  rw [storedColumns_eq hlaid hschema hlayout, TinyJoin.decodeColumnsFrom_eq (by simp)] at hloop
  have hdecoded : read = row ∧ (strict = true → record.checkCanonical json row = .ok ()) := by
    cases strict with
    | false =>
      cases h
      exact ⟨rfl, fun h => by cases h⟩
    | true =>
      obtain ⟨_, hcheck, h⟩ := Except.bind_eq_ok.mp h
      cases h
      exact ⟨rfl, fun _ => hcheck⟩
  obtain ⟨rfl, hcheck⟩ := hdecoded
  obtain ⟨hstored, hothers⟩ := (readInto_eq_ok (storedNames_nodup hshape)).mp hloop
  refine ⟨⟨components, hread, ?_⟩, ?_, hcheck⟩
  · -- The loop over the stored columns leaves the key's columns as they were.
    have hkeep : ∀ column ∈ schema.primaryKey.zip layout.keyTypes,
        read column.1 = keyRow column.1 := by
      intro column hmem
      apply hothers
      intro hname
      obtain ⟨⟨stored, position⟩, hin, heq⟩ := List.mem_map.mp hname
      have hat := List.mk_mem_zipIdx_iff_getElem?.mp hin
      have hnot := (mem_of_storedDefinitions (List.mem_of_getElem? hat)).2
      apply hnot
      rw [heq, ← hfst]
      exact List.mem_map_of_mem hmem
    refine ((List.forall₂_and_left _ _).mpr ⟨hkeep, hvalues⟩).imp ?_
    rintro column component ⟨hsame, hvalue⟩
    rw [hsame, hvalue]
  · intro column position hat
    exact hstored (column, position) (List.mk_mem_zipIdx_iff_getElem?.mpr hat)

lemma toRowStrictly_eq_ok (hshape : SchemaShape schema) (hlaid : LaidOut schema layout)
    (hschema : record.schema = schema) (hlayout : record.layout = layout)
    (h : record.toRowStrictly json = .ok row) :
    (∃ components, readComponents record.key 0 layout.keyTypes =
        .ok (components, record.key.length) ∧
      List.Forall₂ (fun column component => row column.1 = some component.2.intoValue)
        (schema.primaryKey.zip layout.keyTypes) components) ∧
    (∀ column position, (storedDefinitions schema schema.columns)[position]? = some column →
      ∃ v, readAt json record true (column, position) = .ok v ∧ row column.name = some v) ∧
    record.checkCanonical json row = .ok () := by
  obtain ⟨hkey, hstored, hcheck⟩ := decode_eq_ok hshape hlaid hschema hlayout h
  exact ⟨hkey, hstored, hcheck rfl⟩

lemma exists_forall₂ {α β : Type} {related : α → β → Prop} {l : List α}
    (h : ∀ a ∈ l, ∃ b, related a b) : ∃ m, List.Forall₂ related l m := by
  induction l with
  | nil => exact ⟨[], .nil⟩
  | cons a l ih =>
    obtain ⟨b, hb⟩ := h a List.mem_cons_self
    obtain ⟨m, hm⟩ := ih (fun a' ha' => h a' (List.mem_cons_of_mem _ ha'))
    exact ⟨b :: m, .cons hb hm⟩

lemma forall₂_of_getElem? {α β : Type} {related : α → β → Prop} {x : List α} {y : List β}
    (hlen : x.length = y.length)
    (h : ∀ (index : Nat) a b, x[index]? = some a → y[index]? = some b → related a b) :
    List.Forall₂ related x y := by
  induction x generalizing y with
  | nil =>
    cases y with
    | nil => exact .nil
    | cons b y => simp at hlen
  | cons a x ih =>
    cases y with
    | nil => simp at hlen
    | cons b y =>
      refine .cons (h 0 a b rfl rfl) (ih (by simpa using hlen) ?_)
      intro index a' b' ha hb
      exact h (index + 1) a' b' (by simpa using ha) (by simpa using hb)

/-- What a stored column reads as, and how it would be written again. -/
def Rewritten (json : SerdeJson) (schema : TableDefinition) (record : StoredRecord) (row : Row)
    (column : ColumnDefinition × Nat) (cell : Cell) : Prop :=
  (∃ v, row column.1.name = some v ∧
    encodeCell json schema.name (column.1, .value v) = .ok cell) ∧
  (column.2 < record.count → record.storedBytes column.2 = .ok cell) ∧
  (record.count ≤ column.2 → isDefault json column.1 cell schema.name = .ok true)

/-- Nothing follows a header that stores no column. -/
def NoTrailingBytes (record : StoredRecord) : Prop :=
  record.count = 0 → record.value.length = recordHeaderBytes

/-- No stored column holds the JSON text `null` without being marked NULL. -/
def NoJsonNull (record : StoredRecord) : Prop :=
  ∀ column position, (column, position) ∈ record.storedColumns → column.dataType = .json →
    position < record.count → record.storedBytes position ≠ .ok (some (textBytes "null"))

/-- Every default the record leaves out can be written. -/
def OmittedDefaultsEncode (json : SerdeJson) (record : StoredRecord) : Prop :=
  ∀ column position default, (column, position) ∈ record.storedColumns →
    record.count ≤ position → column.default = some default → default.isNull = false →
    ∃ bytes, encodeValue json column default [] record.schema.name = .ok bytes

/-- Strict decoding accepts only the canonical text of the JSON it reads. -/
lemma decodeValue_json_strict {bytes : List UInt8} {ref : ValueRef}
    (h : decodeValue json .json bytes true = .ok ref) :
    ∃ v, ref = .json v ∧ encodeCanonicalJson json v = .ok bytes := by
  simp only [decodeValue, if_true, decodeCanonicalJson, bind, Except.bind] at h
  cases hparse : json.fromSlice bytes with
  | error e => simp [hparse] at h
  | ok v =>
    cases hencode : encodeCanonicalJson json v with
    | error e => simp [hparse, hencode] at h
    | ok encoded =>
      simp only [hparse, hencode] at h
      by_cases hsame : encoded = bytes
      · simp only [hsame, if_true, pure, Except.pure, Except.ok.injEq] at h
        exact ⟨v, h.symm, by rw [hencode, hsame]⟩
      · simp [hsame] at h

lemma decodeValue_not_null {dataType : ColumnType} {bytes : List UInt8} {ref : ValueRef}
    (h : decodeValue json dataType bytes true = .ok ref)
    (hjson : dataType = .json → bytes ≠ textBytes "null") : ref.intoValue.isNull = false := by
  cases dataType with
  | boolean =>
    simp only [decodeValue] at h
    split at h
    · cases h
      rfl
    · split at h
      · cases h
        rfl
      · cases h
  | integer =>
    simp only [decodeValue] at h
    split at h
    · cases h
    · split at h
      · split at h
        · cases h
          exact ofI64_not_null _
        · cases h
      · cases h
  | float =>
    simp only [decodeValue] at h
    split at h
    · split at h
      · rename_i hfinite
        cases h
        rw [ValueRef.intoValue, ofF64_of_finite hfinite]
        rfl
      · cases h
    · cases h
  | text =>
    simp only [decodeValue] at h
    split at h
    · cases h
      rfl
    · cases h
  | json =>
    obtain ⟨v, rfl, hcanonical⟩ := decodeValue_json_strict h
    rw [Bool.eq_false_iff]
    intro hnull
    have hv : v = .null := isNull_eq_true.mp hnull
    rw [hv, encodeCanonicalJson_null] at hcanonical
    cases hcanonical
    exact hjson rfl rfl

/-- Each stored column of a strictly decoded record would be written as it stands. -/
lemma rewritten_of_read {column : ColumnDefinition} {position : Nat} {v : Value}
    (hread : readAt json record true (column, position) = .ok v)
    (hvalue : row column.name = some v)
    (hjson : column.dataType = .json → position < record.count →
      record.storedBytes position ≠ .ok (some (textBytes "null")))
    (hdefault : record.count ≤ position → ∀ default, column.default = some default →
      default.isNull = false → ∃ bytes, encodeValue json column default [] schema.name = .ok bytes) :
    ∃ cell, Rewritten json schema record row (column, position) cell := by
  unfold readAt at hread
  by_cases hpast : position ≥ record.count
  · simp only [if_pos hpast, Except.ok.injEq] at hread
    subst hread
    cases hfilter : column.default.filter (fun value => !value.isNull) with
    | none =>
      refine ⟨none, ⟨_, hvalue, ?_⟩, by omega, ?_⟩
      · rw [storedDefault_null hfilter]
        rfl
      · intro _
        simp [isDefault, hfilter]
    | some default =>
      obtain ⟨hsome, hnull⟩ := Option.filter_eq_some_iff.mp hfilter
      have hnull' : default.isNull = false := by simpa using hnull
      obtain ⟨bytes, hbytes⟩ := hdefault hpast default hsome hnull'
      obtain ⟨hholds, hback, _⟩ := storedDefault_encodes hsome hnull' hbytes
      refine ⟨some bytes, ⟨_, hvalue, ?_⟩, by omega, ?_⟩
      · simp [encodeCell, holds_not_null hholds, hback, Except.map]
      · intro _
        simp [isDefault, hfilter, hbytes, bind, Except.bind, pure, Except.pure]
  · simp only [if_neg hpast, bind, Except.bind] at hread
    cases hcell : record.storedBytes position with
    | error e => simp [hcell] at hread
    | ok cell =>
      refine ⟨cell, ⟨v, hvalue, ?_⟩, fun _ => hcell, by omega⟩
      cases cell with
      | none =>
        simp only [hcell, pure, Except.pure, Except.ok.injEq] at hread
        subst hread
        rfl
      | some bytes =>
        simp only [hcell] at hread
        cases href : decodeValue json column.dataType bytes true with
        | error e => simp [href] at hread
        | ok ref =>
          simp only [href, pure, Except.pure, Except.ok.injEq] at hread
          subst hread
          have hnull := decodeValue_not_null href (by
            intro hj heq
            exact hjson hj (by omega) (by rw [hcell, heq]))
          simp [encodeCell, hnull, encodeValue_decodeValue href hnull, Except.map]

/-- The stored columns of a strictly decoded record, with the values read and the cells they
would be written as. -/
structure Rereads (json : SerdeJson) (schema : TableDefinition) (record : StoredRecord) (row : Row)
    (columns : List (ColumnDefinition × StoredValue)) (cells : List Cell) : Prop where
  values : List.Forall₂ (fun column stored => ∃ v, row column.name = some v ∧
    stored = (column, StoredValue.value v)) (storedDefinitions schema schema.columns) columns
  length : (storedDefinitions schema schema.columns).length = cells.length
  cell : ∀ (position : Nat) column,
    (storedDefinitions schema schema.columns)[position]? = some column →
    ∃ v cell, columns[position]? = some (column, .value v) ∧ row column.name = some v ∧
      cells[position]? = some cell ∧
      encodeCell json schema.name (column, .value v) = .ok cell ∧
      Rewritten json schema record row (column, position) cell

lemma exists_rereads
    (hstored : ∀ column position,
      (storedDefinitions schema schema.columns)[position]? = some column →
      ∃ v, readAt json record true (column, position) = .ok v ∧ row column.name = some v)
    (hrewritten : ∀ column ∈ (storedDefinitions schema schema.columns).zipIdx,
      ∃ cell, Rewritten json schema record row column cell) :
    ∃ columns cells, Rereads json schema record row columns cells := by
  obtain ⟨cells, hcells⟩ := exists_forall₂ hrewritten
  have hpresent : ∀ column ∈ storedDefinitions schema schema.columns, ∃ stored,
      ∃ v, row column.name = some v ∧ stored = (column, StoredValue.value v) := by
    intro column hmem
    obtain ⟨position, hat⟩ := List.mem_iff_getElem?.mp hmem
    obtain ⟨v, _, hrow⟩ := hstored column position hat
    exact ⟨_, v, hrow, rfl⟩
  obtain ⟨columns, hvalues⟩ := exists_forall₂ hpresent
  refine ⟨columns, cells, hvalues, by simpa using hcells.length_eq, ?_⟩
  intro position column hat
  obtain ⟨_, hcolumn, v, hrow, rfl⟩ := forall₂_getElem? hvalues hat
  have hzip : (storedDefinitions schema schema.columns).zipIdx[position]? =
      some (column, position) := by
    rw [List.getElem?_zipIdx, hat]
    simp
  obtain ⟨cell, hat', hr⟩ := forall₂_getElem? hcells hzip
  obtain ⟨v', hrow', hencode⟩ := hr.1
  rw [hrow] at hrow'
  cases hrow'
  exact ⟨v, cell, hcolumn, hrow, hat', hencode, hr⟩

section Reread
variable {columns : List (ColumnDefinition × StoredValue)} {cells : List Cell}

lemma Rereads.at (h : Rereads json schema record row columns cells) {position : Nat}
    (hlt : position < cells.length) :
    ∃ column, (storedDefinitions schema schema.columns)[position]? = some column := by
  have hlen := h.length
  exact ⟨_, List.getElem?_eq_getElem (by omega)⟩

lemma Rereads.encodes (h : Rereads json schema record row columns cells) :
    Encodes json schema.name columns cells := by
  apply forall₂_of_getElem?
  · have hcolumns := h.values.length_eq
    have hcells := h.length
    omega
  · intro position stored cell hs hc
    obtain ⟨column, hcolumn⟩ := h.at (List.getElem?_eq_some_iff.mp hc).1
    obtain ⟨v, cell', h1, _, h2, hencode, _⟩ := h.cell position column hcolumn
    rw [hs] at h1
    rw [hc] at h2
    cases h1
    cases h2
    exact hencode

/-- The canonical check leaves exactly the trailing defaults out. -/
lemma Rereads.trims (h : Rereads json schema record row columns cells)
    (hschema : record.schema = schema)
    (hcolumns : record.storedColumns = (storedDefinitions schema schema.columns).zipIdx)
    (hle : record.count ≤ cells.length) (hcheck : record.checkCanonical json row = .ok ()) :
    Trims json schema.name columns cells record.count := by
  obtain ⟨_, hlast⟩ := checkCanonical_eq_ok.mp hcheck
  refine ⟨h.encodes, hle, ?_, ?_⟩
  · intro position hpast hlt
    obtain ⟨column, hcolumn⟩ := h.at hlt
    obtain ⟨v, cell, h1, _, h2, _, hr⟩ := h.cell position column hcolumn
    exact ⟨(column, .value v), cell, h1, h2, hr.2.2 hpast⟩
  · intro hpos
    obtain ⟨column, hcolumn⟩ := h.at (show record.count - 1 < cells.length by omega)
    obtain ⟨v, cell, h1, hrow, h2, hencode, _⟩ := h.cell _ column hcolumn
    obtain ⟨cell', hrowCell, hdefault⟩ := hlast column (record.count - 1) hpos (by
      rw [hcolumns, List.getElem?_zipIdx, hcolumn]
      simp)
    rw [hschema] at hrowCell hdefault
    simp only [rowCell, hrow] at hrowCell
    rw [hencode] at hrowCell
    cases hrowCell
    exact ⟨(column, .value v), cell, h1, h2, hdefault⟩

lemma Rereads.frames (h : Rereads json schema record row columns cells)
    (hle : record.count ≤ cells.length) : Frames record (cells.take record.count) := by
  refine ⟨by rw [List.length_take]; omega, ?_⟩
  intro position cell hc
  have hlt : position < record.count := by
    have hshort := (List.getElem?_eq_some_iff.mp hc).1
    rw [List.length_take] at hshort
    omega
  rw [List.getElem?_take, if_pos hlt] at hc
  obtain ⟨column, hcolumn⟩ := h.at (show position < cells.length by omega)
  obtain ⟨_, cell', _, _, h2, _, hr⟩ := h.cell position column hcolumn
  rw [hc] at h2
  cases h2
  exact hr.2.1 hlt

end Reread

/-- A strictly decoded entry that meets the unchecked conditions is written as it stands. -/
lemma encode_of_strict (hshape : SchemaShape schema) (hlaid : LaidOut schema layout)
    (hnew : StoredRecord.new schema layout key value = .ok record)
    (hstrict : record.toRowStrictly json = .ok row) (hkey : key.length ≤ maxBtreeKeyBytes)
    (hvalue : value.length ≤ maxPagedValueBytes) (htrailing : NoTrailingBytes record)
    (hjson : NoJsonNull record) (hdefaults : OmittedDefaultsEncode json record) :
    encodePrimaryKey schema row = .ok key ∧ encodeRow json schema row = .ok value := by
  obtain ⟨flags, count, offsets, hbytes, hschema, hlayout, hk, hself, hcount, _, _, _, _, hoffsets,
    hfit⟩ := new_eq_ok hnew
  have hcolumns := storedColumns_eq hlaid hschema hlayout
  obtain ⟨⟨components, hread, hcomponents⟩, hstored, hcheck⟩ :=
    toRowStrictly_eq_ok hshape hlaid hschema hlayout hstrict
  constructor
  · obtain ⟨tuple, htuple, hcode, _⟩ := keyTuple_of_components hlaid.types (Nat.zero_le _) hread
      hcomponents
    rw [hk, slice_zero_length] at hcode
    exact encodePrimaryKey_eq_ok.mpr ⟨hshape.key_ne_nil, tuple, htuple, hcode.symm, hkey⟩
  · have hrewritten : ∀ column ∈ (storedDefinitions schema schema.columns).zipIdx,
        ∃ cell, Rewritten json schema record row column cell := by
      rintro ⟨column, position⟩ hmem
      obtain ⟨v, hv, hrow⟩ := hstored column position (List.mk_mem_zipIdx_iff_getElem?.mp hmem)
      rw [← hcolumns] at hmem
      refine rewritten_of_read hv hrow (hjson column position hmem) ?_
      intro hpast default hdefault hnull
      exact hschema ▸ hdefaults column position default hmem hpast hdefault hnull
    obtain ⟨columns, cells, hreread⟩ := exists_rereads hstored hrewritten
    have hle : record.count ≤ cells.length := by
      have hlength := hlaid.length
      have hcells := hreread.length
      omega
    have hframes := hreread.frames hle
    have hlayoutBytes : value = recordBytes (cells.take record.count) := by
      refine hframes.value_eq hnew (checkCanonical_eq_ok.mp hcheck).1 ?_
      intro hempty
      have hzero : record.count = 0 := by
        rw [hframes.count, hempty, List.length_nil]
      have htotal := htrailing hzero
      rw [hself, hbytes] at htotal
      simp only [List.length_append, List.length_cons, List.length_nil, recordHeaderBytes]
        at htotal
      exact List.length_eq_zero_iff.mp (by omega)
    have hbyte : record.count ≤ 255 := by
      have hlt := count.toNat_lt
      omega
    simp only [encodeRow, storedValues_eq_ok.mpr hreread.values, bind, Except.bind]
    exact encodeStoredValues_eq_ok.mpr ⟨cells, record.count,
      hreread.trims hschema hcolumns hle hcheck, hlayoutBytes, hvalue, hbyte⟩

/-- A strictly decoded record that is written as it stands meets the unchecked conditions. -/
lemma unchecked_of_encode (hshape : SchemaShape schema) (hlaid : LaidOut schema layout)
    (hnew : StoredRecord.new schema layout key value = .ok record)
    (hstrict : record.toRowStrictly json = .ok row)
    (hvalue : encodeRow json schema row = .ok value)
    (hnull : json.fromSlice (textBytes "null") = .ok .null) :
    value.length ≤ maxPagedValueBytes ∧ NoTrailingBytes record ∧ NoJsonNull record ∧
      OmittedDefaultsEncode json record := by
  obtain ⟨record', columns, cells, kept, hnew', hwritten, hschema, hlayout, _, _, hbytes, hfits⟩ :=
    written_of_encodeRow key hlaid hvalue
  rw [hnew] at hnew'
  cases hnew'
  have hcolumns := storedColumns_eq hlaid hschema hlayout
  have hcount := hwritten.count_eq
  obtain ⟨_, _, _, _, _, _, _, hself, _⟩ := new_eq_ok hnew
  obtain ⟨_, hstored, _⟩ := toRowStrictly_eq_ok hshape hlaid hschema hlayout hstrict
  refine ⟨hfits, ?_, ?_, ?_⟩
  · intro hzero
    rw [hself, hbytes, ← hcount, hzero, List.take_zero, length_recordBytes]
    rfl
  · intro column position hmem hjson hlt hcell
    rw [hcolumns] at hmem
    have hat := List.mk_mem_zipIdx_iff_getElem?.mp hmem
    obtain ⟨v, hread, hrow⟩ := hstored column position hat
    obtain ⟨_, hs, v', hrow', rfl⟩ := forall₂_getElem? hwritten.values hat
    rw [hrow] at hrow'
    cases hrow'
    obtain ⟨cell, hc, hencode⟩ := forall₂_getElem? hwritten.trims.encodes hs
    have hframe := hwritten.frames.cell position cell (by
      rw [List.getElem?_take, if_pos (by omega)]
      exact hc)
    rw [hcell] at hframe
    cases hframe
    -- The text is read as a null, which would have been written as NULL.
    have hv : v.isNull = false := by
      simpa [StoredValue.isNull] using encodeCell_isNull hencode
    simp only [readAt, if_neg (show ¬ position ≥ record.count by omega), hcell, bind, Except.bind]
      at hread
    cases href : decodeValue json column.dataType (textBytes "null") true with
    | error e => simp [href] at hread
    | ok ref =>
      simp only [href, pure, Except.pure, Except.ok.injEq] at hread
      rw [hjson] at href
      simp only [decodeValue, if_true, decodeCanonicalJson, hnull, encodeCanonicalJson_null, bind,
        Except.bind, pure, Except.pure, Except.ok.injEq] at href
      rw [← hread, ← href] at hv
      cases hv
  · intro column position default hmem hpast hdefault hdn
    rw [hcolumns] at hmem
    have hat := List.mk_mem_zipIdx_iff_getElem?.mp hmem
    obtain ⟨_, hs, v, _, rfl⟩ := forall₂_getElem? hwritten.values hat
    obtain ⟨cell, hc, _⟩ := forall₂_getElem? hwritten.trims.encodes hs
    obtain ⟨hlt, _⟩ := List.getElem?_eq_some_iff.mp hc
    obtain ⟨column', cell', h1, h2, hd⟩ := hwritten.trims.tail position (by omega) hlt
    rw [hs] at h1
    cases h1
    rw [hschema]
    rcases isDefault_eq_true hd with ⟨hnone, _⟩ | ⟨default', bytes, hsome, _, _, hwrite⟩
    · simp [hdefault, Option.filter, hdn] at hnone
    · rw [hdefault] at hsome
      cases hsome
      exact ⟨bytes, hwrite⟩

/-- Strict decoding accepts only what this engine would write, exactly when the key and the
record fit, no bytes follow a header that stores no column, no stored column holds the JSON text
`null`, and every default left out can be written. -/
theorem strict_decoding_canonical_iff (json : SerdeJson) (schema : TableDefinition)
    (layout : RecordLayout) (key value : List UInt8) (record : StoredRecord) (row : Row)
    (hvalid : validateSchemaShape schema = .ok ()) (hlayout : RecordLayout.new schema = .ok layout)
    (hnull : json.fromSlice (textBytes "null") = .ok .null)
    (hnew : StoredRecord.new schema layout key value = .ok record)
    (hstrict : record.toRowStrictly json = .ok row) :
    (encodePrimaryKey schema row = .ok key ∧ encodeRow json schema row = .ok value) ↔
      (key.length ≤ maxBtreeKeyBytes ∧ value.length ≤ maxPagedValueBytes ∧
        NoTrailingBytes record ∧ NoJsonNull record ∧ OmittedDefaultsEncode json record) := by
  have hshape := schemaShape_of_valid hvalid
  obtain ⟨layout', hlayout', hlaid⟩ := layout_new hshape
  rw [hlayout] at hlayout'
  cases hlayout'
  constructor
  · rintro ⟨hkey, hvalue⟩
    obtain ⟨_, _, _, _, hfits⟩ := encodePrimaryKey_eq_ok.mp hkey
    obtain ⟨hsize, hconditions⟩ := unchecked_of_encode hshape hlaid hnew hstrict hvalue hnull
    exact ⟨hfits, hsize, hconditions⟩
  · rintro ⟨hkey, hvalue, htrailing, hjson, hdefaults⟩
    exact encode_of_strict hshape hlaid hnew hstrict hkey hvalue htrailing hjson hdefaults

theorem strict_decoding_canonical_iff_gauge :
    ∃ layout record row, RecordLayout.new gauges = .ok layout ∧
      StoredRecord.new gauges layout [191, 240, 0, 0, 0, 0, 0, 0]
        [4, 2, 1, 0, 102, 97, 108, 115, 101] = .ok record ∧
      record.toRowStrictly literalJson = .ok row ∧
      ((encodePrimaryKey gauges row = .ok [191, 240, 0, 0, 0, 0, 0, 0] ∧
          encodeRow literalJson gauges row = .ok [4, 2, 1, 0, 102, 97, 108, 115, 101]) ↔
        (8 ≤ maxBtreeKeyBytes ∧ 9 ≤ maxPagedValueBytes ∧ NoTrailingBytes record ∧
          NoJsonNull record ∧ OmittedDefaultsEncode literalJson record)) := by
  refine ⟨_, _, _, rfl, rfl, rfl, ?_⟩
  exact strict_decoding_canonical_iff literalJson gauges _ [191, 240, 0, 0, 0, 0, 0, 0]
    [4, 2, 1, 0, 102, 97, 108, 115, 101] _ _ rfl rfl rfl rfl rfl

/-- A byte after the header of a record that stores no column is read by no one. -/
theorem strict_decoding_accepts_trailing_byte :
    ¬ ∀ (json : SerdeJson) (schema : TableDefinition) (layout : RecordLayout)
      (key value : List UInt8) (record : StoredRecord) (row : Row),
      validateSchemaShape schema = .ok () → RecordLayout.new schema = .ok layout →
      json.fromSlice (textBytes "null") = .ok .null →
      StoredRecord.new schema layout key value = .ok record →
      record.toRowStrictly json = .ok row →
      encodePrimaryKey schema row = .ok key ∧ encodeRow json schema row = .ok value := by
  intro h
  have hvalue := (h literalJson gauges _ [191, 240, 0, 0, 0, 0, 0, 0] [0, 0, 5] _ _ rfl rfl rfl rfl
    rfl).2
  cases hvalue

end Strict

end TinyJoin
