import TinyJoin.RecordValues
import Mathlib.Data.List.Forall2

/-! A record as the list of its stored cells. `recordBytes` is the one canonical layout of a list
of cells: writing a record lays out the cells its columns encode, less a tail of defaults, and a
record that strict decoding accepts is the layout of the cells it is read as. -/
namespace TinyJoin
open Bytes Bitmap

/-- A stored column's encoding, or `none` for NULL. -/
abbrev Cell : Type := Option (List UInt8)

/-- Where each cell ends, when the first starts at `start`, and whether it is NULL. -/
def cellEnds : Nat → List Cell → List (Nat × Bool)
  | _, [] => []
  | start, cell :: cells =>
    (start + (cell.getD []).length, cell.isNone) :: cellEnds (start + (cell.getD []).length) cells

def cellData (cells : List Cell) : List UInt8 := cells.flatMap (fun cell => cell.getD [])

def hasNulls (cells : List Cell) : Bool := cells.any (fun cell => cell.isNone)

/-- The offset that decides the width: where the last cell but one ends. -/
def largestOffset (cells : List Cell) : Nat :=
  if cells.length ≥ 2 then startOf (cellEnds 0 cells) (cells.length - 1) else 0

def bitmapBytes (cells : List Cell) : Nat := if hasNulls cells then (cells.length + 7) / 8 else 0

def recordFlags (cells : List Cell) : UInt8 :=
  (offsetWidth (largestOffset cells)).1 ||| (if hasNulls cells then recordHasNulls else 0)

def offsetBytes (width : Nat) (ends : List (Nat × Bool)) : List UInt8 :=
  ends.flatMap (fun stop => leBytes width stop.1)

def recordBytes (cells : List Cell) : List UInt8 :=
  [recordFlags cells, UInt8.ofNat cells.length] ++
    nullBitmap (bitmapBytes cells) (cells.map (fun cell => cell.isNone)) ++
    offsetBytes (offsetWidth (largestOffset cells)).2
      (cellEnds 0 (cells.take (cells.length - 1))) ++ cellData cells

/-! ### Cells and their ends -/

@[simp] lemma length_cellEnds (start : Nat) (cells : List Cell) :
    (cellEnds start cells).length = cells.length := by
  induction cells generalizing start with
  | nil => rfl
  | cons cell cells ih => simp [cellEnds, ih]

@[simp] lemma cellData_nil : cellData [] = [] := rfl

lemma cellData_cons (cell : Cell) (cells : List Cell) :
    cellData (cell :: cells) = cell.getD [] ++ cellData cells := by
  simp [cellData]

lemma cellEnds_take (start count : Nat) (cells : List Cell) :
    (cellEnds start cells).take count = cellEnds start (cells.take count) := by
  induction cells generalizing start count with
  | nil => simp [cellEnds]
  | cons cell cells ih =>
    cases count with
    | zero => simp [cellEnds]
    | succ count => simp [cellEnds, ih]

lemma cellEnds_map_snd (start : Nat) (cells : List Cell) :
    (cellEnds start cells).map (fun stop => stop.2) = cells.map (fun cell => cell.isNone) := by
  induction cells generalizing start with
  | nil => rfl
  | cons cell cells ih => simp [cellEnds, ih]

/-- A cell ends as far in as the cells up to it are long. -/
lemma cellEnds_getElem? {start position : Nat} {cells : List Cell} (h : position < cells.length) :
    (cellEnds start cells)[position]? =
      some (start + (cellData (cells.take (position + 1))).length, cells[position].isNone) := by
  induction cells generalizing start position with
  | nil => simp at h
  | cons cell cells ih =>
    cases position with
    | zero => simp [cellEnds, cellData]
    | succ position =>
      simp only [cellEnds, List.getElem?_cons_succ, List.take_succ_cons, cellData_cons,
        List.length_append, List.getElem_cons_succ]
      rw [ih (by simpa using h), Nat.add_assoc]

lemma startOf_cellEnds {position : Nat} {cells : List Cell} (h : position ≤ cells.length) :
    startOf (cellEnds 0 cells) position = (cellData (cells.take position)).length := by
  unfold startOf
  cases position with
  | zero => simp
  | succ position =>
    simp [List.getD, cellEnds_getElem? (Nat.lt_of_succ_le h)]

lemma cellData_append (x y : List Cell) : cellData (x ++ y) = cellData x ++ cellData y := by
  simp [cellData]

lemma cellData_take_succ {position : Nat} {cells : List Cell} (h : position < cells.length) :
    cellData (cells.take (position + 1)) =
      cellData (cells.take position) ++ cells[position].getD [] := by
  rw [List.take_succ_eq_append_getElem h, cellData_append, cellData_cons, cellData_nil,
    List.append_nil]

lemma cellData_split (count : Nat) (cells : List Cell) :
    cellData cells = cellData (cells.take count) ++ cellData (cells.drop count) := by
  rw [← cellData_append, List.take_append_drop]

/-- The data between two ends is the cell between them. -/
lemma slice_cellData {position : Nat} {cells : List Cell} (h : position < cells.length) :
    slice (cellData cells) (cellData (cells.take position)).length
      (cellData (cells.take (position + 1))).length = cells[position].getD [] := by
  rw [cellData_split (position + 1) cells, cellData_take_succ h, List.append_assoc]
  exact slice_of_append rfl (by simp)

/-! ### Writing a record -/

section Writing
variable {json : SerdeJson} {table : String}

/-- The cell a column's value is stored as. -/
def encodeCell (json : SerdeJson) (table : String) (column : ColumnDefinition × StoredValue) :
    Result Cell :=
  match column.2 with
  | .value v =>
    if v.isNull then .ok none else (encodeValue json column.1 v [] table).map some
  | .encoded bytes => .ok bytes

/-- The cells of a record's columns, before a tail of defaults is omitted. -/
def Encodes (json : SerdeJson) (table : String) :
    List (ColumnDefinition × StoredValue) → List Cell → Prop :=
  List.Forall₂ (fun column cell => encodeCell json table column = .ok cell)

lemma encodeCell_isNull {column : ColumnDefinition × StoredValue} {cell : Cell}
    (h : encodeCell json table column = .ok cell) : column.2.isNull = cell.isNone := by
  unfold encodeCell at h
  split at h
  · rename_i v hv
    split at h
    · rename_i hnull
      cases h
      simp [hv, StoredValue.isNull, hnull]
    · rename_i hnull
      cases hb : encodeValue json column.1 v [] table with
      | error e => simp [hb, Except.map] at h
      | ok bytes =>
        simp only [hb, Except.map, Except.ok.injEq] at h
        simpa [hv, StoredValue.isNull, ← h] using hnull
  · rename_i bytes hb
    cases h
    simp [hb, StoredValue.isNull]

lemma encodeValues_cons (data : List UInt8) (column : ColumnDefinition × StoredValue)
    (columns : List (ColumnDefinition × StoredValue)) :
    encodeValues json table data (column :: columns) = do
      let cell ← encodeCell json table column
      let (all, ends) ← encodeValues json table (data ++ cell.getD []) columns
      return (all, ((data ++ cell.getD []).length, column.2.isNull) :: ends) := by
  obtain ⟨definition, stored⟩ := column
  cases stored with
  | value v =>
    by_cases hnull : v.isNull = true
    · simp [encodeValues, encodeCell, hnull, bind, Except.bind]
    · rw [encodeValues, encodeCell, encodeValue_append]
      simp only [hnull, Bool.false_eq_true, if_false]
      cases encodeValue json definition v [] table <;> rfl
  | encoded bytes => rfl

lemma encodeValues_eq_ok {columns : List (ColumnDefinition × StoredValue)}
    {data out : List UInt8} {ends : List (Nat × Bool)} :
    encodeValues json table data columns = .ok (out, ends) ↔
      ∃ cells, Encodes json table columns cells ∧ out = data ++ cellData cells ∧
        ends = cellEnds data.length cells := by
  induction columns generalizing data out ends with
  | nil =>
    simp only [encodeValues, Except.ok.injEq, Prod.mk.injEq, Encodes, List.forall₂_nil_left_iff]
    constructor
    · rintro ⟨rfl, rfl⟩
      exact ⟨[], rfl, by simp, rfl⟩
    · rintro ⟨cells, rfl, rfl, rfl⟩
      exact ⟨by simp, rfl⟩
  | cons column columns ih =>
    rw [encodeValues_cons]
    cases hcell : encodeCell json table column with
    | error e =>
      simp only [bind, Except.bind, reduceCtorEq, false_iff]
      rintro ⟨cells, hcells, _⟩
      cases hcells with
      | cons h _ => simp [hcell] at h
    | ok cell =>
      simp only [bind, Except.bind]
      constructor
      · intro h
        cases hrest : encodeValues json table (data ++ cell.getD []) columns with
        | error e => simp [hrest] at h
        | ok rest =>
          obtain ⟨all, ends'⟩ := rest
          obtain ⟨cells, hcells, rfl, rfl⟩ := ih.mp hrest
          simp only [hrest, pure, Except.pure, Except.ok.injEq, Prod.mk.injEq] at h
          obtain ⟨rfl, rfl⟩ := h
          refine ⟨cell :: cells, .cons hcell hcells, ?_, ?_⟩
          · simp [cellData_cons]
          · simp [cellEnds, encodeCell_isNull hcell]
      · rintro ⟨cells, hcells, rfl, rfl⟩
        cases hcells with
        | @cons _ cell' _ cells h hrest =>
          rw [hcell] at h
          cases h
          have hgoal : encodeValues json table (data ++ cell.getD []) columns =
              .ok (data ++ cell.getD [] ++ cellData cells,
                cellEnds (data ++ cell.getD []).length cells) :=
            ih.mpr ⟨cells, hrest, rfl, rfl⟩
          simp [hgoal, pure, Except.pure, cellData_cons, cellEnds, encodeCell_isNull hcell]

/-- Whether a column of the record holds its default, as the trailing loop asks. -/
def HoldsDefault (json : SerdeJson) (table : String)
    (columns : List (ColumnDefinition × StoredValue)) (cells : List Cell) (position : Nat)
    (answer : Bool) : Prop :=
  ∃ column cell, columns[position]? = some column ∧ cells[position]? = some cell ∧
    isDefault json column.1 cell table = .ok answer

lemma storedCount_succ {columns : List (ColumnDefinition × StoredValue)} {cells : List Cell}
    {count : Nat} {column : ColumnDefinition × StoredValue} {cell : Cell}
    (hcolumn : columns[count]? = some column) (hcell : cells[count]? = some cell) :
    storedCount json table columns (cellData cells) (cellEnds 0 cells) (count + 1) = do
      if ← isDefault json column.1 cell table then
        storedCount json table columns (cellData cells) (cellEnds 0 cells) count
      else return count + 1 := by
  obtain ⟨hlt, hget⟩ := List.getElem?_eq_some_iff.mp hcell
  have hvalue : (if cell.isNone then none
      else some (slice (cellData cells) (startOf (cellEnds 0 cells) count)
        (0 + (cellData (cells.take (count + 1))).length))) = cell := by
    rw [startOf_cellEnds (by omega), Nat.zero_add, slice_cellData hlt, hget]
    cases cell <;> rfl
  simp only [storedCount, hcolumn, List.getD, cellEnds_getElem? hlt, Option.getD_some, hget,
    hvalue]

/-- The loop from the last of `count` columns back keeps the first `kept` of them: those past
them hold their defaults, and the last kept does not. -/
lemma storedCount_eq_ok {columns : List (ColumnDefinition × StoredValue)} {cells : List Cell}
    (hlen : columns.length = cells.length) {count kept : Nat} (hcount : count ≤ cells.length) :
    storedCount json table columns (cellData cells) (cellEnds 0 cells) count = .ok kept ↔
      kept ≤ count ∧ (∀ position, kept ≤ position → position < count →
        HoldsDefault json table columns cells position true) ∧
      (0 < kept → HoldsDefault json table columns cells (kept - 1) false) := by
  induction count with
  | zero =>
    simp only [storedCount, Except.ok.injEq]
    constructor
    · rintro rfl
      exact ⟨Nat.le_refl 0, by omega, by omega⟩
    · rintro ⟨h, _⟩
      omega
  | succ count ih =>
    obtain ⟨column, hcolumn⟩ : ∃ column, columns[count]? = some column :=
      ⟨_, List.getElem?_eq_getElem (by omega)⟩
    obtain ⟨cell, hcell⟩ : ∃ cell, cells[count]? = some cell :=
      ⟨_, List.getElem?_eq_getElem (by omega)⟩
    have hone : ∀ answer, HoldsDefault json table columns cells count answer ↔
        isDefault json column.1 cell table = .ok answer := by
      intro answer
      simp [HoldsDefault, hcolumn, hcell]
    -- Whatever the default's answer, a different count would need another one.
    have hfirst : ∀ answer, isDefault json column.1 cell table ≠ .ok answer →
        ¬ HoldsDefault json table columns cells count answer := by
      intro answer hne h
      exact hne ((hone answer).mp h)
    rw [storedCount_succ hcolumn hcell]
    cases hdefault : isDefault json column.1 cell table with
    | error e =>
      simp only [bind, Except.bind, reduceCtorEq, false_iff]
      rintro ⟨hle, htail, hlast⟩
      by_cases hkept : kept = count + 1
      · subst hkept
        exact hfirst false (by simp [hdefault]) (hlast (by omega))
      · exact hfirst true (by simp [hdefault]) (htail count (by omega) (by omega))
    | ok answer =>
      cases answer with
      | true =>
        simp only [bind, Except.bind, if_true, ih (by omega)]
        constructor
        · rintro ⟨hle, htail, hlast⟩
          refine ⟨by omega, ?_, hlast⟩
          intro position hlo hhi
          by_cases hp : position = count
          · subst hp
            exact (hone true).mpr hdefault
          · exact htail position hlo (by omega)
        · rintro ⟨hle, htail, hlast⟩
          have hne : kept ≠ count + 1 := by
            rintro rfl
            exact hfirst false (by simp [hdefault]) (hlast (by omega))
          exact ⟨by omega, fun position hlo hhi => htail position hlo (by omega), hlast⟩
      | false =>
        simp only [bind, Except.bind, Bool.false_eq_true, if_false, pure, Except.pure,
          Except.ok.injEq]
        constructor
        · rintro rfl
          exact ⟨Nat.le_refl _, by omega, fun _ => (hone false).mpr hdefault⟩
        · rintro ⟨hle, htail, _⟩
          by_contra hne
          exact hfirst true (by simp [hdefault]) (htail count (by omega) (by omega))

/-- The first `kept` of a record's cells are the ones it stores. -/
structure Trims (json : SerdeJson) (table : String)
    (columns : List (ColumnDefinition × StoredValue)) (cells : List Cell) (kept : Nat) :
    Prop where
  encodes : Encodes json table columns cells
  le : kept ≤ cells.length
  tail : ∀ position, kept ≤ position → position < cells.length →
    HoldsDefault json table columns cells position true
  last : 0 < kept → HoldsDefault json table columns cells (kept - 1) false

lemma length_nullBitmap (bytes : Nat) (nulls : List Bool) :
    (nullBitmap bytes nulls).length = bytes := by
  have hfold : ∀ (marks : List (Bool × Nat)) (bitmap : List UInt8),
      (marks.foldl (fun bitmap null => if null.1 then setBit bitmap null.2 else bitmap)
        bitmap).length = bitmap.length := by
    intro marks
    induction marks with
    | nil => intro bitmap; rfl
    | cons mark marks ih =>
      intro bitmap
      rw [List.foldl_cons, ih]
      split <;> simp
  rw [nullBitmap, hfold, List.length_replicate]

lemma length_offsetBytes (width : Nat) (ends : List (Nat × Bool)) :
    (offsetBytes width ends).length = ends.length * width :=
  length_flatMap_of_width (fun _ => length_leBytes _ _) ends

lemma length_recordBytes (cells : List Cell) :
    (recordBytes cells).length = recordHeaderBytes + bitmapBytes cells +
      (cells.length - 1) * (offsetWidth (largestOffset cells)).2 + (cellData cells).length := by
  simp [recordBytes, length_nullBitmap, length_offsetBytes, recordHeaderBytes]
  omega

lemma cellEnds_any (start : Nat) (cells : List Cell) :
    (cellEnds start cells).any (fun stop => stop.2) = hasNulls cells := by
  induction cells generalizing start with
  | nil => rfl
  | cons cell cells ih => simp [cellEnds, hasNulls, ih]

/-- The header and the values the encoder puts together for the cells it keeps. -/
lemma encodeStoredValues_of_kept {schema : TableDefinition}
    {columns : List (ColumnDefinition × StoredValue)} {cells : List Cell} {kept : Nat}
    (hencodes : Encodes json schema.name columns cells) (hkept : kept ≤ cells.length)
    (hcount : storedCount json schema.name columns (cellData cells) (cellEnds 0 cells)
      columns.length = .ok kept) :
    encodeStoredValues json schema columns =
      if (recordBytes (cells.take kept)).length > maxPagedValueBytes then
        .error (valueTooLarge s!"An encoded row cannot exceed {maxPagedValueBytes} bytes")
      else if kept > 255 then
        .error (codecArgument
          s!"Table `{schema.name}` cannot store more than 255 non-key columns")
      else .ok (recordBytes (cells.take kept)) := by
  have hvalues : encodeValues json schema.name [] columns =
      .ok (cellData cells, cellEnds 0 cells) :=
    encodeValues_eq_ok.mpr ⟨cells, hencodes, by simp, rfl⟩
  have hdata : (cellData cells).take (cellData (cells.take kept)).length =
      cellData (cells.take kept) := by
    rw [cellData_split kept cells, List.take_left]
  rw [encodeStoredValues, hvalues]
  simp only [bind, Except.bind, hcount, cellEnds_take]
  generalize hc : cells.take kept = c at *
  have hlen : c.length = kept := by
    rw [← hc, List.length_take]
    omega
  subst hlen
  have hstop : startOf (cellEnds 0 c) c.length = (cellData c).length := by
    rw [startOf_cellEnds (Nat.le_refl _), List.take_length]
  simp only [hstop, hdata, cellEnds_any, cellEnds_map_snd, length_recordBytes, pure, Except.pure]
  rfl

/-- What is written is the layout of the kept cells, when it fits. -/
lemma encodeStoredValues_eq_ok {schema : TableDefinition}
    {columns : List (ColumnDefinition × StoredValue)} {record : List UInt8} :
    encodeStoredValues json schema columns = .ok record ↔
      ∃ cells kept, Trims json schema.name columns cells kept ∧
        record = recordBytes (cells.take kept) ∧ record.length ≤ maxPagedValueBytes ∧
        kept ≤ 255 := by
  constructor
  · intro h
    cases hvalues : encodeValues json schema.name [] columns with
    | error e => simp [encodeStoredValues, hvalues, bind, Except.bind] at h
    | ok written =>
      obtain ⟨data, ends⟩ := written
      obtain ⟨cells, hencodes, rfl, rfl⟩ := encodeValues_eq_ok.mp hvalues
      have hlen : columns.length = cells.length := hencodes.length_eq
      simp only [List.nil_append, List.length_nil] at hvalues
      cases hcount : storedCount json schema.name columns (cellData cells) (cellEnds 0 cells)
          columns.length with
      | error e => simp [encodeStoredValues, hvalues, hcount, bind, Except.bind] at h
      | ok kept =>
        obtain ⟨hle, htail, hlast⟩ := (storedCount_eq_ok hlen (by omega)).mp hcount
        rw [encodeStoredValues_of_kept hencodes (by omega) hcount] at h
        split at h
        · cases h
        · split at h
          · cases h
          · cases h
            refine ⟨cells, kept, ⟨hencodes, by omega, ?_, hlast⟩, rfl, by omega, by omega⟩
            rwa [hlen] at htail
  · rintro ⟨cells, kept, htrims, rfl, hfits, hkept⟩
    have hlen : columns.length = cells.length := htrims.encodes.length_eq
    have hcount : storedCount json schema.name columns (cellData cells) (cellEnds 0 cells)
        columns.length = .ok kept := by
      rw [hlen]
      exact (storedCount_eq_ok hlen (Nat.le_refl _)).mpr ⟨htrims.le, htrims.tail, htrims.last⟩
    rw [encodeStoredValues_of_kept htrims.encodes htrims.le hcount, if_neg (by omega),
      if_neg (by omega)]

end Writing

/-! ### Reading a record -/

/-- The bits of a null bitmap are the nulls. -/
lemma bitAt_nullBitmap {bytes : Nat} {nulls : List Bool} (h : nulls.length ≤ bytes * 8)
    (index : Nat) : bitAt (nullBitmap bytes nulls) index = nulls.getD index false := by
  have hfold : ∀ (nulls : List Bool) (start : Nat) (bitmap : List UInt8),
      start + nulls.length ≤ bitmap.length * 8 →
      bitAt ((nulls.zipIdx start).foldl
        (fun bitmap null => if null.1 then setBit bitmap null.2 else bitmap) bitmap) index =
      (bitAt bitmap index || (decide (start ≤ index) && nulls.getD (index - start) false)) := by
    intro nulls
    induction nulls with
    | nil => simp
    | cons null nulls ih =>
      intro start bitmap hlen
      simp only [List.length_cons] at hlen
      rw [List.zipIdx_cons, List.foldl_cons, ih _ _ (by cases null <;> simp <;> omega)]
      have hbit : bitAt (if null then setBit bitmap start else bitmap) index =
          (bitAt bitmap index || (null && decide (start = index))) := by
        cases null with
        | true => simp [bitAt_setBit (by omega : start < bitmap.length * 8)]
        | false => simp
      rw [hbit]
      rcases Nat.lt_trichotomy index start with hlt | heq | hgt
      · simp [show ¬ start ≤ index by omega, show ¬ start + 1 ≤ index by omega,
          show start ≠ index by omega]
      · subst heq
        simp
      · obtain ⟨k, hk⟩ : ∃ k, index - start = k + 1 := ⟨index - start - 1, by omega⟩
        simp [show start ≤ index by omega, show start + 1 ≤ index by omega,
          show start ≠ index by omega, hk, show index - (start + 1) = k by omega]
  have hzero : bitAt (List.replicate bytes 0) index = false := by
    unfold bitAt
    rw [List.getElem?_replicate]
    split
    · rename_i byte hbyte
      split at hbyte
      · cases hbyte
        simp
      · cases hbyte
    · rfl
  rw [nullBitmap, hfold nulls 0 _ (by simpa using h), hzero]
  simp

lemma offsetWidth_cases (largest : Nat) (h : largest < 2 ^ 32) :
    ∃ code width, offsetWidth largest = (code, width) ∧ (code = 0 ∨ code = 1 ∨ code = 2) ∧
      width = 2 ^ code.toNat ∧ largest < 256 ^ width := by
  unfold offsetWidth
  split
  · exact ⟨0, 1, rfl, Or.inl rfl, rfl, by omega⟩
  · split
    · exact ⟨1, 2, rfl, Or.inr (Or.inl rfl), rfl, by omega⟩
    · exact ⟨2, 4, rfl, Or.inr (Or.inr rfl), rfl, by omega⟩

/-- The flags of a record hold its offset width and whether it has nulls, and no more. -/
lemma recordFlags_bits {cells : List Cell} (h : largestOffset cells < 2 ^ 32) :
    recordFlags cells &&& recordReserved = 0 ∧
      recordFlags cells &&& recordOffsetWidth = (offsetWidth (largestOffset cells)).1 ∧
      (recordFlags cells &&& recordOffsetWidth == 3) = false ∧
      (recordFlags cells &&& recordHasNulls != 0) = hasNulls cells ∧
      2 ^ (recordFlags cells &&& recordOffsetWidth).toNat =
        (offsetWidth (largestOffset cells)).2 := by
  obtain ⟨code, width, hwidth, hcode, rfl, _⟩ := offsetWidth_cases _ h
  unfold recordFlags
  rw [hwidth]
  cases hasNulls cells <;> rcases hcode with rfl | rfl | rfl <;> decide

/-- The cells a record is read as: as many as it counts, each found at its position. -/
structure Frames (record : StoredRecord) (cells : List Cell) : Prop where
  count : record.count = cells.length
  cell : ∀ position cell, cells[position]? = some cell → record.storedBytes position = .ok cell

lemma headerIsCanonical_iff {record : StoredRecord} : record.headerIsCanonical = true ↔
    (offsetWidth (if record.count ≥ 2 then record.endOf (record.count - 2) else 0)).1 =
        record.value.headD 0 &&& recordOffsetWidth ∧
      (record.value.headD 0 &&& recordHasNulls != 0) =
        (List.range record.count).any record.isNull ∧
      (List.range' record.count (record.bitmap.length * 8 - record.count)).any record.isNull =
        false := by
  simp only [StoredRecord.headerIsCanonical, Bool.not_eq_true', Bool.or_eq_false_iff,
    bne_eq_false_iff_eq, and_assoc]

/-- Opening the layout of `cells`. -/
structure Opens (schema : TableDefinition) (layout : RecordLayout) (key : List UInt8)
    (cells : List Cell) (record : StoredRecord) : Prop where
  new : StoredRecord.new schema layout key (recordBytes cells) = .ok record
  schema_eq : record.schema = schema
  layout_eq : record.layout = layout
  key_eq : record.key = key
  value_eq : record.value = recordBytes cells
  count_eq : record.count = cells.length
  width_eq : record.width = (offsetWidth (largestOffset cells)).2
  start_eq : record.offsetsStart = recordHeaderBytes + bitmapBytes cells
  bitmap_eq : record.bitmap =
    nullBitmap (bitmapBytes cells) (cells.map (fun cell => cell.isNone))
  data_eq : record.data = cellData cells

lemma opens_recordBytes (schema : TableDefinition) (key : List UInt8) {layout : RecordLayout}
    {cells : List Cell} (hoffset : largestOffset cells < 2 ^ 32) (hcount : cells.length ≤ 255)
    (hlayout : cells.length ≤ layout.stored.length) :
    ∃ record, Opens schema layout key cells record := by
  obtain ⟨hreserved, hcode, hwidth, hnulls, hpow⟩ := recordFlags_bits hoffset
  have hbyte : (UInt8.ofNat cells.length).toNat = cells.length := by
    rw [UInt8.toNat_ofNat']
    omega
  have hlen := length_recordBytes cells
  have hbitmap : (nullBitmap (bitmapBytes cells) (cells.map (fun cell => cell.isNone))).length =
      bitmapBytes cells := length_nullBitmap _ _
  have hoffsets := length_offsetBytes (offsetWidth (largestOffset cells)).2
    (cellEnds 0 (cells.take (cells.length - 1)))
  have hmin : min (cells.length - 1) cells.length = cells.length - 1 := by omega
  simp only [length_cellEnds, List.length_take, hmin] at hoffsets
  have hsplit : recordBytes cells = [recordFlags cells, UInt8.ofNat cells.length] ++
      (nullBitmap (bitmapBytes cells) (cells.map (fun cell => cell.isNone)) ++
        (offsetBytes (offsetWidth (largestOffset cells)).2
          (cellEnds 0 (cells.take (cells.length - 1))) ++ cellData cells)) := by
    simp [recordBytes]
  refine ⟨{ schema, layout, key, value := recordBytes cells, count := cells.length,
            width := (offsetWidth (largestOffset cells)).2,
            bitmap := slice (recordBytes cells) recordHeaderBytes
              (recordHeaderBytes + bitmapBytes cells),
            offsetsStart := recordHeaderBytes + bitmapBytes cells,
            data := (recordBytes cells).drop (recordHeaderBytes + bitmapBytes cells +
              (cells.length - 1) * (offsetWidth (largestOffset cells)).2) },
    ?_, rfl, rfl, rfl, rfl, rfl, rfl, rfl, ?_, ?_⟩
  · have hhead : recordBytes cells = recordFlags cells :: UInt8.ofNat cells.length ::
        (recordBytes cells).drop 2 := by
      rw [hsplit]
      rfl
    rw [hhead]
    simp only [StoredRecord.new]
    rw [← hhead]
    simp only [hreserved, hwidth, hbyte, hnulls, hpow, bne_self_eq_false, Bool.or_false,
      Bool.false_eq_true, if_false]
    rw [if_neg (by omega), show (if hasNulls cells = true then (cells.length + 7) / 8 else 0) =
      bitmapBytes cells from rfl, if_neg (by omega)]
  · simp only [hsplit]
    exact slice_of_append rfl (by simp [hbitmap, recordHeaderBytes])
  · simp only [hsplit]
    rw [← List.append_assoc, ← List.append_assoc]
    apply List.drop_left'
    simp [hbitmap, hoffsets, recordHeaderBytes]
    omega

lemma cellData_take_le {m n : Nat} (h : m ≤ n) (cells : List Cell) :
    (cellData (cells.take m)).length ≤ (cellData (cells.take n)).length := by
  rw [cellData_split m (cells.take n), List.take_take, Nat.min_eq_left h, List.length_append]
  omega

lemma largestOffset_eq {cells : List Cell} (h : 2 ≤ cells.length) :
    largestOffset cells = (cellData (cells.take (cells.length - 1))).length := by
  rw [largestOffset, if_pos h, startOf_cellEnds (by omega)]

section Opened
variable {schema : TableDefinition} {layout : RecordLayout} {key : List UInt8}
  {cells : List Cell} {record : StoredRecord}

/-- The parts of a cell the record was read as. -/
lemma storedBytes_eq_ok {position : Nat} {cell : Cell}
    (h : record.storedBytes position = .ok cell) :
    (if position = 0 then 0 else record.endOf (position - 1)) ≤ record.endOf position ∧
      record.endOf position ≤ record.data.length ∧
      slice record.data (if position = 0 then 0 else record.endOf (position - 1))
        (record.endOf position) = cell.getD [] ∧
      record.isNull position = cell.isNone := by
  unfold StoredRecord.storedBytes at h
  dsimp only at h
  generalize (if position = 0 then 0 else record.endOf (position - 1)) = start at *
  split at h
  · cases h
  · rename_i hbounds
    refine ⟨by omega, by omega, ?_⟩
    split at h
    · rename_i hnull
      split at h
      · rename_i hempty
        cases h
        exact ⟨List.isEmpty_iff.mp hempty, hnull⟩
      · cases h
    · rename_i hnull
      cases h
      exact ⟨rfl, by simpa using hnull⟩

/-- The ends of a record's cells are how far its cells reach. -/
lemma Frames.endOf_eq (h : Frames record cells) {position : Nat} (hp : position < cells.length) :
    record.data.take (record.endOf position) = cellData (cells.take (position + 1)) ∧
      record.endOf position ≤ record.data.length := by
  induction position with
  | zero =>
    obtain ⟨_, hle, hslice, _⟩ :=
      storedBytes_eq_ok (h.cell 0 cells[0] (List.getElem?_eq_getElem hp))
    refine ⟨?_, hle⟩
    rw [cellData_take_succ hp, List.take_zero, cellData_nil, List.nil_append, ← hslice]
    simp [slice]
  | succ position ih =>
    obtain ⟨hprev, _⟩ := ih (by omega)
    obtain ⟨hstart, hle, hslice, _⟩ :=
      storedBytes_eq_ok (h.cell (position + 1) cells[position + 1] (List.getElem?_eq_getElem hp))
    simp only [Nat.add_eq_zero_iff, one_ne_zero, and_false, if_false, Nat.add_sub_cancel]
      at hstart hslice
    refine ⟨?_, hle⟩
    rw [cellData_take_succ hp, ← hprev, ← hslice, take_append_slice hstart]

lemma Frames.length_take (h : Frames record cells) {position : Nat} (hp : position < cells.length) :
    record.endOf position = (cellData (cells.take (position + 1))).length := by
  obtain ⟨hdata, hle⟩ := h.endOf_eq hp
  rw [← hdata, List.length_take]
  omega

/-- The data of a record with a stored column is its cells. -/
lemma Frames.data_eq (h : Frames record cells) (hne : cells ≠ []) :
    record.data = cellData cells := by
  have hpos : 0 < cells.length := List.length_pos_iff.mpr hne
  obtain ⟨hdata, _⟩ := h.endOf_eq (show cells.length - 1 < cells.length by omega)
  have hlast : record.endOf (cells.length - 1) = record.data.length := by
    rw [StoredRecord.endOf, h.count, if_pos (by omega)]
  rw [hlast, List.take_length, Nat.sub_add_cancel hpos, List.take_length] at hdata
  exact hdata

/-- The offset strict decoding takes the width of. -/
lemma Frames.largest_eq (h : Frames record cells) :
    (if record.count ≥ 2 then record.endOf (record.count - 2) else 0) = largestOffset cells := by
  rw [h.count]
  split
  · rename_i htwo
    rw [h.length_take (by omega), largestOffset_eq htwo]
    congr 3
    omega
  · rename_i htwo
    rw [largestOffset, if_neg htwo]

lemma Frames.isNull_eq (h : Frames record cells) {position : Nat} (hp : position < cells.length) :
    record.isNull position = cells[position].isNone :=
  (storedBytes_eq_ok (h.cell position _ (List.getElem?_eq_getElem hp))).2.2.2

lemma Frames.any_isNull (h : Frames record cells) :
    (List.range record.count).any record.isNull = hasNulls cells := by
  rw [h.count, Bool.eq_iff_iff, hasNulls, List.any_eq_true, List.any_eq_true]
  constructor
  · rintro ⟨position, hmem, hp⟩
    have hlt := List.mem_range.mp hmem
    exact ⟨cells[position], List.getElem_mem hlt, by rw [← h.isNull_eq hlt, hp]⟩
  · rintro ⟨cell, hmem, hp⟩
    obtain ⟨position, hlt, rfl⟩ := List.mem_iff_getElem.mp hmem
    exact ⟨position, List.mem_range.mpr hlt, by rw [h.isNull_eq hlt, hp]⟩

/-- Every end is found where the offsets, or the data's length for the last, put it. -/
lemma Opens.endOf_eq (h : Opens schema layout key cells record)
    (hoffset : largestOffset cells < 2 ^ 32) {position : Nat} (hp : position < cells.length) :
    record.endOf position = (cellData (cells.take (position + 1))).length := by
  unfold StoredRecord.endOf
  rw [h.count_eq]
  split
  · rename_i hlast
    rw [h.data_eq, hlast, List.take_length]
  · obtain ⟨_, width, hwidth, _, _, hfits⟩ := offsetWidth_cases _ hoffset
    have hend : (cellEnds 0 (cells.take (cells.length - 1)))[position]? =
        some ((cellData (cells.take (position + 1))).length, cells[position].isNone) := by
      rw [cellEnds_getElem? (by simp; omega), List.take_take, Nat.min_eq_left (by omega),
        Nat.zero_add]
      simp
    have hread := slice_flatMap (fun stop : Nat × Bool => length_leBytes width stop.1) hend
      ([recordFlags cells, UInt8.ofNat cells.length] ++
        nullBitmap (bitmapBytes cells) (cells.map (fun cell => cell.isNone))) (cellData cells)
    have hbound : (cellData (cells.take (position + 1))).length < 256 ^ width := by
      rw [largestOffset_eq (by omega)] at hfits
      exact Nat.lt_of_le_of_lt (cellData_take_le (by omega) cells) hfits
    have hsplit : record.value = [recordFlags cells, UInt8.ofNat cells.length] ++
        nullBitmap (bitmapBytes cells) (cells.map (fun cell => cell.isNone)) ++
        ((cellEnds 0 (cells.take (cells.length - 1))).flatMap
          (fun stop => leBytes width stop.1) ++ cellData cells) := by
      rw [h.value_eq, recordBytes, hwidth, offsetBytes, List.append_assoc, List.append_assoc]
    have hstart : ([recordFlags cells, UInt8.ofNat cells.length] ++
        nullBitmap (bitmapBytes cells) (cells.map (fun cell => cell.isNone))).length =
        record.offsetsStart := by
      rw [h.start_eq, List.length_append, length_nullBitmap]
      rfl
    rw [hstart] at hread
    rw [h.width_eq, hwidth, readLe, hsplit, hread, ofLeBytes_leBytes_of_lt hbound]

lemma Opens.isNull_eq (h : Opens schema layout key cells record) (position : Nat) :
    record.isNull position = (cells.map (fun cell => cell.isNone)).getD position false := by
  rw [StoredRecord.isNull, h.bitmap_eq]
  cases hnulls : hasNulls cells with
  | true =>
    apply bitAt_nullBitmap
    rw [List.length_map, bitmapBytes, hnulls]
    simp only [if_true]
    omega
  | false =>
    have hnone : (cells.map (fun cell => cell.isNone)).getD position false = false := by
      rw [List.getD_eq_getElem?_getD, List.getElem?_map]
      cases hcell : cells[position]? with
      | none => rfl
      | some cell =>
        have hmem := List.mem_of_getElem? hcell
        have hall := List.any_eq_false.mp hnulls cell hmem
        exact Bool.eq_false_iff.mpr hall
    rw [hnone]
    apply bitAt_of_le
    rw [length_nullBitmap, bitmapBytes, hnulls]
    simp

lemma Opens.frames (h : Opens schema layout key cells record)
    (hoffset : largestOffset cells < 2 ^ 32) : Frames record cells := by
  refine ⟨h.count_eq, ?_⟩
  intro position cell hcell
  obtain ⟨hlt, hget⟩ := List.getElem?_eq_some_iff.mp hcell
  have hstart : (if position = 0 then 0 else record.endOf (position - 1)) =
      (cellData (cells.take position)).length := by
    split
    · rename_i hzero
      simp [hzero]
    · rw [h.endOf_eq hoffset (by omega), Nat.sub_add_cancel (by omega)]
  have hmono := cellData_take_le (show position ≤ position + 1 by omega) cells
  have htotal := cellData_take_le (show position + 1 ≤ cells.length by omega) cells
  rw [List.take_length] at htotal
  have hnull : record.isNull position = cell.isNone := by
    rw [h.isNull_eq, List.getD_eq_getElem?_getD, List.getElem?_map, hcell]
    rfl
  simp only [StoredRecord.storedBytes, hstart, h.endOf_eq hoffset hlt, h.data_eq,
    slice_cellData hlt, hget, hnull]
  rw [if_neg (by omega)]
  cases cell <;> rfl

lemma Opens.headerIsCanonical (h : Opens schema layout key cells record)
    (hoffset : largestOffset cells < 2 ^ 32) : record.headerIsCanonical = true := by
  obtain ⟨_, hcode, _, hnulls, _⟩ := recordFlags_bits hoffset
  have hframes := h.frames hoffset
  have hhead : record.value.headD 0 = recordFlags cells := by
    rw [h.value_eq]
    rfl
  refine headerIsCanonical_iff.mpr ⟨?_, ?_, ?_⟩
  · rw [hhead, hframes.largest_eq, hcode]
  · rw [hhead, hnulls, hframes.any_isNull]
  · rw [List.any_eq_false]
    intro position hmem
    have hle := (List.mem_range'_1.mp hmem).1
    rw [h.count_eq] at hle
    simp [h.isNull_eq, List.getD_eq_getElem?_getD, List.getElem?_eq_none hle]

/-! ### What strict decoding accepts -/

/-- Opening a record splits its bytes into flags, count, bitmap, offsets and data. -/
lemma new_eq_ok {value : List UInt8} (h : StoredRecord.new schema layout key value = .ok record) :
    ∃ flags count offsets, value = [flags, count] ++ record.bitmap ++ offsets ++ record.data ∧
      record.schema = schema ∧ record.layout = layout ∧ record.key = key ∧
      record.value = value ∧ record.count = count.toNat ∧ flags &&& recordReserved = 0 ∧
      record.width = 2 ^ (flags &&& recordOffsetWidth).toNat ∧
      record.bitmap.length =
        (if flags &&& recordHasNulls != 0 then (record.count + 7) / 8 else 0) ∧
      record.offsetsStart = recordHeaderBytes + record.bitmap.length ∧
      offsets.length = (record.count - 1) * record.width ∧
      record.count ≤ layout.stored.length := by
  unfold StoredRecord.new at h
  split at h
  · rename_i flags count rest
    split at h
    · cases h
    · rename_i hflags
      simp only [Bool.not_eq_true, Bool.or_eq_false_iff, bne_eq_false_iff_eq] at hflags
      dsimp only at h
      generalize hb : (if (flags &&& recordHasNulls != 0) = true then (count.toNat + 7) / 8
        else 0) = b at h
      split at h
      · cases h
      · rename_i hcount
        split at h
        · cases h
        · rename_i hfits
          cases h
          dsimp only
          generalize (count.toNat - 1) * 2 ^ (flags &&& recordOffsetWidth).toNat = w at *
          have hlen : (slice (flags :: count :: rest) recordHeaderBytes
              (recordHeaderBytes + b)).length = b := by
            rw [length_slice (by omega), Nat.add_sub_cancel_left]
          refine ⟨flags, count, slice (flags :: count :: rest) (recordHeaderBytes + b)
            (recordHeaderBytes + b + w), ?_, rfl, rfl, rfl, rfl, rfl, hflags.1, rfl,
            hlen.trans hb.symm, by rw [hlen], ?_, by omega⟩
          · have htake : [flags, count] = (flags :: count :: rest).take recordHeaderBytes := rfl
            rw [htake, take_append_slice (by omega), take_append_slice (by omega),
              List.take_append_drop]
          · rw [length_slice (by omega), Nat.add_sub_cancel_left]
  · cases h

lemma flags_eq_of_bits {flags : UInt8} (h : flags &&& recordReserved = 0) :
    flags = (flags &&& recordOffsetWidth) |||
      (if flags &&& recordHasNulls != 0 then recordHasNulls else 0) := by
  obtain ⟨bits⟩ := flags
  revert bits
  decide

lemma offsetWidth_snd (largest : Nat) :
    (offsetWidth largest).2 = 2 ^ (offsetWidth largest).1.toNat := by
  unfold offsetWidth
  split
  · rfl
  · split <;> rfl

lemma Frames.bitmap_eq (h : Frames record cells) (hlen : record.bitmap.length = bitmapBytes cells)
    (hunused : (List.range' record.count (record.bitmap.length * 8 - record.count)).any
      record.isNull = false) :
    record.bitmap = nullBitmap (bitmapBytes cells) (cells.map (fun cell => cell.isNone)) := by
  apply Bitmap.ext
  · rw [hlen, length_nullBitmap]
  · intro index hindex
    -- A bitmap with a bit in it stands for a record with a null.
    have hnulls : hasNulls cells = true := by
      by_contra hfalse
      rw [hlen, bitmapBytes, if_neg hfalse] at hindex
      omega
    rw [bitAt_nullBitmap (by rw [List.length_map, bitmapBytes, if_pos hnulls]; omega)]
    by_cases hlt : index < cells.length
    · have hbit := h.isNull_eq hlt
      simpa [StoredRecord.isNull, List.getD_eq_getElem?_getD, hlt] using hbit
    · have hclear := List.any_eq_false.mp hunused index (by
        rw [List.mem_range'_1, h.count]
        omega)
      rw [List.getD_eq_getElem?_getD, List.getElem?_eq_none (by simpa using hlt)]
      exact Bool.eq_false_iff.mpr hclear

lemma cellEnds_eq_map (cells : List Cell) :
    cellEnds 0 (cells.take (cells.length - 1)) = (List.range (cells.length - 1)).map
      (fun index => ((cellData (cells.take (index + 1))).length, (cells.getD index none).isNone)) := by
  apply List.ext_getElem?
  intro index
  by_cases hlt : index < cells.length - 1
  · rw [cellEnds_getElem? (by simp; omega), List.take_take, Nat.min_eq_left (by omega)]
    simp [hlt, List.getD_eq_getElem?_getD, show index < cells.length by omega]
  · rw [List.getElem?_eq_none (by simp; omega), List.getElem?_eq_none (by simp; omega)]

/-- The offsets of a record are the ends of its cells but the last. -/
lemma Frames.offsets_eq {before offsets after : List UInt8} (h : Frames record cells)
    (hvalue : record.value = before ++ (offsets ++ after))
    (hstart : record.offsetsStart = before.length)
    (hlen : offsets.length = (record.count - 1) * record.width) :
    offsets = offsetBytes record.width (cellEnds 0 (cells.take (cells.length - 1))) := by
  rw [h.count] at hlen
  rw [cellEnds_eq_map, offsetBytes, List.flatMap_map, ← flatMap_slices hlen]
  apply List.flatMap_congr
  intro index hmem
  have hlt := List.mem_range.mp hmem
  have hle : index * record.width + record.width ≤ offsets.length := by
    rw [hlen, ← Nat.succ_mul]
    exact Nat.mul_le_mul_right _ hlt
  have hchunk : slice record.value (record.offsetsStart + index * record.width)
      (record.offsetsStart + index * record.width + record.width) =
      slice offsets (index * record.width) (index * record.width + record.width) := by
    rw [hvalue, hstart, slice_append_right (by omega), slice_append_left (by omega)]
    congr 1 <;> omega
  have hend := h.length_take (show index < cells.length by omega)
  rw [StoredRecord.endOf, h.count, if_neg (by omega), readLe, hchunk] at hend
  have hback := leBytes_ofLeBytes
    (slice offsets (index * record.width) (index * record.width + record.width))
  rw [length_slice hle, Nat.add_sub_cancel_left] at hback
  rw [← hend, hback]

/-- A record whose header is canonical is the layout of its cells, if nothing follows a header
that stores no column. -/
lemma Frames.value_eq {value : List UInt8}
    (hnew : StoredRecord.new schema layout key value = .ok record) (h : Frames record cells)
    (hcanonical : record.headerIsCanonical = true) (hempty : cells = [] → record.data = []) :
    value = recordBytes cells := by
  obtain ⟨flags, count, offsets, hvalue, _, _, _, hself, hcount, hreserved, hwidth, hbitmap,
    hstart, hoffsets, _⟩ := new_eq_ok hnew
  obtain ⟨hcode, hnulls, hunused⟩ := headerIsCanonical_iff.mp hcanonical
  have hhead : record.value.headD 0 = flags := by
    rw [hself, hvalue]
    rfl
  rw [hhead, h.largest_eq] at hcode
  rw [hhead, h.any_isNull] at hnulls
  have hbytes : record.bitmap.length = bitmapBytes cells := by
    rw [hbitmap, hnulls, h.count]
    rfl
  have hflags : flags = recordFlags cells := by
    rw [flags_eq_of_bits hreserved, ← hcode, hnulls]
    rfl
  have hbyte : count = UInt8.ofNat cells.length := by
    rw [← h.count, hcount, UInt8.ofNat_toNat]
  have hwidth' : record.width = (offsetWidth (largestOffset cells)).2 := by
    rw [hwidth, offsetWidth_snd, hcode]
  have hmiddle : offsets = offsetBytes record.width (cellEnds 0 (cells.take (cells.length - 1))) := by
    apply h.offsets_eq _ _ hoffsets
    · exact [flags, count] ++ record.bitmap
    · exact record.data
    · rw [hself, hvalue, List.append_assoc]
    · simp [hstart, recordHeaderBytes]
      omega
  have hdata : record.data = cellData cells := by
    by_cases hcells : cells = []
    · rw [hempty hcells, hcells]
      rfl
    · exact h.data_eq hcells
  rw [hvalue, recordBytes, hmiddle, hwidth', h.bitmap_eq hbytes hunused, hdata, hflags, hbyte]

end Opened

end TinyJoin
