import TinyJoin.StoredColumns
import TinyJoin.StoredTests

/-! The pass over a record's bytes: it reads a column's bounds and bytes as the record's own reader does, so
a row passes a test exactly where its value does. -/
namespace TinyJoin
open Bytes Bitmap Query

/-! ### Integers -/

lemma integerValue_short {bytes : List UInt8} {value : Int} (hne : bytes ≠ []) (hlen : bytes.length ≤ 7)
    (hvalue : signExtend (64 - 8 * bytes.length) (ofLeBytes bytes) = value)
    (hsafe : value.natAbs ≤ maxSafeInteger) : integerValue bytes = some value := by
  rw [integerValue, if_neg (by omega)]
  have hempty : ¬bytes.isEmpty = true := by
    rw [List.isEmpty_iff]
    exact hne
  dsimp only
  rw [if_neg hempty, hvalue, if_pos hsafe]

/-- The shortest encodings decode to what any do. -/
lemma shortIntegerValue_eq (bytes : List UInt8) : shortIntegerValue bytes = integerValue bytes := by
  have hmax : maxSafeInteger = 2 ^ 53 - 1 := by decide
  unfold shortIntegerValue
  split
  · rfl
  · next a =>
    have hlt := ofLeBytes_lt [a]
    symm
    apply integerValue_short (by simp) (by simp)
    · simp only [signExtend, List.length_cons, List.length_nil, Int.bmod] at hlt ⊢
      norm_num at hlt ⊢
      split_ifs <;> omega
    · rw [Int.bmod]
      norm_num at hlt ⊢
      split_ifs <;> omega
  · next a b =>
    have hlt := ofLeBytes_lt [a, b]
    symm
    apply integerValue_short (by simp) (by simp)
    · simp only [signExtend, List.length_cons, List.length_nil, Int.bmod] at hlt ⊢
      norm_num at hlt ⊢
      split_ifs <;> omega
    · rw [Int.bmod]
      norm_num at hlt ⊢
      split_ifs <;> omega
  · next a b c =>
    have hlt := ofLeBytes_lt [a, b, c]
    have hpad : ofLeBytes [a, b, c, 0] = ofLeBytes [a, b, c] := by simp [ofLeBytes]
    rw [hpad]
    symm
    apply integerValue_short (by simp) (by simp)
    · simp only [signExtend, List.length_cons, List.length_nil, Int.bmod] at hlt ⊢
      norm_num at hlt ⊢
      split_ifs <;> omega
    · rw [Int.bmod]
      norm_num at hlt ⊢
      split_ifs <;> omega
  · next a b c d =>
    have hlt := ofLeBytes_lt [a, b, c, d]
    symm
    apply integerValue_short (by simp) (by simp)
    · simp only [signExtend, List.length_cons, List.length_nil, Int.bmod] at hlt ⊢
      norm_num at hlt ⊢
      split_ifs <;> omega
    · rw [Int.bmod]
      norm_num at hlt ⊢
      split_ifs <;> omega
  · rfl

/-! ### Bounds -/

lemma readLe_one (bytes : List UInt8) (place : Nat) :
    readLe bytes place 1 = (bytes.getD place 0).toNat := by
  rw [readLe, slice, Nat.add_sub_cancel_left, List.take_one, List.head?_drop, List.getD_eq_getElem?_getD]
  cases bytes[place]? with
  | none => rfl
  | some byte => simp [ofLeBytes]

/-- What the pass reads of a header is what opening the record does. -/
structure RecordBounds.Of (bounds : RecordBounds) (record : StoredRecord) : Prop where
  value : bounds.value = record.value
  count : bounds.count = record.count
  width : bounds.width = record.width
  widths : bounds.width = 1 ∨ bounds.width = 2 ∨ bounds.width = 4
  offsetsStart : bounds.offsetsStart = record.offsetsStart
  data : record.data = bounds.value.drop bounds.dataStart
  null : ∀ position, position < bounds.count →
    (bounds.hasNulls && (bounds.value.getD (recordHeaderBytes + position / 8) 0 &&& mask position != 0)) =
      record.isNull position

/-- What the pass makes of a column's cell. -/
def RecordBounds.cellPasses (test : StoredTest) (cell : Cell) : Option Bool :=
  match test, cell with
  | .isNull _ negated _, cell => some (cell.isNone ^^ negated)
  | _, none => some false
  | test, some bytes => RecordBounds.bytesPass test bytes

namespace RecordBounds.Of
variable {bounds : RecordBounds} {record : StoredRecord} {schema : TableDefinition}
  {layout : RecordLayout} {key value : List UInt8}

/-- A pass over an opened record's bytes. -/
lemma exists_of_new (hnew : StoredRecord.new schema layout key value = .ok record)
    (tests : List StoredTest) :
    ∃ bounds : RecordBounds, storedRecordPasses value tests = bounds.passesAll tests ∧
      bounds.Of record := by
  have hflagged : ∀ flags count rest, value = flags :: count :: rest →
      ¬(flags &&& recordReserved != 0 || flags &&& recordOffsetWidth == 3) = true := by
    rintro flags count rest rfl hflags
    rw [StoredRecord.new, if_pos hflags] at hnew
    cases hnew
  obtain ⟨flags, count, offsets, hvalue, -, -, -, hself, hcount, -, hwidth, hbitmap, hstart, hoffsets, -⟩ :=
    new_eq_ok hnew
  have hcons : value = flags :: count :: (record.bitmap ++ offsets ++ record.data) := by
    rw [hvalue]
    rfl
  have hflags := hflagged _ _ _ hcons
  rw [hcount] at hbitmap hoffsets
  rw [hwidth] at hoffsets
  generalize hw : 2 ^ (flags &&& recordOffsetWidth).toNat = width at hwidth hoffsets
  generalize hb : (if (flags &&& recordHasNulls != 0) = true then (count.toNat + 7) / 8 else 0) = bytes
    at hbitmap
  have hlength : recordHeaderBytes + bytes + (count.toNat - 1) * width =
      ([flags, count] ++ record.bitmap ++ offsets).length := by
    rw [List.length_append, List.length_append, hbitmap, hoffsets]
    rfl
  refine ⟨⟨value, count.toNat, width, flags &&& recordHasNulls != 0, recordHeaderBytes + bytes,
    recordHeaderBytes + bytes + (count.toNat - 1) * width⟩, ?_, hself.symm, hcount.symm, hwidth.symm,
    ?_, by rw [hstart, hbitmap], ?_, ?_⟩
  · rw [hcons, storedRecordPasses, if_neg hflags]
    dsimp only
    rw [hw, hb, if_neg, ← hcons]
    rw [hlength, ← hcons, hvalue]
    exact Nat.not_lt.mpr (List.sublist_append_left _ _).length_le
  · rw [Bool.or_eq_true, not_or, beq_iff_eq] at hflags
    have hne : (flags &&& recordOffsetWidth).toNat ≠ 3 := fun heq => hflags.2 (UInt8.toNat_inj.mp heq)
    have hle : (flags &&& recordOffsetWidth).toNat ≤ 3 := by
      rw [UInt8.toNat_and]
      exact Nat.and_le_right
    rw [← hw]
    generalize (flags &&& recordOffsetWidth).toNat = exponent at hne hle
    interval_cases exponent
    · exact .inl rfl
    · exact .inr (.inl rfl)
    · exact .inr (.inr rfl)
    · exact absurd rfl hne
  · dsimp only
    rw [hlength, hvalue, List.drop_left]
  · intro position hlt
    dsimp only at hlt ⊢
    rw [StoredRecord.isNull, bitAt]
    cases hnulls : flags &&& recordHasNulls != 0 with
    | false =>
      rw [hnulls] at hb
      rw [List.length_eq_zero_iff.mp (hbitmap.trans hb.symm)]
      rfl
    | true =>
      rw [hnulls, if_pos rfl] at hb
      have hbyte : position / 8 < record.bitmap.length := by omega
      have hat : value[recordHeaderBytes + position / 8]? = record.bitmap[position / 8]? := by
        rw [hvalue, List.append_assoc, List.append_assoc, List.getElem?_append_right (by simp [recordHeaderBytes]),
          List.getElem?_append_left (by simp [recordHeaderBytes]; exact hbyte)]
        congr 1
        simp [recordHeaderBytes]
      rw [List.getD_eq_getElem?_getD, hat, List.getElem?_eq_getElem hbyte]
      rfl

lemma dataLen_eq (h : bounds.Of record) : bounds.dataLen = record.data.length := by
  rw [dataLen, h.data, List.length_drop]

/-- A column ends, for the pass, where the record's own reader ends it. -/
lemma wideEnd_eq (h : bounds.Of record) (hwide : bounds.width ≠ 1) (position : Nat) :
    bounds.wideEnd position = record.endOf position := by
  rw [wideEnd, StoredRecord.endOf, h.dataLen_eq, h.count, h.value, h.offsetsStart, h.width]
  have hwidth : (if record.width = 2 then 2 else 4) = record.width := by
    have hone := h.widths
    rw [h.width] at hwide hone
    split_ifs <;> omega
  rw [hwidth]

lemma columnBounds_eq (h : bounds.Of record) {position : Nat} (hlt : position < bounds.count) :
    bounds.columnBounds position =
      (if position = 0 then 0 else record.endOf (position - 1), record.endOf position) := by
  have hcount := h.count
  rw [columnBounds]
  split
  · next hone =>
    have hend : ∀ place, place + 1 ≠ record.count →
        record.endOf place = (bounds.value.getD (bounds.offsetsStart + place) 0).toNat := by
      intro place hplace
      rw [StoredRecord.endOf, if_neg hplace, ← h.width, hone, Nat.mul_one, readLe_one, h.value,
        h.offsetsStart]
    refine Prod.ext ?_ ?_
    · dsimp only
      split
      · rfl
      · next hzero =>
        rw [hend (position - 1) (by omega), Nat.add_sub_assoc (by omega)]
    · dsimp only
      split
      · next hlast =>
        rw [StoredRecord.endOf, if_pos (hlast.trans hcount), h.dataLen_eq]
      · next hlast => rw [hend position (by omega)]
  · next hwide => rw [h.wideEnd_eq hwide, h.wideEnd_eq hwide]

/-- The pass reads a stored column as the record's own reader does. -/
lemma passes_eq (h : bounds.Of record) {test : StoredTest} {cell : Cell}
    (hlt : test.position.1 < record.count) (hcell : record.storedBytes test.position.1 = .ok cell) :
    bounds.passes test = cellPasses test cell := by
  obtain ⟨hordered, hwithin, hbytes, hnull⟩ := storedBytes_eq_ok hcell
  have hcount : test.position.1 < bounds.count := by
    rw [h.count]
    exact hlt
  have hbounds := h.columnBounds_eq hcount
  generalize (if test.position.1 = 0 then 0 else record.endOf (test.position.1 - 1)) = start at *
  have hslice : slice bounds.value (bounds.dataStart + start)
      (bounds.dataStart + record.endOf test.position.1) = cell.getD [] := by
    rw [← hbytes, h.data, slice, slice, List.drop_drop]
    congr 1
    omega
  have houtside : ¬(record.endOf test.position.1 < start ∨
      record.endOf test.position.1 > record.data.length) := by omega
  unfold passes
  dsimp only
  rw [if_neg (Nat.not_le.mpr hcount), h.null _ hcount, hnull, hbounds, h.dataLen_eq]
  dsimp only
  simp only [houtside, if_false, hslice]
  cases test <;> cases cell <;> rfl

/-- A record that omits a column passes as the column's default does. -/
lemma passes_omitted (h : bounds.Of record) {test : StoredTest} (hle : record.count ≤ test.position.1) :
    bounds.passes test = some test.position.2 := by
  unfold passes
  dsimp only
  rw [if_pos (by rw [h.count]; exact hle)]

end RecordBounds.Of

/-! ### Tests -/

namespace Query.RecordTest

def column : RecordTest → Nat
  | .integerRange column _ _ _ => column
  | .like column _ _ => column
  | .textEquals column _ _ => column
  | .isNull column _ => column

/-- Whether a column's value passes. -/
def holds : RecordTest → ValueRef → Bool
  | .integerRange _ low high _, .integer value => low ≤ value && value ≤ high
  | .like _ pattern _, .text text => likeMatches pattern text
  | .textEquals _ expected _, .text text => text == expected
  | .isNull _ negated, value => value.isNull ^^ negated
  | _, _ => false

/-- Whether a record that omits the column passes. -/
def default (schema : TableDefinition) : RecordTest → Bool
  | .integerRange _ _ _ default => default
  | .like _ _ default => default
  | .textEquals _ _ default => default
  | .isNull column negated => (columnDefault schema column).all Value.isNull ^^ negated

/-- A test is of a column of its type, whose default it knows. -/
def Fits (column : ColumnDefinition) : RecordTest → Prop
  | .integerRange _ low high default => column.dataType = .integer ∧
      default = (column.default.bind Value.asI64).any (fun value => low ≤ value && value ≤ high)
  | .like _ pattern default => column.dataType = .text ∧
      default = (column.default.bind Value.asStr).any (likeMatches pattern)
  | .textEquals _ text default => column.dataType = .text ∧
      default = (column.default.bind Value.asStr).any (fun value => value == text)
  | .isNull _ _ => True

end Query.RecordTest

section Tests
variable {json : SerdeJson} {schema : TableDefinition} {layout : RecordLayout} {record : StoredRecord}
  {row : Row} {test : RecordTest} {stored : StoredTest} {column : ColumnDefinition} {ref : ValueRef}

lemma length_slotsFrom (schema : TableDefinition) (next : Nat) (columns : List ColumnDefinition) :
    (slotsFrom schema next columns).length = columns.length := by
  induction columns generalizing next with
  | nil => rfl
  | cons column columns ih =>
    rw [slotsFrom]
    split
    · rw [List.length_cons, List.length_cons, ih]
    · rw [List.length_cons, List.length_cons, ih]

lemma storedPosition_eq_some {index position : Nat} (h : layout.storedPosition index = some position) :
    layout.slots[index]? = some (.stored position) := by
  unfold RecordLayout.storedPosition at h
  split at h
  · next slot hslot =>
    cases h
    exact hslot
  · cases h

/-- A test of a stored column is at the column's position. -/
lemma storedTest_eq_some (h : layout.storedTest schema test = some stored) :
    layout.slots[test.column]? = some (.stored stored.position.1) ∧
      stored.position.2 = test.default schema := by
  cases test <;>
  · obtain ⟨position, hposition, h⟩ := Option.bind_eq_some_iff.mp h
    cases h
    exact ⟨storedPosition_eq_some hposition, rfl⟩

/-- A record that omits a column passes as the default it holds does. -/
lemma default_eq_holds (hdefaults : DefaultsFit schema)
    (hcolumn : schema.columns[test.column]? = some column) (hfits : test.Fits column) :
    test.default schema = test.holds (storedDefault column) := by
  have hmem := List.mem_of_getElem? hcolumn
  have hdefault : Query.columnDefault schema test.column = column.default := by
    rw [Query.columnDefault, hcolumn]
    rfl
  rcases storedDefault_cases hdefaults hmem with
    ⟨hnull, hread⟩ | ⟨value, hvalue, hnull, hread, -, hinteger, htext⟩
  · rw [hread]
    have hnone : ∀ {α : Type} (f : Value → Option α), f .null = none → column.default.bind f = none := by
      intro α f hf
      cases hcase : column.default with
      | none => rfl
      | some value =>
        rw [hcase, Option.all_some, isNull_eq_true] at hnull
        rw [hnull, Option.bind_some, hf]
    cases test with
    | integerRange index low high default =>
      obtain ⟨-, htested⟩ := hfits
      rw [hnone Value.asI64 rfl] at htested
      exact htested
    | like index pattern default =>
      obtain ⟨-, htested⟩ := hfits
      rw [hnone Value.asStr rfl] at htested
      exact htested
    | textEquals index text default =>
      obtain ⟨-, htested⟩ := hfits
      rw [hnone Value.asStr rfl] at htested
      exact htested
    | isNull index negated =>
      rw [RecordTest.column] at hdefault
      rw [RecordTest.default, hdefault, hnull]
      rfl
  · cases test with
    | integerRange index low high default =>
      obtain ⟨htype, htested⟩ := hfits
      obtain ⟨i, hi, hstored⟩ := hinteger htype
      rw [hvalue, Option.bind_some, hi] at htested
      rw [hstored]
      exact htested
    | like index pattern default =>
      obtain ⟨htype, htested⟩ := hfits
      obtain ⟨text, rfl, hstored⟩ := htext htype
      rw [hvalue] at htested
      rw [hstored]
      exact htested
    | textEquals index expected default =>
      obtain ⟨htype, htested⟩ := hfits
      obtain ⟨text, rfl, hstored⟩ := htext htype
      rw [hvalue] at htested
      rw [hstored]
      exact htested
    | isNull index negated =>
      rw [RecordTest.column] at hdefault
      rw [RecordTest.default, hdefault, hvalue, Option.all_some, hnull, RecordTest.holds, hread]

/-- A record's bytes pass a test as the value they hold does. -/
lemma cellPasses_eq_holds (htest : layout.storedTest schema test = some stored)
    (hfits : test.Fits column) {bytes : List UInt8} {passed : Bool} (hnull : ref.isNull = false)
    (hinteger : column.dataType = .integer → ∃ i, integerValue bytes = some i ∧ ref = .integer i)
    (htext : column.dataType = .text → ∃ text, fromUtf8 bytes = some text ∧ ref = .text text)
    (h : RecordBounds.cellPasses stored (some bytes) = some passed) : passed = test.holds ref := by
  cases test with
  | integerRange index low high default =>
    obtain ⟨position, -, hstored⟩ := Option.bind_eq_some_iff.mp htest
    cases hstored
    obtain ⟨i, hi, rfl⟩ := hinteger hfits.1
    obtain ⟨value, hvalue, h⟩ := Option.bind_eq_some_iff.mp h
    rw [shortIntegerValue_eq, hi] at hvalue
    cases hvalue
    cases h
    rfl
  | like index pattern default =>
    obtain ⟨position, -, hstored⟩ := Option.bind_eq_some_iff.mp htest
    cases hstored
    obtain ⟨text, hread, rfl⟩ := htext hfits.1
    obtain ⟨matched, hmatched, h⟩ := Option.bind_eq_some_iff.mp h
    cases matched with
    | some result =>
      cases h
      rw [RecordTest.holds, likeMatches, LikePattern.matchesText, textBytes_of_fromUtf8 hread, hmatched]
      rfl
    | none =>
      obtain ⟨read, hsame, h⟩ := Option.bind_eq_some_iff.mp h
      rw [hread] at hsame
      cases hsame
      cases h
      rfl
  | textEquals index expected default =>
    obtain ⟨position, -, hstored⟩ := Option.bind_eq_some_iff.mp htest
    cases hstored
    obtain ⟨text, hread, rfl⟩ := htext hfits.1
    cases h
    rw [RecordTest.holds, ← textBytes_of_fromUtf8 hread, Bool.eq_iff_iff, beq_iff_eq, beq_iff_eq]
    refine ⟨fun heq => ?_, fun heq => by rw [heq]⟩
    have hback := fromUtf8_textBytes text
    rw [heq, fromUtf8_textBytes] at hback
    exact (Option.some.inj hback).symm
  | isNull index negated =>
    obtain ⟨position, -, hstored⟩ := Option.bind_eq_some_iff.mp htest
    cases hstored
    cases h
    rw [RecordTest.holds, hnull]
    rfl

lemma cellPasses_none (htest : layout.storedTest schema test = some stored) :
    RecordBounds.cellPasses stored none = some (test.holds .null) := by
  cases test <;>
  · obtain ⟨position, -, hstored⟩ := Option.bind_eq_some_iff.mp htest
    cases hstored
    rfl

/-- The pass over an opened record's bytes says of a test what the column's value does. -/
lemma passes_eq_holds {bounds : RecordBounds} (hbounds : bounds.Of record)
    (hdefaults : DefaultsFit schema) (hlaid : LaidOut schema layout)
    (hread : Readable json schema layout record row) (htest : layout.storedTest schema test = some stored)
    (hfits : ∀ column, schema.columns[test.column]? = some column → test.Fits column) :
    ∃ ref, record.column json test.column = .ok ref ∧
      ∀ passed, bounds.passes stored = some passed → passed = test.holds ref := by
  obtain ⟨hslot, hdefault⟩ := storedTest_eq_some htest
  have hlt : test.column < schema.columns.length := by
    rw [← length_slotsFrom schema 0, ← hlaid.slots]
    exact (List.getElem?_eq_some_iff.mp hslot).1
  have hcolumn := List.getElem?_eq_getElem hlt
  have hfits := hfits _ hcolumn
  generalize schema.columns[test.column] = column at hcolumn hfits
  have hmem := List.mem_of_getElem? hcolumn
  obtain ⟨ref, href, -, -⟩ := hread.reads _ _ hcolumn
  refine ⟨ref, href, ?_⟩
  rcases column_of_slot hlaid hread.ofSchema hread.ofLayout hcolumn with
    ⟨position, -, hat, -⟩ | ⟨position, hdefinition, hat, hsame⟩
  · rw [hslot] at hat
    cases hat
  · rw [hslot] at hat
    cases hat
    rw [hsame] at href
    intro passed hpassed
    rcases storedColumn_eq_ok href with ⟨homitted, rfl⟩ | ⟨hkept, ⟨hcell, rfl⟩ | ⟨bytes, hcell, -, hi, ht⟩⟩
    · rw [hbounds.passes_omitted homitted, hdefault] at hpassed
      cases hpassed
      exact default_eq_holds hdefaults hcolumn hfits
    · rw [hbounds.passes_eq hkept hcell, cellPasses_none htest] at hpassed
      exact (Option.some.inj hpassed).symm
    · rw [hbounds.passes_eq hkept hcell] at hpassed
      have hnull := hread.nulls _ _ _ _ hdefinition hkept hcell href
      exact cellPasses_eq_holds htest hfits hnull hi ht hpassed

end Tests

end TinyJoin
