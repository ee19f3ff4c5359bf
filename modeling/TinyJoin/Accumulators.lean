import TinyJoin.ShownValues

/-! What an accumulator holds of the rows it has been given, which one more row brings up to date, and that
it finishes as its aggregate means. -/
namespace TinyJoin

/-! ### Reading rows -/

/-- A row whose values are plain, as those of a table's rows are. -/
def PlainRow (schema : TableDefinition) (row : Row) : Prop :=
  ∀ column ∈ schema.columns, (row.plain column.name).Plain column.dataType

/-- A visited row reads as a row at each column that a query reads. -/
structure VisitedRow.ReadsAs (json : SerdeJson) (schema : TableDefinition) (read : List Nat)
    (visited : VisitedRow) (row : Row) : Prop where
  plain : PlainRow schema row
  shows : ∀ index ∈ read, ∀ column, schema.columns[index]? = some column → ∃ ref,
    visited.get json schema index = .ok ref ∧ ref.Shows column.dataType (row.plain column.name)

/-- A source column is where its name says, and one that a query reads. -/
def SourceColumn.Resolves (schema : TableDefinition) (read : List Nat) (source : SourceColumn) : Prop :=
  source.index ∈ read ∧ ∃ column, schema.columns[source.index]? = some column ∧
    column.name = source.name ∧ column.dataType = source.dataType

section Reading
variable {json : SerdeJson} {schema : TableDefinition} {read : List Nat} {visited : VisitedRow}
  {row : Row} {rows : List Row} {source : SourceColumn}

lemma SourceColumn.Resolves.plain (h : source.Resolves schema read) (hrow : PlainRow schema row) :
    (row.plain source.name).Plain source.dataType := by
  obtain ⟨-, column, hcolumn, hname, htype⟩ := h
  rw [← hname, ← htype]
  exact hrow column (List.mem_of_getElem? hcolumn)

lemma VisitedRow.ReadsAs.get (h : visited.ReadsAs json schema read row)
    (hsource : source.Resolves schema read) :
    ∃ ref, visited.get json schema source.index = .ok ref ∧
      ref.Shows source.dataType (row.plain source.name) := by
  obtain ⟨hindex, column, hcolumn, hname, htype⟩ := hsource
  rw [← hname, ← htype]
  exact h.shows source.index hindex column hcolumn

/-- A column's value is read unless it is NULL. -/
lemma VisitedRow.ReadsAs.nonNull (h : visited.ReadsAs json schema read row)
    (hsource : source.Resolves schema read) :
    ((row.plain source.name).isNull = true ∧ source.nonNull json schema visited = .ok none) ∨
    ((row.plain source.name).isNull = false ∧ ∃ ref, source.nonNull json schema visited = .ok (some ref) ∧
      ref.Shows source.dataType (row.plain source.name)) := by
  obtain ⟨ref, hget, hshows⟩ := h.get hsource
  have hnull := hshows.isNull
  cases hcase : (row.plain source.name).isNull with
  | true =>
    left
    rw [hcase] at hnull
    simp only [SourceColumn.nonNull, hget, bind, Except.bind, hnull, if_true, pure, Except.pure,
      and_self]
  | false =>
    right
    rw [hcase] at hnull
    refine ⟨rfl, ref, ?_, hshows⟩
    simp only [SourceColumn.nonNull, hget, bind, Except.bind, hnull, Bool.false_eq_true, if_false, pure,
      Except.pure]

lemma inputs_concat_null {name : String} (h : (row.plain name).isNull = true) :
    inputs (rows ++ [row]) name = inputs rows name := by
  simp [inputs, h]

lemma inputs_concat {name : String} (h : (row.plain name).isNull = false) :
    inputs (rows ++ [row]) name = inputs rows name ++ [row.plain name] := by
  simp [inputs, h]

lemma inputs_length_le (name : String) : (inputs rows name).length ≤ rows.length := by
  unfold inputs
  exact (List.length_filter_le _ _).trans (List.length_map _).le

/-! ### The order of values -/

lemma compareOfLessAndEq_swap {α : Type} [LinearOrder α] (a b : α) :
    compareOfLessAndEq b a = (compareOfLessAndEq a b).swap :=
  compareOfLessAndEq_eq_swap le_antisymm le_total not_le

lemma KeyValue.compare_swap (a b : KeyValue) : b.compare a = (a.compare b).swap := by
  cases a <;> cases b <;> first | exact compareOfLessAndEq_swap _ _ | rfl

lemma KeyValue.compare_trans {a b c : KeyValue} (hab : a.compare b = .lt) (hbc : b.compare c = .lt) :
    a.compare c = .lt := by
  cases a <;> cases b <;> first | cases hab | skip
  all_goals cases c <;> first | cases hbc | skip
  all_goals
    simp only [KeyValue.compare, compareOfLessAndEq_eq_lt] at hab hbc ⊢
    exact hab.trans hbc

/-- Whether a minimum, or a maximum, is the first of two values sooner than the other. -/
def Value.Better (dataType : ColumnType) (minimum : Bool) (value other : Value) : Prop :=
  if minimum then value.Before dataType other else other.Before dataType value

lemma Value.before_irrefl (dataType : ColumnType) (value : Value) : ¬value.Before dataType value := by
  rintro ⟨a, b, ha, hb, hlt⟩
  rw [ha] at hb
  cases hb
  have hswap := KeyValue.compare_swap a a
  rw [hlt] at hswap
  cases hswap

lemma Value.Before.trans {dataType : ColumnType} {v w x : Value} (h : v.Before dataType w)
    (h' : w.Before dataType x) : v.Before dataType x := by
  obtain ⟨a, b, ha, hb, hab⟩ := h
  obtain ⟨b', c, hb', hc, hbc⟩ := h'
  rw [hb] at hb'
  cases hb'
  exact ⟨a, c, ha, hc, KeyValue.compare_trans hab hbc⟩

lemma Value.better_irrefl (dataType : ColumnType) (minimum : Bool) (value : Value) :
    ¬value.Better dataType minimum value := by
  unfold Value.Better
  split <;> exact value.before_irrefl dataType

lemma Value.Better.trans {dataType : ColumnType} {minimum : Bool} {v w x : Value}
    (h : v.Better dataType minimum w) (h' : w.Better dataType minimum x) :
    v.Better dataType minimum x := by
  cases minimum with
  | true => exact Value.Before.trans h h'
  | false => exact Value.Before.trans h' h

/-- An extremum is replaced by the values that are better. -/
lemma replacesExtremum_iff {ref : ValueRef} {value selected other : Value} {dataType : ColumnType}
    {minimum : Bool} (htype : dataType.Ordered) (hshows : ref.Shows dataType value)
    (hplain : value.Plain dataType) (hnull : value.isNull = false)
    (hselected : selected.dropZeroSign = other) (hother : other.Plain dataType)
    (hother' : other.isNull = false) :
    replacesExtremum dataType ref (some selected) minimum = true ↔
      value.Better dataType minimum other := by
  obtain ⟨a, b, ha, hb, hordering⟩ :=
    hshows.extremumOrdering hplain hnull hselected hother hother' htype
  rw [replacesExtremum, hordering, beq_iff_eq, Value.Better]
  cases minimum with
  | true =>
    constructor
    · exact fun hlt => ⟨a, b, ha, hb, hlt⟩
    · rintro ⟨a', b', ha', hb', hlt⟩
      rw [ha] at ha'
      rw [hb] at hb'
      cases ha'
      cases hb'
      exact hlt
  | false =>
    have hswap := KeyValue.compare_swap a b
    constructor
    · intro hgt
      have hgt' : a.compare b = .gt := hgt
      refine ⟨b, a, hb, ha, ?_⟩
      rw [hswap, hgt']
      rfl
    · rintro ⟨b', a', hb', ha', hlt⟩
      rw [ha] at ha'
      rw [hb] at hb'
      cases ha'
      cases hb'
      rw [hswap, Ordering.swap_eq_lt] at hlt
      exact hlt

/-! ### What accumulators hold -/

lemma integerTotal_concat (values : List Value) {value : Value} {i : Int}
    (h : safeInteger value = some i) : integerTotal (values ++ [value]) = integerTotal values + i := by
  simp [integerTotal, h]

lemma floatTotal_concat (values : List Value) {value : Value} {f : F64} (h : value.asF64 = some f) :
    floatTotal (values ++ [value]) = (floatTotal values).accumulate f := by
  simp [floatTotal, h]

lemma safeInteger_getD_natAbs (value : Value) : ((safeInteger value).getD 0).natAbs ≤ maxSafeInteger := by
  cases h : safeInteger value with
  | none => exact Nat.zero_le _
  | some i => exact safeInteger_natAbs h

lemma integerTotal_natAbs (values : List Value) :
    (integerTotal values).natAbs ≤ values.length * maxSafeInteger := by
  induction values with
  | nil => exact Nat.zero_le _
  | cons value values ih =>
    have hvalue := safeInteger_getD_natAbs value
    rw [integerTotal, List.map_cons, List.sum_cons, List.length_cons, Nat.succ_mul]
    rw [integerTotal] at ih
    omega

lemma accumulate_unsigned {sum : F64} (h : sum.Unsigned) (number : F64) :
    (sum.accumulate number).Unsigned := by
  unfold F64.accumulate
  split
  · exact F64.add_unsigned h number
  · exact h

lemma foldl_accumulate_unsigned {sum : F64} (h : sum.Unsigned) (numbers : List F64) :
    (numbers.foldl F64.accumulate sum).Unsigned := by
  induction numbers generalizing sum with
  | nil => exact h
  | cons number numbers ih => exact ih (accumulate_unsigned h number)

lemma floatTotal_unsigned (values : List Value) : (floatTotal values).Unsigned :=
  foldl_accumulate_unsigned F64.unsigned_zero _

/-- A number is added to the total whatever the sign of its zero. -/
lemma floatTotal_accumulate (values : List Value) {value : Value} {f g : F64}
    (h : value.asF64 = some f) (hscaled : g.scaled = f.scaled) :
    (floatTotal values).accumulate g = floatTotal (values ++ [value]) := by
  rw [floatTotal_concat values h]
  unfold F64.accumulate
  rw [F64.add_congr (floatTotal_unsigned values) hscaled]

namespace AggregateAccumulator

/-- The accumulator before it is given any row. -/
def initial : AggregateAccumulator → AggregateAccumulator
  | count source _ => count source 0
  | integerSum source _ _ => integerSum source 0 false
  | floatSum source _ _ => floatSum source F64.zero false
  | average source _ _ => average source F64.zero 0
  | extremum source _ minimum => extremum source none minimum

/-- The column is of a type that the accumulator takes. -/
def Typed : AggregateAccumulator → Prop
  | count _ _ => True
  | integerSum source _ _ => source.dataType = .integer
  | floatSum source _ _ => source.dataType = .float
  | average source _ _ => source.dataType = .integer ∨ source.dataType = .float
  | extremum source _ _ => source.dataType.Ordered

/-- What an accumulator holds of the rows that it has been given. -/
def Holds (rows : List Row) : AggregateAccumulator → Prop
  | count none n => n = rows.length
  | count (some source) n => n = (inputs rows source.name).length
  | integerSum source sum seen =>
    sum = integerTotal (inputs rows source.name) ∧ seen = !(inputs rows source.name).isEmpty
  | floatSum source sum seen =>
    sum = floatTotal (inputs rows source.name) ∧ seen = !(inputs rows source.name).isEmpty
  | average source sum n =>
    sum = floatTotal (inputs rows source.name) ∧ n = (inputs rows source.name).length
  | extremum source none _ => inputs rows source.name = []
  | extremum source (some selected) minimum =>
    selected.dropZeroSign ∈ inputs rows source.name ∧ ∀ other ∈ inputs rows source.name,
      ¬other.Better source.dataType minimum selected.dropZeroSign

lemma nextCount_eq {n : Nat} (h : n < maxScanRows) (message : String) :
    nextCount n message = .ok (n + 1) := by
  rw [maxScanRows] at h
  rw [nextCount, if_pos (by omega)]

lemma nextSum_eq {sum input : Int} {n : Nat} (hn : n < maxScanRows)
    (hsum : sum.natAbs ≤ n * maxSafeInteger) (hinput : input.natAbs ≤ maxSafeInteger) :
    nextSum sum input = .ok (sum + input) := by
  rw [maxScanRows] at hn
  rw [maxSafeInteger] at hsum hinput
  rw [nextSum, if_pos (by omega)]

/-- The value selected of some is selected of one more as well, unless that one is better. -/
lemma select_holds {ref : ValueRef} {selected : Option Value} {minimum : Bool}
    (htype : source.dataType.Ordered) (hnull : (row.plain source.name).isNull = false)
    (hshows : ref.Shows source.dataType (row.plain source.name))
    (hplain : ∀ other ∈ rows ++ [row], (other.plain source.name).Plain source.dataType)
    (hholds : (extremum source selected minimum).Holds rows) :
    (if replacesExtremum source.dataType ref selected minimum then
      extremum source (some ref.intoValue) minimum
    else extremum source selected minimum).Holds (rows ++ [row]) := by
  have hrow : (row.plain source.name).Plain source.dataType :=
    hplain row (List.mem_append_right _ (List.mem_singleton_self row))
  have hinto : ref.intoValue.dropZeroSign = row.plain source.name := by
    rw [hshows.intoValue, hrow.unsigned]
  cases selected with
  | none =>
    have hnone : inputs rows source.name = [] := hholds
    rw [replacesExtremum, if_pos rfl, Holds, inputs_concat hnull, hnone, hinto, List.nil_append]
    refine ⟨List.mem_singleton_self _, fun other hother => ?_⟩
    rw [List.mem_singleton.mp hother]
    exact Value.better_irrefl _ _ _
  | some selected =>
    obtain ⟨hmem, hbest⟩ : _ ∧ _ := hholds
    obtain ⟨hvalue, hselectedNull⟩ := List.mem_filter.mp hmem
    obtain ⟨earlier, hearlier, hvalue⟩ := List.mem_map.mp hvalue
    have hselected : selected.dropZeroSign.Plain source.dataType := by
      rw [← hvalue]
      exact hplain earlier (List.mem_append_left _ hearlier)
    have hreplaces : replacesExtremum source.dataType ref (some selected) minimum = true ↔
        (row.plain source.name).Better source.dataType minimum selected.dropZeroSign :=
      replacesExtremum_iff htype hshows hrow hnull rfl hselected (by simpa using hselectedNull)
    split_ifs with hreplace
    · rw [Holds, inputs_concat hnull, hinto]
      refine ⟨List.mem_append_right _ (List.mem_singleton_self _), fun other hother => ?_⟩
      rcases List.mem_append.mp hother with hother | hother
      · exact fun hbetter => hbest other hother (hbetter.trans (hreplaces.mp hreplace))
      · rw [List.mem_singleton.mp hother]
        exact Value.better_irrefl _ _ _
    · rw [Holds, inputs_concat hnull]
      refine ⟨List.mem_append_left _ hmem, fun other hother => ?_⟩
      rcases List.mem_append.mp hother with hother | hother
      · exact hbest other hother
      · rw [List.mem_singleton.mp hother]
        exact fun hbetter => hreplace (hreplaces.mpr hbetter)

/-- A row brings what an accumulator holds up to date, and never fails on its count or its sum: a query
scans no more rows than either has room for. -/
theorem update_holds {aggregate : AggregateAccumulator} (htyped : aggregate.Typed)
    (hcolumn : ∀ source, aggregate.column = some source → source.Resolves schema read)
    (hreads : visited.ReadsAs json schema read row) (hrows : ∀ earlier ∈ rows, PlainRow schema earlier)
    (hlength : rows.length < maxScanRows) (hholds : aggregate.Holds rows) :
    ∃ aggregate', aggregate.update json schema visited = .ok aggregate' ∧
      aggregate'.Holds (rows ++ [row]) ∧ aggregate'.initial = aggregate.initial := by
  have hinputs := fun name => (inputs_length_le name : (inputs rows name).length ≤ rows.length)
  have hempty (values : List Value) (value : Value) : (!(values ++ [value]).isEmpty) = true := by
    cases values <;> rfl
  have hplain (source : SourceColumn) (hsource : aggregate.column = some source) :
      (row.plain source.name).Plain source.dataType := (hcolumn source hsource).plain hreads.plain
  cases aggregate with
  | count column n =>
    cases column with
    | none =>
      obtain rfl : n = rows.length := hholds
      refine ⟨count none (rows.length + 1), ?_, ?_, rfl⟩
      · rw [update, SourceColumn.counts, nextCount_eq hlength]
        rfl
      · rw [Holds, List.length_append]
        rfl
    | some source =>
      obtain rfl : n = (inputs rows source.name).length := hholds
      rcases hreads.nonNull (hcolumn source rfl) with ⟨hnull, hread⟩ | ⟨hnull, ref, hread, -⟩
      · refine ⟨count (some source) (inputs rows source.name).length, ?_, ?_, rfl⟩
        · simp only [update, SourceColumn.counts, hread, bind, Except.bind, pure, Except.pure]
          rfl
        · rw [Holds, inputs_concat_null hnull]
      · refine ⟨count (some source) ((inputs rows source.name).length + 1), ?_, ?_, rfl⟩
        · simp only [update, SourceColumn.counts, hread, bind, Except.bind, pure, Except.pure,
            Option.isSome_some, if_true, nextCount_eq ((hinputs _).trans_lt hlength)]
        · rw [Holds, inputs_concat hnull, List.length_append]
          rfl
  | integerSum source sum seen =>
    obtain ⟨rfl, rfl⟩ := hholds
    rcases hreads.nonNull (hcolumn source rfl) with ⟨hnull, hread⟩ | ⟨hnull, ref, hread, hshows⟩
    · refine ⟨integerSum source _ _, ?_, ?_, rfl⟩
      · simp only [update, hread, bind, Except.bind, pure, Except.pure]
      · rw [Holds, inputs_concat_null hnull]
        exact ⟨rfl, rfl⟩
    · have htype : source.dataType = .integer := htyped
      have hplain := hplain source rfl
      rw [htype] at hshows hplain
      obtain ⟨i, hi⟩ := hplain.integer hnull
      refine ⟨integerSum source (integerTotal (inputs rows source.name) + i) true, ?_, ?_, rfl⟩
      · have hnext := nextSum_eq ((hinputs source.name).trans_lt hlength) (integerTotal_natAbs _)
          (safeInteger_natAbs hi)
        simp only [update, hread, bind, Except.bind, pure, Except.pure, hshows.integerInput hplain hi,
          hnext]
      · rw [Holds, inputs_concat hnull, integerTotal_concat _ hi, hempty]
        exact ⟨rfl, rfl⟩
  | floatSum source sum seen =>
    obtain ⟨rfl, rfl⟩ := hholds
    rcases hreads.nonNull (hcolumn source rfl) with ⟨hnull, hread⟩ | ⟨hnull, ref, hread, hshows⟩
    · refine ⟨floatSum source _ _, ?_, ?_, rfl⟩
      · simp only [update, hread, bind, Except.bind, pure, Except.pure]
      · rw [Holds, inputs_concat_null hnull]
        exact ⟨rfl, rfl⟩
    · have htype : source.dataType = .float := htyped
      have hplain := hplain source rfl
      rw [htype] at hshows hplain
      obtain ⟨f, hf⟩ := hplain.float hnull
      rw [hf] at hshows hplain
      obtain ⟨g, hinput, hscaled⟩ := hshows.floatInput hplain
      refine ⟨floatSum source ((floatTotal (inputs rows source.name)).accumulate g) true, ?_, ?_, rfl⟩
      · simp only [update, hread, bind, Except.bind, pure, Except.pure, hinput]
      · rw [Holds, inputs_concat hnull, hempty]
        exact ⟨floatTotal_accumulate _ (by rw [hf]; rfl) hscaled, rfl⟩
  | average source sum n =>
    obtain ⟨rfl, rfl⟩ := hholds
    rcases hreads.nonNull (hcolumn source rfl) with ⟨hnull, hread⟩ | ⟨hnull, ref, hread, hshows⟩
    · refine ⟨average source _ _, ?_, ?_, rfl⟩
      · simp only [update, hread, bind, Except.bind, pure, Except.pure]
      · rw [Holds, inputs_concat_null hnull]
        exact ⟨rfl, rfl⟩
    · obtain ⟨f, g, hvalue, hinput, hscaled⟩ := hshows.averageInput (hplain source rfl) htyped hnull
      refine ⟨average source ((floatTotal (inputs rows source.name)).accumulate g)
        ((inputs rows source.name).length + 1), ?_, ?_, rfl⟩
      · simp only [update, hread, bind, Except.bind, pure, Except.pure, hinput,
          nextCount_eq ((hinputs _).trans_lt hlength)]
      · rw [Holds, inputs_concat hnull, List.length_append]
        exact ⟨floatTotal_accumulate _ hvalue hscaled, rfl⟩
  | extremum source selected minimum =>
    rcases hreads.nonNull (hcolumn source rfl) with ⟨hnull, hread⟩ | ⟨hnull, ref, hread, hshows⟩
    · refine ⟨extremum source selected minimum, ?_, ?_, rfl⟩
      · simp only [update, hread, bind, Except.bind, pure, Except.pure]
      · cases selected with
        | none =>
          rw [Holds, inputs_concat_null hnull]
          exact hholds
        | some selected =>
          rw [Holds, inputs_concat_null hnull]
          exact hholds
    · refine ⟨_, ?_, select_holds htyped hnull hshows ?_ hholds, ?_⟩
      · simp only [update, hread, bind, Except.bind, pure, Except.pure]
      · intro other hother
        rcases List.mem_append.mp hother with hother | hother
        · exact (hcolumn source rfl).plain (hrows other hother)
        · rw [List.mem_singleton.mp hother]
          exact hplain source rfl
      · split <;> rfl

/-! ### The accumulators of calls -/

lemma sourceColumn_new {name table : String} (h : SourceColumn.new schema name table = .ok source) :
    source.name = name ∧ ∃ column, schema.columns[source.index]? = some column ∧ column.name = name ∧
      column.dataType = source.dataType := by
  unfold SourceColumn.new at h
  split at h
  · next index hindex =>
    obtain ⟨hlt, hname, -⟩ := List.findIdx?_eq_some_iff_getElem.mp hindex
    cases h
    refine ⟨rfl, schema.columns[index], List.getElem?_eq_getElem hlt, by simpa using hname, ?_⟩
    rw [List.getElem?_eq_getElem hlt, Option.map_some, Option.getD_some]
  · cases h

/-- An accumulator of a call, which reads a column of its query. -/
structure Serves (schema : TableDefinition) (read : List Nat) (function : AggregateFunction)
    (argument : AggregateArgument) (aggregate : AggregateAccumulator) : Prop where
  made : new function argument schema = .ok aggregate.initial
  typed : aggregate.Typed
  resolves : ∀ source, aggregate.column = some source → source.Resolves schema read

lemma column_initial (aggregate : AggregateAccumulator) : aggregate.initial.column = aggregate.column := by
  cases aggregate <;> rfl

lemma typed_initial (aggregate : AggregateAccumulator) : aggregate.initial.Typed ↔ aggregate.Typed := by
  cases aggregate <;> exact Iff.rfl

/-- An accumulator serves its call however many rows it has been given. -/
lemma Serves.of_initial {function : AggregateFunction} {argument : AggregateArgument}
    {aggregate aggregate' : AggregateAccumulator} (h : aggregate.Serves schema read function argument)
    (hsame : aggregate'.initial = aggregate.initial) : aggregate'.Serves schema read function argument where
  made := by rw [hsame, h.made]
  typed := by rw [← typed_initial, hsame, typed_initial]; exact h.typed
  resolves := by rw [← column_initial, hsame, column_initial]; exact h.resolves

/-- The types of column that a function aggregates. -/
def Takes (dataType : ColumnType) : AggregateFunction → Prop
  | .count => True
  | .sum | .avg => dataType = .integer ∨ dataType = .float
  | .min | .max => dataType.Ordered

lemma validateAggregate_column {function : AggregateFunction} {name table : String}
    (hshape : SchemaShape schema) (h : validateAggregate function (.column name) schema table = .ok ())
    (hsource : source.Resolves schema read) (hname : source.name = name) :
    Takes source.dataType function := by
  obtain ⟨-, column, hcolumn, hcolumnName, htype⟩ := hsource
  rw [validateAggregate, columnDefinition, ← hname, ← hcolumnName,
    find?_name hshape (List.mem_of_getElem? hcolumn)] at h
  rw [← htype]
  cases function with
  | count => trivial
  | _ =>
    simp only [bind, Except.bind, decide_eq_true_eq] at h
    split_ifs at h with htype
    simpa [Takes, ColumnType.Ordered] using htype

lemma new_serves {function : AggregateFunction} {argument : AggregateArgument} {table : String}
    (hshape : SchemaShape schema) (hvalid : validateAggregate function argument schema table = .ok ())
    (hread : ∀ name, argument = .column name → ∃ source,
      SourceColumn.new schema name schema.name = .ok source ∧ source.name = name ∧
        source.Resolves schema read) :
    ∃ aggregate, new function argument schema = .ok aggregate ∧
      aggregate.Serves schema read function argument ∧ aggregate.Holds [] := by
  cases argument with
  | star =>
    rw [validateAggregate] at hvalid
    split_ifs at hvalid with hcount
    subst hcount
    exact ⟨count none 0, rfl, ⟨rfl, trivial, fun _ h => (nomatch h)⟩, rfl⟩
  | column name =>
    obtain ⟨source, hsource, hname, hresolves⟩ := hread name rfl
    have htype := validateAggregate_column hshape hvalid hresolves hname
    have hcolumn (s : SourceColumn) (h : some source = some s) : s.Resolves schema read :=
      Option.some.inj h ▸ hresolves
    cases function with
    | count =>
      have hnew : new .count (.column name) schema = .ok (count (some source) 0) := by
        simp only [new, hsource, bind, Except.bind, pure, Except.pure]
      exact ⟨_, hnew, ⟨hnew, trivial, hcolumn⟩, rfl⟩
    | sum =>
      by_cases hinteger : source.dataType = .integer
      · have hnew : new .sum (.column name) schema = .ok (integerSum source 0 false) := by
          simp only [new, hsource, bind, Except.bind, pure, Except.pure, if_pos hinteger]
        exact ⟨_, hnew, ⟨hnew, hinteger, hcolumn⟩, rfl, rfl⟩
      · have hnew : new .sum (.column name) schema = .ok (floatSum source F64.zero false) := by
          simp only [new, hsource, bind, Except.bind, pure, Except.pure, if_neg hinteger]
        have hfloat : source.dataType = .float := htype.resolve_left hinteger
        exact ⟨_, hnew, ⟨hnew, hfloat, hcolumn⟩, rfl, rfl⟩
    | avg =>
      have hnew : new .avg (.column name) schema = .ok (average source F64.zero 0) := by
        simp only [new, hsource, bind, Except.bind, pure, Except.pure]
      exact ⟨_, hnew, ⟨hnew, htype, hcolumn⟩, rfl, rfl⟩
    | min =>
      have hnew : new .min (.column name) schema = .ok (extremum source none true) := by
        simp only [new, hsource, bind, Except.bind, pure, Except.pure]
      exact ⟨_, hnew, ⟨hnew, htype, hcolumn⟩, rfl⟩
    | max =>
      have hnew : new .max (.column name) schema = .ok (extremum source none false) := by
        simp only [new, hsource, bind, Except.bind, pure, Except.pure]
      exact ⟨_, hnew, ⟨hnew, htype, hcolumn⟩, rfl⟩

/-! ### Finishing -/

lemma dropZeroSign_ofI64 (i : Int) : (Value.ofI64 i).dropZeroSign = Value.ofI64 i := by
  unfold Value.ofI64
  split <;> rfl

lemma Serves.column_made {function : AggregateFunction} {name : String}
    {aggregate : AggregateAccumulator}
    (h : aggregate.Serves schema read function (.column name)) :
    ∃ source, SourceColumn.new schema name schema.name = .ok source ∧ source.name = name ∧
      aggregate.initial = match function with
        | .count => count (some source) 0
        | .sum =>
          if source.dataType = .integer then integerSum source 0 false
          else floatSum source F64.zero false
        | .avg => average source F64.zero 0
        | .min => extremum source none true
        | .max => extremum source none false := by
  have hmade := h.made
  rw [new] at hmade
  obtain ⟨source, hsource, hmade⟩ := Except.bind_eq_ok.mp hmade
  refine ⟨source, hsource, (sourceColumn_new hsource).1, ?_⟩
  cases function <;> exact (Except.ok.inj hmade).symm

lemma Serves.columnType (hshape : SchemaShape schema) (hsource : source.Resolves schema read) :
    schemaColumnType schema source.name = .ok source.dataType := by
  obtain ⟨-, column, hcolumn, hname, htype⟩ := hsource
  rw [← hname, ← htype]
  exact schemaColumnType_of_mem hshape (List.mem_of_getElem? hcolumn)

lemma integerSum_finish {sum : Int} {seen : Bool} (hholds : (integerSum source sum seen).Holds rows) :
    (integerSum source sum seen).finish.map Value.dropZeroSign =
      integerSumValue (inputs rows source.name) := by
  obtain ⟨rfl, rfl⟩ := hholds
  rw [finish, integerSumValue, Bool.not_not]
  by_cases hempty : (inputs rows source.name).isEmpty = true
  · rw [if_pos hempty, if_pos hempty]
    rfl
  · rw [if_neg hempty, if_neg hempty]
    by_cases hbound : (integerTotal (inputs rows source.name)).natAbs ≤ maxSafeInteger
    · rw [if_pos hbound, if_pos (by omega), Except.map, dropZeroSign_ofI64]
    · rw [if_neg hbound, if_neg (by omega)]
      rfl

lemma floatSum_finish {sum : F64} {seen : Bool} (hholds : (floatSum source sum seen).Holds rows) :
    (floatSum source sum seen).finish.map Value.dropZeroSign =
      floatSumValue (inputs rows source.name) := by
  obtain ⟨rfl, rfl⟩ := hholds
  rw [finish, floatSumValue]
  cases (inputs rows source.name).isEmpty <;> rfl

lemma average_finish {sum : F64} {n : Nat} (hholds : (average source sum n).Holds rows) :
    (average source sum n).finish.map Value.dropZeroSign = averageValue (inputs rows source.name) := by
  obtain ⟨rfl, rfl⟩ := hholds
  rw [finish, averageValue]
  cases hinputs : inputs rows source.name with
  | nil => rfl
  | cons value values =>
    rw [if_neg (by simp), if_neg (by simp)]

lemma extremum_meaning {selected : Option Value} {minimum : Bool}
    (hholds : (extremum source selected minimum).Holds rows) :
    IsExtremum source.dataType minimum (inputs rows source.name)
      ((extremum source selected minimum).finish.map Value.dropZeroSign) := by
  cases selected with
  | none =>
    have hnone : inputs rows source.name = [] := hholds
    rw [hnone, IsExtremum, if_pos rfl]
    rfl
  | some selected =>
    obtain ⟨hmem, hbest⟩ : _ ∧ _ := hholds
    rw [IsExtremum, if_neg (List.ne_nil_of_mem hmem)]
    refine ⟨_, hmem, rfl, fun other hother => ?_⟩
    have hother' := hbest other hother
    cases minimum <;> exact hother'

/-- An accumulator finishes as its call means of the rows it holds. -/
theorem Serves.finish_meaning {function : AggregateFunction} {argument : AggregateArgument}
    {aggregate : AggregateAccumulator} (h : aggregate.Serves schema read function argument)
    (hshape : SchemaShape schema) (hholds : aggregate.Holds rows) :
    Meaning schema rows (aggregate.finish.map Value.dropZeroSign) function argument := by
  have hcount (column : Option SourceColumn) (n : Nat) :
      (count column n).finish.map Value.dropZeroSign = countValue n := by
    rw [finish, countValue]
    split
    · rfl
    · rw [Except.map, Value.ofI64, dif_neg (by omega)]
      rfl
  cases argument with
  | star =>
    have hmade := h.made
    cases function with
    | count =>
      cases aggregate <;> cases hmade
      obtain rfl := hholds
      exact hcount none rows.length
    | _ => cases hmade
  | column name =>
    obtain ⟨source, -, rfl, hmade⟩ := h.column_made
    cases function with
    | count =>
      cases aggregate <;> cases hmade
      obtain rfl := hholds
      exact hcount _ _
    | sum =>
      split_ifs at hmade with hinteger
      · cases aggregate <;> cases hmade
        rw [Meaning, if_pos (by rw [Serves.columnType hshape (h.resolves source rfl), hinteger])]
        exact integerSum_finish hholds
      · cases aggregate <;> cases hmade
        rw [Meaning, if_neg (by
          rw [Serves.columnType hshape (h.resolves source rfl), Except.ok.injEq]
          exact hinteger)]
        exact floatSum_finish hholds
    | avg =>
      cases aggregate <;> cases hmade
      exact average_finish hholds
    | min =>
      cases aggregate <;> cases hmade
      exact ⟨source.dataType, Serves.columnType hshape (h.resolves source rfl),
        extremum_meaning hholds⟩
    | max =>
      cases aggregate <;> cases hmade
      exact ⟨source.dataType, Serves.columnType hshape (h.resolves source rfl),
        extremum_meaning hholds⟩

/-! ### Sizes -/

lemma incomingBytes_eq (ref : ValueRef) : incomingBytes ref = .ok (ownedValueBytes ref.intoValue) := by
  cases ref with
  | integer i =>
    rw [ValueRef.intoValue, Value.ofI64]
    split <;> rw [ownedValueBytes] <;> rfl
  | float f =>
    rw [ValueRef.intoValue, Value.ofF64]
    split <;> rw [ownedValueBytes] <;> rfl
  | text s =>
    rw [ValueRef.intoValue, ownedValueBytes]
    rfl
  | _ => rfl

lemma isExtremum_initial (aggregate : AggregateAccumulator) :
    aggregate.initial.isExtremum = aggregate.isExtremum := by
  cases aggregate <;> rfl

/-- Only what an extremum selects tells its size from the size of a new one. -/
lemma estimatedBytes_of_not_extremum {aggregate : AggregateAccumulator}
    (h : aggregate.isExtremum = false) : aggregate.estimatedBytes = aggregate.initial.estimatedBytes := by
  cases aggregate <;> first | rfl | cases h

/-- The size that an update is charged for is the size that it comes to. -/
theorem estimatedBytesAfter_eq {aggregate aggregate' : AggregateAccumulator}
    (h : aggregate.update json schema visited = .ok aggregate')
    (hsame : aggregate'.initial = aggregate.initial) :
    aggregate.estimatedBytesAfter json schema visited = .ok aggregate'.estimatedBytes := by
  have hkept (hextremum : aggregate.isExtremum = false) :
      aggregate'.estimatedBytes = aggregate.estimatedBytes := by
    have hextremum' : aggregate'.isExtremum = false := by
      rw [← isExtremum_initial, hsame, isExtremum_initial, hextremum]
    rw [estimatedBytes_of_not_extremum hextremum', hsame, estimatedBytes_of_not_extremum hextremum]
  cases aggregate with
  | extremum source selected minimum =>
    rw [update] at h
    obtain ⟨read, hread, h⟩ := Except.bind_eq_ok.mp h
    rw [estimatedBytesAfter, hread]
    cases read with
    | none =>
      cases h
      rfl
    | some ref =>
      simp only [pure, Except.pure, Except.ok.injEq] at h
      simp only [bind, Except.bind, pure, Except.pure]
      split_ifs at h ⊢ with hreplace
      · subst h
        have hbytes : (extremum source (some ref.intoValue) minimum).estimatedBytes =
            96 + textLength source.name * 2 + ownedValueBytes ref.intoValue * 2 := rfl
        cases selected with
        | none =>
          simp only [incomingBytes_eq, hbytes]
          rfl
        | some selected =>
          have hselected : (extremum source (some selected) minimum).estimatedBytes =
            96 + textLength source.name * 2 + ownedValueBytes selected * 2 := rfl
          simp only [checkedSub, hselected, Nat.le_add_left, if_true, Nat.add_sub_cancel,
            incomingBytes_eq, hbytes]
      · subst h
        rfl
  | _ =>
    rw [hkept rfl]
    rfl

end AggregateAccumulator
end Reading
end TinyJoin
