import TinyJoin.RecordTests

/-! The record tests compiled from a filter: a row the filter accepts passes every one of them, and where
they decide it, a row that passes them all is one it accepts. -/
namespace TinyJoin
namespace Query

variable {schema : TableDefinition} {read : Nat → Result ValueRef} {table : String}

/-- The columns of a row are read, each as a value of its type. -/
def ReadsTyped (schema : TableDefinition) (read : Nat → Result ValueRef) : Prop :=
  ∀ index column, schema.columns[index]? = some column →
    ∃ ref, read index = .ok ref ∧ Held ref ∧ TypedAs column.dataType ref

/-- The value of a test's column passes it. -/
def RecordTest.HoldsAt (read : Nat → Result ValueRef) (test : RecordTest) : Prop :=
  ∃ ref, read test.column = .ok ref ∧ test.holds ref = true

/-! ### Compiled tests -/

lemma columnType_eq_some {index : Nat} {column : ColumnDefinition} {dataType : ColumnType}
    (h : columnType schema index = some dataType) (hcolumn : schema.columns[index]? = some column) :
    column.dataType = dataType := by
  rw [columnType, hcolumn] at h
  exact Option.some.inj h

lemma columnDefault_eq {index : Nat} {column : ColumnDefinition}
    (hcolumn : schema.columns[index]? = some column) : columnDefault schema index = column.default := by
  rw [columnDefault, hcolumn]
  rfl

/-- Every compiled test is of a column of its type, whose default it knows. -/
def Fitting (schema : TableDefinition) (tests : List RecordTest) : Prop :=
  ∀ test ∈ tests, ∀ column, schema.columns[test.column]? = some column → test.Fits column

lemma fitting_nil : Fitting schema [] := List.forall_mem_nil _

lemma fitting_singleton {test : RecordTest} {index : Nat} (hindex : test.column = index)
    (h : ∀ column, schema.columns[index]? = some column → test.Fits column) : Fitting schema [test] := by
  intro item hitem column hcolumn
  cases List.mem_singleton.mp hitem
  rw [hindex] at hcolumn
  exact h column hcolumn

lemma fitting_integerTest {index : Nat} (range : Int × Int)
    (htype : columnType schema index = some .integer) :
    Fitting schema [integerTest schema index range] := by
  refine @fitting_singleton schema _ index rfl ?_
  intro column hcolumn
  refine ⟨columnType_eq_some htype hcolumn, ?_⟩
  rw [columnDefault_eq hcolumn]

mutual

lemma fitting_compileTests : ∀ node : FilterNode, Fitting schema (node.compileTests schema).1
  | .comparison index name operator value => by
    unfold FilterNode.compileTests
    split
    · next htype =>
      split
      · exact fitting_integerTest _ htype
      · exact fitting_nil
    · split
      · split
        · next htype =>
          refine @fitting_singleton schema _ index rfl ?_
          intro column hcolumn
          refine ⟨columnType_eq_some htype hcolumn, ?_⟩
          rw [columnDefault_eq hcolumn]
        · exact fitting_nil
      · exact fitting_nil
  | .comparisons index name tests bounds (some range) => by
    rw [FilterNode.compileTests]
    split
    · next htype => exact fitting_integerTest _ htype
    · exact fitting_nil
  | .comparisons index name tests bounds none => fitting_nil
  | .isNull index negated => by
    exact fitting_singleton rfl (fun _ _ => trivial)
  | .isIn index name values => fitting_nil
  | .like index (some pattern) => by
    rw [FilterNode.compileTests]
    split
    · next htype =>
      refine @fitting_singleton schema _ index rfl ?_
      intro column hcolumn
      refine ⟨columnType_eq_some htype hcolumn, ?_⟩
      rw [columnDefault_eq hcolumn]
    · exact fitting_nil
  | .like index none => fitting_nil
  | .and nodes => fitting_compileAll nodes
  | .or nodes => fitting_nil
  | .not node => fitting_nil
  | .expressions left operator right columns => fitting_nil

lemma fitting_compileAll : ∀ nodes : List FilterNode, Fitting schema (FilterNode.compileAll schema nodes).1
  | [] => fitting_nil
  | node :: nodes => by
    intro test htest
    rcases List.mem_append.mp htest with htest | htest
    · exact fitting_compileTests node test htest
    · exact fitting_compileAll nodes test htest

end

/-! ### Terms -/

/-- What record tests say of a term: it is true only of a row that passes them, and of every such row
where they decide it. -/
def Judges (read : Nat → Result ValueRef) (compiled : List RecordTest × Bool) (worth : Result Truth) :
    Prop :=
  (worth = .ok .true → ∀ test ∈ compiled.1, test.HoldsAt read) ∧
    (compiled.2 = true → (∀ test ∈ compiled.1, test.HoldsAt read) → worth = .ok .true)

lemma judges_nothing {worth : Result Truth} : Judges read ([], false) worth :=
  ⟨fun _ => List.forall_mem_nil _, fun h => (by cases h)⟩

/-- A term that is true exactly where a test is passed. -/
lemma judges_single {test : RecordTest} {ref : ValueRef} {worth : Result Truth}
    (href : read test.column = .ok ref) (h : worth = .ok .true ↔ test.holds ref = true) :
    Judges read ([test], true) worth := by
  constructor
  · intro htrue item hitem
    cases List.mem_singleton.mp hitem
    exact ⟨ref, href, h.mp htrue⟩
  · intro _ hall
    obtain ⟨other, hother, hholds⟩ := hall test (List.mem_singleton_self test)
    rw [href] at hother
    cases hother
    exact h.mpr hholds

lemma ok_ofBool_eq_true {b : Bool} : (Except.ok (Truth.ofBool b) : Result Truth) = .ok .true ↔ b = true := by
  rw [Except.ok.injEq, Truth.ofBool_eq_true]

/-- Comparisons with NULL are not true. -/
lemma compareEach_null {name : String} {tests : List ColumnTest} (hne : tests ≠ []) :
    compareEach .null table name tests ≠ .ok .true := by
  intro htrue
  obtain ⟨-, hall⟩ := Truth.conjunction_eq_true.mp htrue
  obtain ⟨test, htest⟩ := List.exists_mem_of_ne_nil tests hne
  have hunknown := hall _ (List.mem_map_of_mem htest)
  cases hunknown

mutual

/-- No run of comparisons under `AND` is empty. -/
def FilterNode.Filled : FilterNode → Prop
  | .comparisons _ _ tests _ _ => tests ≠ []
  | .and nodes => FilterNode.AllFilled nodes
  | _ => True

def FilterNode.AllFilled : List FilterNode → Prop
  | [] => True
  | node :: nodes => node.Filled ∧ FilterNode.AllFilled nodes

end

/-- An integer column satisfies comparisons exactly where it lies in their range. -/
lemma judges_integers {index : Nat} {ref : ValueRef} {range : Int × Int} {worth : Result Truth}
    (href : read index = .ok ref) (htyped : ref = .null ∨ ∃ i, ref = .integer i)
    (hnull : ref = .null → worth ≠ .ok .true)
    (hinteger : ∀ i, ref = .integer i →
      worth = .ok (.ofBool (decide (range.1 ≤ i) && decide (i ≤ range.2)))) :
    Judges read ([integerTest schema index range], true) worth := by
  refine judges_single href ?_
  rcases htyped with rfl | ⟨i, rfl⟩
  · exact iff_of_false (hnull rfl) Bool.false_ne_true
  · rw [hinteger i rfl, ok_ofBool_eq_true]
    rfl

lemma ReadsTyped.of_columnType (hreads : ReadsTyped schema read) {index : Nat} {dataType : ColumnType}
    (htype : columnType schema index = some dataType) :
    ∃ ref, read index = .ok ref ∧ Held ref ∧ TypedAs dataType ref := by
  obtain ⟨column, hcolumn, rfl⟩ := Option.map_eq_some_iff.mp htype
  exact hreads index column hcolumn

/-- A comparison of an integer column with an integer. -/
lemma judges_comparison_integer (hreads : ReadsTyped schema read) {index : Nat} {name : String}
    {operator : ComparisonOperator} {value : Value} {range : Int × Int}
    (htype : columnType schema index = some .integer)
    (hrange : integerRange [(operator, value)] = some range) :
    Judges read ([integerTest schema index range], true)
      ((FilterNode.comparison index name operator value).evaluate read table) := by
  obtain ⟨ref, href, hheld, htyped⟩ := hreads.of_columnType htype
  rw [evaluate_comparison href hheld]
  refine judges_integers href (htyped.1 rfl) ?_ ?_
  · rintro rfl
    intro htrue
    cases htrue
  · rintro i rfl
    rw [← compareEach_of_integerRange hheld hrange]
    exact (Truth.conjunction_singleton _).symm

lemma judges_comparison_text (hreads : ReadsTyped schema read) {index : Nat} {name text : String}
    (default : Bool) (htype : columnType schema index = some .text) :
    Judges read ([.textEquals index text default], true)
      ((FilterNode.comparison index name .eq (.string text)).evaluate read table) := by
  obtain ⟨ref, href, hheld, htyped⟩ := hreads.of_columnType htype
  rw [evaluate_comparison href hheld]
  refine judges_single href ?_
  rcases htyped.2 rfl with rfl | ⟨actual, rfl⟩
  · exact iff_of_false (fun h => (by cases h)) Bool.false_ne_true
  · rw [compareToValue_typed .eq table name (by simp) rfl rfl]
    refine ok_ofBool_eq_true.trans ?_
    rw [orderingWith, compareOfLessAndEq_beq, RecordTest.holds]

lemma judges_comparisons (hreads : ReadsTyped schema read) {index : Nat} {name : String}
    {tests : List ColumnTest} (bounds : List (ComparisonOperator × F64)) (range : Int × Int)
    (htype : columnType schema index = some .integer) (hne : tests ≠ []) :
    Judges read ([integerTest schema index range], true)
      ((FilterNode.comparisons index name tests bounds (some range)).evaluate read table) := by
  obtain ⟨ref, href, hheld, htyped⟩ := hreads.of_columnType htype
  rw [FilterNode.evaluate, href]
  refine judges_integers href (htyped.1 rfl) ?_ ?_
  · rintro rfl
    exact compareEach_null hne
  · rintro i rfl
    rfl

lemma judges_like (hreads : ReadsTyped schema read) {index : Nat} (pattern : LikePattern)
    (default : Bool) (htype : columnType schema index = some .text) :
    Judges read ([.like index pattern default], true)
      ((FilterNode.like index (some pattern)).evaluate read table) := by
  obtain ⟨ref, href, -, htyped⟩ := hreads.of_columnType htype
  rw [FilterNode.evaluate, href]
  refine judges_single href ?_
  rcases htyped.2 rfl with rfl | ⟨text, rfl⟩
  · exact iff_of_false (fun h => (by cases h)) Bool.false_ne_true
  · exact ok_ofBool_eq_true

lemma judges_isNull {index : Nat} (negated : Bool) :
    Judges read ([.isNull index negated], true)
      ((FilterNode.isNull index negated).evaluate read table) := by
  rw [FilterNode.evaluate]
  cases href : read index with
  | error error =>
    constructor
    · intro h
      cases h
    · intro _ hall
      obtain ⟨ref, hread, -⟩ := hall _ (List.mem_singleton_self _)
      rw [RecordTest.column, href] at hread
      cases hread
  | ok ref => exact judges_single href ok_ofBool_eq_true

mutual

/-- The tests compiled from a node judge the term it stands for. -/
lemma judges_compileTests (hreads : ReadsTyped schema read) : ∀ node : FilterNode, node.Filled →
    Judges read (node.compileTests schema) (node.evaluate read table)
  | .comparison index name operator value, _ => by
    unfold FilterNode.compileTests
    split
    · next htype =>
      split
      · next range hrange => exact judges_comparison_integer hreads htype hrange
      · exact judges_nothing
    · split
      · split
        · next htype => exact judges_comparison_text hreads _ htype
        · exact judges_nothing
      · exact judges_nothing
  | .comparisons index name tests bounds (some range), hfilled => by
    rw [FilterNode.compileTests]
    split
    · next htype => exact judges_comparisons hreads bounds range htype hfilled
    · exact judges_nothing
  | .comparisons index name tests bounds none, _ => judges_nothing
  | .isNull index negated, _ => judges_isNull negated
  | .isIn index name values, _ => judges_nothing
  | .like index (some pattern), _ => by
    rw [FilterNode.compileTests]
    split
    · next htype => exact judges_like hreads pattern _ htype
    · exact judges_nothing
  | .like index none, _ => judges_nothing
  | .and nodes, hfilled => by
    rw [FilterNode.compileTests, FilterNode.evaluate]
    exact judges_compileAll hreads nodes hfilled
  | .or nodes, _ => judges_nothing
  | .not node, _ => judges_nothing
  | .expressions left operator right columns, _ => judges_nothing

lemma judges_compileAll (hreads : ReadsTyped schema read) : ∀ nodes : List FilterNode,
    FilterNode.AllFilled nodes →
      Judges read (FilterNode.compileAll schema nodes)
        (Truth.conjunction false (FilterNode.evaluateAll read table nodes))
  | [], _ => ⟨fun _ => List.forall_mem_nil _, fun _ _ => rfl⟩
  | node :: nodes, hfilled => by
    obtain ⟨hsound, hdecided⟩ := judges_compileTests hreads node hfilled.1
    obtain ⟨hsounds, hdecideds⟩ := judges_compileAll hreads nodes hfilled.2
    rw [FilterNode.evaluateAll, FilterNode.compileAll]
    constructor
    · intro htrue
      obtain ⟨-, hall⟩ := Truth.conjunction_eq_true.mp htrue
      obtain ⟨hfirst, hrest⟩ := List.forall_mem_cons.mp hall
      intro test htest
      rcases List.mem_append.mp htest with htest | htest
      · exact hsound hfirst test htest
      · exact hsounds (Truth.conjunction_eq_true.mpr ⟨rfl, hrest⟩) test htest
    · intro hboth htests
      obtain ⟨hone, hothers⟩ := Bool.and_eq_true_iff.mp hboth
      obtain ⟨hmine, htheirs⟩ := List.forall_mem_append.mp htests
      obtain ⟨-, hrest⟩ := Truth.conjunction_eq_true.mp (hdecideds hothers htheirs)
      exact Truth.conjunction_eq_true.mpr
        ⟨rfl, List.forall_mem_cons.mpr ⟨hdecided hone hmine, hrest⟩⟩

end

/-! ### Runs under `AND` -/

lemma allFilled_iff {nodes : List FilterNode} :
    FilterNode.AllFilled nodes ↔ ∀ node ∈ nodes, node.Filled := by
  induction nodes with
  | nil => exact iff_of_true trivial (List.forall_mem_nil _)
  | cons node nodes ih => rw [FilterNode.AllFilled, List.forall_mem_cons, ih]

lemma joinNode_filled {nodes : List FilterNode} {node : FilterNode}
    (hnodes : ∀ item ∈ nodes, item.Filled) (hnode : node.Filled) :
    ∀ item ∈ joinNode nodes node, item.Filled := by
  have hbehind : ∀ before : List FilterNode, (∀ item ∈ before, item.Filled) →
      ∀ last : FilterNode, last.Filled → ∀ item ∈ before ++ [last], item.Filled := by
    intro before hbefore last hlast
    exact List.forall_mem_append.mpr ⟨hbefore, List.forall_mem_singleton.mpr hlast⟩
  have hdropped : ∀ item ∈ nodes.dropLast, item.Filled := fun item hitem =>
    hnodes item (List.mem_of_mem_dropLast hitem)
  cases node with
  | comparison column name operator value =>
    rw [joinNode]
    split
    · split
      · refine hbehind _ hdropped _ ?_
        rw [FilterNode.Filled]
        exact List.append_ne_nil_of_right_ne_nil _ (List.cons_ne_nil _ _)
      · exact hbehind _ hnodes _ hnode
    · split
      · refine hbehind _ hdropped _ ?_
        rw [FilterNode.Filled]
        exact List.cons_ne_nil _ _
      · exact hbehind _ hnodes _ hnode
    · exact hbehind _ hnodes _ hnode
  | _ => exact hbehind _ hnodes _ hnode

lemma foldl_joinNode_filled {terms nodes : List FilterNode} (hterms : ∀ item ∈ terms, item.Filled)
    (hnodes : ∀ item ∈ nodes, item.Filled) : ∀ item ∈ terms.foldl joinNode nodes, item.Filled := by
  induction terms generalizing nodes with
  | nil => exact hnodes
  | cons term terms ih =>
    obtain ⟨hterm, hterms⟩ := List.forall_mem_cons.mp hterms
    exact ih hterms (joinNode_filled hnodes hterm)

lemma withBounds_filled {node : FilterNode} (h : node.Filled) : node.withBounds.Filled := by
  cases node <;> exact h

lemma andNodes_filled {nodes : List FilterNode} (h : ∀ node ∈ nodes, node.Filled) :
    (andNodes nodes).Filled := by
  cases nodes with
  | nil => trivial
  | cons node rest =>
    cases rest with
    | nil => exact h node List.mem_cons_self
    | cons second rest => exact allFilled_iff.mpr h

mutual

lemma filled_new {position : String → Result Nat} : ∀ {predicate : Predicate} {node : FilterNode},
    FilterNode.new position predicate = .ok node → node.Filled
  | .comparison column operator value, node, h => by
    obtain ⟨index, -, h⟩ := Except.bind_eq_ok.mp h
    cases h
    trivial
  | .isNull column negated, node, h => by
    obtain ⟨index, -, h⟩ := Except.bind_eq_ok.mp h
    cases h
    trivial
  | .isIn column values, node, h => by
    obtain ⟨index, -, h⟩ := Except.bind_eq_ok.mp h
    cases h
    trivial
  | .like column pattern escape caseInsensitive, node, h => by
    obtain ⟨index, -, h⟩ := Except.bind_eq_ok.mp h
    cases h
    trivial
  | .and predicates, node, h => by
    obtain ⟨terms, hterms, h⟩ := Except.bind_eq_ok.mp h
    cases h
    have hfilled := foldl_joinNode_filled (filled_children hterms) (List.forall_mem_nil _)
    exact andNodes_filled (List.forall_mem_map.mpr fun node hnode => withBounds_filled (hfilled node hnode))
  | .or predicates, node, h => by
    obtain ⟨terms, -, h⟩ := Except.bind_eq_ok.mp h
    cases h
    trivial
  | .not predicate, node, h => by
    obtain ⟨term, -, h⟩ := Except.bind_eq_ok.mp h
    cases h
    trivial
  | .expressions left operator right, node, h => by
    obtain ⟨columns, -, h⟩ := Except.bind_eq_ok.mp h
    cases h
    trivial
  | .subquery column, node, h => by cases h

lemma filled_children {position : String → Result Nat} : ∀ {predicates : List Predicate}
    {nodes : List FilterNode}, FilterNode.children position predicates = .ok nodes →
      ∀ node ∈ nodes, node.Filled
  | [], nodes, h => by
    cases h
    exact List.forall_mem_nil _
  | predicate :: predicates, nodes, h => by
    obtain ⟨node, hnode, h⟩ := Except.bind_eq_ok.mp h
    obtain ⟨rest, hrest, h⟩ := Except.bind_eq_ok.mp h
    cases h
    exact List.forall_mem_cons.mpr ⟨filled_new hnode, filled_children hrest⟩

end

/-! ### Filters -/

variable {predicate : Option Predicate} {filter : Filter} {row : Row}

/-- What a predicate, if there is one, comes to on a row held as a map. -/
def rowMatches (row : Row) (table : String) : Option Predicate → Result Bool
  | none => .ok true
  | some predicate => do return (← evaluatePredicate row table predicate) == .true

/-- A filter matches the rows that its predicate is true of. -/
lemma matchesRow_eq (hreads : ReadsRow schema read row)
    (hnew : Filter.new predicate schema table = .ok filter) :
    filter.matchesRow read = rowMatches row table predicate := by
  cases predicate with
  | none =>
    cases hnew
    rfl
  | some predicate =>
    obtain ⟨node, hnode, hnew⟩ := Except.bind_eq_ok.mp hnew
    cases hnew
    rw [Filter.matchesRow, rowMatches]
    dsimp only
    rw [evaluate_new hreads hnode]

lemma fitting_new (hnew : Filter.new predicate schema table = .ok filter) :
    Fitting schema filter.tests := by
  cases predicate with
  | none =>
    cases hnew
    exact fitting_nil
  | some predicate =>
    obtain ⟨node, hnode, hnew⟩ := Except.bind_eq_ok.mp hnew
    cases hnew
    exact fitting_compileTests node

/-- A row that a filter matches passes its tests, and any that passes them is matched where they decide. -/
lemma tests_of_new (hreads : ReadsTyped schema read)
    (hnew : Filter.new predicate schema table = .ok filter) :
    (filter.matchesRow read = .ok true → ∀ test ∈ filter.tests, test.HoldsAt read) ∧
      (filter.decided = true → (∀ test ∈ filter.tests, test.HoldsAt read) →
        filter.matchesRow read = .ok true) := by
  cases predicate with
  | none =>
    cases hnew
    exact ⟨fun _ => List.forall_mem_nil _, fun _ _ => rfl⟩
  | some predicate =>
    obtain ⟨node, hnode, hnew⟩ := Except.bind_eq_ok.mp hnew
    cases hnew
    obtain ⟨hsound, hdecided⟩ := @judges_compileTests schema read table hreads node (filled_new hnode)
    rw [Filter.matchesRow]
    dsimp only
    constructor
    · intro hmatched
      obtain ⟨truth, htruth, hmatched⟩ := Except.bind_eq_ok.mp hmatched
      rw [beq_iff_eq.mp (Except.ok.inj hmatched)] at htruth
      exact hsound htruth
    · intro hall htests
      rw [hdecided hall htests]
      rfl

/-! ### The pass over a record -/

lemma passesAll_false {bounds : RecordBounds} {tests : List StoredTest}
    (h : bounds.passesAll tests = some false) : ∃ test ∈ tests, bounds.passes test = some false := by
  induction tests with
  | nil => cases h
  | cons test tests ih =>
    obtain ⟨passed, hpassed, h⟩ := Option.bind_eq_some_iff.mp h
    cases passed with
    | false => exact ⟨test, List.mem_cons_self, hpassed⟩
    | true =>
      obtain ⟨other, hmem, hother⟩ := ih h
      exact ⟨other, List.mem_cons_of_mem _ hmem, hother⟩

lemma passesAll_true {bounds : RecordBounds} {tests : List StoredTest}
    (h : bounds.passesAll tests = some true) : ∀ test ∈ tests, bounds.passes test = some true := by
  induction tests with
  | nil => exact List.forall_mem_nil _
  | cons test tests ih =>
    obtain ⟨passed, hpassed, h⟩ := Option.bind_eq_some_iff.mp h
    cases passed with
    | false => cases h
    | true => exact List.forall_mem_cons.mpr ⟨hpassed, ih h⟩

lemma readsTyped_of_readable {json : SerdeJson} {layout : RecordLayout} {record : StoredRecord}
    (h : Readable json schema layout record row) : ReadsTyped schema (record.column json) := by
  intro index column hcolumn
  obtain ⟨ref, href, hheld, -⟩ := h.reads index column hcolumn
  exact ⟨ref, href, hheld, h.typed index column ref hcolumn href⟩

section Pass
variable {json : SerdeJson} {layout : RecordLayout} {record : StoredRecord} {key value : List UInt8}

/-- What the pass over a record's bytes says of a filter: it rejects only a row the filter does not
match, and passes only one it matches, where the filter need not judge it. -/
lemma storedRecordPasses_agrees (hvalid : validateSchemaShape schema = .ok ())
    (hlaid : LaidOut schema layout) (hopened : StoredRecord.new schema layout key value = .ok record)
    (hread : Readable json schema layout record row)
    (hnew : Filter.new predicate schema table = .ok filter) :
    (storedRecordPasses value (filter.storedTests schema layout) = some false →
        filter.matchesRow (record.column json) ≠ .ok true) ∧
      (storedRecordPasses value (filter.storedTests schema layout) = some true →
        filter.judged schema layout = false → filter.matchesRow (record.column json) = .ok true) := by
  obtain ⟨bounds, hpasses, hbounds⟩ :=
    RecordBounds.Of.exists_of_new hopened (filter.storedTests schema layout)
  obtain ⟨hsound, hdecided⟩ := @tests_of_new schema _ table _ _ (readsTyped_of_readable hread) hnew
  have hdefaults := defaultsFit_of_valid hvalid
  have hfits := fitting_new hnew
  rw [hpasses]
  constructor
  · intro hfalse hmatched
    obtain ⟨stored, hstored, hrejected⟩ := passesAll_false hfalse
    obtain ⟨test, htest, hresolved⟩ := List.mem_filterMap.mp hstored
    obtain ⟨ref, href, hagrees⟩ :=
      passes_eq_holds hbounds hdefaults hlaid hread hresolved (hfits test htest)
    obtain ⟨other, hother, hholds⟩ := hsound hmatched test htest
    rw [href] at hother
    cases hother
    rw [← hagrees false hrejected] at hholds
    cases hholds
  · intro htrue hjudged
    obtain ⟨hall, hkeys⟩ := Bool.or_eq_false_iff.mp hjudged
    refine hdecided (Bool.not_eq_false' .. ▸ hall) ?_
    intro test htest
    have hsome := List.any_eq_false.mp hkeys test htest
    rw [Option.isNone_iff_eq_none] at hsome
    obtain ⟨stored, hresolved⟩ := Option.ne_none_iff_exists'.mp hsome
    have hmem : stored ∈ filter.storedTests schema layout :=
      List.mem_filterMap.mpr ⟨test, htest, hresolved⟩
    obtain ⟨ref, href, hagrees⟩ :=
      passes_eq_holds hbounds hdefaults hlaid hread hresolved (hfits test htest)
    exact ⟨ref, href, (hagrees true (passesAll_true htrue stored hmem)).symm⟩

end Pass

/-! ### Valid predicates -/

lemma position_of_checkColumn {name : String} (h : checkColumn schema table name = .ok ()) :
    ∃ index, Filter.position schema table name = .ok index := by
  rw [checkColumn] at h
  split_ifs at h with hany
  obtain ⟨column, hmem, hname⟩ := List.any_eq_true.mp hany
  rw [Filter.position]
  cases hfound : schema.columns.findIdx? (fun definition => definition.name == name) with
  | some index => exact ⟨index, rfl⟩
  | none => exact absurd hname (Bool.eq_false_iff.mp (List.findIdx?_eq_none_iff.mp hfound column hmem))

/-- A column definition that is found is one of the schema's. -/
lemma checkColumn_of_columnDefinition {name : String} {column : ColumnDefinition}
    (h : columnDefinition schema name table = .ok column) : checkColumn schema table name = .ok () := by
  rw [columnDefinition] at h
  split at h
  · next definition hfound =>
    rw [checkColumn, if_pos]
    have hname := List.find?_some hfound
    exact List.any_eq_true.mpr ⟨definition, List.mem_of_find?_eq_some hfound, hname⟩
  · cases h

lemma resolveNames_of_valid {names : List String}
    (h : names.forM (fun name => do let _ ← columnDefinition schema name table) = .ok ()) :
    ∃ columns, resolveNames (Filter.position schema table) names = .ok columns := by
  induction names with
  | nil => exact ⟨[], rfl⟩
  | cons name names ih =>
    obtain ⟨_, hfirst, hrest⟩ := Except.bind_eq_ok.mp h
    obtain ⟨column, hcolumn, -⟩ := Except.bind_eq_ok.mp hfirst
    obtain ⟨index, hindex⟩ := position_of_checkColumn (checkColumn_of_columnDefinition hcolumn)
    obtain ⟨columns, hcolumns⟩ := ih hrest
    exact ⟨(name, index) :: columns, by rw [resolveNames, hindex, hcolumns]; rfl⟩

mutual

/-- A predicate whose columns are the schema's, and whose subqueries have been run, is resolved. -/
lemma new_of_valid : ∀ predicate : Predicate, validatePredicateColumns schema table predicate = .ok () →
    predicate.resolved = true → ∃ node, FilterNode.new (Filter.position schema table) predicate = .ok node
  | .comparison column operator value, h, _ => by
    obtain ⟨index, hindex⟩ := position_of_checkColumn h
    exact ⟨_, by rw [FilterNode.new, hindex]; rfl⟩
  | .isNull column negated, h, _ => by
    obtain ⟨index, hindex⟩ := position_of_checkColumn h
    exact ⟨_, by rw [FilterNode.new, hindex]; rfl⟩
  | .isIn column values, h, _ => by
    obtain ⟨index, hindex⟩ := position_of_checkColumn h
    exact ⟨_, by rw [FilterNode.new, hindex]; rfl⟩
  | .like column pattern escape caseInsensitive, h, _ => by
    obtain ⟨index, hindex⟩ := position_of_checkColumn h
    exact ⟨_, by rw [FilterNode.new, hindex]; rfl⟩
  | .and predicates, h, hresolved => by
    obtain ⟨nodes, hnodes⟩ := children_of_valid predicates h hresolved
    exact ⟨_, by rw [FilterNode.new, hnodes]; rfl⟩
  | .or predicates, h, hresolved => by
    obtain ⟨nodes, hnodes⟩ := children_of_valid predicates h hresolved
    exact ⟨_, by rw [FilterNode.new, hnodes]; rfl⟩
  | .not predicate, h, hresolved => by
    obtain ⟨node, hnode⟩ := new_of_valid predicate h hresolved
    exact ⟨_, by rw [FilterNode.new, hnode]; rfl⟩
  | .expressions left operator right, h, _ => by
    obtain ⟨columns, hcolumns⟩ := resolveNames_of_valid h
    exact ⟨_, by rw [FilterNode.new, hcolumns]; rfl⟩
  | .subquery column, _, hresolved => by cases hresolved

lemma children_of_valid : ∀ predicates : List Predicate,
    validateColumnsOf schema table predicates = .ok () → allResolved predicates = true →
      ∃ nodes, FilterNode.children (Filter.position schema table) predicates = .ok nodes
  | [], _, _ => ⟨[], rfl⟩
  | predicate :: predicates, h, hresolved => by
    obtain ⟨_, hfirst, hrest⟩ := Except.bind_eq_ok.mp h
    obtain ⟨hone, hothers⟩ := Bool.and_eq_true_iff.mp hresolved
    obtain ⟨node, hnode⟩ := new_of_valid predicate hfirst hone
    obtain ⟨nodes, hnodes⟩ := children_of_valid predicates hrest hothers
    exact ⟨node :: nodes, by rw [FilterNode.children, hnode, hnodes]; rfl⟩

end

end Query
end TinyJoin
