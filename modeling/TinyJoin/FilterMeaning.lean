import TinyJoin.ComparedValues

/-! A resolved predicate is worth on a row, read column by column, what the predicate itself is worth on the
row as a map, errors included. -/
namespace TinyJoin
namespace Query

variable {schema : TableDefinition} {table : String} {read : Nat → Result ValueRef} {row : Row}

/-- The columns of a row, read by their positions, are those of a map. -/
def ReadsRow (schema : TableDefinition) (read : Nat → Result ValueRef) (row : Row) : Prop :=
  ∀ index column, schema.columns[index]? = some column →
    ∃ ref, read index = .ok ref ∧ Held ref ∧ row column.name = some ref.intoValue

/-! ### Columns -/

lemma position_eq_ok {name : String} {index : Nat} (h : Filter.position schema table name = .ok index) :
    ∃ column, schema.columns[index]? = some column ∧ column.name = name := by
  rw [Filter.position] at h
  cases hfound : schema.columns.findIdx? (fun definition => definition.name == name) with
  | none =>
    rw [hfound] at h
    cases h
  | some found =>
    rw [hfound] at h
    cases h
    obtain ⟨hlt, hname, -⟩ := List.findIdx?_eq_some_iff_getElem.mp hfound
    exact ⟨_, List.getElem?_eq_getElem hlt, beq_iff_eq.mp hname⟩

/-- A column read by its position is the one the map holds under its name. -/
lemma ReadsRow.at_position (hreads : ReadsRow schema read row) {name : String} {index : Nat}
    (h : Filter.position schema table name = .ok index) :
    ∃ ref, read index = .ok ref ∧ Held ref ∧ rowColumn row table name = .ok ref.intoValue := by
  obtain ⟨column, hcolumn, rfl⟩ := position_eq_ok h
  obtain ⟨ref, href, hheld, hrow⟩ := hreads index column hcolumn
  refine ⟨ref, href, hheld, ?_⟩
  rw [rowColumn, hrow]

/-! ### Single terms -/

lemma isNull_intoValue {ref : ValueRef} (hheld : Held ref) : ref.isNull = ref.intoValue.isNull := by
  cases ref with
  | integer i =>
    rw [ValueRef.intoValue, Value.ofI64]
    split <;> rfl
  | float f =>
    rw [ValueRef.intoValue, ofF64_of_finite hheld]
    rfl
  | _ => rfl

/-- A comparison reads an integer against an integer by their own order, which is the same. -/
lemma evaluate_comparison {ref : ValueRef} {index : Nat} (href : read index = .ok ref) (hheld : Held ref)
    (name : String) (operator : ComparisonOperator) (value : Value) :
    (FilterNode.comparison index name operator value).evaluate read table =
      compareToValue ref value operator table name := by
  rw [FilterNode.evaluate, href]
  cases ref with
  | integer left =>
    cases hright : value.asI64 with
    | none => rfl
    | some right => exact (compareToValue_integer operator hheld hright).symm
  | _ => rfl

lemma exists_ofI64 (i : Int) : ∃ n, Value.ofI64 i = .number n := by
  rw [Value.ofI64]
  split
  · exact ⟨_, rfl⟩
  · exact ⟨_, rfl⟩

/-- A pattern is matched with what is text, typed or as JSON. -/
lemma evaluateLikeNode_eq {pattern : String} {escape : Option Value} {character : Option Char}
    (hescape : likeEscape escape = some character) {ref : ValueRef} (hheld : Held ref)
    (caseInsensitive : Bool) :
    evaluateLikeNode (.new pattern character caseInsensitive) ref =
      evaluateLike ref.intoValue (.string pattern) escape caseInsensitive := by
  cases ref with
  | integer i =>
    obtain ⟨n, hn⟩ := exists_ofI64 i
    rw [ValueRef.intoValue, hn]
    rfl
  | float f =>
    rw [ValueRef.intoValue, ofF64_of_finite hheld]
    rfl
  | text text =>
    unfold evaluateLike
    rw [hescape]
    rfl
  | json value =>
    cases value with
    | string text =>
      unfold evaluateLike
      rw [hescape]
      rfl
    | _ => rfl
  | _ => rfl

lemma evaluate_like {ref : ValueRef} {index : Nat} (href : read index = .ok ref) (hheld : Held ref)
    (pattern : Value) (escape : Option Value) (caseInsensitive : Bool) :
    (FilterNode.like index (compiledPattern pattern escape caseInsensitive)).evaluate read table =
      .ok (evaluateLike ref.intoValue pattern escape caseInsensitive) := by
  have hunknown : ∀ value, likeEscape escape = none →
      evaluateLike value pattern escape caseInsensitive = .unknown := by
    intro value hnone
    unfold evaluateLike
    rw [hnone]
    cases value <;> cases pattern <;> rfl
  have hother : ∀ value, (∀ text, pattern ≠ .string text) →
      evaluateLike value pattern escape caseInsensitive = .unknown := by
    intro value htext
    cases pattern with
    | string text => exact absurd rfl (htext text)
    | _ => cases value <;> rfl
  cases pattern with
  | string pattern =>
    cases hescape : likeEscape escape with
    | none =>
      have hcompiled : compiledPattern (.string pattern) escape caseInsensitive = none := by
        unfold compiledPattern
        rw [hescape]
      rw [hunknown _ hescape, hcompiled]
      rfl
    | some character =>
      have hcompiled : compiledPattern (.string pattern) escape caseInsensitive =
          some (.new pattern character caseInsensitive) := by
        unfold compiledPattern
        rw [hescape]
      rw [hcompiled, FilterNode.evaluate, ← evaluateLikeNode_eq hescape hheld, href]
      rfl
  | _ =>
    rw [hother _ (by simp)]
    rfl

/-! ### Expressions -/

/-- An expression is worth the same to readers that agree on the columns it names. -/
lemma evaluate_congr {left right : String → Bool → Result Value} {expression : Expression}
    (h : ∀ name ∈ expression.columnNames, ∀ excluded, left name excluded = right name excluded) :
    TinyJoin.evaluate left expression = TinyJoin.evaluate right expression := by
  induction expression with
  | value value => rfl
  | column name => exact h name List.mem_cons_self false
  | excluded name => exact h name List.mem_cons_self true
  | negate operand ih => rw [TinyJoin.evaluate, TinyJoin.evaluate, ih h]
  | binary operator first second ihf ihs =>
    rw [TinyJoin.evaluate, TinyJoin.evaluate,
      ihf (fun name hname => h name (List.mem_append_left _ hname)),
      ihs (fun name hname => h name (List.mem_append_right _ hname))]

lemma resolveNames_eq_ok {names : List String} {columns : List (String × Nat)}
    (h : resolveNames (Filter.position schema table) names = .ok columns) :
    columns.map Prod.fst = names ∧
      ∀ column ∈ columns, Filter.position schema table column.1 = .ok column.2 := by
  induction names generalizing columns with
  | nil =>
    cases h
    exact ⟨rfl, List.forall_mem_nil _⟩
  | cons name names ih =>
    obtain ⟨index, hindex, h⟩ := Except.bind_eq_ok.mp h
    obtain ⟨rest, hrest, h⟩ := Except.bind_eq_ok.mp h
    cases h
    obtain ⟨hnames, hplaces⟩ := ih hrest
    exact ⟨by rw [List.map_cons, hnames], List.forall_mem_cons.mpr ⟨hindex, hplaces⟩⟩

/-- A column an expression names is read where it was resolved to. -/
lemma readNamed_eq (hreads : ReadsRow schema read row) {names : List String}
    {columns : List (String × Nat)}
    (h : resolveNames (Filter.position schema table) names = .ok columns) {name : String}
    (hname : name ∈ names) : readNamed read table columns name = rowColumn row table name := by
  obtain ⟨hnames, hplaces⟩ := resolveNames_eq_ok h
  rw [readNamed]
  cases hfound : columns.find? (fun column => column.1 == name) with
  | none =>
    rw [← hnames] at hname
    obtain ⟨column, hmem, rfl⟩ := List.mem_map.mp hname
    exact absurd (beq_self_eq_true column.1) (List.find?_eq_none.mp hfound column hmem)
  | some column =>
    have hsome := List.find?_some hfound
    have heq : column.1 = name := beq_iff_eq.mp hsome
    obtain ⟨ref, href, -, hrow⟩ := hreads.at_position (hplaces column (List.mem_of_find?_eq_some hfound))
    rw [← heq, hrow]
    dsimp only
    rw [href]
    rfl

/-! ### Adjacent comparisons -/

/-- A comparison names the column it reads. -/
def FilterNode.Named (schema : TableDefinition) : FilterNode → Prop
  | .comparison column name _ _ => (schema.columns[column]?).map (fun item => item.name) = some name
  | .comparisons column name _ _ _ => (schema.columns[column]?).map (fun item => item.name) = some name
  | _ => True

/-- What a node is worth once its bounds are worked out. -/
def worth (read : Nat → Result ValueRef) (table : String) (node : FilterNode) : Result Truth :=
  node.withBounds.evaluate read table

lemma ReadsRow.at_name (hreads : ReadsRow schema read row) {index : Nat} {name : String}
    (h : (schema.columns[index]?).map (fun item => item.name) = some name) :
    ∃ ref, read index = .ok ref ∧ Held ref := by
  obtain ⟨column, hcolumn, -⟩ := Option.map_eq_some_iff.mp h
  obtain ⟨ref, href, hheld, -⟩ := hreads index column hcolumn
  exact ⟨ref, href, hheld⟩

lemma worth_comparisons {ref : ValueRef} {index : Nat} (href : read index = .ok ref) (hheld : Held ref)
    (name : String) (tests : List ColumnTest) (bounds : List (ComparisonOperator × F64))
    (integers : Option (Int × Int)) :
    worth read table (.comparisons index name tests bounds integers) =
      compareEach ref table name tests := by
  rw [worth, FilterNode.withBounds, FilterNode.evaluate, href]
  exact evaluateComparisons_eq hheld

lemma joinNode_named {nodes : List FilterNode} {node : FilterNode}
    (hnodes : ∀ item ∈ nodes, item.Named schema) (hnode : node.Named schema) :
    ∀ item ∈ joinNode nodes node, item.Named schema := by
  have hbehind : ∀ item ∈ nodes ++ [node], item.Named schema := by
    intro item hitem
    rcases List.mem_append.mp hitem with hitem | hitem
    · exact hnodes item hitem
    · rwa [List.mem_singleton.mp hitem]
  have hreplaced : ∀ joined : FilterNode, joined.Named schema →
      ∀ item ∈ nodes.dropLast ++ [joined], item.Named schema := by
    intro joined hjoined item hitem
    rcases List.mem_append.mp hitem with hitem | hitem
    · exact hnodes item (List.mem_of_mem_dropLast hitem)
    · rwa [List.mem_singleton.mp hitem]
  cases node with
  | comparison column name operator value =>
    rw [joinNode]
    split
    · next previous named tests bounds integers hlast =>
      split
      · have hlastNamed := hnodes _ (List.mem_of_getLast? hlast)
        exact hreplaced _ hlastNamed
      · exact hbehind
    · next previous named first bound hlast =>
      split
      · exact hreplaced _ hnode
      · exact hbehind
    · exact hbehind
  | _ => exact hbehind

/-- A comparison that joins the node before it is worth there what it is worth behind it. -/
lemma conjunction_joinNode (hreads : ReadsRow schema read row) {nodes : List FilterNode}
    {node : FilterNode} (hnodes : ∀ item ∈ nodes, item.Named schema) (hnode : node.Named schema)
    (unknown : Bool) :
    Truth.conjunction unknown ((joinNode nodes node).map (worth read table)) =
      Truth.conjunction unknown (nodes.map (worth read table) ++ [worth read table node]) := by
  have hbehind : Truth.conjunction unknown ((nodes ++ [node]).map (worth read table)) =
      Truth.conjunction unknown (nodes.map (worth read table) ++ [worth read table node]) := by
    rw [List.map_append]
    rfl
  -- A run that a comparison joins is the terms of the run, and the comparison behind them.
  have hjoined : ∀ last joined : FilterNode, nodes.getLast? = some last →
      (∀ unknown, Truth.conjunction unknown [worth read table joined] =
        Truth.conjunction unknown [worth read table last, worth read table node]) →
      Truth.conjunction unknown ((nodes.dropLast ++ [joined]).map (worth read table)) =
        Truth.conjunction unknown (nodes.map (worth read table) ++ [worth read table node]) := by
    intro last joined hlast hsame
    obtain ⟨before, rfl⟩ := List.getLast?_eq_some_iff.mp hlast
    rw [List.dropLast_concat, List.map_append, List.map_append, List.append_assoc]
    exact Truth.conjunction_append_congr (fun _ => rfl) hsame unknown
  cases node with
  | comparison column name operator value =>
    rw [joinNode]
    split
    · next previous named tests bounds integers hlast =>
      split
      · next hcolumn =>
        refine hjoined _ _ hlast ?_
        intro unknown
        have hlastNamed := hnodes _ (List.mem_of_getLast? hlast)
        obtain ⟨ref, href, hheld⟩ := hreads.at_name hlastNamed
        have hname : named = name := by
          have hboth : some named = some name := by
            rw [← show _ = some named from hlastNamed, ← show _ = some name from hnode, hcolumn]
          exact Option.some.inj hboth
        have hterm : worth read table (.comparison column name operator value) =
            compareToValue ref value operator table named := by
          rw [hname]
          exact evaluate_comparison (hcolumn ▸ href) hheld name operator value
        rw [worth_comparisons href hheld, worth_comparisons href hheld, hterm, compareEach, compareEach,
          Truth.conjunction_grouped, Truth.conjunction_grouped, List.map_append, List.append_nil]
        rfl
      · exact hbehind
    · next previous named first bound hlast =>
      split
      · next hcolumn =>
        refine hjoined _ _ hlast ?_
        intro unknown
        have hlastNamed := hnodes _ (List.mem_of_getLast? hlast)
        obtain ⟨ref, href, hheld⟩ := hreads.at_name hnode
        have hname : named = name := by
          have hboth : some named = some name := by
            rw [← show _ = some named from hlastNamed, ← show _ = some name from hnode, hcolumn]
          exact Option.some.inj hboth
        have hfirst : worth read table (.comparison previous named first bound) =
            compareToValue ref bound first table name := by
          rw [hname]
          exact evaluate_comparison (hcolumn.symm ▸ href) hheld name first bound
        have hterm : worth read table (.comparison column name operator value) =
            compareToValue ref value operator table name :=
          evaluate_comparison href hheld name operator value
        rw [worth_comparisons href hheld, hfirst, hterm, compareEach, Truth.conjunction_grouped]
        rfl
      · exact hbehind
    · exact hbehind
  | _ => exact hbehind

/-- The nodes that terms are joined into are worth, together, what the terms are. -/
lemma conjunction_joined (hreads : ReadsRow schema read row) {terms nodes : List FilterNode}
    (hterms : ∀ item ∈ terms, item.Named schema) (hnodes : ∀ item ∈ nodes, item.Named schema)
    (unknown : Bool) :
    Truth.conjunction unknown ((terms.foldl joinNode nodes).map (worth read table)) =
      Truth.conjunction unknown (nodes.map (worth read table) ++ terms.map (worth read table)) := by
  induction terms generalizing nodes with
  | nil => rw [List.foldl_nil, List.map_nil, List.append_nil]
  | cons term terms ih =>
    obtain ⟨hterm, hterms⟩ := List.forall_mem_cons.mp hterms
    rw [List.foldl_cons, ih hterms (joinNode_named hnodes hterm), List.map_cons,
      List.append_cons]
    exact Truth.conjunction_append_congr (conjunction_joinNode hreads hnodes hterm) (fun _ => rfl) unknown

lemma foldl_joinNode_named {terms nodes : List FilterNode}
    (hterms : ∀ item ∈ terms, item.Named schema) (hnodes : ∀ item ∈ nodes, item.Named schema) :
    ∀ item ∈ terms.foldl joinNode nodes, item.Named schema := by
  induction terms generalizing nodes with
  | nil => exact hnodes
  | cons term terms ih =>
    obtain ⟨hterm, hterms⟩ := List.forall_mem_cons.mp hterms
    exact ih hterms (joinNode_named hnodes hterm)

lemma withBounds_idem (node : FilterNode) : node.withBounds.withBounds = node.withBounds := by
  cases node <;> rfl

lemma withBounds_named {node : FilterNode} (h : node.Named schema) : node.withBounds.Named schema := by
  cases node <;> exact h

/-- Nodes under `AND` are worth their conjunction, one alone being itself. -/
lemma evaluate_andNodes (nodes : List FilterNode) :
    (andNodes nodes).evaluate read table =
      Truth.conjunction false (FilterNode.evaluateAll read table nodes) := by
  cases nodes with
  | nil => rfl
  | cons node rest =>
    cases rest with
    | nil => exact (Truth.conjunction_singleton _).symm
    | cons second rest => rfl

lemma evaluateAll_eq_map (nodes : List FilterNode) :
    FilterNode.evaluateAll read table nodes = nodes.map (FilterNode.evaluate read table) := by
  induction nodes with
  | nil => rfl
  | cons node nodes ih => rw [FilterNode.evaluateAll, ih, List.map_cons]

/-! ### Predicates -/

/-- A node has its bounds, and names the column it reads. -/
def FilterNode.Settled (schema : TableDefinition) (node : FilterNode) : Prop :=
  node.withBounds = node ∧ node.Named schema

lemma position_named {name : String} {index : Nat}
    (h : Filter.position schema table name = .ok index) :
    (schema.columns[index]?).map (fun item => item.name) = some name := by
  obtain ⟨column, hcolumn, rfl⟩ := position_eq_ok h
  rw [hcolumn]
  rfl

lemma settled_andNodes {nodes : List FilterNode} (h : ∀ node ∈ nodes, node.Settled schema) :
    (andNodes nodes).Settled schema := by
  cases nodes with
  | nil => exact ⟨rfl, trivial⟩
  | cons node rest =>
    cases rest with
    | nil => exact h node List.mem_cons_self
    | cons second rest => exact ⟨rfl, trivial⟩

mutual

/-- A predicate is resolved to a node that has its bounds and names its column. -/
lemma settled_new : ∀ {predicate : Predicate} {node : FilterNode},
    FilterNode.new (Filter.position schema table) predicate = .ok node → node.Settled schema
  | .comparison column operator value, node, h => by
    obtain ⟨index, hindex, h⟩ := Except.bind_eq_ok.mp h
    cases h
    exact ⟨rfl, position_named hindex⟩
  | .isNull column negated, node, h => by
    obtain ⟨index, -, h⟩ := Except.bind_eq_ok.mp h
    cases h
    exact ⟨rfl, trivial⟩
  | .isIn column values, node, h => by
    obtain ⟨index, -, h⟩ := Except.bind_eq_ok.mp h
    cases h
    exact ⟨rfl, trivial⟩
  | .like column pattern escape caseInsensitive, node, h => by
    obtain ⟨index, -, h⟩ := Except.bind_eq_ok.mp h
    cases h
    exact ⟨rfl, trivial⟩
  | .and predicates, node, h => by
    obtain ⟨terms, hterms, h⟩ := Except.bind_eq_ok.mp h
    cases h
    refine settled_andNodes ?_
    rw [List.forall_mem_map]
    intro joined hjoined
    have hnamed := foldl_joinNode_named (fun term hterm => (settled_children hterms term hterm).2)
      (List.forall_mem_nil _) joined hjoined
    exact ⟨withBounds_idem joined, withBounds_named hnamed⟩
  | .or predicates, node, h => by
    obtain ⟨terms, -, h⟩ := Except.bind_eq_ok.mp h
    cases h
    exact ⟨rfl, trivial⟩
  | .not predicate, node, h => by
    obtain ⟨term, -, h⟩ := Except.bind_eq_ok.mp h
    cases h
    exact ⟨rfl, trivial⟩
  | .expressions left operator right, node, h => by
    obtain ⟨columns, -, h⟩ := Except.bind_eq_ok.mp h
    cases h
    exact ⟨rfl, trivial⟩
  | .subquery column, node, h => by cases h

lemma settled_children : ∀ {predicates : List Predicate} {nodes : List FilterNode},
    FilterNode.children (Filter.position schema table) predicates = .ok nodes →
      ∀ node ∈ nodes, node.Settled schema
  | [], nodes, h => by
    cases h
    exact List.forall_mem_nil _
  | predicate :: predicates, nodes, h => by
    obtain ⟨node, hnode, h⟩ := Except.bind_eq_ok.mp h
    obtain ⟨rest, hrest, h⟩ := Except.bind_eq_ok.mp h
    cases h
    exact List.forall_mem_cons.mpr ⟨settled_new hnode, settled_children hrest⟩

end

mutual

/-- A resolved predicate is worth on a row what the predicate is worth on the row as a map. -/
lemma evaluate_new (hreads : ReadsRow schema read row) : ∀ {predicate : Predicate} {node : FilterNode},
    FilterNode.new (Filter.position schema table) predicate = .ok node →
      node.evaluate read table = evaluatePredicate row table predicate
  | .comparison column operator value, node, h => by
    obtain ⟨index, hindex, h⟩ := Except.bind_eq_ok.mp h
    cases h
    obtain ⟨ref, href, hheld, hrow⟩ := hreads.at_position hindex
    rw [evaluate_comparison href hheld, evaluatePredicate, hrow, compareToValue_eq hheld]
    rfl
  | .isNull column negated, node, h => by
    obtain ⟨index, hindex, h⟩ := Except.bind_eq_ok.mp h
    cases h
    obtain ⟨ref, href, hheld, hrow⟩ := hreads.at_position hindex
    rw [FilterNode.evaluate, evaluatePredicate, href, hrow]
    change Except.ok (Truth.ofBool (ref.isNull ^^ negated)) =
      Except.ok (Truth.ofBool (ref.intoValue.isNull ^^ negated))
    rw [isNull_intoValue hheld]
  | .isIn column values, node, h => by
    obtain ⟨index, hindex, h⟩ := Except.bind_eq_ok.mp h
    cases h
    obtain ⟨ref, href, hheld, hrow⟩ := hreads.at_position hindex
    rw [FilterNode.evaluate, evaluatePredicate, href, hrow]
    change Truth.disjunction false (values.map fun value => compareToValue ref value .eq table column) =
      Truth.disjunction false (values.map fun value =>
        evaluateComparison ref.intoValue value .eq table column)
    simp only [compareToValue_eq hheld]
  | .like column pattern escape caseInsensitive, node, h => by
    obtain ⟨index, hindex, h⟩ := Except.bind_eq_ok.mp h
    cases h
    obtain ⟨ref, href, hheld, hrow⟩ := hreads.at_position hindex
    rw [evaluate_like href hheld, evaluatePredicate, hrow]
    rfl
  | .and predicates, node, h => by
    obtain ⟨terms, hterms, h⟩ := Except.bind_eq_ok.mp h
    cases h
    have hsettled := settled_children hterms
    have hworth : terms.map (worth read table) = terms.map (FilterNode.evaluate read table) :=
      List.map_congr_left (fun term hterm => by rw [worth, (hsettled term hterm).1])
    have hjoined : Truth.conjunction false ((terms.foldl joinNode []).map (worth read table)) = _ :=
      conjunction_joined hreads (fun term hterm => (hsettled term hterm).2) (List.forall_mem_nil _) false
    rw [List.map_nil, List.nil_append, hworth, ← evaluateAll_eq_map, evaluate_children hreads hterms]
      at hjoined
    rw [evaluate_andNodes, evaluateAll_eq_map, List.map_map, evaluatePredicate]
    exact hjoined
  | .or predicates, node, h => by
    obtain ⟨terms, hterms, h⟩ := Except.bind_eq_ok.mp h
    cases h
    rw [FilterNode.evaluate, evaluate_children hreads hterms, evaluatePredicate]
  | .not predicate, node, h => by
    obtain ⟨term, hterm, h⟩ := Except.bind_eq_ok.mp h
    cases h
    rw [FilterNode.evaluate, evaluate_new hreads hterm, evaluatePredicate]
  | .expressions left operator right, node, h => by
    obtain ⟨columns, hcolumns, h⟩ := Except.bind_eq_ok.mp h
    cases h
    have hleft : TinyJoin.evaluate (fun name _ => readNamed read table columns name) left =
        TinyJoin.evaluate (fun name _ => rowColumn row table name) left :=
      evaluate_congr (fun name hname _ =>
        readNamed_eq hreads hcolumns (List.mem_append_left _ hname))
    have hright : TinyJoin.evaluate (fun name _ => readNamed read table columns name) right =
        TinyJoin.evaluate (fun name _ => rowColumn row table name) right :=
      evaluate_congr (fun name hname _ =>
        readNamed_eq hreads hcolumns (List.mem_append_right _ hname))
    rw [FilterNode.evaluate, evaluatePredicate, hleft, hright]
  | .subquery column, node, h => by cases h

lemma evaluate_children (hreads : ReadsRow schema read row) :
    ∀ {predicates : List Predicate} {nodes : List FilterNode},
    FilterNode.children (Filter.position schema table) predicates = .ok nodes →
      FilterNode.evaluateAll read table nodes = evaluatePredicates row table predicates
  | [], nodes, h => by
    cases h
    rfl
  | predicate :: predicates, nodes, h => by
    obtain ⟨node, hnode, h⟩ := Except.bind_eq_ok.mp h
    obtain ⟨rest, hrest, h⟩ := Except.bind_eq_ok.mp h
    cases h
    rw [FilterNode.evaluateAll, evaluate_new hreads hnode, evaluate_children hreads hrest,
      evaluatePredicates]

end

end Query
end TinyJoin
