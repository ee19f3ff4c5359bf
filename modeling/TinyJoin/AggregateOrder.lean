import TinyJoin.GroupProjections

/-! Rows that come in another order make the same groups, and these return the same values, but for the
sums and the averages that floats are added to. -/
namespace TinyJoin
open Grouping

section Meanings
variable {schema : TableDefinition} {rows rows' : List Row} {dataType : ColumnType}

lemma inputs_perm (h : rows.Perm rows') (column : String) :
    (inputs rows column).Perm (inputs rows' column) := (h.map _).filter _

/-- Values of a type neither of which stands before the other are one. -/
lemma eq_of_not_before {value other : Value} (htype : dataType.Ordered) (hplain : value.Plain dataType)
    (hother : other.Plain dataType) (hnull : value.isNull = false) (hnull' : other.isNull = false)
    (h : ¬value.Before dataType other) (h' : ¬other.Before dataType value) : value = other := by
  rcases htype with rfl | rfl | rfl
  · obtain ⟨i, hi⟩ := hplain.integer hnull
    obtain ⟨j, hj⟩ := hother.integer hnull'
    have hkey : KeyValue.ofValue .integer value = some (.integer i) := by rw [KeyValue.ofValue, hi]; rfl
    have hkey' : KeyValue.ofValue .integer other = some (.integer j) := by rw [KeyValue.ofValue, hj]; rfl
    have hle : ¬i < j := fun hlt => h ⟨_, _, hkey, hkey', compareOfLessAndEq_eq_lt.mpr hlt⟩
    have hge : ¬j < i := fun hlt => h' ⟨_, _, hkey', hkey, compareOfLessAndEq_eq_lt.mpr hlt⟩
    rw [eq_ofI64_of_safeInteger hi, eq_ofI64_of_safeInteger hj, le_antisymm (not_lt.mp hge) (not_lt.mp hle)]
  · obtain ⟨f, rfl⟩ := hplain.float hnull
    obtain ⟨g, rfl⟩ := hother.float hnull'
    have hkey (f : {f : F64 // f.isFinite = true}) :
        KeyValue.ofValue .float (.number (.float f)) = some (.float f.val) := by
      simp only [KeyValue.ofValue, Value.asF64, Number.asF64, Option.filter, f.property, if_true,
        Option.map_some]
    have hle : ¬f.val.scaled < g.val.scaled :=
      fun hlt => h ⟨_, _, hkey f, hkey g, compareOfLessAndEq_eq_lt.mpr hlt⟩
    have hge : ¬g.val.scaled < f.val.scaled :=
      fun hlt => h' ⟨_, _, hkey g, hkey f, compareOfLessAndEq_eq_lt.mpr hlt⟩
    have hsame := F64.unsigned_eq_of_scaled (le_antisymm (not_lt.mp hge) (not_lt.mp hle))
    -- A plain float is the one that its zero is unsigned to.
    have hunsigned (f : {f : F64 // f.isFinite = true})
        (hf : (Value.number (.float f)).dropZeroSign = .number (.float f)) :
        (if f.val.isZero then F64.zero else f.val) = f.val := by
      unfold Value.dropZeroSign at hf
      dsimp only at hf
      split_ifs at hf ⊢ with hzero
      · rw [ofF64_of_finite (by decide)] at hf
        simp only [Value.number.injEq, Number.float.injEq] at hf
        rw [← hf]
      · rfl
    rw [hunsigned f hplain.unsigned, hunsigned g hother.unsigned] at hsame
    rw [Subtype.ext hsame]
  · have hholds := hplain.holds hnull
    have hholds' := hother.holds hnull'
    cases value <;> cases hholds
    cases other <;> cases hholds'
    next s t =>
    have hle : ¬s < t := fun hlt => h ⟨_, _, rfl, rfl, compareOfLessAndEq_eq_lt.mpr hlt⟩
    have hge : ¬t < s := fun hlt => h' ⟨_, _, rfl, rfl, compareOfLessAndEq_eq_lt.mpr hlt⟩
    rw [le_antisymm (not_lt.mp hge) (not_lt.mp hle)]

lemma isExtremum_unique {minimum : Bool} {values values' : List Value} {outcome outcome' : Result Value}
    (htype : dataType.Ordered) (hperm : values.Perm values')
    (hvalues : ∀ value ∈ values, value.Plain dataType ∧ value.isNull = false)
    (h : IsExtremum dataType minimum values outcome)
    (h' : IsExtremum dataType minimum values' outcome') : outcome = outcome' := by
  unfold IsExtremum at h h'
  by_cases hempty : values = []
  · subst hempty
    rw [if_pos rfl] at h
    rw [if_pos hperm.symm.eq_nil] at h'
    rw [h, h']
  rw [if_neg hempty] at h
  rw [if_neg (fun hnil => hempty (hnil ▸ hperm).eq_nil)] at h'
  obtain ⟨value, hvalue, rfl, hbest⟩ := h
  obtain ⟨value', hvalue', rfl, hbest'⟩ := h'
  have hmem := hperm.mem_iff.mpr hvalue'
  have hother := hbest value' hmem
  have hother' := hbest' value (hperm.mem_iff.mp hvalue)
  cases minimum with
  | true =>
    rw [eq_of_not_before htype (hvalues value hvalue).1 (hvalues value' hmem).1 (hvalues value hvalue).2
      (hvalues value' hmem).2 hother' hother]
  | false =>
    rw [eq_of_not_before htype (hvalues value hvalue).1 (hvalues value' hmem).1 (hvalues value hvalue).2
      (hvalues value' hmem).2 hother hother']

lemma mem_inputs {value : Value} {column : String} (h : value ∈ inputs rows column) :
    (∃ row ∈ rows, row.plain column = value) ∧ value.isNull = false := by
  obtain ⟨hmem, hnull⟩ := List.mem_filter.mp h
  exact ⟨List.mem_map.mp hmem, by simpa using hnull⟩

lemma extremum_column {function : AggregateFunction} {name table : String} (hshape : SchemaShape schema)
    (hvalid : validateAggregate function (.column name) schema table = .ok ())
    (hfunction : function = .min ∨ function = .max) :
    ∃ column ∈ schema.columns, column.name = name ∧ column.dataType.Ordered ∧
      schemaColumnType schema name = .ok column.dataType := by
  rw [validateAggregate] at hvalid
  obtain ⟨definition, hdefinition, hvalid⟩ := Except.bind_eq_ok.mp hvalid
  obtain ⟨hmem, rfl⟩ := columnDefinition_eq_ok hdefinition
  refine ⟨definition, hmem, rfl, ?_, schemaColumnType_of_mem hshape hmem⟩
  rcases hfunction with rfl | rfl
  all_goals
    dsimp only at hvalid
    split_ifs at hvalid with htype
    simpa [ColumnType.Ordered] using htype

/-- What an aggregate comes to is told by its rows, and by them in any order where it is steady. -/
theorem Meaning.unique {function : AggregateFunction} {argument : AggregateArgument} {table : String}
    {outcome outcome' : Result Value} (hshape : SchemaShape schema)
    (hvalid : validateAggregate function argument schema table = .ok ())
    (hplain : ∀ row ∈ rows, PlainRow schema row) (hperm : rows.Perm rows')
    (hsteady : rows = rows' ∨ (SelectExpression.aggregate function argument).Steady schema)
    (h : Meaning schema rows outcome function argument)
    (h' : Meaning schema rows' outcome' function argument) : outcome = outcome' := by
  have hextremum (minimum : Bool) (name : String) (hfunction : function = .min ∨ function = .max)
      (hcolumn : argument = .column name)
      (h : ∃ dataType, schemaColumnType schema name = .ok dataType ∧
        IsExtremum dataType minimum (inputs rows name) outcome)
      (h' : ∃ dataType, schemaColumnType schema name = .ok dataType ∧
        IsExtremum dataType minimum (inputs rows' name) outcome') : outcome = outcome' := by
    obtain ⟨dataType, htype, h⟩ := h
    obtain ⟨dataType', htype', h'⟩ := h'
    subst hcolumn
    obtain ⟨column, hmem, rfl, hordered, hsame⟩ := extremum_column hshape hvalid hfunction
    obtain rfl := Except.ok.inj (htype.symm.trans hsame)
    obtain rfl := Except.ok.inj (htype'.symm.trans hsame)
    refine isExtremum_unique hordered (inputs_perm hperm _) (fun value hvalue => ?_) h h'
    obtain ⟨⟨row, hrow, rfl⟩, hnull⟩ := mem_inputs hvalue
    exact ⟨hplain row hrow column hmem, hnull⟩
  cases argument with
  | star =>
    cases function with
    | count =>
      have hlength : outcome = countValue rows.length := h
      have hlength' : outcome' = countValue rows'.length := h'
      rw [hlength, hlength', hperm.length_eq]
    | _ => exact h.elim
  | column name =>
    have hinputs := inputs_perm hperm name
    cases function with
    | count =>
      have hlength : outcome = countValue (inputs rows name).length := h
      have hlength' : outcome' = countValue (inputs rows' name).length := h'
      rw [hlength, hlength', hinputs.length_eq]
    | sum =>
      rw [Meaning] at h h'
      rw [h, h']
      rcases hsteady with rfl | hinteger
      · rfl
      · have htype : schemaColumnType schema name = .ok .integer := hinteger
        rw [if_pos htype, if_pos htype, integerSumValue, integerSumValue, integerTotal, integerTotal,
          (hinputs.map _).sum_eq, hinputs.isEmpty_eq]
    | avg =>
      rcases hsteady with rfl | hsteady
      · rw [Meaning] at h h'
        rw [h, h']
      · exact hsteady.elim
    | min => exact hextremum true name (.inl rfl) rfl h h'
    | max => exact hextremum false name (.inr rfl) rfl h h'

end Meanings

/-! ### Groups -/

section Groups
variable {schema : TableDefinition} {plan : AggregatePlan} {read : List Nat}
  {columns : List SourceColumn} {rows rows' : List Row}

lemma groupRank_eq_iff (h : Prepared schema plan read columns) {row other : Row}
    (hrow : PlainRow schema row) (hother : PlainRow schema other) :
    groupRank plan row = groupRank plan other ↔ SameGroup plan row other := by
  rw [groupRank_eq, groupRank_eq, ← Aggregating.rowKey_eq_iff h hrow hother]
  constructor
  · exact fun hrank =>
      GroupValue.part_injective.list_map (Aggregating.groupKeyBytes_injective hrank)
  · intro hkey
    rw [hkey]

/-- A group's rank is that of its first row. -/
def groupLabel (plan : AggregatePlan) (group : List Row) : List UInt8 :=
  ((group.head?).map (groupRank plan)).getD []

/-- The groups of some rows are their members by rank. -/
theorem GroupsOf.grouped {groups : List (List Row)} (h : Prepared schema plan read columns)
    (hplain : ∀ row ∈ rows, PlainRow schema row) (hgroupBy : plan.groupBy ≠ [])
    (hgroups : GroupsOf plan rows groups) :
    Grouped (groupRank plan) (groupLabel plan) (fun members group => group = members) rows groups ∧
      (groups.map (groupLabel plan)).Pairwise (· < ·) := by
  -- A group has a row of its own, whose rank is its label and that of its rows.
  have hlabel : ∀ group ∈ groups, ∃ row ∈ rows, row ∈ group ∧ groupLabel plan group = groupRank plan row ∧
      group = members (groupRank plan) rows (groupRank plan row) := by
    intro group hgroup
    obtain ⟨row, hrow, hsame⟩ := hgroups.classes hgroupBy group hgroup
    have hmembers : group = members (groupRank plan) rows (groupRank plan row) := by
      rw [hsame, members]
      refine List.filter_congr (fun other hother => ?_)
      rw [decide_eq_decide, ← groupRank_eq_iff h (hplain row hrow) (hplain other hother), eq_comm]
    have hmem : row ∈ group := by
      rw [hmembers]
      exact mem_members.mpr ⟨hrow, rfl⟩
    refine ⟨row, hrow, hmem, ?_, hmembers⟩
    cases hgroup : group with
    | nil =>
      rw [hgroup] at hmem
      cases hmem
    | cons first rest =>
      have hfirst : first ∈ members (groupRank plan) rows (groupRank plan row) := by
        rw [← hmembers, hgroup]
        exact List.mem_cons_self
      exact (mem_members.mp hfirst).2
  have hordered : (groups.map (groupLabel plan)).Pairwise (· < ·) := by
    rw [List.pairwise_map]
    refine hgroups.ordered.imp_of_mem ?_
    intro group other hgroup hother hlt
    obtain ⟨row, -, hrow, hrank, -⟩ := hlabel group hgroup
    obtain ⟨row', -, hrow', hrank', -⟩ := hlabel other hother
    rw [hrank, hrank']
    exact hlt row hrow row' hrow'
  refine ⟨⟨hordered.imp (fun hlt => ne_of_lt hlt), fun k => ⟨fun hk => ?_, fun hk => ?_⟩,
    fun group hgroup => ?_⟩, hordered⟩
  · obtain ⟨group, hgroup, rfl⟩ := List.mem_map.mp hk
    obtain ⟨row, hrow, -, hrank, -⟩ := hlabel group hgroup
    rw [hrank]
    exact List.mem_map_of_mem hrow
  · obtain ⟨row, hrow, rfl⟩ := List.mem_map.mp hk
    obtain ⟨group, hgroup, hmem⟩ := hgroups.every row hrow
    obtain ⟨found, -, -, hrank, hmembers⟩ := hlabel group hgroup
    rw [hmembers] at hmem
    rw [(mem_members.mp hmem).2, ← hrank]
    exact List.mem_map_of_mem hgroup
  · obtain ⟨row, -, -, hrank, hmembers⟩ := hlabel group hgroup
    rw [hrank]
    exact hmembers

/-- Rows that came in another order make the same groups, one for one. -/
theorem GroupsOf.unique {groups groups' : List (List Row)} (h : Prepared schema plan read columns)
    (hplain : ∀ row ∈ rows, PlainRow schema row) (hperm : rows.Perm rows')
    (hgroups : GroupsOf plan rows groups) (hgroups' : GroupsOf plan rows' groups') :
    List.Forall₂ (fun group group' => group.Perm group' ∧ (rows = rows' → group = group') ∧
      (∀ row ∈ group, row ∈ rows) ∧ (plan.groupBy ≠ [] → group ≠ [])) groups groups' := by
  by_cases hwhole : plan.groupBy = []
  · rw [hgroups.whole hwhole, hgroups'.whole hwhole]
    exact .cons ⟨hperm, id, fun _ => id, fun hne => absurd hwhole hne⟩ .nil
  have hplain' : ∀ row ∈ rows', PlainRow schema row := fun row hrow => hplain row (hperm.mem_iff.mpr hrow)
  obtain ⟨hgrouped, hordered⟩ := hgroups.grouped h hplain hwhole
  obtain ⟨hgrouped', hordered'⟩ := hgroups'.grouped h hplain' hwhole
  have hlabels : groups.map (groupLabel plan) = groups'.map (groupLabel plan) :=
    hgrouped.labels_unique hgrouped' hperm
      (hordered : List.Pairwise (fun a b => id a < id b) _) hordered'
  have hsame : List.Forall₂ (fun group group' => groupLabel plan group = groupLabel plan group')
      groups groups' := by
    rwa [← List.forall₂_eq_eq_eq, List.forall₂_map_left_iff, List.forall₂_map_right_iff] at hlabels
  rw [List.forall₂_iff_get] at hsame ⊢
  refine ⟨hsame.1, fun i hi hi' => ?_⟩
  have hmem := List.get_mem groups ⟨i, hi⟩
  have hgroup := hgrouped.holds _ hmem
  have hgroup' := hgrouped'.holds _ (List.get_mem groups' ⟨i, hi'⟩)
  rw [← hsame.2 i hi hi'] at hgroup'
  rw [hgroup, hgroup']
  refine ⟨members_perm hperm _, fun heq => by rw [heq], fun row hrow => (mem_members.mp hrow).1,
    fun _ hnil => ?_⟩
  obtain ⟨row, hrow, hrank⟩ := List.mem_map.mp ((hgrouped.labels _).mp (List.mem_map_of_mem hmem))
  have hrow' := mem_members.mpr ⟨hrow, hrank⟩
  rw [hnil] at hrow'
  cases hrow'

end Groups
/-! ### Rows -/

/-- Rows that show the same values, but for the sign of a float zero, of some expressions. -/
def RowMap.Agrees (plan : AggregatePlan) (shown : SelectExpression → Prop) (row row' : RowMap) : Prop :=
  ∀ item ∈ plan.items, shown item.expression →
    (row.row item.output).map Value.dropZeroSign = (row'.row item.output).map Value.dropZeroSign

section Rows
variable {schema : TableDefinition} {plan : AggregatePlan} {read : List Nat}
  {columns : List SourceColumn} {rows rows' : List Row} {shown : SelectExpression → Prop}

/-- Groups of the same rows are projected to rows that agree. -/
lemma Projects.agrees (h : Prepared schema plan read columns) {group group' : List Row}
    {row row' : RowMap} (hplain : ∀ member ∈ group, PlainRow schema member) (hperm : group.Perm group')
    (hne : plan.groupBy ≠ [] → group ≠ [])
    (hshown : ∀ expression, shown expression → group = group' ∨ expression.Steady schema)
    (hprojects : Projects schema plan group row) (hprojects' : Projects schema plan group' row') :
    row.Agrees plan shown row' := by
  intro item hitem hitemShown
  obtain ⟨value, hvalue, hreturns⟩ := hprojects item hitem
  obtain ⟨value', hvalue', hreturns'⟩ := hprojects' item hitem
  rw [hvalue, hvalue', Option.map_some, Option.map_some]
  have hvalid := h.valid.items item hitem
  unfold SelectItem.Returns at hreturns hreturns'
  cases hexpression : item.expression with
  | column name =>
    rw [hexpression] at hreturns hreturns' hvalid
    obtain ⟨member, hmember⟩ := List.exists_mem_of_ne_nil group (hne (List.ne_nil_of_mem hvalid))
    rw [hreturns member hmember, hreturns' member (hperm.mem_iff.mp hmember)]
  | aggregate function argument =>
    rw [hexpression] at hreturns hreturns' hvalid hitemShown
    have hsame := Meaning.unique h.shape hvalid hplain hperm (hshown _ hitemShown) hreturns hreturns'
    rw [Except.ok.inj hsame]

lemma compareValues_dropZeroSign (v w : Value) :
    compareValues v.dropZeroSign w.dropZeroSign = compareValues v w := by
  have hscaled (n : Number) : ∃ m, (Value.number n).dropZeroSign = .number m ∧
      m.asF64.scaled = n.asF64.scaled := by
    cases n with
    | float f =>
      unfold Value.dropZeroSign
      dsimp only
      split_ifs with hzero
      · rw [ofF64_of_finite (by decide)]
        refine ⟨_, rfl, ?_⟩
        have hzero' : f.val.scaled = 0 := F64.scaled_eq_zero.mpr hzero
        rw [Number.asF64, Number.asF64, hzero']
        exact F64.scaled_eq_zero.mpr (by decide)
      · exact ⟨_, rfl, rfl⟩
    | _ => exact ⟨_, rfl, rfl⟩
  cases v with
  | number n =>
    obtain ⟨n', hn, hn'⟩ := hscaled n
    cases w with
    | number m =>
      obtain ⟨m', hm, hm'⟩ := hscaled m
      rw [hn, hm, compareValues, compareValues, hn', hm']
    | _ =>
      rw [hn]
      rfl
  | _ =>
    cases w with
    | number m =>
      obtain ⟨m', hm, -⟩ := hscaled m
      rw [hm]
      rfl
    | _ => rfl

lemma compareOrdered_congr {v v' w w' : Value} (hv : v.dropZeroSign = v'.dropZeroSign)
    (hw : w.dropZeroSign = w'.dropZeroSign) (direction : OrderDirection) (nulls : NullOrder) :
    compareOrdered v w direction nulls = compareOrdered v' w' direction nulls := by
  have hnull : v.isNull = v'.isNull := by rw [← isNull_dropZeroSign, hv, isNull_dropZeroSign]
  have hnull' : w.isNull = w'.isNull := by rw [← isNull_dropZeroSign, hw, isNull_dropZeroSign]
  have hvalues : compareValues v w = compareValues v' w' := by
    rw [← compareValues_dropZeroSign, hv, hw, compareValues_dropZeroSign]
  unfold compareOrdered
  rw [hnull, hnull', hvalues]

/-- Rows that agree on the outputs that are ordered by compare as one another. -/
lemma compareTerms_congr {row row' other other' : RowMap} {terms : List OrderBy}
    (houtputs : ∀ term ∈ terms, ∃ item ∈ plan.items, item.output = term.column ∧ shown item.expression)
    (h : row.Agrees plan shown row') (h' : other.Agrees plan shown other') :
    compareTerms row other terms = compareTerms row' other' terms := by
  induction terms with
  | nil => rfl
  | cons term terms ih =>
    obtain ⟨⟨item, hitem, houtput, hshown⟩, hrest⟩ := List.forall_mem_cons.mp houtputs
    have hvalue {a b : RowMap} (hagrees : a.Agrees plan shown b) :
        ((a.row term.column).getD .null).dropZeroSign = ((b.row term.column).getD .null).dropZeroSign := by
      have hsame := hagrees item hitem hshown
      rw [houtput] at hsame
      have hnull (o : Option Value) : (o.getD .null).dropZeroSign = (o.map Value.dropZeroSign).getD .null := by
        cases o <;> rfl
      rw [hnull, hnull, hsame]
    rw [compareTerms, compareTerms, compareOrdered_congr (hvalue h) (hvalue h'), ih hrest]

/-- Rows that agree, each with the one in its place, agree in the window as well. -/
theorem orderedWindow_agrees {result result' : List RowMap}
    (houtputs : ∀ term ∈ plan.orderBy, ∃ item ∈ plan.items, item.output = term.column ∧
      shown item.expression)
    (h : List.Forall₂ (RowMap.Agrees plan shown) result result') :
    List.Forall₂ (RowMap.Agrees plan shown) (orderedWindow plan result) (orderedWindow plan result') := by
  have hsorted : List.Forall₂ (RowMap.Agrees plan shown) (sortRowsBy result plan.orderBy)
      (sortRowsBy result' plan.orderBy) := by
    unfold sortRowsBy
    split_ifs
    · exact h
    · -- Both are sorted as the pairs of them are, whose rows compare alike.
      have hlength := h.length_eq
      have hpairs : ∀ pair ∈ result.zip result', RowMap.Agrees plan shown pair.1 pair.2 :=
        fun pair hpair => List.forall₂_zip h hpair
      have hfirst : result = (result.zip result').map Prod.fst := by rw [List.map_fst_zip hlength.le]
      have hsecond : result' = (result.zip result').map Prod.snd := by rw [List.map_snd_zip hlength.ge]
      have hsortedFirst : ((result.zip result').mergeSort
          (fun a b => compareTerms a.1 b.1 plan.orderBy != .gt)).map Prod.fst =
          result.mergeSort (fun left right => compareTerms left right plan.orderBy != .gt) := by
        rw [List.map_mergeSort (s := fun left right => compareTerms left right plan.orderBy != .gt)
          (fun _ _ _ _ => rfl), ← hfirst]
      have hsortedSecond : ((result.zip result').mergeSort
          (fun a b => compareTerms a.1 b.1 plan.orderBy != .gt)).map Prod.snd =
          result'.mergeSort (fun left right => compareTerms left right plan.orderBy != .gt) := by
        rw [List.map_mergeSort (s := fun left right => compareTerms left right plan.orderBy != .gt)
          (fun a ha b hb => by rw [compareTerms_congr houtputs (hpairs a ha) (hpairs b hb)]), ← hsecond]
      rw [← hsortedFirst, ← hsortedSecond, List.forall₂_map_left_iff, List.forall₂_map_right_iff,
        List.forall₂_same]
      exact fun pair hpair => hpairs pair ((List.mergeSort_perm _ _).mem_iff.mp hpair)
  unfold orderedWindow
  cases plan.limit with
  | none => exact List.forall₂_drop _ hsorted
  | some limit => exact List.forall₂_take _ (List.forall₂_drop _ hsorted)

end Rows
end TinyJoin
