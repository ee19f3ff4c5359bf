import TinyJoin.Accumulators
import Mathlib.Data.List.Forall2

/-! A group's state: what it holds of the group's rows, what one more row makes of it, and that its size is
what the budget of its query is charged. -/
namespace TinyJoin

lemma Except.mapM_eq_ok {ε α β : Type} {f : α → Except ε β} {l : List α} {l' : List β} :
    l.mapM f = .ok l' ↔ List.Forall₂ (fun a b => f a = .ok b) l l' := by
  induction l generalizing l' with
  | nil =>
    rw [List.mapM_nil, List.forall₂_nil_left_iff]
    exact ⟨fun h => (Except.ok.inj h).symm, fun h => h ▸ rfl⟩
  | cons a l ih =>
    rw [List.mapM_cons, List.forall₂_cons_left_iff]
    constructor
    · intro h
      obtain ⟨b, hb, h⟩ := Except.bind_eq_ok.mp h
      obtain ⟨bs, hbs, h⟩ := Except.bind_eq_ok.mp h
      exact ⟨b, bs, hb, ih.mp hbs, (Except.ok.inj h).symm⟩
    · rintro ⟨b, bs, hb, hbs, rfl⟩
      rw [hb, ih.mpr hbs]
      rfl

lemma forall₂_extend {α β γ : Type} {R : α → β → Prop} {S : α → γ → Prop} {T : β → γ → Prop}
    {as : List α} {bs : List β} (h : List.Forall₂ R as bs)
    (hmap : ∀ a b, R a b → ∃ c, S a c ∧ T b c) :
    ∃ cs, List.Forall₂ S as cs ∧ List.Forall₂ T bs cs := by
  induction h with
  | nil => exact ⟨[], .nil, .nil⟩
  | cons hab _ ih =>
    obtain ⟨c, hac, hbc⟩ := hmap _ _ hab
    obtain ⟨cs, hcs, hcs'⟩ := ih
    exact ⟨c :: cs, .cons hac hcs, .cons hbc hcs'⟩

lemma forall₂_exists_mem {α β : Type} {R : α → β → Prop} {as : List α} {bs : List β}
    (h : List.Forall₂ R as bs) {a : α} (ha : a ∈ as) : ∃ b ∈ bs, R a b := by
  induction h with
  | nil => cases ha
  | cons hab _ ih =>
    rcases List.mem_cons.mp ha with rfl | ha
    · exact ⟨_, List.mem_cons_self, hab⟩
    · obtain ⟨b, hb, hab'⟩ := ih ha
      exact ⟨b, List.mem_cons_of_mem _ hb, hab'⟩

/-! ### Valid plans -/

def SelectItem.call (item : SelectItem) : Option (AggregateFunction × AggregateArgument) :=
  match item.expression with
  | .aggregate function argument => some (function, argument)
  | .column _ => none

/-- An expression that a plan may return of its groups. -/
def SelectExpression.Valid (plan : AggregatePlan) (schema : TableDefinition) : SelectExpression → Prop
  | .column name => name ∈ plan.groupBy
  | .aggregate function argument => validateAggregate function argument schema plan.table = .ok ()

/-- What the checks of a plan ask for. -/
structure AggregatePlan.Valid (plan : AggregatePlan) (schema : TableDefinition) : Prop where
  grouped : ∀ name ∈ plan.groupBy, ∃ column ∈ schema.columns, column.name = name ∧
    column.dataType ≠ .json
  items : ∀ item ∈ plan.items, item.expression.Valid plan schema
  outputs : (plan.items.map SelectItem.output).Nodup
  orders : ∀ order ∈ plan.orderBy, order.column ∈ plan.items.map SelectItem.output

section Validity
variable {plan : AggregatePlan} {schema : TableDefinition} {read : List Nat}

lemma columnDefinition_eq_ok {column table : String} {definition : ColumnDefinition}
    (h : columnDefinition schema column table = .ok definition) :
    definition ∈ schema.columns ∧ definition.name = column := by
  unfold columnDefinition at h
  split at h
  · next hfind =>
    cases h
    exact ⟨List.mem_of_find?_eq_some hfind, by simpa using List.find?_some hfind⟩
  · cases h

lemma validateGroups_mem {groups names : List String} (h : validateGroups plan schema groups names = .ok ()) :
    ∀ name ∈ names, ∃ column ∈ schema.columns, column.name = name ∧ column.dataType ≠ .json := by
  induction names generalizing groups with
  | nil => exact fun _ hname => (nomatch hname)
  | cons name names ih =>
    rw [validateGroups, Except.ite_error_eq_ok] at h
    obtain ⟨-, h⟩ := h
    obtain ⟨definition, hdefinition, h⟩ := Except.bind_eq_ok.mp h
    obtain ⟨hmem, hname⟩ := columnDefinition_eq_ok hdefinition
    split at h
    · cases h
    next htype =>
    intro other hother
    rcases List.mem_cons.mp hother with rfl | hother
    · exact ⟨definition, hmem, hname, htype⟩
    · exact ih h other hother

lemma validateExpression_eq_ok {expression : SelectExpression} {count count' : Nat}
    (h : validateExpression plan schema count expression = .ok count') : expression.Valid plan schema := by
  cases expression with
  | column name =>
    obtain ⟨_, -, h⟩ := Except.bind_eq_ok.mp h
    split at h
    · assumption
    · cases h
  | aggregate function argument =>
    rw [validateExpression, Except.ite_error_eq_ok] at h
    exact (Except.check_bind_eq_ok.mp h.2).1

lemma validateItems_mem {outputs : List String} {count : Nat} {items : List SelectItem}
    (h : validateItems plan schema outputs count items = .ok ()) :
    (∀ item ∈ items, item.expression.Valid plan schema ∧ item.output ∉ outputs) ∧
      (items.map SelectItem.output).Nodup := by
  induction items generalizing outputs count with
  | nil => exact ⟨fun _ hitem => (nomatch hitem), .nil⟩
  | cons item items ih =>
    rw [validateItems, Except.ite_error_eq_ok] at h
    obtain ⟨hnew, h⟩ := h
    obtain ⟨count', hexpression, h⟩ := Except.bind_eq_ok.mp h
    obtain ⟨hitems, hnodup⟩ := ih h
    refine ⟨fun other hother => ?_, ?_⟩
    · rcases List.mem_cons.mp hother with rfl | hother
      · exact ⟨validateExpression_eq_ok hexpression, hnew⟩
      · obtain ⟨hvalid, hout⟩ := hitems other hother
        exact ⟨hvalid, fun hmem => hout (List.mem_cons_of_mem _ hmem)⟩
    · rw [List.map_cons, List.nodup_cons]
      refine ⟨fun hmem => ?_, hnodup⟩
      obtain ⟨other, hother, hsame⟩ := List.mem_map.mp hmem
      exact (hitems other hother).2 (hsame ▸ List.mem_cons_self)

lemma validateOrder_mem {orders : List OrderBy} (h : validateOrder plan orders = .ok ()) :
    ∀ order ∈ orders, order.column ∈ plan.items.map SelectItem.output := by
  induction orders with
  | nil => exact fun _ horder => (nomatch horder)
  | cons order orders ih =>
    rw [validateOrder] at h
    split_ifs at h with hmem
    intro other hother
    rcases List.mem_cons.mp hother with rfl | hother
    · exact hmem
    · exact ih h other hother

theorem AggregatePlan.valid_of_validatePlan (h : validatePlan plan schema = .ok ()) : plan.Valid schema := by
  obtain ⟨hgroups, h⟩ := Except.check_bind_eq_ok.mp h
  obtain ⟨hitems, horder⟩ := Except.check_bind_eq_ok.mp h
  obtain ⟨hvalid, hnodup⟩ := validateItems_mem hitems
  exact ⟨validateGroups_mem hgroups, fun item hitem => (hvalid item hitem).1, hnodup,
    validateOrder_mem horder⟩

/-- The columns of some names are among those that a query reads. -/
def Reads (schema : TableDefinition) (read : List Nat) (name : String) : Prop :=
  ∃ source : SourceColumn, (∀ table, SourceColumn.new schema name table = .ok source) ∧
    source.name = name ∧ source.Resolves schema read

theorem reads_of_readColumns (h : readColumns plan schema = .ok read) {name : String}
    (hname : name ∈ plan.groupBy ∨ ∃ item ∈ plan.items, name ∈ item.expression.readColumns) :
    Reads schema read name := by
  have hmem : name ∈ plan.groupBy ++ plan.items.flatMap (fun item => item.expression.readColumns) ++
      plan.predicateColumns := by
    simp only [List.mem_append, List.mem_flatMap]
    exact .inl hname
  obtain ⟨index, hindex, hnew⟩ := forall₂_exists_mem (Except.mapM_eq_ok.mp h) hmem
  obtain ⟨source, hsource, hsame⟩ := Except.bind_eq_ok.mp hnew
  obtain ⟨hname, column, hcolumn, hcolumnName, htype⟩ := AggregateAccumulator.sourceColumn_new hsource
  refine ⟨source, fun table => ?_, hname, ?_, column, hcolumn, hcolumnName.trans hname.symm, htype⟩
  · unfold SourceColumn.new at hsource ⊢
    split at hsource
    · exact hsource
    · cases hsource
  · rw [Except.ok.inj hsame]
    exact hindex

end Validity

/-! ### States -/

/-- The values that a state groups by are those of a row. -/
def GroupState.Shows (items : List SelectItem) (row : Row) (state : GroupState) : Prop :=
  ∀ item ∈ items, ∀ name, item.expression = .column name →
    ∃ value, state.groupedValues.row name = some value ∧ value.dropZeroSign = row.plain name

/-- What a state holds of the rows that it has been given: an accumulator for each aggregate. -/
structure GroupState.Holds (schema : TableDefinition) (read : List Nat) (items : List SelectItem)
    (rows : List Row) (state : GroupState) : Prop where
  aggregates : List.Forall₂
    (fun call aggregate => AggregateAccumulator.Serves schema read call.1 call.2 aggregate ∧
      aggregate.Holds rows) (items.filterMap SelectItem.call) state.aggregates
  grouped : ∀ row ∈ rows, state.Shows items row
  settled : state.settled = state.aggregates.all (fun aggregate => !aggregate.isExtremum)

section States
variable {json : SerdeJson} {schema : TableDefinition} {read : List Nat} {plan : AggregatePlan}
  {items : List SelectItem} {state : GroupState} {visited : VisitedRow} {row : Row} {rows : List Row}

lemma all_isExtremum {aggregates aggregates' : List AggregateAccumulator}
    (h : aggregates'.map AggregateAccumulator.initial = aggregates.map AggregateAccumulator.initial) :
    aggregates'.all (fun aggregate => !aggregate.isExtremum) =
      aggregates.all (fun aggregate => !aggregate.isExtremum) := by
  have hall (l : List AggregateAccumulator) : l.all (fun aggregate => !aggregate.isExtremum) =
      (l.map AggregateAccumulator.initial).all (fun aggregate => !aggregate.isExtremum) := by
    rw [List.all_map]
    exact congrArg (l.all ·)
      (funext fun aggregate => by simp only [Function.comp, AggregateAccumulator.isExtremum_initial])
  rw [hall, h, ← hall]

/-- States without extrema have the sizes that they had when they were new. -/
lemma estimatedBytes_of_settled {state' : GroupState} (hgrouped : state'.groupedValues = state.groupedValues)
    (hsame : state'.aggregates.map AggregateAccumulator.initial =
      state.aggregates.map AggregateAccumulator.initial)
    (hsettled : state.aggregates.all (fun aggregate => !aggregate.isExtremum) = true) :
    state'.estimatedBytes = state.estimatedBytes := by
  have hsizes (l : List AggregateAccumulator) (hl : l.all (fun aggregate => !aggregate.isExtremum) = true) :
      l.map (fun aggregate => aggregate.estimatedBytes) =
        (l.map AggregateAccumulator.initial).map (fun aggregate => aggregate.estimatedBytes) := by
    rw [List.map_map, List.map_inj_left]
    intro aggregate haggregate
    exact AggregateAccumulator.estimatedBytes_of_not_extremum
      (by simpa using List.all_eq_true.mp hl aggregate haggregate)
  rw [GroupState.estimatedBytes, GroupState.estimatedBytes, GroupState.groupedBytes,
    GroupState.groupedBytes, hgrouped, hsizes _ hsettled, hsizes _ ((all_isExtremum hsame).trans hsettled),
    hsame]

/-- A row is added to a state that shows it, whose size becomes what was estimated. -/
theorem GroupState.Holds.update (h : state.Holds schema read items rows) (hshows : state.Shows items row)
    (hreads : visited.ReadsAs json schema read row) (hrows : ∀ earlier ∈ rows, PlainRow schema earlier)
    (hlength : rows.length < maxScanRows) :
    ∃ state', state.update json schema visited = .ok state' ∧
      state'.Holds schema read items (rows ++ [row]) ∧
      state.estimatedBytesAfter json schema visited = .ok state'.estimatedBytes ∧
      (state.settled = true → state'.estimatedBytes = state.estimatedBytes) := by
  obtain ⟨aggregates, hholds, hupdates⟩ := forall₂_extend h.aggregates
    (S := fun call aggregate => AggregateAccumulator.Serves schema read call.1 call.2 aggregate ∧
      aggregate.Holds (rows ++ [row]))
    (T := fun aggregate aggregate' => aggregate.update json schema visited = .ok aggregate' ∧
      aggregate'.initial = aggregate.initial)
    (fun call aggregate ⟨hserves, hholds⟩ => by
      obtain ⟨aggregate', hupdate, hholds', hsame⟩ := AggregateAccumulator.update_holds hserves.typed
        hserves.resolves hreads hrows hlength hholds
      exact ⟨aggregate', ⟨hserves.of_initial hsame, hholds'⟩, hupdate, hsame⟩)
  have hupdate : state.aggregates.mapM (·.update json schema visited) = .ok aggregates :=
    Except.mapM_eq_ok.mpr (hupdates.imp (fun _ _ h => h.1))
  have hafter : state.aggregates.mapM (·.estimatedBytesAfter json schema visited) =
      .ok (aggregates.map (fun aggregate => aggregate.estimatedBytes)) := by
    rw [Except.mapM_eq_ok, List.forall₂_map_right_iff]
    exact hupdates.imp (fun _ _ h => AggregateAccumulator.estimatedBytesAfter_eq h.1 h.2)
  have hsame : aggregates.map AggregateAccumulator.initial =
      state.aggregates.map AggregateAccumulator.initial := by
    rw [← List.forall₂_eq_eq_eq, List.forall₂_map_left_iff, List.forall₂_map_right_iff]
    exact hupdates.flip.imp (fun _ _ h => h.2)
  refine ⟨{ state with aggregates := aggregates }, ?_, ⟨hholds, ?_, ?_⟩, ?_, ?_⟩
  · simp only [GroupState.update, hupdate, bind, Except.bind, pure, Except.pure]
  · intro other hother
    rcases List.mem_append.mp hother with hother | hother
    · exact h.grouped other hother
    · rw [List.mem_singleton.mp hother]
      exact hshows
  · exact h.settled.trans (all_isExtremum hsame).symm
  · simp only [GroupState.estimatedBytesAfter, hafter, bind, Except.bind, pure, Except.pure]
    rfl
  · exact fun hsettled => estimatedBytes_of_settled rfl hsame (h.settled.symm.trans hsettled)

/-- What a budget holds changes by as much as the state's size does. -/
theorem GroupState.Holds.updateWithin {total : Nat} (h : state.Holds schema read items rows)
    (hshows : state.Shows items row) (hreads : visited.ReadsAs json schema read row)
    (hrows : ∀ earlier ∈ rows, PlainRow schema earlier) (hlength : rows.length < maxScanRows)
    (htotal : state.estimatedBytes ≤ total) :
    state.updateWithin json schema visited total = .error workLimitError ∨
    ∃ state', state.updateWithin json schema visited total =
        .ok (state', total - state.estimatedBytes + state'.estimatedBytes) ∧
      state'.Holds schema read items (rows ++ [row]) := by
  obtain ⟨state', hupdate, hholds, hafter, hsettled⟩ := h.update hshows hreads hrows hlength
  rw [GroupState.updateWithin]
  split_ifs with hcase
  · right
    refine ⟨state', ?_, hholds⟩
    rw [hsettled hcase, Nat.sub_add_cancel htotal, hupdate]
    rfl
  · simp only [hafter, replaceBudgetCharge, checkedSub, if_pos htotal, ensureWorkBudget, bind, Except.bind]
    by_cases hbudget : total - state.estimatedBytes + state'.estimatedBytes > maxAggregateWorkBytes
    · left
      rw [if_pos hbudget]
    · right
      refine ⟨state', ?_, hholds⟩
      rw [if_neg hbudget]
      simp only [hupdate, pure, Except.pure]

/-! ### New states -/

/-- What a new state is built up to, item by item. -/
structure GroupState.Built (schema : TableDefinition) (read : List Nat) (items : List SelectItem)
    (represented : Option Row) (state : GroupState) : Prop where
  aggregates : List.Forall₂
    (fun call aggregate => AggregateAccumulator.Serves schema read call.1 call.2 aggregate ∧
      aggregate.Holds []) (items.filterMap SelectItem.call) state.aggregates
  shows : ∀ row, represented = some row → state.Shows items row

lemma GroupState.Built.addItem {item : SelectItem} {representative : Option VisitedRow}
    {represented : Option Row} (h : state.Built schema read items represented)
    (hshape : SchemaShape schema) (hvalid : item.expression.Valid plan schema)
    (hread : ∀ name ∈ item.expression.readColumns, Reads schema read name)
    (hreads : Option.Rel (fun visited row => VisitedRow.ReadsAs json schema read visited row)
      representative represented)
    (hcolumn : ∀ name, item.expression = .column name → representative.isSome = true) :
    ∃ state', GroupState.addItem json schema plan.table representative state item = .ok state' ∧
      state'.Built schema read (items ++ [item]) represented := by
  unfold GroupState.addItem
  cases hexpression : item.expression with
  | column name =>
    have hcall : item.call = none := by rw [SelectItem.call, hexpression]
    cases hreads with
    | none => exact absurd (hcolumn name hexpression) (by simp)
    | some hreads =>
      next visited row =>
      obtain ⟨source, hsource, hname, hresolves⟩ := hread name (by
        rw [hexpression]
        exact List.mem_singleton_self name)
      obtain ⟨ref, hget, hshows⟩ := hreads.get hresolves
      have hplain := hresolves.plain hreads.plain
      have hvalue : ref.intoValue.dropZeroSign = row.plain name := by
        rw [hshows.intoValue, hplain.unsigned, hname]
      simp only [hsource, hget, bind, Except.bind, pure, Except.pure]
      refine ⟨_, rfl, ?_, ?_⟩
      · rw [List.filterMap_append, List.filterMap_cons_none hcall, List.filterMap_nil, List.append_nil]
        exact h.aggregates
      · intro other hother column hmem shown hshown
        cases hother
        rw [RowMap.row_insert]
        by_cases hsame : shown = name
        · subst hsame
          exact ⟨_, Row.insert_same _ _ _, hvalue⟩
        · rw [Row.insert_other hsame]
          rcases List.mem_append.mp hmem with hmem | hmem
          · exact h.shows row rfl column hmem shown hshown
          · rw [List.mem_singleton.mp hmem, hexpression] at hshown
            cases hshown
            exact absurd rfl hsame
  | aggregate function argument =>
    have hcall : item.call = some (function, argument) := by rw [SelectItem.call, hexpression]
    rw [hexpression] at hvalid hread
    obtain ⟨aggregate, hnew, hserves, hholds⟩ := AggregateAccumulator.new_serves hshape hvalid
      (fun name hargument => by
        subst hargument
        obtain ⟨source, hsource, hname, hresolves⟩ := hread name (List.mem_singleton_self name)
        exact ⟨source, hsource _, hname, hresolves⟩)
    simp only [hnew, bind, Except.bind, pure, Except.pure]
    refine ⟨_, rfl, ?_, ?_⟩
    · rw [List.filterMap_append, List.filterMap_cons_some hcall, List.filterMap_nil]
      exact List.rel_append h.aggregates (.cons ⟨hserves, hholds⟩ .nil)
    · intro row hrow column hmem shown hshown
      rcases List.mem_append.mp hmem with hmem | hmem
      · exact h.shows row hrow column hmem shown hshown
      · rw [List.mem_singleton.mp hmem, hexpression] at hshown
        cases hshown

/-- A new state is given no rows yet, and shows the row that represents its group. -/
theorem GroupState.new_holds {representative : Option VisitedRow} {represented : Option Row}
    (hshape : SchemaShape schema) (hvalid : plan.Valid schema)
    (hread : ∀ item ∈ plan.items, ∀ name ∈ item.expression.readColumns, Reads schema read name)
    (hreads : Option.Rel (fun visited row => VisitedRow.ReadsAs json schema read visited row)
      representative represented)
    (hcolumn : ∀ item ∈ plan.items, ∀ name, item.expression = .column name →
      representative.isSome = true) :
    ∃ state, GroupState.new json schema plan representative = .ok state ∧
      state.Holds schema read plan.items [] ∧
      ∀ row, represented = some row → state.Shows plan.items row := by
  have hloop : ∀ (rest done : List SelectItem) (state : GroupState), plan.items = done ++ rest →
      state.Built schema read done represented → ∃ state',
        rest.foldlM (GroupState.addItem json schema plan.table representative) state = .ok state' ∧
          state'.Built schema read plan.items represented := by
    intro rest
    induction rest with
    | nil =>
      intro done state hitems hbuilt
      rw [hitems, List.append_nil]
      exact ⟨state, rfl, hbuilt⟩
    | cons item rest ih =>
      intro done state hitems hbuilt
      have hmem : item ∈ plan.items := by simp [hitems]
      obtain ⟨state', hadd, hbuilt'⟩ := hbuilt.addItem hshape (hvalid.items item hmem) (hread item hmem)
        hreads (hcolumn item hmem)
      rw [List.foldlM_cons, hadd]
      exact ih (done ++ [item]) state' (by rw [hitems, List.append_assoc]; rfl) hbuilt'
  obtain ⟨state, hstate, hbuilt⟩ := hloop plan.items [] ⟨⟨[]⟩, [], true⟩ rfl
    ⟨.nil, fun _ _ _ hmem => (nomatch hmem)⟩
  refine ⟨{ state with settled := state.aggregates.all (fun aggregate => !aggregate.isExtremum) }, ?_,
    ⟨hbuilt.aggregates, fun _ hrow => (nomatch hrow), rfl⟩, hbuilt.shows⟩
  simp only [GroupState.new, hstate, bind, Except.bind, pure, Except.pure]

end States
end TinyJoin
