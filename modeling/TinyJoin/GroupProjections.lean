import TinyJoin.AggregateRuns

/-! The rows that a query returns of its groups: each shows what its plan means of the group, unless an
aggregate is out of range or the rows take too much. -/
namespace TinyJoin

/-- An aggregate whose value over a group is out of range. -/
def OutOfRange (schema : TableDefinition) (plan : AggregatePlan) (group : List Row) (error : EngineError) :
    Prop :=
  ∃ item ∈ plan.items, ∃ function argument, item.expression = .aggregate function argument ∧
    Meaning schema group (.error error) function argument

section Projections
variable {schema : TableDefinition} {read : List Nat} {plan : AggregatePlan}
  {columns : List SourceColumn} {items : List SelectItem} {aggregates : List AggregateAccumulator}
  {grouped : RowMap} {group : List Row} {state : GroupState}

/-- The items are projected each under its output, which no other item has. -/
lemma projectItems_spec (hshape : SchemaShape schema)
    (haggregates : List.Forall₂ (fun call aggregate =>
      AggregateAccumulator.Serves schema read call.1 call.2 aggregate ∧ aggregate.Holds group)
      (items.filterMap SelectItem.call) aggregates)
    (hgrouped : ∀ item ∈ items, ∀ name, item.expression = .column name → ∃ value,
      grouped.row name = some value ∧ ∀ row ∈ group, value.dropZeroSign = row.plain name)
    (houtputs : (items.map SelectItem.output).Nodup) (projected : RowMap) :
    (∃ projected', projectItems grouped items aggregates projected = .ok projected' ∧
      (∀ item ∈ items, ∃ value, projected'.row item.output = some value ∧
        item.Returns schema group value) ∧
      ∀ name ∉ items.map SelectItem.output, projected'.row name = projected.row name) ∨
    ∃ error, projectItems grouped items aggregates projected = .error error ∧
      ∃ item ∈ items, ∃ function argument, item.expression = .aggregate function argument ∧
        Meaning schema group (.error error) function argument := by
  induction items generalizing aggregates projected with
  | nil => exact .inl ⟨projected, rfl, fun _ hitem => (nomatch hitem), fun _ _ => rfl⟩
  | cons item items ih =>
    rw [List.map_cons, List.nodup_cons] at houtputs
    obtain ⟨hnew, houtputs⟩ := houtputs
    have hrest := fun other hother => hgrouped other (List.mem_cons_of_mem item hother)
    -- The outputs behind this one leave it as it is.
    have hextend (value : Value) {rest : List AggregateAccumulator}
        (hreturns : item.Returns schema group value)
        (hstep : projectItems grouped (item :: items) aggregates projected =
          projectItems grouped items rest (projected.insert item.output value))
        (haggregates : List.Forall₂ (fun call aggregate =>
          AggregateAccumulator.Serves schema read call.1 call.2 aggregate ∧ aggregate.Holds group)
          (items.filterMap SelectItem.call) rest) :
        (∃ projected', projectItems grouped (item :: items) aggregates projected = .ok projected' ∧
          (∀ other ∈ item :: items, ∃ value, projected'.row other.output = some value ∧
            other.Returns schema group value) ∧
          ∀ name ∉ (item :: items).map SelectItem.output, projected'.row name = projected.row name) ∨
        ∃ error, projectItems grouped (item :: items) aggregates projected = .error error ∧
          ∃ other ∈ item :: items, ∃ function argument, other.expression = .aggregate function argument ∧
            Meaning schema group (.error error) function argument := by
      rw [hstep]
      rcases ih haggregates hrest houtputs (projected.insert item.output value) with
        ⟨projected', hprojected, hitems, hothers⟩ | ⟨error, herror, other, hother, hmeaning⟩
      · refine .inl ⟨projected', hprojected, fun other hother => ?_, fun name hname => ?_⟩
        · rcases List.mem_cons.mp hother with rfl | hother
          · refine ⟨value, ?_, hreturns⟩
            rw [hothers _ hnew, RowMap.row_insert, Row.insert_same]
          · exact hitems other hother
        · rw [List.map_cons, List.mem_cons, not_or] at hname
          rw [hothers name hname.2, RowMap.row_insert, Row.insert_other hname.1]
      · exact .inr ⟨error, herror, other, List.mem_cons_of_mem _ hother, hmeaning⟩
    cases hexpression : item.expression with
    | column name =>
      have hcall : item.call = none := by rw [SelectItem.call, hexpression]
      rw [List.filterMap_cons_none hcall] at haggregates
      obtain ⟨value, hvalue, hplain⟩ := hgrouped item List.mem_cons_self name hexpression
      refine hextend value ?_ ?_ haggregates
      · rw [SelectItem.Returns, hexpression]
        exact hplain
      · rw [projectItems.eq_def]
        simp only [hexpression, hvalue]
    | aggregate function argument =>
      have hcall : item.call = some (function, argument) := by rw [SelectItem.call, hexpression]
      rw [List.filterMap_cons_some hcall] at haggregates
      obtain ⟨aggregate, rest, ⟨hserves, hholds⟩, hrestHolds, rfl⟩ :=
        List.forall₂_cons_left_iff.mp haggregates
      have hmeaning := hserves.finish_meaning hshape hholds
      cases hfinish : aggregate.finish with
      | error error =>
        rw [hfinish] at hmeaning
        refine .inr ⟨error, ?_, item, List.mem_cons_self, function, argument, hexpression, hmeaning⟩
        rw [projectItems.eq_def]
        simp only [hexpression, hfinish, bind, Except.bind]
      | ok value =>
        rw [hfinish] at hmeaning
        refine hextend value ?_ ?_ hrestHolds
        · rw [SelectItem.Returns, hexpression]
          exact hmeaning
        · rw [projectItems.eq_def]
          simp only [hexpression, hfinish, bind, Except.bind]

lemma projectedItemBytes_eq (haggregates : (items.filterMap SelectItem.call).length = aggregates.length)
    (hgrouped : ∀ item ∈ items, ∀ name, item.expression = .column name →
      ∃ value, grouped.row name = some value) (bytes : Nat) :
    ∃ bytes', projectedItemBytes grouped items aggregates bytes = .ok bytes' := by
  induction items generalizing aggregates bytes with
  | nil => exact ⟨bytes, rfl⟩
  | cons item items ih =>
    have hrest := fun other hother => hgrouped other (List.mem_cons_of_mem item hother)
    rw [projectedItemBytes.eq_def]
    cases hexpression : item.expression with
    | column name =>
      have hcall : item.call = none := by rw [SelectItem.call, hexpression]
      rw [List.filterMap_cons_none hcall] at haggregates
      obtain ⟨value, hvalue⟩ := hgrouped item List.mem_cons_self name hexpression
      simp only [hexpression, hvalue]
      exact ih haggregates hrest _
    | aggregate function argument =>
      have hcall : item.call = some (function, argument) := by rw [SelectItem.call, hexpression]
      rw [List.filterMap_cons_some hcall] at haggregates
      cases aggregates with
      | nil => cases haggregates
      | cons aggregate rest =>
        simp only [hexpression]
        exact ih (Nat.succ.inj haggregates) hrest _

/-- A state's grouped values are there to be returned: it has a row, or it returns none. -/
lemma Prepared.groupedValues (h : Prepared schema plan read columns)
    (hstate : state.Holds schema read plan.items group) (hne : plan.groupBy ≠ [] → group ≠ []) :
    ∀ item ∈ plan.items, ∀ name, item.expression = .column name → ∃ value,
      state.groupedValues.row name = some value ∧ ∀ row ∈ group, value.dropZeroSign = row.plain name := by
  intro item hitem name hname
  have hmem := Aggregating.column_grouped h hitem hname
  obtain ⟨first, hfirst⟩ := List.exists_mem_of_ne_nil group (hne (List.ne_nil_of_mem hmem))
  obtain ⟨value, hvalue, -⟩ := hstate.grouped first hfirst item hitem name hname
  refine ⟨value, hvalue, fun row hrow => ?_⟩
  obtain ⟨value', hvalue', hplain⟩ := hstate.grouped row hrow item hitem name hname
  rw [hvalue] at hvalue'
  cases hvalue'
  exact hplain

/-- The groups are returned in their order, unless they take too much or an aggregate overflows. -/
theorem projectStates_spec (h : Prepared schema plan read columns) {groups : List (List Row)}
    {states : List GroupState} (hstates : List.Forall₂ (fun group (state : GroupState) =>
      state.Holds schema read plan.items group ∧ (plan.groupBy ≠ [] → group ≠ [])) groups states)
    (bytes : Nat) :
    (∃ rows, projectStates plan bytes states = .ok rows ∧
      List.Forall₂ (Projects schema plan) groups rows) ∨
    projectStates plan bytes states = .error resultLimitError ∨
    ∃ error, projectStates plan bytes states = .error error ∧
      ∃ group ∈ groups, OutOfRange schema plan group error := by
  induction hstates generalizing bytes with
  | nil => exact .inl ⟨[], rfl, .nil⟩
  | cons hstate _ ih =>
    next group state groups states _ =>
    have hgrouped := h.groupedValues hstate.1 hstate.2
    obtain ⟨size, hsize⟩ := projectedItemBytes_eq hstate.1.aggregates.length_eq
      (fun item hitem name hname => (hgrouped item hitem name hname).imp (fun _ hvalue => hvalue.1)) 32
    rw [projectStates, projectedRowBytes, hsize]
    simp only [ensureResultBudget, bind, Except.bind]
    by_cases hbudget : bytes + size > maxAggregateResultBytes
    · exact .inr (.inl (by rw [if_pos hbudget]))
    rw [if_neg hbudget, projectGroup]
    rcases projectItems_spec h.shape hstate.1.aggregates hgrouped h.valid.outputs ⟨[]⟩ with
      ⟨row, hrow, hreturns, -⟩ | ⟨error, herror, item, hitem, hmeaning⟩
    · rw [hrow]
      rcases ih (bytes + size) with ⟨rows, hrows, hprojects⟩ | hlimit | ⟨error, herror, other, hother, hrange⟩
      · exact .inl ⟨row :: rows, by rw [hrows]; rfl, .cons hreturns hprojects⟩
      · exact .inr (.inl (by rw [hlimit]))
      · exact .inr (.inr ⟨error, by rw [herror], other, List.mem_cons_of_mem _ hother, hrange⟩)
    · exact .inr (.inr ⟨error, by rw [herror], group, List.mem_cons_self, item, hitem, hmeaning⟩)

end Projections
end TinyJoin
