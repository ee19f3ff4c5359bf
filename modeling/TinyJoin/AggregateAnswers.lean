import TinyJoin.AggregateOrder
import TinyJoin.RecordCanonical

/-! Aggregation over a table's rows, however a visit presents them: the groups and what is returned of them
are what the plan means of the rows that its predicate accepts, and the order of the rows is told only by
what floats are added to. -/
namespace TinyJoin

/-- What a visit that comes to its end presents: rows of the table, each once and as the predicate's filter
finds it, and all of those that it accepts. -/
structure CandidateVisit.Presents (schema : TableDefinition) (layout : RecordLayout)
    (records : List UInt8 → Option (List UInt8)) (table : List UInt8 → Option Row)
    (accepts : Row → Bool) (read : List Nat) (visit : CandidateVisit)
    (presented : List (List UInt8 × Row)) : Prop where
  ended : visit.failure = none
  candidates : List.Forall₂ (fun (candidate : Candidate) (entry : List UInt8 × Row) =>
    candidate.row.Presents schema layout records read entry.1 entry.2 ∧
      candidate.accepted = accepts entry.2) visit.candidates presented
  once : (presented.map Prod.fst).Nodup
  stored : ∀ key row, (key, row) ∈ presented → table key = some row
  every : ∀ key row, table key = some row → accepts row = true → (key, row) ∈ presented

/-- The rows that a predicate accepts, in the order in which a visit presents them. -/
def matching (accepts : Row → Bool) (presented : List (List UInt8 × Row)) : List Row :=
  (presented.map Prod.snd).filter accepts

/-- The states that a visit has come to. -/
def Aggregating.live (s : Aggregating) : List GroupState :=
  match s.global with
  | some state => [state]
  | none => s.groups.entries.map Group.state

section Answers
variable {json : SerdeJson} {hash : List GroupValue → UInt64} {schema : TableDefinition}
  {layout : RecordLayout} {records : List UInt8 → Option (List UInt8)}
  {table : List UInt8 → Option Row} {accepts : Row → Bool} {plan : AggregatePlan} {read : List Nat}
  {columns : List SourceColumn} {visit visit' : CandidateVisit}
  {presented presented' : List (List UInt8 × Row)}

/-! ### Rows of the table -/

lemma plainRow_of_normalized {row : Row} (h : Normalized schema row) : PlainRow schema row := by
  intro column hcolumn
  refine ⟨dropZeroSign_idem _, fun hnull => ?_⟩
  rw [Row.plain, isNull_dropZeroSign] at hnull
  cases hvalue : row column.name with
  | none =>
    rw [hvalue] at hnull
    cases hnull
  | some value =>
    rw [hvalue, Option.getD_some] at hnull
    have hholds := h.values column hcolumn value hvalue
    rw [if_neg (by simp [hnull])] at hholds
    rw [Row.plain, hvalue, Option.getD_some]
    exact holds_dropZeroSign hholds

lemma CandidateVisit.Presents.reads
    (h : visit.Presents schema layout records table accepts read presented) (hshape : SchemaShape schema)
    (hlayout : RecordLayout.new schema = .ok layout) (hstores : StoresRows json schema records table)
    (hjson : ∀ key row, table key = some row → JsonRoundTrips json schema row) :
    List.Forall₂ (fun (candidate : Candidate) row => candidate.Reads json schema read accepts row)
      visit.candidates (presented.map Prod.snd) := by
  rw [List.forall₂_map_right_iff]
  refine List.Forall₂.mp ?_ h.candidates (List.forall₂_iff_zip.mpr ⟨h.candidates.length_eq, fun hpair =>
    h.stored _ _ (List.of_mem_zip hpair).2⟩)
  intro candidate entry hpresents hstored
  obtain ⟨record, -, hrecord⟩ := hstores.stored entry.1 entry.2 hstored
  refine ⟨⟨plainRow_of_normalized hrecord.normal, fun index hindex column hcolumn => ?_⟩, hpresents.2⟩
  obtain ⟨value, ref, hvalue, hget, shown, hsame, hform⟩ := hpresents.1.get_shows hshape hlayout hstores
    hstored (hjson _ _ hstored) hindex hcolumn
  refine ⟨ref, hget, shown, ?_, hform⟩
  rw [Row.plain, hvalue, Option.getD_some, dropZeroSign_idem, hsame]

lemma CandidateVisit.Presents.plain
    (h : visit.Presents schema layout records table accepts read presented)
    (hstores : StoresRows json schema records table) :
    ∀ row ∈ matching accepts presented, PlainRow schema row := by
  intro row hrow
  obtain ⟨hmem, -⟩ := List.mem_filter.mp hrow
  obtain ⟨⟨key, row⟩, hentry, rfl⟩ := List.mem_map.mp hmem
  obtain ⟨record, -, hrecord⟩ := hstores.stored key row (h.stored key row hentry)
  exact plainRow_of_normalized hrecord.normal

/-- Visits of one table present the same rows that the predicate accepts, in some order. -/
lemma CandidateVisit.Presents.matching_perm
    (h : visit.Presents schema layout records table accepts read presented)
    (h' : visit'.Presents schema layout records table accepts read presented') :
    (matching accepts presented).Perm (matching accepts presented') := by
  have hmatching (entries : List (List UInt8 × Row)) :
      matching accepts entries = (entries.filter (fun entry => accepts entry.2)).map Prod.snd := by
    rw [matching, List.filter_map]
    rfl
  rw [hmatching, hmatching]
  refine List.Perm.map _ ?_
  rw [List.perm_ext_iff_of_nodup (h.once.of_map.filter _) (h'.once.of_map.filter _)]
  rintro ⟨key, row⟩
  rw [List.mem_filter, List.mem_filter]
  constructor
  · exact fun ⟨hentry, haccepts⟩ => ⟨h'.every key row (h.stored key row hentry) haccepts, haccepts⟩
  · exact fun ⟨hentry, haccepts⟩ => ⟨h.every key row (h'.stored key row hentry) haccepts, haccepts⟩

/-! ### The query -/

/-- A validated plan whose columns are found is ready to be run. -/
lemma prepared_of_plan (hshape : SchemaShape schema) (hplan : validatePlan plan schema = .ok ())
    (hread : readColumns plan schema = .ok read) :
    ∃ columns, plan.groupBy.mapM (fun column => SourceColumn.new schema column plan.table) = .ok columns ∧
      Prepared schema plan read columns := by
  have hvalid := AggregatePlan.valid_of_validatePlan hplan
  have hreads : ∀ name ∈ plan.groupBy, ∃ source : SourceColumn,
      SourceColumn.new schema name plan.table = .ok source ∧ source.name = name ∧
        source.Resolves schema read ∧ source.dataType ≠ .json := by
    intro name hname
    obtain ⟨source, hsource, hsourceName, hresolves⟩ := reads_of_readColumns hread (.inl hname)
    obtain ⟨column, hcolumn, hcolumnName, htype⟩ := hvalid.grouped name hname
    refine ⟨source, hsource _, hsourceName, hresolves, ?_⟩
    obtain ⟨-, other, hother, hotherName, hotherType⟩ := hresolves
    have hsame : other = column := List.inj_on_of_nodup_map hshape.names_nodup
      (List.mem_of_getElem? hother) hcolumn (hotherName.trans (hsourceName.trans hcolumnName.symm))
    rw [← hotherType, hsame]
    exact htype
  obtain ⟨columns, hcolumns⟩ := exists_forall₂ hreads
  exact ⟨columns, Except.mapM_eq_ok.mpr (hcolumns.imp (fun _ _ h => h.1)), hshape, hvalid,
    hcolumns.imp (fun _ _ h => h.2),
    fun item hitem name hname => reads_of_readColumns hread (.inr ⟨item, hitem, hname⟩)⟩

lemma resultFields_eq_ok (h : Prepared schema plan read columns) :
    ∃ fields, resultFields plan schema = .ok fields := by
  have hdefinition (name : String) (hname : Reads schema read name) :
      ∃ definition, columnDefinition schema name plan.table = .ok definition := by
    obtain ⟨source, -, rfl, -, column, hcolumn, hcolumnName, -⟩ := hname
    refine ⟨column, ?_⟩
    rw [columnDefinition, ← hcolumnName, find?_name h.shape (List.mem_of_getElem? hcolumn)]
  have hfield : ∀ item ∈ plan.items, ∃ field, resultField plan schema item = .ok field := by
    intro item hitem
    have hreads := h.reads item hitem
    have hvalid := h.valid.items item hitem
    suffices htype : ∃ dataType, expressionType schema plan.table item.expression = .ok dataType by
      obtain ⟨dataType, htype⟩ := htype
      rw [resultField, htype]
      exact ⟨_, rfl⟩
    cases hexpression : item.expression with
    | column name =>
      rw [hexpression] at hreads
      obtain ⟨definition, hdefinition⟩ := hdefinition name (hreads name (List.mem_singleton_self name))
      rw [expressionType, hdefinition]
      exact ⟨_, rfl⟩
    | aggregate function argument =>
      rw [hexpression] at hreads hvalid
      have hargument (hfunction : function ≠ .count) :
          ∃ dataType, aggregateArgumentType schema plan.table argument = .ok dataType := by
        cases argument with
        | star =>
          have hstar : validateAggregate function .star schema plan.table = .ok () := hvalid
          rw [validateAggregate, if_neg hfunction] at hstar
          cases hstar
        | column name =>
          obtain ⟨definition, hdefinition⟩ := hdefinition name (hreads name (List.mem_singleton_self name))
          rw [aggregateArgumentType, hdefinition]
          exact ⟨_, rfl⟩
      cases function with
      | count => exact ⟨_, rfl⟩
      | avg => exact ⟨_, rfl⟩
      | _ => exact hargument (by decide)
  obtain ⟨fields, hfields⟩ := exists_forall₂ hfield
  exact ⟨fields, Except.mapM_eq_ok.mpr hfields⟩

/-- What a query comes to: the window of its groups' rows, or the failure of a limit or of an aggregate. -/
theorem executeAggregate_spec (hshape : SchemaShape schema) (hlayout : RecordLayout.new schema = .ok layout)
    (hstores : StoresRows json schema records table)
    (hjson : ∀ key row, table key = some row → JsonRoundTrips json schema row)
    (hplan : validatePlan plan schema = .ok ()) (hread : readColumns plan schema = .ok read)
    (h : visit.Presents schema layout records table accepts read presented) :
    ∃ fields, resultFields plan schema = .ok fields ∧
      ((plan.limit = some 0 ∧ executeAggregate json hash schema plan visit = .ok ⟨fields, []⟩) ∨
      (plan.limit ≠ some 0 ∧ ∃ groups projected,
        executeAggregate json hash schema plan visit = .ok ⟨fields, orderedWindow plan projected⟩ ∧
        GroupsOf plan (matching accepts presented) groups ∧
        List.Forall₂ (Projects schema plan) groups projected) ∨
      ∃ error, executeAggregate json hash schema plan visit = .error error ∧
        (error ∈ sizeLimitErrors ∨ ∃ groups, GroupsOf plan (matching accepts presented) groups ∧
          ∃ group ∈ groups, OutOfRange schema plan group error)) := by
  obtain ⟨columns, hcolumns, hprepared⟩ := prepared_of_plan hshape hplan hread
  obtain ⟨fields, hfields⟩ := resultFields_eq_ok hprepared
  refine ⟨fields, hfields, ?_⟩
  have hexecute : executeAggregate json hash schema plan visit =
      if plan.limit = some 0 then .ok ⟨fields, []⟩
      else (Aggregating.start json schema plan).bind fun s =>
        (visit.candidates.foldlM (Aggregating.visit json hash schema plan columns) s).bind fun s =>
          (projectStates plan 0 s.states).bind fun rows => .ok ⟨fields, orderedWindow plan rows⟩ := by
    simp only [executeAggregate, hplan, hfields, hcolumns, hread, h.ended, bind, Except.bind, pure,
      Except.pure]
  rw [hexecute]
  by_cases hlimit : plan.limit = some 0
  · exact .inl ⟨hlimit, if_pos hlimit⟩
  right
  rw [if_neg hlimit]
  rcases Aggregating.start_holds hprepared with hstart | ⟨s, hstart, hholds⟩
  · right
    rw [hstart]
    exact ⟨workLimitError, rfl, .inl (by simp [sizeLimitErrors])⟩
  rw [hstart, Except.bind]
  rcases Aggregating.run_spec hprepared hholds (h.reads hshape hlayout hstores hjson) with
    ⟨error, herror, hrun⟩ | ⟨s', hrun, hholds'⟩
  · right
    rw [hrun]
    exact ⟨error, rfl, .inl herror⟩
  rw [hrun, Except.bind]
  obtain ⟨groups, hgroups, hstates⟩ := Aggregating.states_spec hprepared hholds'
  rcases projectStates_spec hprepared hstates 0 with ⟨rows, hrows, hprojects⟩ | hresult |
    ⟨error, herror, group, hgroup, hrange⟩
  · left
    rw [hrows]
    exact ⟨hlimit, groups, rows, rfl, hgroups, hprojects⟩
  · right
    rw [hresult]
    exact ⟨resultLimitError, rfl, .inl (by simp [sizeLimitErrors])⟩
  · right
    rw [herror]
    exact ⟨error, rfl, .inr ⟨groups, hgroups, group, hgroup, hrange⟩⟩

/-- What a query that returns has returned. -/
lemma executeAggregate_ok {result : QueryResult} (hshape : SchemaShape schema)
    (hlayout : RecordLayout.new schema = .ok layout) (hstores : StoresRows json schema records table)
    (hjson : ∀ key row, table key = some row → JsonRoundTrips json schema row)
    (hplan : validatePlan plan schema = .ok ()) (hread : readColumns plan schema = .ok read)
    (h : visit.Presents schema layout records table accepts read presented)
    (hresult : executeAggregate json hash schema plan visit = .ok result) :
    resultFields plan schema = .ok result.fields ∧
      (plan.limit = some 0 ∧ result.rows = [] ∨ plan.limit ≠ some 0 ∧ ∃ groups projected,
        GroupsOf plan (matching accepts presented) groups ∧
        List.Forall₂ (Projects schema plan) groups projected ∧
        result.rows = orderedWindow plan projected) := by
  obtain ⟨fields, hfields, ⟨hlimit, hok⟩ | ⟨hlimit, groups, projected, hok, hgroups, hprojects⟩ |
    ⟨error, herror, -⟩⟩ := executeAggregate_spec hshape hlayout hstores hjson hplan hread h
  · cases hresult.symm.trans hok
    exact ⟨hfields, .inl ⟨hlimit, rfl⟩⟩
  · cases hresult.symm.trans hok
    exact ⟨hfields, .inr ⟨hlimit, groups, projected, hgroups, hprojects, rfl⟩⟩
  · cases hresult.symm.trans herror

/-- Why a query that fails has failed. -/
lemma executeAggregate_error {error : EngineError} (hshape : SchemaShape schema)
    (hlayout : RecordLayout.new schema = .ok layout) (hstores : StoresRows json schema records table)
    (hjson : ∀ key row, table key = some row → JsonRoundTrips json schema row)
    (hplan : validatePlan plan schema = .ok ()) (hread : readColumns plan schema = .ok read)
    (h : visit.Presents schema layout records table accepts read presented)
    (herror : executeAggregate json hash schema plan visit = .error error) :
    plan.limit ≠ some 0 ∧ (error ∈ sizeLimitErrors ∨
      ∃ groups, GroupsOf plan (matching accepts presented) groups ∧
        ∃ group ∈ groups, OutOfRange schema plan group error) := by
  obtain ⟨fields, hfields, ⟨-, hok⟩ | ⟨-, groups, projected, hok, -⟩ | ⟨error', herror', hcause⟩⟩ :=
    executeAggregate_spec hshape hlayout hstores hjson hplan hread h
  · cases herror.symm.trans hok
  · cases herror.symm.trans hok
  · cases herror.symm.trans herror'
    refine ⟨fun hlimit => ?_, hcause⟩
    simp only [executeAggregate, hplan, hfields, hlimit, if_true, bind, Except.bind, pure, Except.pure] at herror
    cases herror

/-- The failure of an aggregate over some group, which no visit of the same rows escapes where the
aggregates are steady. -/
lemma outOfRange_not_ok {groups groups' : List (List Row)} {projected : List RowMap} {error : EngineError}
    {rows rows' : List Row} (h : Prepared schema plan read columns)
    (hplain : ∀ row ∈ rows, PlainRow schema row) (hperm : rows.Perm rows')
    (hsteady : ∀ item ∈ plan.items, item.expression.Steady schema)
    (hgroups : GroupsOf plan rows groups) (hgroups' : GroupsOf plan rows' groups')
    (hrange : ∃ group ∈ groups, OutOfRange schema plan group error)
    (hprojects : List.Forall₂ (Projects schema plan) groups' projected) : False := by
  obtain ⟨group, hgroup, item, hitem, function, argument, hexpression, hmeaning⟩ := hrange
  obtain ⟨group', hgroup', hsame, -, hmem, -⟩ :=
    forall₂_exists_mem (hgroups.unique h hplain hperm hgroups') hgroup
  obtain ⟨row, -, hrow⟩ := forall₂_exists_mem hprojects hgroup'
  obtain ⟨value, -, hreturns⟩ := hrow item hitem
  have hvalid := h.valid.items item hitem
  have hitemSteady := hsteady item hitem
  unfold SelectItem.Returns at hreturns
  rw [hexpression] at hreturns hvalid hitemSteady
  have hunique := Meaning.unique h.shape hvalid (fun row hrow => hplain row (hmem row hrow)) hsame
    (.inr hitemSteady) hmeaning hreturns
  cases hunique

lemma checkedSub_of_le {left right : Nat} (h : right ≤ left) :
    ∃ rest, checkedSub left right = .ok rest := ⟨left - right, by rw [checkedSub, if_pos h]⟩

lemma forall₂_square {α β γ δ : Type} {R : α → β → Prop} {S : α → γ → Prop} {T : β → δ → Prop}
    {U : γ → δ → Prop} {as : List α} {bs : List β} {cs : List γ} {ds : List δ}
    (h : List.Forall₂ R as bs) (hleft : List.Forall₂ S as cs) (hright : List.Forall₂ T bs ds)
    (hsquare : ∀ a b c d, R a b → S a c → T b d → U c d) : List.Forall₂ U cs ds := by
  induction h generalizing cs ds with
  | nil =>
    cases hleft
    cases hright
    exact .nil
  | cons hab _ ih =>
    cases hleft with
    | cons hac hleft =>
      cases hright with
      | cons hbd hright => exact .cons (hsquare _ _ _ _ hab hac hbd) (ih hleft hright)

/-- The rows of two visits' groups agree on what is told by the rows of a group, in any order of them. -/
lemma windows_agree {groups groups' : List (List Row)} {projected projected' : List RowMap}
    {rows rows' : List Row} {shown : SelectExpression → Prop} (h : Prepared schema plan read columns)
    (hplain : ∀ row ∈ rows, PlainRow schema row) (hperm : rows.Perm rows')
    (hgroups : GroupsOf plan rows groups) (hgroups' : GroupsOf plan rows' groups')
    (hprojects : List.Forall₂ (Projects schema plan) groups projected)
    (hprojects' : List.Forall₂ (Projects schema plan) groups' projected')
    (hshown : ∀ expression, shown expression → rows = rows' ∨ expression.Steady schema)
    (hordered : ∀ item ∈ plan.items, ∀ term ∈ plan.orderBy, item.output = term.column →
      shown item.expression) :
    List.Forall₂ (RowMap.Agrees plan shown) (orderedWindow plan projected)
      (orderedWindow plan projected') := by
  apply orderedWindow_agrees
  · intro term hterm
    obtain ⟨item, hitem, houtput⟩ := List.mem_map.mp (h.valid.orders term hterm)
    exact ⟨item, hitem, houtput, hordered item hitem term hterm houtput⟩
  · refine forall₂_square (hgroups.unique h hplain hperm hgroups') hprojects hprojects' ?_
    rintro group group' row row' ⟨hsame, heq, hmem, hne⟩ hrow hrow'
    refine hrow.agrees h (fun member hmember => hplain member (hmem member hmember)) hsame hne
      (fun expression hexpression => ?_) hrow'
    exact (hshown expression hexpression).imp_left heq

/-- Aggregation as its plan defines it, by whichever form and order of its rows a visit presents. -/
theorem executeAggregate_answers (hshape : SchemaShape schema)
    (hlayout : RecordLayout.new schema = .ok layout) (hstores : StoresRows json schema records table)
    (hjson : ∀ key row, table key = some row → JsonRoundTrips json schema row)
    (hplan : validatePlan plan schema = .ok ()) (hread : readColumns plan schema = .ok read) :
    -- What a query returns is what its plan means of the rows that match, or it fails for a limit or
    -- for an aggregate that is out of range.
    (∀ hash visit presented, visit.Presents schema layout records table accepts read presented →
      (∀ result, executeAggregate json hash schema plan visit = .ok result →
        resultFields plan schema = .ok result.fields ∧
        if plan.limit = some 0 then result.rows = []
        else Answers schema plan (matching accepts presented) result.rows) ∧
      (∀ error, executeAggregate json hash schema plan visit = .error error →
        error ∈ sizeLimitErrors ∨ Overflows schema plan (matching accepts presented) error) ∧
      -- Behind any of its candidates the budget holds what the groups are charged, so that neither a
      -- state nor an extremum is refunded more than it holds.
      ∀ columns before s₀ s,
        plan.groupBy.mapM (fun column => SourceColumn.new schema column plan.table) = .ok columns →
        before <+: visit.candidates → Aggregating.start json schema plan = .ok s₀ →
        before.foldlM (Aggregating.visit json hash schema plan columns) s₀ = .ok s →
        s.workingBytes = s.charges ∧ ∀ state ∈ s.live,
          (∃ rest, checkedSub s.workingBytes state.estimatedBytes = .ok rest) ∧
          ∀ aggregate ∈ state.aggregates, ∀ selected, aggregate.selected = some selected →
            ∃ rest, checkedSub aggregate.estimatedBytes (ownedValueBytes selected * 2) = .ok rest) ∧
    -- Neither the forms of the rows nor how groups are hashed tell the results of two visits apart, nor
    -- does the order of the rows but in what floats are added to, and in what is ordered by it.
    (∀ hash hash' visit visit' presented presented' result result',
      visit.Presents schema layout records table accepts read presented →
      visit'.Presents schema layout records table accepts read presented' →
      executeAggregate json hash schema plan visit = .ok result →
      executeAggregate json hash' schema plan visit' = .ok result' →
      result.fields = result'.fields ∧
      (matching accepts presented = matching accepts presented' →
        List.Forall₂ (RowMap.Agrees plan (fun _ => True)) result.rows result'.rows) ∧
      ((∀ item ∈ plan.items, ∀ term ∈ plan.orderBy, item.output = term.column →
          item.expression.Steady schema) →
        List.Forall₂ (RowMap.Agrees plan (SelectExpression.Steady schema)) result.rows result'.rows)) ∧
    ∀ hash hash' visit visit' presented presented' error result',
      visit.Presents schema layout records table accepts read presented →
      visit'.Presents schema layout records table accepts read presented' →
      (∀ item ∈ plan.items, item.expression.Steady schema) →
      executeAggregate json hash schema plan visit = .error error → error ∉ sizeLimitErrors →
      executeAggregate json hash' schema plan visit' ≠ .ok result' := by
  refine ⟨fun hash visit presented h => ⟨fun result hresult => ?_, fun error herror => ?_,
    fun columns before s₀ s hcolumns hprefix hstart hrun => ?_⟩, ?_, ?_⟩
  · obtain ⟨hfields, ⟨hlimit, hrows⟩ | ⟨hlimit, groups, projected, hgroups, hprojects, hrows⟩⟩ :=
      executeAggregate_ok hshape hlayout hstores hjson hplan hread h hresult
    · exact ⟨hfields, by rw [if_pos hlimit, hrows]⟩
    · refine ⟨hfields, ?_⟩
      rw [if_neg hlimit]
      exact ⟨groups, projected, hgroups, hprojects, hrows⟩
  · exact (executeAggregate_error hshape hlayout hstores hjson hplan hread h herror).2
  · obtain ⟨columns', hcolumns', hprepared⟩ := prepared_of_plan hshape hplan hread
    cases hcolumns.symm.trans hcolumns'
    obtain ⟨after, hafter⟩ := hprefix
    have hreads := h.reads hshape hlayout hstores hjson
    rw [← hafter] at hreads
    have hbefore := List.forall₂_take before.length hreads
    rw [List.take_left] at hbefore
    rcases Aggregating.start_holds hprepared with hlimit | ⟨s', hstart', hholds⟩
    · cases hstart.symm.trans hlimit
    cases hstart.symm.trans hstart'
    rcases Aggregating.run_spec hprepared hholds hbefore with ⟨error, -, herror⟩ | ⟨s', hrun', hholds'⟩
    · cases hrun.symm.trans herror
    cases hrun.symm.trans hrun'
    refine ⟨hholds'.charged, fun state hstate => ⟨checkedSub_of_le ?_, fun aggregate _ selected hselected =>
      checkedSub_of_le ?_⟩⟩
    · rw [hholds'.charged, Aggregating.charges]
      unfold Aggregating.live at hstate
      cases hglobal : s.global with
      | some whole =>
        rw [hglobal] at hstate
        rw [List.mem_singleton.mp hstate]
      | none =>
        rw [hglobal] at hstate
        obtain ⟨group, hgroup, rfl⟩ := List.mem_map.mp hstate
        obtain ⟨position, hat⟩ := List.mem_iff_getElem?.mp hgroup
        have hcharge : group.charge = 256 + group.key.length * 2 + group.state.estimatedBytes := rfl
        have hle := Aggregating.charge_le_sum hat
        dsimp only
        omega
    · rw [AggregateAccumulator.estimatedBytes, hselected]
      exact Nat.le_add_left _ _
  · intro hash hash' visit visit' presented presented' result result' h h' hresult hresult'
    obtain ⟨columns, -, hprepared⟩ := prepared_of_plan hshape hplan hread
    have hplain := h.plain hstores
    have hperm := h.matching_perm h'
    obtain ⟨hfields, hanswer⟩ := executeAggregate_ok hshape hlayout hstores hjson hplan hread h hresult
    obtain ⟨hfields', hanswer'⟩ :=
      executeAggregate_ok hshape hlayout hstores hjson hplan hread h' hresult'
    refine ⟨Except.ok.inj (hfields.symm.trans hfields'), ?_⟩
    rcases hanswer with ⟨hlimit, hrows⟩ | ⟨hlimit, groups, projected, hgroups, hprojects, hrows⟩
    · obtain ⟨-, hrows'⟩ := hanswer'.resolve_right (fun hother => hother.1 hlimit)
      rw [hrows, hrows']
      exact ⟨fun _ => .nil, fun _ => .nil⟩
    · obtain ⟨-, groups', projected', hgroups', hprojects', hrows'⟩ :=
        hanswer'.resolve_left (fun hother => hlimit hother.1)
      rw [hrows, hrows']
      constructor
      · exact fun heq => windows_agree hprepared hplain hperm hgroups hgroups' hprojects hprojects'
          (fun _ _ => .inl heq) (fun _ _ _ _ _ => trivial)
      · exact fun hordered => windows_agree hprepared hplain hperm hgroups hgroups' hprojects hprojects'
          (fun _ hsteady => .inr hsteady) hordered
  · intro hash hash' visit visit' presented presented' error result' h h' hsteady herror hlimit hok
    obtain ⟨columns, -, hprepared⟩ := prepared_of_plan hshape hplan hread
    obtain ⟨hbounded, hcause⟩ :=
      executeAggregate_error hshape hlayout hstores hjson hplan hread h herror
    obtain ⟨groups, hgroups, hrange⟩ := hcause.resolve_left hlimit
    obtain ⟨-, hanswer⟩ := executeAggregate_ok hshape hlayout hstores hjson hplan hread h' hok
    obtain ⟨-, groups', projected, hgroups', hprojects, -⟩ :=
      hanswer.resolve_left (fun hother => hbounded hother.1)
    exact outOfRange_not_ok hprepared (h.plain hstores) (h.matching_perm h') hsteady hgroups hgroups' hrange
      hprojects

end Answers
/-! A small weight is lost to a large one that it is added to, and not behind one that has taken the large
one back: `SELECT SUM(kilos) AS total FROM weights`, in the order of the rows' keys and in that of an index
on their weights. -/

def weights : TableDefinition where
  name := "weights"
  primaryKey := ["id"]
  columns := [⟨"id", .integer, false, none⟩, ⟨"kilos", .float, true, none⟩]

def weight (id : Int) (kilos : F64) : RowMap := ⟨[("id", .ofI64 id), ("kilos", .ofF64 kilos)]⟩

def weightKey (id : UInt8) : List UInt8 := [128, 0, 0, 0, 0, 0, 0, id]

/-- The rows of the table, each under its key and with its record. -/
def weighed : List (List UInt8 × RowMap × List UInt8) :=
  [(weightKey 1, weight 1 (.ofNat 10000000000000000), [0, 1, 0, 128, 224, 55, 121, 195, 65, 67]),
    (weightKey 2, weight 2 (.ofInt (-10000000000000000)), [0, 1, 0, 128, 224, 55, 121, 195, 65, 195]),
    (weightKey 3, weight 3 (.ofNat 1), [0, 1, 0, 0, 0, 0, 0, 0, 240, 63])]

def weightRecords (key : List UInt8) : Option (List UInt8) := (weighed.lookup key).map Prod.snd

def weightRows (key : List UInt8) : Option Row :=
  (weighed.lookup key).map (fun entry => entry.1.row)

def totalPlan : AggregatePlan where
  table := "weights"
  distinct := false
  items := [⟨.aggregate .sum (.column "kilos"), "total"⟩]
  positional := false
  predicateColumns := []
  groupBy := []
  orderBy := []
  limit := none
  offset := 0

/-- A visit of the rows at some of the table's places. -/
def weighing (places : List Nat) : CandidateVisit where
  candidates := (places.filterMap (fun place => weighed[place]?)).map
    (fun entry => ⟨.whole (.map entry.2.1), true⟩)
  failure := none

def weighedRows (places : List Nat) : List (List UInt8 × Row) :=
  (places.filterMap (fun place => weighed[place]?)).map (fun entry => (entry.1, entry.2.1.row))

lemma weight_row (id : Int) (kilos : F64) (name : String) : (weight id kilos).row name =
    if name = "id" then some (.ofI64 id) else if name = "kilos" then some (.ofF64 kilos) else none := by
  rw [RowMap.row, weight]
  by_cases hid : name = "id"
  · subst hid
    rfl
  · rw [List.lookup_cons, beq_eq_false_iff_ne.mpr hid, if_neg hid]
    by_cases hkilos : name = "kilos"
    · subst hkilos
      rfl
    · rw [List.lookup_cons, beq_eq_false_iff_ne.mpr hkilos, if_neg hkilos]
      rfl

lemma weight_storedAs {id : Int} {kilos : F64} {key record : List UInt8}
    (hid : (Value.ofI64 id).dropZeroSign = .ofI64 id ∧ (Value.ofI64 id).isNull = false ∧
      (Value.ofI64 id).holds .integer = true)
    (hkilos : (Value.ofF64 kilos).isNull = false ∧ (Value.ofF64 kilos).holds .float = true)
    (hkey : encodePrimaryKey weights (weight id kilos).row = .ok key)
    (hrecord : encodeRow literalJson weights (weight id kilos).row = .ok record) :
    StoredAs literalJson weights (weight id kilos).row key record := by
  refine ⟨⟨fun name => ?_, fun column hcolumn value hvalue => ?_⟩, ?_, hkey, hrecord⟩
  · rw [weight_row]
    simp only [weights, List.map_cons, List.map_nil, List.mem_cons, List.not_mem_nil, or_false]
    split_ifs <;> simp_all
  · rw [weight_row] at hvalue
    rcases List.mem_pair.mp hcolumn with rfl | rfl
    · cases hvalue
      rw [if_neg (by simp [hid.2.1])]
      exact hid.2.2
    · cases hvalue
      rw [if_neg (by simp [hkilos.1])]
      exact hkilos.2
  · funext name
    rw [entryRow, weight_row]
    by_cases hname : name = "id"
    · subst hname
      exact congrArg some hid.1
    · rw [if_neg (by simpa [weights] using hname)]

lemma lookup_weighed {key : List UInt8} {entry : RowMap × List UInt8} (h : weighed.lookup key = some entry) :
    (key, entry) ∈ weighed := by
  obtain ⟨before, after, hsplit, -⟩ := List.lookup_eq_some_iff.mp h
  rw [hsplit]
  exact List.mem_append_right _ List.mem_cons_self

lemma weights_storesRows : StoresRows literalJson weights weightRecords weightRows where
  free key hfree := by
    rw [weightRows, Option.map_eq_none_iff] at hfree
    rw [weightRecords, hfree, Option.map_none]
  stored key row hrow := by
    obtain ⟨entry, hentry, rfl⟩ := Option.map_eq_some_iff.mp hrow
    refine ⟨entry.2, by rw [weightRecords, hentry, Option.map_some], ?_⟩
    have hmem := lookup_weighed hentry
    simp only [weighed, List.mem_cons, List.not_mem_nil, or_false, Prod.mk.injEq] at hmem
    rcases hmem with ⟨rfl, rfl⟩ | ⟨rfl, rfl⟩ | ⟨rfl, rfl⟩
    · exact weight_storedAs ⟨rfl, rfl, rfl⟩ ⟨rfl, rfl⟩ rfl rfl
    · exact weight_storedAs ⟨rfl, rfl, rfl⟩ ⟨rfl, rfl⟩ rfl rfl
    · exact weight_storedAs ⟨rfl, rfl, rfl⟩ ⟨rfl, rfl⟩ rfl rfl

/-- The layout of the table's records. -/
def weightLayout : RecordLayout := ⟨[.key 0, .stored 0], [.integer], [0], [1]⟩

lemma weighing_presents {places : List Nat} (hplaces : places.Perm [0, 1, 2]) :
    (weighing places).Presents weights weightLayout weightRecords weightRows (fun _ => true) [1]
      (weighedRows places) := by
  have hentries : (places.filterMap (fun place => weighed[place]?)).Perm weighed :=
    hplaces.filterMap (fun place => weighed[place]?)
  refine ⟨rfl, ?_, ?_, fun key row hmem => ?_, fun key row hrow _ => ?_⟩
  · rw [weighing, weighedRows, List.forall₂_map_left_iff, List.forall₂_map_right_iff, List.forall₂_same]
    exact fun entry _ => ⟨rfl, rfl⟩
  · rw [weighedRows, List.map_map, (hentries.map _).nodup_iff]
    decide
  · obtain ⟨entry, hentry, heq⟩ := List.mem_map.mp hmem
    have hweighed := hentries.mem_iff.mp hentry
    cases heq
    simp only [weighed, List.mem_cons, List.not_mem_nil, or_false] at hweighed
    rcases hweighed with rfl | rfl | rfl <;> rfl
  · obtain ⟨entry, hentry, rfl⟩ := Option.map_eq_some_iff.mp hrow
    exact List.mem_map.mpr ⟨(key, entry), hentries.mem_iff.mpr (lookup_weighed hentry), rfl⟩

theorem executeAggregate_order_matters :
    ∃ visit visit' presented presented' result result',
      visit.Presents weights weightLayout weightRecords weightRows (fun _ => true) [1] presented ∧
      visit'.Presents weights weightLayout weightRecords weightRows (fun _ => true) [1] presented' ∧
      presented.Perm presented' ∧
      executeAggregate literalJson (fun _ => 0) weights totalPlan visit = .ok result ∧
      executeAggregate literalJson (fun _ => 0) weights totalPlan visit' = .ok result' ∧
      result.rows.map (fun row => (row.row "total").bind Value.asF64) = [some (.ofNat 1)] ∧
      result'.rows.map (fun row => (row.row "total").bind Value.asF64) = [some (.ofNat 0)] := by
  have htotals : ∀ places total, (places, total) ∈ [([0, 1, 2], F64.ofNat 1), ([1, 2, 0], F64.ofNat 0)] →
      ∃ result, executeAggregate literalJson (fun _ => 0) weights totalPlan (weighing places) = .ok result ∧
        result.rows.map (fun row => (row.row "total").bind Value.asF64) = [some total] := by
    intro places total hmem
    have hruns : (do
        let result ← executeAggregate literalJson (fun _ => 0) weights totalPlan (weighing places)
        return result.rows.map (fun row => (row.row "total").bind Value.asF64) :
          Result (List (Option F64))) = .ok [some total] := by
      rcases List.mem_pair.mp hmem with heq | heq
      · cases heq
        decide +kernel
      · cases heq
        decide +kernel
    obtain ⟨result, hresult, hrows⟩ := Except.bind_eq_ok.mp hruns
    exact ⟨result, hresult, Except.ok.inj hrows⟩
  obtain ⟨result, hresult, hrows⟩ := htotals [0, 1, 2] (.ofNat 1) (by simp)
  obtain ⟨result', hresult', hrows'⟩ := htotals [1, 2, 0] (.ofNat 0) (by simp)
  exact ⟨_, _, _, _, result, result', weighing_presents (.refl _), weighing_presents (by decide),
    List.Perm.map _ (List.Perm.filterMap _ (by decide)), hresult, hresult', hrows, hrows'⟩

theorem executeAggregate_answers_weights :
    ∃ result, executeAggregate literalJson (fun _ => 0) weights totalPlan (weighing [1, 2, 0]) = .ok result ∧
      Answers weights totalPlan (matching (fun _ => true) (weighedRows [1, 2, 0])) result.rows := by
  have hruns : (executeAggregate literalJson (fun _ => 0) weights totalPlan
      (weighing [1, 2, 0])).toOption.isSome = true := by decide +kernel
  cases hresult : executeAggregate literalJson (fun _ => 0) weights totalPlan (weighing [1, 2, 0]) with
  | error error =>
    rw [hresult] at hruns
    cases hruns
  | ok result =>
    have hshape : SchemaShape weights := by constructor <;> decide
    have hplan : validatePlan totalPlan weights = .ok () := rfl
    have hjson : ∀ key row, weightRows key = some row → JsonRoundTrips literalJson weights row := by
      intro key row _ column hcolumn htype
      rcases List.mem_pair.mp hcolumn with rfl | rfl <;> cases htype
    have hpresents := weighing_presents (show [1, 2, 0].Perm [0, 1, 2] by decide)
    obtain ⟨hanswers, -⟩ := executeAggregate_answers hshape rfl weights_storesRows hjson hplan rfl
    exact ⟨result, rfl, ((hanswers (fun _ => 0) _ _ hpresents).1 result hresult).2⟩

end TinyJoin
