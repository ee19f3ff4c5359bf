import TinyJoin.GroupedRows
import Mathlib.Algebra.Order.BigOperators.Group.List

/-! What a visit has come to behind each of its candidates: the groups of the rows accepted so far, and a
budget that is charged what they take. It fails for its limits only. -/
namespace TinyJoin
open Grouping

/-- The failures of a query that is past a limit of its size. -/
def sizeLimitErrors : List EngineError :=
  [scanLimitError, groupLimitError, cellLimitError, workLimitError, resultLimitError]

/-- What a group is charged. -/
def Group.charge (group : Group) : Nat := 256 + group.key.length * 2 + group.state.estimatedBytes

/-- What a group holds of its members: their state, under the key of its values. -/
def Group.Holds (schema : TableDefinition) (read : List Nat) (plan : AggregatePlan) (members : List Row)
    (group : Group) : Prop :=
  group.state.Holds schema read plan.items members ∧
    group.key = groupKeyBytes (group.values.map GroupValue.part)

/-- A valid plan whose columns a query has resolved. -/
structure Prepared (schema : TableDefinition) (plan : AggregatePlan) (read : List Nat)
    (columns : List SourceColumn) : Prop where
  shape : SchemaShape schema
  valid : plan.Valid schema
  columns : GroupColumns schema read plan.groupBy columns
  reads : ∀ item ∈ plan.items, ∀ name ∈ item.expression.readColumns, Reads schema read name

/-- What a visit presents of a row: it reads as the row, and is accepted where the row is. -/
def Candidate.Reads (json : SerdeJson) (schema : TableDefinition) (read : List Nat)
    (accepts : Row → Bool) (candidate : Candidate) (row : Row) : Prop :=
  candidate.row.ReadsAs json schema read row ∧ candidate.accepted = accepts row

namespace Aggregating

/-- What the states that a visit has come to are charged. -/
def charges (s : Aggregating) : Nat :=
  match s.global with
  | some state => state.estimatedBytes
  | none => (s.groups.entries.map Group.charge).sum

/-- What a visit has come to behind candidates of which it accepted some rows. -/
structure Holds (hash : List GroupValue → UInt64) (schema : TableDefinition) (read : List Nat)
    (plan : AggregatePlan) (rows : List Row) (s : Aggregating) : Prop where
  scanned : rows.length ≤ s.scanned
  within : s.scanned ≤ maxScanRows
  plain : ∀ row ∈ rows, PlainRow schema row
  charged : s.workingBytes = s.charges
  whole : plan.groupBy = [] → ∃ state, s.global = some state ∧
    state.Holds schema read plan.items rows
  grouped : plan.groupBy ≠ [] → s.global = none ∧ s.groups.Indexed hash ∧
    Grouped (rowKey plan) Group.values (Group.Holds schema read plan) rows s.groups.entries

section Runs
variable {json : SerdeJson} {hash : List GroupValue → UInt64} {schema : TableDefinition}
  {read : List Nat} {plan : AggregatePlan} {columns : List SourceColumn} {s : Aggregating}
  {visited : VisitedRow} {row : Row} {rows : List Row}

/-- A query that groups by nothing returns no column as such. -/
lemma column_grouped (h : Prepared schema plan read columns) {item : SelectItem} (hitem : item ∈ plan.items)
    {name : String} (hname : item.expression = .column name) : name ∈ plan.groupBy := by
  have hvalid := h.valid.items item hitem
  rw [hname] at hvalid
  exact hvalid

lemma shows_of_whole (h : Prepared schema plan read columns) (hwhole : plan.groupBy = [])
    (state : GroupState) : state.Shows plan.items row := by
  intro item hitem name hname
  have hmem := column_grouped h hitem hname
  rw [hwhole] at hmem
  cases hmem

/-- Rows of one key have the same values of the columns that they are grouped by. -/
lemma plain_eq_of_rowKey (h : Prepared schema plan read columns) {other : Row}
    (hrow : PlainRow schema row) (hother : PlainRow schema other)
    (hkey : rowKey plan row = rowKey plan other) {name : String} (hname : name ∈ plan.groupBy) :
    row.plain name = other.plain name := by
  obtain ⟨column, hcolumn, rfl, htype⟩ := h.valid.grouped name hname
  exact GroupValue.ofValue_inj (hrow column hcolumn) (hother column hcolumn) htype
    (List.map_inj_left.mp hkey column.name hname)

lemma shows_of_member (h : Prepared schema plan read columns) {state : GroupState} {members : List Row}
    {other : Row} (hholds : state.Holds schema read plan.items members) (hmember : other ∈ members)
    (hrow : PlainRow schema row) (hother : PlainRow schema other)
    (hkey : rowKey plan row = rowKey plan other) : state.Shows plan.items row := by
  intro item hitem name hname
  obtain ⟨value, hvalue, hplain⟩ := hholds.grouped other hmember item hitem name hname
  exact ⟨value, hvalue, hplain.trans
    (plain_eq_of_rowKey h hrow hother hkey (column_grouped h hitem hname)).symm⟩

theorem start_holds (h : Prepared schema plan read columns) :
    start json schema plan = .error workLimitError ∨
    ∃ s, start json schema plan = .ok s ∧ s.Holds hash schema read plan [] := by
  unfold start
  by_cases hwhole : plan.groupBy = []
  · have hempty : plan.groupBy.isEmpty = true := List.isEmpty_iff.mpr hwhole
    obtain ⟨state, hnew, hholds, -⟩ : ∃ state, GroupState.new json schema plan none = .ok state ∧
        state.Holds schema read plan.items [] ∧
        ∀ row : Row, none = some row → state.Shows plan.items row :=
      GroupState.new_holds h.shape h.valid h.reads .none (fun item hitem name hname => by
        have hmem := column_grouped h hitem hname
        rw [hwhole] at hmem
        cases hmem)
    simp only [if_pos hempty, hnew, ensureWorkBudget, bind, Except.bind, pure, Except.pure]
    by_cases hbudget : state.estimatedBytes > maxAggregateWorkBytes
    · left
      rw [if_pos hbudget]
    · right
      rw [if_neg hbudget]
      exact ⟨_, rfl, le_rfl, Nat.zero_le _, fun _ hrow => absurd hrow List.not_mem_nil, rfl,
        fun _ => ⟨state, rfl, hholds⟩, fun hne => absurd hwhole hne⟩
  · right
    rw [if_neg (fun hempty => hwhole (List.isEmpty_iff.mp hempty))]
    refine ⟨_, rfl, le_rfl, Nat.zero_le _, fun _ hrow => absurd hrow List.not_mem_nil, rfl,
      fun heq => absurd heq hwhole, fun _ => ⟨rfl, ?_, grouped_nil⟩⟩
    intro _ _
    constructor
    · intro hmem
      cases hmem
    · rintro ⟨_, hat, _⟩
      cases hat

/-! ### Rows -/

lemma groupKeyInputBytes_eq (hreads : visited.ReadsAs json schema read row) {names : List String}
    (hcolumns : GroupColumns schema read names columns) (bytes : Nat) :
    ∃ bytes', groupKeyInputBytes json schema visited bytes columns = .ok bytes' := by
  induction hcolumns generalizing bytes with
  | nil => exact ⟨bytes, rfl⟩
  | cons h _ ih =>
    obtain ⟨ref, hget, -⟩ := hreads.get h.2.1
    simp only [groupKeyInputBytes, hget, AggregateAccumulator.incomingBytes_eq, bind, Except.bind]
    exact ih _

/-- What is charged for the groups in all changes as the charge of one does. -/
lemma sum_charge_set {entries : List Group} {position : Nat} {group : Group}
    (hat : entries[position]? = some group) (group' : Group) :
    ((entries.set position group').map Group.charge).sum + group.charge =
      (entries.map Group.charge).sum + group'.charge := by
  induction entries generalizing position with
  | nil => cases hat
  | cons first rest ih =>
    cases position with
    | zero =>
      obtain rfl := Option.some.inj hat
      simp only [List.set_cons_zero, List.map_cons, List.sum_cons]
      omega
    | succ position =>
      have hrest := ih hat
      simp only [List.set_cons_succ, List.map_cons, List.sum_cons]
      omega

lemma charge_le_sum {entries : List Group} {position : Nat} {group : Group}
    (hat : entries[position]? = some group) : group.charge ≤ (entries.map Group.charge).sum :=
  List.single_le_sum (fun _ _ => Nat.zero_le _) _ (List.mem_map_of_mem (List.mem_of_getElem? hat))

/-- The first row of a group founds it, unless there would be too many or they would take too much. -/
lemma addGroup_spec (h : Prepared schema plan read columns) (hgroupBy : plan.groupBy ≠ [])
    (hholds : s.Holds hash schema read plan rows) (hreads : visited.ReadsAs json schema read row)
    (hlength : rows.length < s.scanned) (hnew : rowKey plan row ∉ s.groups.entries.map Group.values) :
    (∃ error ∈ sizeLimitErrors, s.addGroup json hash schema plan columns visited = .error error) ∨
    ∃ s', s.addGroup json hash schema plan columns visited = .ok s' ∧
      s'.Holds hash schema read plan (rows ++ [row]) := by
  unfold addGroup
  dsimp only
  by_cases hgroups : s.groups.entries.length ≥ maxGroups
  · left
    rw [if_pos hgroups]
    exact ⟨groupLimitError, by simp [sizeLimitErrors], rfl⟩
  rw [if_neg hgroups]
  by_cases hcells : (s.groups.entries.length + 1) *
      plan.items.countP (fun item => item.expression.isAggregate) > maxAggregateCells
  · left
    rw [if_pos hcells]
    exact ⟨cellLimitError, by simp [sizeLimitErrors], rfl⟩
  rw [if_neg hcells]
  obtain ⟨bytes, hbytes⟩ := groupKeyInputBytes_eq hreads h.columns 32
  obtain ⟨state, hstate, hempty, hshows⟩ : ∃ state,
      GroupState.new json schema plan (some visited) = .ok state ∧
      state.Holds schema read plan.items [] ∧
      ∀ other : Row, some row = some other → state.Shows plan.items other :=
    GroupState.new_holds h.shape h.valid h.reads (.some hreads) (fun _ _ _ _ => rfl)
  obtain ⟨state', hupdate, hstate', hafter, -⟩ := hempty.update (hshows row rfl) hreads
    (fun _ hrow => (nomatch hrow)) (by decide)
  have hkey : groupKey json schema columns visited =
      .ok (groupKeyBytes ((rowKey plan row).map GroupValue.part)) := by
    simp only [groupKey, mapM_readKeyPart h.columns hreads, bind, Except.bind, pure, Except.pure,
      rowKey, List.map_map]
    rfl
  have hvalues : columns.mapM (readGroupValue json schema visited) = .ok (rowKey plan row) :=
    mapM_readGroupValue h.columns hreads
  simp only [ensureGroupKeyInputBudget, hbytes, hkey, hstate, hafter, hupdate, Groups.insert, groupHash,
    hvalues, ensureWorkBudget, bind, Except.bind, pure, Except.pure]
  by_cases hinput : bytes > maxAggregateWorkBytes
  · left
    rw [if_pos hinput]
    exact ⟨workLimitError, by simp [sizeLimitErrors], rfl⟩
  rw [if_neg hinput]
  set group : Group := ⟨rowKey plan row, groupKeyBytes ((rowKey plan row).map GroupValue.part), state'⟩
    with hgroup
  have hcharge : 256 + (groupKeyBytes ((rowKey plan row).map GroupValue.part)).length * 2 +
      state'.estimatedBytes = group.charge := rfl
  simp only [hcharge]
  by_cases hbudget : s.workingBytes + group.charge > maxAggregateWorkBytes
  · left
    rw [if_pos hbudget]
    exact ⟨workLimitError, by simp [sizeLimitErrors], rfl⟩
  rw [if_neg hbudget]
  right
  obtain ⟨hglobal, hindexed, hgrouped⟩ := hholds.grouped hgroupBy
  refine ⟨_, rfl, ?_, hholds.within, ?_, ?_, fun heq => absurd heq hgroupBy, fun _ => ⟨hglobal, ?_, ?_⟩⟩
  · rw [List.length_append]
    exact hlength
  · intro other hother
    rcases List.mem_append.mp hother with hother | hother
    · exact hholds.plain other hother
    · rw [List.mem_singleton.mp hother]
      exact hreads.plain
  · have hcharged := hholds.charged
    simp only [charges, hglobal] at hcharged ⊢
    rw [hcharged, List.map_append, List.sum_append, List.map_singleton, List.sum_singleton]
  · exact hindexed.insert
  · exact hgrouped.found hnew rfl ⟨hstate', rfl⟩

/-- A row joins its group, or founds it. -/
theorem add_spec (h : Prepared schema plan read columns) (hholds : s.Holds hash schema read plan rows)
    (hreads : visited.ReadsAs json schema read row) (hlength : rows.length < s.scanned) :
    (∃ error ∈ sizeLimitErrors, s.add json hash schema plan columns visited = .error error) ∨
    ∃ s', s.add json hash schema plan columns visited = .ok s' ∧
      s'.Holds hash schema read plan (rows ++ [row]) := by
  have hscan : rows.length < maxScanRows := hlength.trans_le hholds.within
  have hlength' : (rows ++ [row]).length ≤ s.scanned := by
    rw [List.length_append]
    exact hlength
  have hplain : ∀ other ∈ rows ++ [row], PlainRow schema other := by
    intro other hother
    rcases List.mem_append.mp hother with hother | hother
    · exact hholds.plain other hother
    · rw [List.mem_singleton.mp hother]
      exact hreads.plain
  have hcharged := hholds.charged
  by_cases hwhole : plan.groupBy = []
  · obtain ⟨state, hglobal, hstate⟩ := hholds.whole hwhole
    simp only [charges, hglobal] at hcharged
    simp only [add, hglobal]
    rcases hstate.updateWithin (shows_of_whole h hwhole state) hreads hholds.plain hscan hcharged.ge with
      hlimit | ⟨state', hupdate, hstate'⟩
    · left
      rw [hlimit]
      exact ⟨workLimitError, by simp [sizeLimitErrors], rfl⟩
    · right
      rw [hupdate]
      refine ⟨_, rfl, hlength', hholds.within, hplain, ?_, fun _ => ⟨state', rfl, hstate'⟩,
        fun hne => absurd hwhole hne⟩
      simp only [charges]
      omega
  · obtain ⟨hglobal, hindexed, hgrouped⟩ := hholds.grouped hwhole
    simp only [charges, hglobal] at hcharged
    have hvalues : ∀ group ∈ s.groups.entries, group.values.length = plan.groupBy.length := by
      intro group hgroup
      obtain ⟨other, -, hother⟩ := List.mem_map.mp
        ((hgrouped.labels group.values).mp (List.mem_map_of_mem hgroup))
      rw [← hother, rowKey, List.length_map]
    simp only [add, hglobal]
    rcases Groups.find_spec hindexed h.columns hreads hvalues with ⟨position, group, hfind, hat, hkey⟩ |
      ⟨hfind, hnew⟩
    · rw [hfind]
      have hmem := List.mem_of_getElem? hat
      obtain ⟨hstate, hgroupKey⟩ := hgrouped.holds group hmem
      have hshows : group.state.Shows plan.items row := by
        obtain ⟨other, hother, hsame⟩ := List.mem_map.mp
          ((hgrouped.labels group.values).mp (List.mem_map_of_mem hmem))
        exact shows_of_member h hstate (mem_members.mpr ⟨hother, hsame⟩) hreads.plain
          (hholds.plain other hother) (hkey.symm.trans hsame.symm)
      have hmembers : (members (rowKey plan) rows group.values).length ≤ rows.length :=
        List.length_filter_le _ _
      have hle := charge_le_sum hat
      have hcharge : group.charge = 256 + group.key.length * 2 + group.state.estimatedBytes := rfl
      have htotal : group.state.estimatedBytes ≤ s.workingBytes := by omega
      rcases hstate.updateWithin hshows hreads
        (fun other hother => hholds.plain other (mem_members.mp hother).1)
        (hmembers.trans_lt hscan) htotal with hlimit | ⟨state', hupdate, hstate'⟩
      · left
        simp only [hlimit, bind, Except.bind]
        exact ⟨workLimitError, by simp [sizeLimitErrors], rfl⟩
      · right
        simp only [hupdate, bind, Except.bind, pure, Except.pure]
        refine ⟨_, rfl, hlength', hholds.within, hplain, ?_, fun heq => absurd heq hwhole,
          fun _ => ⟨rfl, hindexed.set hat rfl, hgrouped.join hat hkey rfl ?_⟩⟩
        · have hset := sum_charge_set hat { group with state := state' }
          have hcharge' : Group.charge { group with state := state' } =
            256 + group.key.length * 2 + state'.estimatedBytes := rfl
          simp only [charges, Groups.set]
          omega
        · exact fun _ => ⟨hstate', hgroupKey⟩
    · simp only [hfind, bind, Except.bind]
      exact addGroup_spec h hwhole hholds hreads hlength hnew

/-! ### Runs -/

theorem visit_spec (h : Prepared schema plan read columns) (hholds : s.Holds hash schema read plan rows)
    {accepts : Row → Bool} {candidate : Candidate} (hreads : candidate.Reads json schema read accepts row) :
    (∃ error ∈ sizeLimitErrors, s.visit json hash schema plan columns candidate = .error error) ∨
    ∃ s', s.visit json hash schema plan columns candidate = .ok s' ∧
      s'.Holds hash schema read plan (rows ++ [row].filter accepts) := by
  simp only [visit, scan]
  by_cases hscan : s.scanned + 1 > maxScanRows
  · left
    rw [if_pos hscan]
    exact ⟨scanLimitError, by simp [sizeLimitErrors], rfl⟩
  rw [if_neg hscan]
  have hscanned : Holds hash schema read plan rows { s with scanned := s.scanned + 1 } :=
    ⟨hholds.scanned.trans (Nat.le_succ _), Nat.not_lt.mp hscan, hholds.plain, hholds.charged, hholds.whole,
      hholds.grouped⟩
  simp only [bind, Except.bind, hreads.2]
  cases haccepts : accepts row with
  | true =>
    rw [if_pos rfl, List.filter_cons_of_pos haccepts, List.filter_nil]
    exact add_spec h hscanned hreads.1 (Nat.lt_succ_of_le hholds.scanned)
  | false =>
    right
    rw [if_neg Bool.false_ne_true, List.filter_cons_of_neg (by simp [haccepts]), List.filter_nil,
      List.append_nil]
    exact ⟨_, rfl, hscanned⟩

/-- A run fails for the limits of its size, or holds the rows that it accepted. -/
theorem run_spec (h : Prepared schema plan read columns) (hholds : s.Holds hash schema read plan rows)
    {accepts : Row → Bool} {candidates : List Candidate} {presented : List Row}
    (hreads : List.Forall₂ (fun candidate row => Candidate.Reads json schema read accepts candidate row)
      candidates presented) :
    (∃ error ∈ sizeLimitErrors,
      candidates.foldlM (visit json hash schema plan columns) s = .error error) ∨
    ∃ s', candidates.foldlM (visit json hash schema plan columns) s = .ok s' ∧
      s'.Holds hash schema read plan (rows ++ presented.filter accepts) := by
  induction hreads generalizing s rows with
  | nil =>
    right
    rw [List.filter_nil, List.append_nil]
    exact ⟨s, rfl, hholds⟩
  | cons hread _ ih =>
    next candidate row candidates presented _ =>
    rw [List.foldlM_cons]
    rcases visit_spec h hholds hread with ⟨error, hlimit, hvisit⟩ | ⟨s', hvisit, hholds'⟩
    · left
      rw [hvisit]
      exact ⟨error, hlimit, rfl⟩
    · have hfilter : (row :: presented).filter accepts = [row].filter accepts ++ presented.filter accepts := by
        rw [← List.filter_append, List.singleton_append]
      rw [hvisit, hfilter, ← List.append_assoc]
      exact ih hholds'

/-! ### The groups in order -/

lemma rowKey_eq_iff (h : Prepared schema plan read columns) {other : Row} (hrow : PlainRow schema row)
    (hother : PlainRow schema other) : rowKey plan row = rowKey plan other ↔ SameGroup plan row other := by
  constructor
  · exact fun hkey name hname => plain_eq_of_rowKey h hrow hother hkey hname
  · intro hsame
    refine List.map_inj_left.mpr (fun name hname => ?_)
    rw [hsame name hname]

lemma groupKeyBytes_injective : Function.Injective groupKeyBytes := by
  intro parts parts' h
  have hbytes := congrArg fromUtf8 h
  rw [groupKeyBytes, groupKeyBytes, fromUtf8_textBytes, fromUtf8_textBytes, Option.some.injEq] at hbytes
  exact encodeGroupKey_injective (String.ofList_injective hbytes)

/-- The states come in the strict order of their groups' keys. -/
lemma sorted_spec {groups : Groups} (hholds : Grouped (rowKey plan) Group.values
    (Group.Holds schema read plan) rows groups.entries) :
    ∃ sorted : List Group, groups.intoStates = sorted.map Group.state ∧ sorted.Perm groups.entries ∧
      sorted.Pairwise (fun group other => group.key < other.key) := by
  have hkey (position : Nat) (group : Group) (hat : groups.entries[position]? = some group) :
      groups.keyAt position = groupKeyBytes (group.values.map GroupValue.part) := by
    rw [Groups.keyAt, hat, Option.map_some, Option.getD_some]
    exact (hholds.holds group (List.mem_of_getElem? hat)).2
  have hinj : ∀ a ∈ List.range groups.entries.length, ∀ b ∈ List.range groups.entries.length,
      groups.keyAt a = groups.keyAt b → a = b := by
    intro a ha b hb hsame
    have hat := List.getElem?_eq_getElem (List.mem_range.mp ha)
    have hbt := List.getElem?_eq_getElem (List.mem_range.mp hb)
    rw [hkey a _ hat, hkey b _ hbt] at hsame
    have hvalues := GroupValue.part_injective.list_map (groupKeyBytes_injective hsame)
    apply (List.getElem?_inj (by rw [List.length_map]; exact List.mem_range.mp ha) hholds.nodup).mp
    rw [List.getElem?_map, List.getElem?_map, hat, hbt, Option.map_some, Option.map_some, hvalues]
  refine ⟨(LazyOrder.sortKeyed groups.keyAt (List.range groups.entries.length)).filterMap
    (fun position => groups.entries[position]?), ?_,
    LazyOrder.filterMap_getElem?_perm (LazyOrder.sortKeyed_perm _ _), ?_⟩
  · rw [List.map_filterMap]
    rfl
  · rw [List.pairwise_filterMap]
    refine (LazyOrder.sortKeyed_pairwise List.nodup_range hinj).imp ?_
    intro a b hlt group hat other hbt
    have hkeys : group.key = groups.keyAt a ∧ other.key = groups.keyAt b := by
      rw [Groups.keyAt, Groups.keyAt, hat, hbt]
      exact ⟨rfl, rfl⟩
    rw [hkeys.1, hkeys.2]
    exact hlt

/-- The states that a visit ends with are those of the groups of the accepted rows, in order. -/
theorem states_spec (h : Prepared schema plan read columns)
    (hholds : s.Holds hash schema read plan rows) :
    ∃ groups, GroupsOf plan rows groups ∧ List.Forall₂ (fun group (state : GroupState) =>
      state.Holds schema read plan.items group ∧ (plan.groupBy ≠ [] → group ≠ [])) groups s.states := by
  by_cases hwhole : plan.groupBy = []
  · obtain ⟨state, hglobal, hstate⟩ := hholds.whole hwhole
    refine ⟨[rows], ⟨fun _ => rfl, fun hne => absurd hwhole hne, ?_, List.pairwise_singleton _ _⟩, ?_⟩
    · exact fun row hrow => ⟨rows, List.mem_singleton_self rows, hrow⟩
    · rw [states, hglobal]
      exact .cons ⟨hstate, fun hne => absurd hwhole hne⟩ .nil
  · obtain ⟨hglobal, -, hgrouped⟩ := hholds.grouped hwhole
    obtain ⟨sorted, hstates, hperm, hpairwise⟩ := sorted_spec hgrouped
    have hsorted := hgrouped.perm hperm
    have hvalues (group : Group) (hgroup : group ∈ sorted) (row : Row)
        (hrow : row ∈ members (rowKey plan) rows group.values) : groupRank plan row = group.key := by
      rw [groupRank_eq, (mem_members.mp hrow).2]
      exact (hsorted.holds group hgroup).2.symm
    refine ⟨sorted.map (fun group => members (rowKey plan) rows group.values),
      ⟨fun heq => absurd heq hwhole, fun _ group hgroup => ?_, fun row hrow => ?_, ?_⟩, ?_⟩
    · obtain ⟨found, hfound, rfl⟩ := List.mem_map.mp hgroup
      obtain ⟨row, hrow, hkey⟩ := List.mem_map.mp
        ((hsorted.labels found.values).mp (List.mem_map_of_mem hfound))
      refine ⟨row, hrow, List.filter_congr (fun other hother => ?_)⟩
      rw [decide_eq_decide, ← hkey, ← rowKey_eq_iff h (hholds.plain row hrow) (hholds.plain other hother),
        eq_comm]
    · obtain ⟨group, hgroup, hkey⟩ := List.mem_map.mp
        ((hsorted.labels (rowKey plan row)).mpr (List.mem_map_of_mem hrow))
      exact ⟨_, List.mem_map_of_mem hgroup, mem_members.mpr ⟨hrow, hkey.symm⟩⟩
    · rw [List.pairwise_map]
      refine hpairwise.imp_of_mem ?_
      intro group other hgroup hother hlt row hrow row' hrow'
      rw [hvalues group hgroup row hrow, hvalues other hother row' hrow']
      exact hlt
    · rw [states, hglobal, hstates, List.forall₂_map_left_iff, List.forall₂_map_right_iff,
        List.forall₂_same]
      intro group hgroup
      refine ⟨(hsorted.holds group hgroup).1, fun _ hnil => ?_⟩
      obtain ⟨row, hrow, hkey⟩ := List.mem_map.mp
        ((hsorted.labels group.values).mp (List.mem_map_of_mem hgroup))
      have hmem := mem_members.mpr ⟨hrow, hkey⟩
      rw [hnil] at hmem
      cases hmem

end Runs
end Aggregating
end TinyJoin
