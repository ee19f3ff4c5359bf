import TinyJoin.GroupStates

/-! The groups of the rows that a query has visited: each row is found the group of its values, or founds
it, and the query's budget is charged what its groups take. -/
namespace TinyJoin
open Grouping

/-- The values that a row is grouped by. -/
def rowKey (plan : AggregatePlan) (row : Row) : List GroupValue :=
  plan.groupBy.map (fun name => GroupValue.ofValue (row.plain name))

/-- The source columns of some names, none of them of JSON. -/
def GroupColumns (schema : TableDefinition) (read : List Nat) (names : List String)
    (columns : List SourceColumn) : Prop :=
  List.Forall₂ (fun name (source : SourceColumn) => source.name = name ∧ source.Resolves schema read ∧
    source.dataType ≠ .json) names columns

lemma groupRank_eq (plan : AggregatePlan) (row : Row) :
    groupRank plan row = groupKeyBytes ((rowKey plan row).map GroupValue.part) := by
  rw [groupRank, rowKey, List.map_map]
  rfl

section Reading
variable {json : SerdeJson} {hash : List GroupValue → UInt64} {schema : TableDefinition}
  {read : List Nat} {plan : AggregatePlan} {columns : List SourceColumn} {names : List String}
  {visited : VisitedRow} {row : Row}

lemma readGroupValue_eq {source : SourceColumn} (hreads : visited.ReadsAs json schema read row)
    (hsource : source.Resolves schema read) (htype : source.dataType ≠ .json) :
    readGroupValue json schema visited source = .ok (GroupValue.ofValue (row.plain source.name)) := by
  obtain ⟨ref, hget, hshows⟩ := hreads.get hsource
  simp only [readGroupValue, hget, bind, Except.bind,
    hshows.groupValue (hsource.plain hreads.plain) htype]

lemma readKeyPart_eq {source : SourceColumn} (hreads : visited.ReadsAs json schema read row)
    (hsource : source.Resolves schema read) (htype : source.dataType ≠ .json) :
    readKeyPart json schema visited source =
      .ok (GroupValue.ofValue (row.plain source.name)).part := by
  obtain ⟨ref, hget, hshows⟩ := hreads.get hsource
  simp only [readKeyPart, hget, bind, Except.bind, groupKeyPartOf_eq,
    hshows.groupValue (hsource.plain hreads.plain) htype, Except.map]

lemma mapM_readGroupValue (hcolumns : GroupColumns schema read names columns)
    (hreads : visited.ReadsAs json schema read row) :
    columns.mapM (readGroupValue json schema visited) =
      .ok (names.map (fun name => GroupValue.ofValue (row.plain name))) := by
  rw [Except.mapM_eq_ok, List.forall₂_map_right_iff]
  refine hcolumns.flip.imp (fun source name h => ?_)
  rw [readGroupValue_eq hreads h.2.1 h.2.2, h.1]

lemma mapM_readKeyPart (hcolumns : GroupColumns schema read names columns)
    (hreads : visited.ReadsAs json schema read row) :
    columns.mapM (readKeyPart json schema visited) =
      .ok (names.map (fun name => (GroupValue.ofValue (row.plain name)).part)) := by
  rw [Except.mapM_eq_ok, List.forall₂_map_right_iff]
  refine hcolumns.flip.imp (fun source name h => ?_)
  rw [readKeyPart_eq hreads h.2.1 h.2.2, h.1]

/-- A group's values are compared with all of a row's. -/
lemma hasValues_eq {values : List GroupValue} (hcolumns : GroupColumns schema read names columns)
    (hreads : visited.ReadsAs json schema read row) (hlength : values.length = names.length) :
    hasValues json schema visited (columns.zip values) =
      .ok (decide (names.map (fun name => GroupValue.ofValue (row.plain name)) = values)) := by
  induction hcolumns generalizing values with
  | nil =>
    obtain rfl := List.length_eq_zero_iff.mp hlength
    rfl
  | cons h _ ih =>
    next name source names columns _ =>
    cases values with
    | nil => cases hlength
    | cons value values =>
      have hread := readGroupValue_eq hreads h.2.1 h.2.2
      rw [h.1] at hread
      rw [List.zip_cons_cons, hasValues, hread]
      simp only [bind, Except.bind, List.map_cons, List.cons.injEq]
      by_cases hsame : GroupValue.ofValue (row.plain name) = value
      · rw [if_pos hsame, ih (Nat.succ.inj hlength)]
        simp only [hsame, true_and]
      · rw [if_neg hsame]
        simp only [hsame, false_and, decide_false]
        rfl

/-! ### Finding groups -/

namespace Groups
variable {groups : Groups}

/-- Each group is indexed by the hash of its values, and no other. -/
def Indexed (hash : List GroupValue → UInt64) (groups : Groups) : Prop :=
  ∀ hashed position, position ∈ groups.index hashed ↔
    ∃ group, groups.entries[position]? = some group ∧ hash group.values = hashed

lemma search_spec (hcolumns : GroupColumns schema read plan.groupBy columns)
    (hreads : visited.ReadsAs json schema read row) {positions : List Nat}
    (hvalues : ∀ position ∈ positions, ∃ group, groups.entries[position]? = some group ∧
      group.values.length = plan.groupBy.length) :
    (∃ position ∈ positions, ∃ group, groups.search json schema columns visited positions =
        .ok (some (position, group)) ∧
      groups.entries[position]? = some group ∧ group.values = rowKey plan row) ∨
    (groups.search json schema columns visited positions = .ok none ∧
      ∀ position ∈ positions, ∀ group, groups.entries[position]? = some group →
        group.values ≠ rowKey plan row) := by
  induction positions with
  | nil => exact .inr ⟨rfl, fun _ hposition => (nomatch hposition)⟩
  | cons position positions ih =>
    obtain ⟨⟨group, hgroup, hlength⟩, hvalues⟩ := List.forall_mem_cons.mp hvalues
    have hcompare : hasValues json schema visited (columns.zip group.values) =
        .ok (decide (rowKey plan row = group.values)) := hasValues_eq hcolumns hreads hlength
    simp only [search, hgroup, hcompare, bind, Except.bind]
    by_cases hsame : rowKey plan row = group.values
    · left
      refine ⟨position, List.mem_cons_self, group, ?_, hgroup, hsame.symm⟩
      rw [if_pos (decide_eq_true hsame)]
      rfl
    · rw [if_neg (by simpa using hsame)]
      rcases ih hvalues with ⟨other, hother, found, hsearch, hat, hfound⟩ | ⟨hsearch, hnone⟩
      · exact .inl ⟨other, List.mem_cons_of_mem _ hother, found, hsearch, hat, hfound⟩
      · refine .inr ⟨hsearch, fun other hother found hfound => ?_⟩
        rcases List.mem_cons.mp hother with rfl | hother
        · rw [hgroup] at hfound
          cases hfound
          exact fun heq => hsame heq.symm
        · exact hnone other hother found hfound

/-- A row is found the group of its values, wherever it stands. -/
theorem find_spec (hindexed : groups.Indexed hash)
    (hcolumns : GroupColumns schema read plan.groupBy columns)
    (hreads : visited.ReadsAs json schema read row)
    (hvalues : ∀ group ∈ groups.entries, group.values.length = plan.groupBy.length) :
    (∃ position group, groups.find json hash schema columns visited = .ok (some (position, group)) ∧
      groups.entries[position]? = some group ∧ group.values = rowKey plan row) ∨
    (groups.find json hash schema columns visited = .ok none ∧
      rowKey plan row ∉ groups.entries.map Group.values) := by
  have hhash : groupHash json hash schema columns visited = .ok (hash (rowKey plan row)) := by
    simp only [groupHash, mapM_readGroupValue hcolumns hreads, bind, Except.bind, pure, Except.pure]
    rfl
  have hpositions : ∀ position ∈ groups.index (hash (rowKey plan row)), ∃ group,
      groups.entries[position]? = some group ∧ group.values.length = plan.groupBy.length := by
    intro position hposition
    obtain ⟨group, hgroup, -⟩ := (hindexed _ _).mp hposition
    exact ⟨group, hgroup, hvalues group (List.mem_of_getElem? hgroup)⟩
  simp only [find, hhash, bind, Except.bind]
  rcases search_spec hcolumns hreads hpositions with ⟨position, -, group, hsearch, hat, hsame⟩ |
    ⟨hsearch, hnone⟩
  · exact .inl ⟨position, group, hsearch, hat, hsame⟩
  · refine .inr ⟨hsearch, fun hmem => ?_⟩
    obtain ⟨group, hgroup, hsame⟩ := List.mem_map.mp hmem
    obtain ⟨position, hat⟩ := List.mem_iff_getElem?.mp hgroup
    exact hnone position ((hindexed _ _).mpr ⟨group, hat, by rw [hsame]⟩) group hat hsame

lemma Indexed.set {position : Nat} {group group' : Group} (h : groups.Indexed hash)
    (hat : groups.entries[position]? = some group) (hsame : group'.values = group.values) :
    (groups.set position group').Indexed hash := by
  obtain ⟨hlt, -⟩ := List.getElem?_eq_some_iff.mp hat
  intro hashed other
  rw [Groups.set, h hashed other]
  simp only [List.getElem?_set]
  by_cases hother : position = other
  · subst hother
    simp only [hat, if_pos hlt, if_true, Option.some.injEq, exists_eq_left', hsame]
  · simp only [if_neg hother]

lemma Indexed.insert {group : Group} (h : groups.Indexed hash) :
    Indexed hash ⟨groups.entries ++ [group], fun other =>
      if other = hash group.values then groups.index other ++ [groups.entries.length]
      else groups.index other⟩ := by
  have hlast (position : Nat) : (groups.entries ++ [group])[position]? =
      if position = groups.entries.length then some group else groups.entries[position]? := by
    by_cases hposition : position = groups.entries.length
    · rw [if_pos hposition, hposition, List.getElem?_concat_length]
    · rw [if_neg hposition, List.getElem?_append]
      split
      · rfl
      · rw [List.getElem?_eq_none (by simp; omega), List.getElem?_eq_none (by omega)]
  have hnone : groups.entries[groups.entries.length]? = none := List.getElem?_eq_none le_rfl
  intro hashed position
  simp only [hlast]
  by_cases hposition : position = groups.entries.length
  · subst hposition
    have hfree : groups.entries.length ∉ groups.index hashed := by
      rw [h hashed]
      rintro ⟨other, hother, -⟩
      rw [hnone] at hother
      cases hother
    simp only [if_true, Option.some.injEq, exists_eq_left']
    split_ifs with hsame
    · exact ⟨fun _ => hsame.symm, fun _ => List.mem_append_right _ (List.mem_singleton_self _)⟩
    · exact ⟨fun hmem => absurd hmem hfree, fun heq => absurd heq.symm hsame⟩
  · simp only [if_neg hposition, ← h hashed]
    split_ifs
    · simp only [List.mem_append, List.mem_singleton, hposition, or_false]
    · exact Iff.rfl

end Groups
end Reading
end TinyJoin
