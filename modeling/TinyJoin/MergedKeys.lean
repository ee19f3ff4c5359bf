import TinyJoin.ChangedKeys
import TinyJoin.Lib.Distinct

/-! What the merge of changed keys comes to, table by table: an entry is determined by what the merged
outcomes report of its table. -/
namespace TinyJoin
namespace Changes
open Distinct

section
variable {ν : Type}

/-! ## What outcomes report of a table -/

namespace Property

def listed : Property ν → List (KeyRow ν)
  | .rows keys => keys
  | _ => []

def isUndefined : Property ν → Bool
  | .undefined => true
  | _ => false

def isOther : Property ν → Bool
  | .other => true
  | _ => false

end Property

/-- What outcomes report of a table, in turn. -/
def reports (outcomes : List (ApplyOutcome ν)) (table : String) : List (Property ν) :=
  outcomes.flatMap fun outcome =>
    (outcome.tables.filter (fun name => decide (name = table))).map fun _ => outcome.keys.get table

/-- The keys that reports list, in turn. -/
def listed (reports : List (Property ν)) : List (KeyRow ν) := reports.flatMap Property.listed

variable [DecidableEq ν]

/-- There were as many keys as an entry may hold before the last of these. -/
def PastBound (rows : List (KeyRow ν)) : Prop :=
  maxChangedKeysPerTable ≤ (distinct rows.dropLast).length

/-- A table whose keys cannot be reported in full. -/
def GivenUp (reports : List (Property ν)) : Prop :=
  reports.any Property.isUndefined = true ∨ PastBound (listed reports)

instance (rows : List (KeyRow ν)) : Decidable (PastBound rows) := Nat.decLe _ _

instance (reports : List (Property ν)) : Decidable (GivenUp reports) :=
  inferInstanceAs (Decidable (_ ∨ _))

/-- What cannot be iterated comes only where the table was given up before. -/
def Readable (reports : List (Property ν)) : Prop :=
  ∀ i : Nat, (reports[i]?).any Property.isOther = true → GivenUp (reports.take i)

lemma PastBound.append {rows : List (KeyRow ν)} (h : PastBound rows) (more : List (KeyRow ν)) :
    PastBound (rows ++ more) := by
  induction more using List.reverseRecOn with
  | nil =>
    rw [List.append_nil]
    exact h
  | append_singleton more key ih =>
    rw [PastBound, ← List.append_assoc, List.dropLast_concat]
    refine Nat.le_trans ih ?_
    have hsplit := List.dropLast_append_getLast? (l := rows ++ more)
    cases hlast : (rows ++ more).getLast? with
    | none =>
      rw [List.getLast?_eq_none_iff.mp hlast]
      exact Nat.le_refl _
    | some last =>
      calc (distinct (rows ++ more).dropLast).length
          ≤ (distinct ((rows ++ more).dropLast ++ [last])).length := length_distinct_le_append _ _
        _ = (distinct (rows ++ more)).length := by rw [hsplit last hlast]

lemma pastBound_concat {rows : List (KeyRow ν)} {key : KeyRow ν} :
    PastBound (rows ++ [key]) ↔ maxChangedKeysPerTable ≤ (distinct rows).length := by
  rw [PastBound, List.dropLast_concat]

lemma GivenUp.append {before : List (Property ν)} (h : GivenUp before) (after : List (Property ν)) :
    GivenUp (before ++ after) := by
  rw [GivenUp, List.any_append, listed, List.flatMap_append]
  refine h.imp (fun hany => ?_) (fun hpast => hpast.append _)
  rw [hany, Bool.true_or]

lemma readable_nil : Readable ([] : List (Property ν)) := fun _ h => absurd h Bool.false_ne_true

lemma readable_concat {reports : List (Property ν)} {report : Property ν} :
    Readable (reports ++ [report]) ↔
      Readable reports ∧ (report.isOther = true → GivenUp reports) := by
  constructor
  · intro h
    constructor
    · intro i hi
      have hlt : i < reports.length := by
        by_contra hge
        rw [List.getElem?_eq_none (Nat.not_lt.mp hge)] at hi
        exact Bool.false_ne_true hi
      have hgiven := h i (by rw [List.getElem?_append_left hlt]; exact hi)
      rw [List.take_append_of_le_length (Nat.le_of_lt hlt)] at hgiven
      exact hgiven
    · intro hother
      have hgiven := h reports.length (by
        rw [List.getElem?_concat_length]
        exact hother)
      rw [List.take_left] at hgiven
      exact hgiven
  · rintro ⟨h, hlast⟩ i hi
    by_cases hlt : i < reports.length
    · rw [List.getElem?_append_left hlt] at hi
      rw [List.take_append_of_le_length (Nat.le_of_lt hlt)]
      exact h i hi
    · have hge := Nat.not_lt.mp hlt
      rw [List.getElem?_append_right hge] at hi
      cases hsub : i - reports.length with
      | zero =>
        rw [hsub] at hi
        rw [show i = reports.length by omega, List.take_left]
        exact hlast hi
      | succ n =>
        rw [hsub] at hi
        exact absurd hi Bool.false_ne_true

lemma Readable.left {before after : List (Property ν)} (h : Readable (before ++ after)) :
    Readable before := by
  induction after using List.reverseRecOn with
  | nil =>
    rw [List.append_nil] at h
    exact h
  | append_singleton after report ih =>
    rw [← List.append_assoc] at h
    exact ih (readable_concat.mp h).1

/-- Reports that can be read, of a table that is not given up, all list keys. -/
lemma Readable.rows_of_not_givenUp {reports : List (Property ν)} (h : Readable reports)
    (hnot : ¬GivenUp reports) {report : Property ν} (hreport : report ∈ reports) :
    ∃ rows, report = .rows rows := by
  cases report with
  | rows rows => exact ⟨rows, rfl⟩
  | undefined => exact absurd (.inl (List.any_eq_true.mpr ⟨_, hreport, rfl⟩)) hnot
  | other =>
    obtain ⟨i, hi, hat⟩ := List.getElem_of_mem hreport
    have hgiven := h i (by rw [List.getElem?_eq_getElem hi, hat]; rfl)
    have happended := hgiven.append (reports.drop i)
    rw [List.take_append_drop] at happended
    exact absurd happended hnot

end

/-! ## The entry that reports leave -/

section
variable {ν : Type} [DecidableEq ν] (numbers : NumberText ν)

def entryWith (rows : List (KeyRow ν)) : PendingEntry ν := ⟨rows, rows.map (stringify numbers)⟩

/-- The entry of a table after some reports of it. -/
def entryOf (reports : List (Property ν)) : Option (Option (PendingEntry ν)) :=
  if reports.isEmpty then none
  else if GivenUp reports then some none
  else some (some (entryWith numbers (distinct (listed reports))))

lemma entryOf_concat (reports : List (Property ν)) (report : Property ν) :
    entryOf numbers (reports ++ [report]) =
      if GivenUp (reports ++ [report]) then some none
      else some (some (entryWith numbers (distinct (listed (reports ++ [report]))))) := by
  have hne : (reports ++ [report]).isEmpty = false :=
    List.isEmpty_eq_false_iff.mpr (List.append_ne_nil_of_right_ne_nil _ (List.cons_ne_nil _ _))
  rw [entryOf, hne]
  rfl

/-- The entry that a merge goes on from, be it a new one. -/
lemma entryOf_getD (reports : List (Property ν)) :
    (entryOf numbers reports).getD (some ⟨[], []⟩) = if GivenUp reports then none
      else some (entryWith numbers (distinct (listed reports))) := by
  rw [entryOf]
  cases reports with
  | nil =>
    have hnot : ¬GivenUp ([] : List (Property ν)) := by
      rintro (h | h)
      · exact Bool.false_ne_true h
      · exact absurd h (Nat.not_succ_le_zero _)
    rw [if_neg hnot]
    rfl
  | cons report reports =>
    rw [List.isEmpty_cons, if_neg Bool.false_ne_true]
    split
    · rfl
    · rfl

variable {numbers}

omit [DecidableEq ν] in
lemma mem_seen {rows : List (KeyRow ν)} {key : KeyRow ν} :
    stringify numbers key ∈ (entryWith numbers rows).seen ↔ key ∈ rows :=
  List.mem_map_of_injective stringify_injective

lemma addKeys_entryWith (incoming : List (KeyRow ν)) {rows : List (KeyRow ν)} (h : ¬PastBound rows) :
    addKeys numbers (entryWith numbers (distinct rows)) incoming =
      if PastBound (rows ++ incoming) then none
      else some (entryWith numbers (distinct (rows ++ incoming))) := by
  induction incoming generalizing rows with
  | nil =>
    rw [List.append_nil, if_neg h]
    rfl
  | cons key incoming ih =>
    have hsplit : rows ++ key :: incoming = (rows ++ [key]) ++ incoming := by
      rw [List.append_assoc, List.singleton_append]
    have hrows : (entryWith numbers (distinct rows)).rows = distinct rows := rfl
    rw [addKeys, hsplit, hrows]
    by_cases hfull : maxChangedKeysPerTable ≤ (distinct rows).length
    · have hpast : PastBound (rows ++ [key]) := pastBound_concat.mpr hfull
      rw [if_pos hfull, if_pos (hpast.append incoming)]
    · rw [if_neg hfull, ← ih (fun hpast => hfull (pastBound_concat.mp hpast)), distinct_concat, add]
      by_cases hmem : key ∈ distinct rows
      · rw [if_pos (mem_seen.mpr hmem), if_pos hmem]
      · rw [if_neg (fun hseen => hmem (mem_seen.mp hseen)), if_neg hmem]
        simp only [entryWith, List.map_append, List.map_cons, List.map_nil]

omit [DecidableEq ν] in
lemma listed_concat (reports : List (Property ν)) (report : Property ν) :
    listed (reports ++ [report]) = listed reports ++ report.listed := by
  rw [listed, List.flatMap_append, List.flatMap_singleton, listed]

/-- A report of keys gives its table up where it goes past the bound. -/
lemma givenUp_concat_rows {reports : List (Property ν)} {rows : List (KeyRow ν)}
    (h : ¬GivenUp reports) :
    GivenUp (reports ++ [.rows rows]) ↔ PastBound (listed reports ++ rows) := by
  rw [GivenUp, List.any_append, listed_concat]
  refine ⟨fun hgiven => hgiven.resolve_left (fun hany => ?_), .inr⟩
  rw [Bool.or_eq_true] at hany
  exact hany.elim (fun hbefore => h (.inl hbefore)) Bool.false_ne_true

/-! ## The merge of one table -/

omit [DecidableEq ν] in
lemma ends_entryFor {pending : PendingChangedKeys ν} {table : String}
    {Q : Option (PendingEntry ν) → PendingChangedKeys ν → Prop}
    {E : TypeError → PendingChangedKeys ν → Prop}
    (h : ∀ pending' : PendingChangedKeys ν,
      pending'.get table = some ((pending.get table).getD (some ⟨[], []⟩)) →
      (∀ other ≠ table, pending'.get other = pending.get other) →
      Q ((pending.get table).getD (some ⟨[], []⟩)) pending') :
    (entryFor table).Ends pending Q E := by
  rw [Effect.Ends, entryFor]
  cases hget : pending.get table with
  | some entry =>
    rw [hget] at h
    exact h pending hget (fun _ _ => rfl)
  | none =>
    rw [hget] at h
    exact h _ (pending.get_set_self table _) (fun _ hother => pending.get_set_of_ne _ hother)

/-- Merging one table's report: it fails where the report cannot be read, and otherwise leaves what the
table's reports come to and every other table as it was. -/
lemma ends_mergeTable {pending : PendingChangedKeys ν} {before : List (Property ν)} {table : String}
    (keys : ChangedKeys ν) (hget : pending.get table = entryOf numbers before)
    (hreadable : Readable before) :
    (mergeTable numbers keys table).Ends pending
      (fun _ pending' => Readable (before ++ [keys.get table]) ∧
        pending'.get table = entryOf numbers (before ++ [keys.get table]) ∧
        ∀ other ≠ table, pending'.get other = pending.get other)
      (fun _ _ => ¬Readable (before ++ [keys.get table])) := by
  have hgotten := entryOf_getD numbers before
  rw [← hget] at hgotten
  rw [mergeTable]
  cases hreport : keys.get table with
  | undefined =>
    have hgiven : GivenUp (before ++ [.undefined]) := .inl (by
      rw [List.any_append]
      exact Bool.or_true _)
    refine ⟨readable_concat.mpr ⟨hreadable, fun h => (nomatch h)⟩, ?_,
      fun other hother => pending.get_set_of_ne _ hother⟩
    rw [entryOf_concat, if_pos hgiven]
    exact pending.get_set_self table none
  | rows incoming =>
    dsimp only
    rw [Effect.ends_bind]
    refine ends_entryFor (fun pending' hhas hothers => ?_)
    rw [hgotten] at hhas ⊢
    have hreads : Readable (before ++ [.rows incoming]) :=
      readable_concat.mpr ⟨hreadable, fun h => (nomatch h)⟩
    by_cases hgiven : GivenUp before
    · rw [if_pos hgiven] at hhas ⊢
      refine ⟨hreads, ?_, hothers⟩
      rw [hhas, entryOf_concat, if_pos (hgiven.append _)]
    · rw [if_neg hgiven]
      refine ⟨hreads, ?_, fun other hother => ?_⟩
      · rw [pending'.get_set_self, entryOf_concat, addKeys_entryWith incoming
          (fun hpast => hgiven (.inr hpast)), listed_concat]
        simp only [givenUp_concat_rows hgiven, Property.listed]
        split
        · rfl
        · rfl
      · rw [pending'.get_set_of_ne _ hother, hothers other hother]
  | other =>
    dsimp only
    rw [Effect.ends_bind]
    refine ends_entryFor (fun pending' hhas hothers => ?_)
    rw [hgotten] at hhas ⊢
    by_cases hgiven : GivenUp before
    · rw [if_pos hgiven] at hhas ⊢
      refine ⟨readable_concat.mpr ⟨hreadable, fun _ => hgiven⟩, ?_, hothers⟩
      rw [hhas, entryOf_concat, if_pos (hgiven.append _)]
    · rw [if_neg hgiven]
      exact fun hreads => hgiven ((readable_concat.mp hreads).2 rfl)

/-! ## The merge of outcomes -/

/-- The reports that a list of tables adds to one table's. -/
def more (keys : ChangedKeys ν) (tables : List String) (table : String) : List (Property ν) :=
  (tables.filter (fun name => decide (name = table))).map fun _ => keys.get table

omit [DecidableEq ν] in
lemma more_cons (keys : ChangedKeys ν) (name : String) (tables : List String) (table : String) :
    more keys (name :: tables) table =
      if table = name then keys.get table :: more keys tables table else more keys tables table := by
  rw [more, List.filter_cons]
  by_cases h : table = name
  · rw [if_pos h, if_pos (decide_eq_true h.symm), List.map_cons, more]
  · rw [if_neg h, if_neg (by rw [decide_eq_true_eq]; exact Ne.symm h), more]

omit [DecidableEq ν] in
lemma reports_append (outcomes outcomes' : List (ApplyOutcome ν)) (table : String) :
    reports (outcomes ++ outcomes') table = reports outcomes table ++ reports outcomes' table :=
  List.flatMap_append

omit [DecidableEq ν] in
lemma reports_concat (outcomes : List (ApplyOutcome ν)) (outcome : ApplyOutcome ν)
    (table : String) : reports (outcomes ++ [outcome]) table =
      reports outcomes table ++ more outcome.keys outcome.tables table := by
  rw [reports_append, reports, reports, List.flatMap_singleton, more]

lemma ends_mergeTables (keys : ChangedKeys ν) (tables : List String)
    {before : String → List (Property ν)} {pending : PendingChangedKeys ν}
    (h : ∀ table, Readable (before table) ∧ pending.get table = entryOf numbers (before table)) :
    (Effect.forEach (mergeTable numbers keys) tables).Ends pending
      (fun _ pending' => ∀ table, Readable (before table ++ more keys tables table) ∧
        pending'.get table = entryOf numbers (before table ++ more keys tables table))
      (fun _ _ => ∃ table, ¬Readable (before table ++ more keys tables table)) := by
  induction tables generalizing before pending with
  | nil =>
    intro table
    rw [more, List.filter_nil, List.map_nil, List.append_nil]
    exact h table
  | cons name tables ih =>
    have hmore : ∀ table, before table ++ more keys (name :: tables) table =
        (if table = name then before table ++ [keys.get table] else before table) ++
          more keys tables table := by
      intro table
      rw [more_cons]
      split
      · rw [List.append_assoc, List.singleton_append]
      · rfl
    simp only [hmore]
    rw [Effect.forEach, Effect.ends_bind]
    refine (ends_mergeTable keys (h name).2 (h name).1).mono ?_ ?_
    · rintro _ pending' ⟨hreads, hget, hothers⟩
      refine ih (fun table => ?_)
      by_cases htable : table = name
      · subst htable
        rw [if_pos rfl]
        exact ⟨hreads, hget⟩
      · rw [if_neg htable, hothers table htable]
        exact h table
    · intro _ _ hnot
      refine ⟨name, fun hreads => hnot ?_⟩
      rw [if_pos rfl] at hreads
      exact hreads.left

/-- A set that holds what outcomes came to, each of which could be read. -/
def MergedFrom (numbers : NumberText ν) (outcomes : List (ApplyOutcome ν))
    (pending : PendingChangedKeys ν) : Prop :=
  ∀ table, Readable (reports outcomes table) ∧
    pending.get table = entryOf numbers (reports outcomes table)

/-- Outcomes that can all be read. -/
def AllReadable (outcomes : List (ApplyOutcome ν)) : Prop :=
  ∀ table, Readable (reports outcomes table)

lemma mergedFrom_empty : MergedFrom numbers [] .empty := fun _ => ⟨readable_nil, rfl⟩

/-- A merge succeeds exactly where what it merges can be read. -/
theorem ends_mergeChangedKeys {outcomes : List (ApplyOutcome ν)} {pending : PendingChangedKeys ν}
    (h : MergedFrom numbers outcomes pending) (outcome : ApplyOutcome ν) :
    (mergeChangedKeys numbers outcome.tables outcome.keys).Ends pending
      (fun _ pending' => MergedFrom numbers (outcomes ++ [outcome]) pending')
      (fun _ _ => ¬AllReadable (outcomes ++ [outcome])) := by
  refine (ends_mergeTables outcome.keys outcome.tables h).mono ?_ ?_
  · intro _ pending' hmerged table
    rw [reports_concat]
    exact hmerged table
  · rintro _ _ ⟨table, hnot⟩ hreads
    rw [← reports_concat] at hnot
    exact hnot (hreads table)

/-- Outcomes merged one after another. -/
theorem ends_mergeOutcomes (outcomes : List (ApplyOutcome ν)) {before : List (ApplyOutcome ν)}
    {pending : PendingChangedKeys ν} (h : MergedFrom numbers before pending) :
    (Effect.forEach (fun outcome : ApplyOutcome ν =>
        mergeChangedKeys numbers outcome.tables outcome.keys) outcomes).Ends pending
      (fun _ pending' => MergedFrom numbers (before ++ outcomes) pending')
      (fun _ _ => ¬AllReadable (before ++ outcomes)) := by
  induction outcomes generalizing before pending with
  | nil =>
    rw [List.append_nil]
    exact h
  | cons outcome outcomes ih =>
    have hsplit : before ++ outcome :: outcomes = (before ++ [outcome]) ++ outcomes := by
      rw [List.append_assoc, List.singleton_append]
    rw [Effect.forEach, Effect.ends_bind, hsplit]
    refine (ends_mergeChangedKeys h outcome).mono (fun _ _ hmerged => ih hmerged) ?_
    intro _ _ hnot hreads
    refine hnot (fun table => ?_)
    have hall := hreads table
    rw [reports_append] at hall
    exact hall.left

end

end Changes
end TinyJoin
