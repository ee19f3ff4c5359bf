import Mathlib.Data.List.Forall2
import TinyJoin.MergedKeys

/-! Outcomes that stand for several of the engine's: they name the tables that those changed, and where
they list a table's keys, they list every key that those changed in it. -/
namespace TinyJoin
namespace Changes
open Distinct

/-- An outcome as the engine reports it. -/
structure EngineOutcome (ν : Type) where
  revision : Nat
  tables : List String
  keys : InsertionMap String (List (KeyRow ν))

/-- The engine's outcome as an object, all of whose keys are its own properties. -/
def EngineOutcome.parsed {ν : Type} (outcome : EngineOutcome ν) : ApplyOutcome ν :=
  ⟨outcome.revision, outcome.tables, ⟨outcome.keys, none⟩⟩

section
variable {ν : Type}

/-- Every outcome that changed the table reported its keys in it, and the rows are those keys. -/
structure ChangedIn (sources : List (EngineOutcome ν)) (table : String) (rows : List (KeyRow ν)) :
    Prop where
  reported : ∀ source ∈ sources, table ∈ source.tables → ∃ keys, source.keys.get table = some keys
  mem : ∀ row, row ∈ rows ↔ ∃ source ∈ sources, table ∈ source.tables ∧
    ∃ keys, source.keys.get table = some keys ∧ row ∈ keys

structure Represents (outcome : ApplyOutcome ν) (sources : List (EngineOutcome ν)) : Prop where
  tables : ∀ table, table ∈ outcome.tables ↔ ∃ source ∈ sources, table ∈ source.tables
  keys : ∀ table rows, table ∈ outcome.tables → outcome.keys.get table = .rows rows →
    ChangedIn sources table rows

lemma get_eq_rows_of_none {keys : ChangedKeys ν} (h : keys.prototype = none) {table : String}
    {rows : List (KeyRow ν)} : keys.get table = .rows rows ↔ keys.own.get table = some rows := by
  rw [ChangedKeys.get, h]
  cases keys.own.get table with
  | some own =>
    exact ⟨fun heq => congrArg some (Property.rows.inj heq),
      fun heq => congrArg Property.rows (Option.some.inj heq)⟩
  | none =>
    refine ⟨fun heq => ?_, fun heq => (nomatch heq)⟩
    dsimp only at heq
    split at heq
    · nomatch heq
    · nomatch heq

lemma get_of_own {keys : ChangedKeys ν} {table : String} {rows : List (KeyRow ν)}
    (h : keys.own.get table = some rows) : keys.get table = .rows rows := by
  rw [ChangedKeys.get, h]

lemma represents_parsed (source : EngineOutcome ν) : Represents source.parsed [source] := by
  constructor
  · intro table
    simp only [List.mem_singleton, exists_eq_left]
    rfl
  · intro table rows htable hrows
    have hown : source.keys.get table = some rows := (get_eq_rows_of_none rfl).mp hrows
    constructor
    · intro other hother _
      rw [List.mem_singleton.mp hother]
      exact ⟨rows, hown⟩
    · intro row
      simp only [List.mem_singleton, exists_eq_left, hown, Option.some.injEq, exists_eq_left']
      exact ⟨fun hrow => ⟨htable, hrow⟩, fun h => h.2⟩

/-! ## Merged outcomes -/

lemma mem_reports {outcomes : List (ApplyOutcome ν)} {table : String} {report : Property ν} :
    report ∈ reports outcomes table ↔
      ∃ outcome ∈ outcomes, table ∈ outcome.tables ∧ outcome.keys.get table = report := by
  rw [reports, List.mem_flatMap]
  refine exists_congr (fun outcome => and_congr_right (fun _ => ?_))
  rw [List.mem_map]
  constructor
  · rintro ⟨name, hname, hreport⟩
    rw [List.mem_filter, decide_eq_true_eq] at hname
    exact ⟨hname.2 ▸ hname.1, hreport⟩
  · rintro ⟨htable, hreport⟩
    exact ⟨table, List.mem_filter.mpr ⟨htable, decide_eq_true rfl⟩, hreport⟩

lemma mem_listed {reports : List (Property ν)} {row : KeyRow ν} :
    row ∈ listed reports ↔ ∃ rows, .rows rows ∈ reports ∧ row ∈ rows := by
  rw [listed, List.mem_flatMap]
  constructor
  · rintro ⟨report, hreport, hrow⟩
    cases report with
    | rows rows => exact ⟨rows, hreport, hrow⟩
    | undefined | other => cases hrow
  · rintro ⟨rows, hreport, hrow⟩
    exact ⟨.rows rows, hreport, hrow⟩

lemma exists_of_mem_left {α β : Type} {R : α → β → Prop} {l : List α} {l' : List β}
    (h : List.Forall₂ R l l') {a : α} (ha : a ∈ l) : ∃ b ∈ l', R a b := by
  induction h with
  | nil => nomatch ha
  | cons hhead _ ih =>
    rcases List.mem_cons.mp ha with rfl | htail
    · exact ⟨_, List.mem_cons_self, hhead⟩
    · obtain ⟨b, hb, hab⟩ := ih htail
      exact ⟨b, List.mem_cons_of_mem _ hb, hab⟩

lemma exists_of_mem_right {α β : Type} {R : α → β → Prop} {l : List α} {l' : List β}
    (h : List.Forall₂ R l l') {b : β} (hb : b ∈ l') : ∃ a ∈ l, R a b :=
  exists_of_mem_left h.flip hb

/-- The tables that outcomes name are those that what they stand for changed. -/
lemma mem_tables_of_represents {outcomes : List (ApplyOutcome ν)}
    {groups : List (List (EngineOutcome ν))} (h : List.Forall₂ Represents outcomes groups)
    (table : String) : (∃ outcome ∈ outcomes, table ∈ outcome.tables) ↔
      ∃ source ∈ groups.flatten, table ∈ source.tables := by
  constructor
  · rintro ⟨outcome, houtcome, htable⟩
    obtain ⟨group, hgroup, hrepresents⟩ := exists_of_mem_left h houtcome
    obtain ⟨source, hsource, hin⟩ := (hrepresents.tables table).mp htable
    exact ⟨source, List.mem_flatten_of_mem hgroup hsource, hin⟩
  · rintro ⟨source, hsource, hin⟩
    obtain ⟨group, hgroup, hmem⟩ := List.mem_flatten.mp hsource
    obtain ⟨outcome, houtcome, hrepresents⟩ := exists_of_mem_right h hgroup
    exact ⟨outcome, houtcome, (hrepresents.tables table).mpr ⟨source, hmem, hin⟩⟩

variable [DecidableEq ν]

/-- What outcomes list of a table they do not give up are the keys that all they stand for changed. -/
lemma changedIn_listed {outcomes : List (ApplyOutcome ν)} {groups : List (List (EngineOutcome ν))}
    (h : List.Forall₂ Represents outcomes groups) {table : String}
    (hreadable : Readable (reports outcomes table)) (hnot : ¬GivenUp (reports outcomes table)) :
    ChangedIn groups.flatten table (listed (reports outcomes table)) := by
  have hrows : ∀ outcome ∈ outcomes, table ∈ outcome.tables →
      ∃ rows, outcome.keys.get table = .rows rows := fun outcome houtcome htable =>
    hreadable.rows_of_not_givenUp hnot (mem_reports.mpr ⟨outcome, houtcome, htable, rfl⟩)
  constructor
  · intro source hsource htable
    obtain ⟨group, hgroup, hmem⟩ := List.mem_flatten.mp hsource
    obtain ⟨outcome, houtcome, hrepresents⟩ := exists_of_mem_right h hgroup
    have hnamed := (hrepresents.tables table).mpr ⟨source, hmem, htable⟩
    obtain ⟨rows, hget⟩ := hrows outcome houtcome hnamed
    exact (hrepresents.keys table rows hnamed hget).reported source hmem htable
  · intro row
    rw [mem_listed]
    constructor
    · rintro ⟨rows, hreport, hrow⟩
      obtain ⟨outcome, houtcome, htable, hget⟩ := mem_reports.mp hreport
      obtain ⟨group, hgroup, hrepresents⟩ := exists_of_mem_left h houtcome
      obtain ⟨source, hsource, hchanged⟩ :=
        ((hrepresents.keys table rows htable hget).mem row).mp hrow
      exact ⟨source, List.mem_flatten_of_mem hgroup hsource, hchanged⟩
    · rintro ⟨source, hsource, htable, hchanged⟩
      obtain ⟨group, hgroup, hmem⟩ := List.mem_flatten.mp hsource
      obtain ⟨outcome, houtcome, hrepresents⟩ := exists_of_mem_right h hgroup
      have hnamed := (hrepresents.tables table).mpr ⟨source, hmem, htable⟩
      obtain ⟨rows, hget⟩ := hrows outcome houtcome hnamed
      refine ⟨rows, mem_reports.mpr ⟨outcome, houtcome, hnamed, hget⟩, ?_⟩
      exact ((hrepresents.keys table rows hnamed hget).mem row).mpr ⟨source, hmem, htable, hchanged⟩

variable {numbers : NumberText ν}

lemma length_distinct_le {rows : List (KeyRow ν)} (h : ¬PastBound rows) :
    (distinct rows).length ≤ maxChangedKeysPerTable := by
  induction rows using List.reverseRecOn with
  | nil => exact Nat.zero_le _
  | append_singleton rows key _ =>
    rw [pastBound_concat, Nat.not_le] at h
    rw [distinct_concat]
    exact Nat.le_trans (length_add_le _ _) h

/-- What an event may list of a table: each key that was changed in it, once, within the bound. -/
structure ListedKeys (sources : List (EngineOutcome ν)) (table : String) (rows : List (KeyRow ν)) :
    Prop where
  changed : ChangedIn sources table rows
  nodup : rows.Nodup
  length_le : rows.length ≤ maxChangedKeysPerTable

/-- A usable entry of a merge lists all that was changed in its table. -/
lemma listedKeys_of_merged {outcomes : List (ApplyOutcome ν)} {groups : List (List (EngineOutcome ν))}
    (h : List.Forall₂ Represents outcomes groups) {pending : PendingChangedKeys ν}
    (hmerged : MergedFrom numbers outcomes pending) {table : String} {entry : PendingEntry ν}
    (hentry : pending.get table = some (some entry)) :
    ListedKeys groups.flatten table entry.rows := by
  obtain ⟨hreadable, hget⟩ := hmerged table
  rw [hget, entryOf] at hentry
  split at hentry
  · cases hentry
  split at hentry
  · cases hentry
  next hnot =>
  rw [← Option.some.inj (Option.some.inj hentry)]
  have hlisted := changedIn_listed h hreadable hnot
  refine ⟨⟨hlisted.reported, fun row => ?_⟩, nodup_distinct _,
    length_distinct_le (fun hpast => hnot (.inr hpast))⟩
  exact mem_distinct.trans (hlisted.mem row)

end

/-! ## Finished keys -/

section
variable {ν : Type}

/-- Keys of which every property is a usable entry's. -/
structure FinishedFrom (entries : List (String × Option (PendingEntry ν))) (keys : ChangedKeys ν) :
    Prop where
  own : ∀ table rows, keys.own.get table = some rows →
    ∃ entry, (table, some entry) ∈ entries ∧ entry.rows = rows
  prototype : ∀ rows, keys.prototype = some rows →
    ∃ entry, ("__proto__", some entry) ∈ entries ∧ entry.rows = rows

lemma FinishedFrom.set {entries : List (String × Option (PendingEntry ν))} {keys : ChangedKeys ν}
    (h : FinishedFrom entries keys) {table : String} {entry : PendingEntry ν}
    (hmem : (table, some entry) ∈ entries) : FinishedFrom entries (keys.set table entry.rows) := by
  rw [ChangedKeys.set]
  split
  · next hproto =>
    refine ⟨h.own, fun rows hrows => ⟨entry, hproto.1 ▸ hmem, Option.some.inj hrows⟩⟩
  · refine ⟨fun other rows hrows => ?_, h.prototype⟩
    dsimp only at hrows
    rw [InsertionMap.get_set] at hrows
    split at hrows
    · next hother => exact ⟨entry, hother ▸ hmem, Option.some.inj hrows⟩
    · exact h.own other rows hrows

lemma finishedFrom_foldl {entries all : List (String × Option (PendingEntry ν))} (hsub : entries ⊆ all)
    {keys : ChangedKeys ν} (h : FinishedFrom all keys) :
    FinishedFrom all (entries.foldl (fun keys entry =>
      match entry.2 with
      | some usable => keys.set entry.1 usable.rows
      | none => keys) keys) := by
  induction entries generalizing keys with
  | nil => exact h
  | cons entry entries ih =>
    rw [List.cons_subset] at hsub
    obtain ⟨table, entry⟩ := entry
    cases entry with
    | none => exact ih hsub.2 h
    | some usable => exact ih hsub.2 (h.set hsub.1)

lemma finishedFrom_finish (pending : PendingChangedKeys ν) :
    FinishedFrom pending.entries (finishChangedKeys pending) :=
  finishedFrom_foldl (List.Subset.refl _) ⟨fun _ _ h => (nomatch h), fun _ h => (nomatch h)⟩

/-- What a property of finished keys reads as comes from the table's entry. -/
lemma get_finish {pending : PendingChangedKeys ν} {table : String} {rows : List (KeyRow ν)}
    (h : (finishChangedKeys pending).get table = .rows rows) :
    ∃ entry, pending.get table = some (some entry) ∧ entry.rows = rows := by
  obtain ⟨hown, hproto⟩ := finishedFrom_finish pending
  have hentry : ∃ entry, (table, some entry) ∈ pending.entries ∧ entry.rows = rows := by
    rw [ChangedKeys.get] at h
    split at h
    · next _ _ heq => exact hown table rows (heq.trans (congrArg some (Property.rows.inj h)))
    · split at h
      · nomatch h
      · nomatch h
    · next _ array heq =>
      split at h
      · next htable =>
        rw [htable]
        exact hproto rows (heq.trans (congrArg some (Property.rows.inj h)))
      · split_ifs at h
  obtain ⟨entry, hmem, hrows⟩ := hentry
  exact ⟨entry, (pending.mem_entries_iff _ _).mp hmem, hrows⟩

lemma get_structuredClone {keys : ChangedKeys ν} {table : String} {rows : List (KeyRow ν)}
    (h : keys.structuredClone.get table = .rows rows) : keys.own.get table = some rows := by
  have hown : keys.structuredClone.own.get table = some rows := (get_eq_rows_of_none rfl).mp h
  exact hown

lemma Represents.structuredClone {outcome : ApplyOutcome ν} {sources : List (EngineOutcome ν)}
    (h : Represents outcome sources) :
    Represents { outcome with keys := outcome.keys.structuredClone } sources :=
  ⟨h.tables, fun table rows htable hrows =>
    h.keys table rows htable (get_of_own (get_structuredClone hrows))⟩

variable [DecidableEq ν] {numbers : NumberText ν}

/-- Merged outcomes, announced as one, stand for all that they stand for. -/
theorem represents_finish {outcomes : List (ApplyOutcome ν)} {groups : List (List (EngineOutcome ν))}
    (h : List.Forall₂ Represents outcomes groups) {pending : PendingChangedKeys ν}
    (hmerged : MergedFrom numbers outcomes pending) {tables : List String} {revision : Nat}
    (htables : ∀ table, table ∈ tables ↔ ∃ outcome ∈ outcomes, table ∈ outcome.tables) :
    Represents ⟨revision, tables, finishChangedKeys pending⟩ groups.flatten := by
  constructor
  · exact fun table => (htables table).trans (mem_tables_of_represents h table)
  · intro table rows _ hrows
    obtain ⟨entry, hentry, rfl⟩ := get_finish hrows
    exact (listedKeys_of_merged h hmerged hentry).changed

end

end Changes
end TinyJoin
