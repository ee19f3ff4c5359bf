import TinyJoin.ScriptWrites
import TinyJoin.StoredFiltering

/-! A script's statements leave the entries of every table and of every index in order, and as many as
are counted beside their trees. -/
namespace TinyJoin

/-! ### Batches -/

lemma filterMap_cons_toList {α β : Type} (f : α → Option β) (a : α) (l : List α) :
    (a :: l).filterMap f = (f a).toList ++ l.filterMap f := by
  rw [List.filterMap_cons]
  cases f a <;> rfl

lemma countP_exchange {α : Type} (p q : α → Bool) (l : List α) :
    l.countP p + l.countP (fun a => !p a && q a) = l.countP q + l.countP (fun a => p a && !q a) := by
  induction l with
  | nil => rfl
  | cons a l ih =>
    simp only [List.countP_cons]
    cases p a <;> cases q a <;> simp <;> omega

namespace Tree
variable {entries : List TreeEntry} {batch : Batch}

def pairs (entries : List TreeEntry) : List (List UInt8 × List UInt8) :=
  entries.map (fun entry => (entry.key, entry.value))

/-- What entries hold of a batch's keys. -/
def replaced (entries : List TreeEntry) (batch : Batch) : List (List UInt8 × List UInt8) :=
  batch.filterMap (fun change => (held entries change.1).map (fun value => (change.1, value)))

/-- What a batch writes. -/
def written (batch : Batch) : List (List UInt8 × List UInt8) :=
  batch.filterMap (fun change => change.2.map (fun value => (change.1, value)))

lemma pairs_of_key {key : List UInt8} (hordered : entries.Pairwise (fun a b => a.key < b.key))
    (hkey : ∀ entry ∈ entries, entry.key = key) :
    pairs entries = ((held entries key).map (fun value => (key, value))).toList := by
  cases entries with
  | nil => rfl
  | cons first rest =>
    rw [List.pairwise_cons] at hordered
    rw [List.forall_mem_cons] at hkey
    have hrest : rest = [] := List.eq_nil_iff_forall_not_mem.mpr (fun entry hentry =>
      absurd (hordered.1 entry hentry) (by rw [hkey.1, hkey.2 entry hentry]; exact lt_irrefl _))
    simp [pairs, held, hrest, hkey.1]

/-- A batch merged into entries puts what it writes in the place of what they held of its keys. -/
lemma mergeEntries_perm (hordered : entries.Pairwise (fun a b => a.key < b.key))
    (hbatch : (batch.map Prod.fst).Pairwise (· < ·)) :
    (pairs (mergeEntries entries batch) ++ replaced entries batch).Perm
      (pairs entries ++ written batch) := by
  induction batch generalizing entries with
  | nil => exact .refl _
  | cons change batch ih =>
    obtain ⟨changed, value⟩ := change
    rw [List.map_cons, List.pairwise_cons] at hbatch
    obtain ⟨before, at', after, hentries, htake, hdrop, hbefore, hat, hafter⟩ :=
      split_at hordered changed
    have hupper : (at' ++ after).Pairwise (fun a b => a.key < b.key) :=
      hordered.sublist (hentries ▸ List.sublist_append_right before _)
    have hbelow : ∀ key, changed ≤ key → held before key = none := fun key hle =>
      held_eq_none (fun entry hentry heq => absurd (hbefore entry hentry) (heq ▸ hle.not_gt))
    have habove : held after changed = none :=
      held_eq_none (fun entry hentry heq => absurd (hafter entry hentry) (heq ▸ lt_irrefl _))
    -- The batch's later keys are above the key, as are the entries that they replace.
    have hlater : replaced entries batch = replaced after batch := by
      refine List.filterMap_congr (fun change hchange => ?_)
      have hlt := hbatch.1 _ (List.mem_map_of_mem hchange)
      rw [hentries, held_append, held_append, hbelow _ hlt.le, held_eq_none (fun entry hentry heq =>
        absurd (hat entry hentry) (heq ▸ hlt.ne')), Option.none_or, Option.none_or]
    have hhere : held entries changed = held at' changed := by
      rw [hentries, held_append, held_append, hbelow _ le_rfl, habove, Option.none_or, Option.or_none]
    have hnew : pairs (value.map (newValue changed)).toList =
        (value.map (fun value => (changed, value))).toList := by cases value <;> rfl
    have hrest := @ih after (hupper.sublist (List.sublist_append_right at' after)) hbatch.2
    rw [mergeEntries, htake, hdrop, replaced, written, filterMap_cons_toList, filterMap_cons_toList,
      hhere, ← pairs_of_key (hupper.sublist (List.sublist_append_left at' after)) hat, ← hnew,
      ← replaced, ← written, hlater]
    rw [List.perm_iff_count] at hrest ⊢
    intro pair
    have hpair := hrest pair
    simp only [pairs, hentries, List.map_append, List.count_append] at hpair ⊢
    omega

lemma mem_mergeEntries (hordered : entries.Pairwise (fun a b => a.key < b.key))
    (hbatch : (batch.map Prod.fst).Pairwise (· < ·)) {entry : TreeEntry}
    (hentry : entry ∈ mergeEntries entries batch) :
    (entry.key, entry.value) ∈ pairs entries ∨ (entry.key, some entry.value) ∈ batch := by
  have hmem := (mergeEntries_perm hordered hbatch).mem_iff.mp
    (List.mem_append_left _ (List.mem_map_of_mem hentry))
  refine (List.mem_append.mp hmem).imp id (fun hwritten => ?_)
  obtain ⟨⟨key, value⟩, hchange, hvalue⟩ := List.mem_filterMap.mp hwritten
  obtain ⟨value', rfl, heq⟩ := Option.map_eq_some_iff.mp hvalue
  cases heq
  exact hchange

lemma mergeEntries_ordered (hordered : entries.Pairwise (fun a b => a.key < b.key))
    (hbatch : (batch.map Prod.fst).Pairwise (· < ·)) :
    (mergeEntries entries batch).Pairwise (fun a b => a.key < b.key) := by
  induction batch generalizing entries with
  | nil => exact hordered
  | cons change batch ih =>
    obtain ⟨changed, value⟩ := change
    rw [List.map_cons, List.pairwise_cons] at hbatch
    obtain ⟨before, at', after, hentries, htake, hdrop, hbefore, hat, hafter⟩ :=
      split_at hordered changed
    rw [hentries] at hordered
    have hparts := List.pairwise_append.mp hordered
    have hupper := (List.pairwise_append.mp hparts.2.1).2.1
    have hlater : ∀ entry ∈ mergeEntries after batch, changed < entry.key := by
      intro entry hentry
      rcases mem_mergeEntries hupper hbatch.2 hentry with hmem | hmem
      · obtain ⟨other, hother, heq⟩ := List.mem_map.mp hmem
        exact (Prod.mk.inj heq).1 ▸ hafter other hother
      · exact hbatch.1 _ (List.mem_map_of_mem hmem)
    have hnew : ∀ entry ∈ (value.map (newValue changed)).toList, entry.key = changed := by
      intro entry hentry
      obtain ⟨value, -, rfl⟩ := Option.map_eq_some_iff.mp (Option.mem_toList.mp hentry)
      rfl
    have hone : (value.map (newValue changed)).toList.Pairwise (fun a b => a.key < b.key) := by
      cases value with
      | none => exact .nil
      | some value => exact List.pairwise_singleton _ _
    rw [mergeEntries, htake, hdrop]
    refine List.pairwise_append.mpr ⟨hparts.1, List.pairwise_append.mpr ⟨hone, ih hupper hbatch.2,
      fun a ha b hb => hnew a ha ▸ hlater b hb⟩, fun a ha b hb => ?_⟩
    rcases List.mem_append.mp hb with hb | hb
    · exact hnew b hb ▸ hbefore a ha
    · exact (hbefore a ha).trans (hlater b hb)

lemma validateBatchFrom_eq_ok {before : Option (List UInt8)}
    (h : validateBatchFrom before batch = .ok ()) :
    (batch.map Prod.fst).Pairwise (· < ·) ∧
      ∀ key ∈ before, ∀ change ∈ batch, key < change.1 := by
  induction batch generalizing before with
  | nil => exact ⟨.nil, fun _ _ _ hmem => (List.not_mem_nil hmem).elim⟩
  | cons change batch ih =>
    obtain ⟨changed, value⟩ := change
    obtain ⟨_, -, h⟩ := Except.bind_eq_ok.mp h
    have hrest : (if before.any (fun before => changed ≤ before) then
        .error ⟨"INVALID_PAGED_ARGUMENT", "A B-tree batch must be sorted by strictly increasing key"⟩
        else validateBatchFrom (some changed) batch) = .ok () := by
      cases value with
      | none => exact h
      | some value =>
        obtain ⟨_, -, h⟩ := Except.bind_eq_ok.mp h
        exact h
    obtain ⟨hlt, h⟩ := Except.ite_error_eq_ok.mp hrest
    obtain ⟨hordered, hlater⟩ := ih h
    have hfirst := hlater changed rfl
    refine ⟨List.pairwise_cons.mpr ⟨fun key hkey => ?_, hordered⟩, fun key hkey => ?_⟩
    · obtain ⟨change, hchange, rfl⟩ := List.mem_map.mp hkey
      exact hfirst change hchange
    · have hbelow : key < changed := by simpa [Option.mem_def.mp hkey] using hlt
      exact List.forall_mem_cons.mpr ⟨hbelow, fun change hchange =>
        hbelow.trans (hfirst change hchange)⟩

/-- Applying a batch keeps a tree's entries in order, and counts what it inserts and removes. -/
lemma apply_spec {root : Option Tree} {applied : BtreeBatch}
    (hordered : (root.getD []).flatten.Pairwise (fun a b => a.key < b.key))
    (h : Tree.apply root batch = .ok applied) :
    (applied.root.getD []).flatten.Pairwise (fun a b => a.key < b.key) ∧
      (pairs (applied.root.getD []).flatten ++ replaced (root.getD []).flatten batch).Perm
        (pairs (root.getD []).flatten ++ written batch) ∧
      (∀ entry ∈ (applied.root.getD []).flatten,
        (entry.key, entry.value) ∈ pairs (root.getD []).flatten ∨
          (entry.key, some entry.value) ∈ batch) ∧
      applied.inserted = batch.countP (fun change =>
        change.2.isSome && !(held (root.getD []).flatten change.1).isSome) ∧
      applied.removed = batch.countP (fun change =>
        !change.2.isSome && (held (root.getD []).flatten change.1).isSome) := by
  rw [apply_eq_ok h]
  obtain ⟨_, hvalid, h⟩ := Except.bind_eq_ok.mp h
  have hbatch := (validateBatchFrom_eq_ok hvalid).1
  have hheld : ∀ key, ((root.getD []).flatten.any (fun entry => entry.key == key)) =
      (held (root.getD []).flatten key).isSome := by
    intro key
    rw [held, Option.isSome_map, Bool.eq_iff_iff, List.any_eq_true, List.find?_isSome]
  cases h
  refine ⟨mergeEntries_ordered hordered hbatch, mergeEntries_perm hordered hbatch,
    fun entry => mem_mergeEntries hordered hbatch, ?_, ?_⟩
  · simp only [hheld]
  · simp only [hheld, Option.not_isSome]

/-- A count adjusted by what a batch inserted and removed counts the entries that it left. -/
lemma apply_counts {root : Option Tree} {applied : BtreeBatch} {count count' : Nat} {kind : String}
    (hordered : (root.getD []).flatten.Pairwise (fun a b => a.key < b.key))
    (h : Tree.apply root batch = .ok applied) (hcount : count = (root.getD []).flatten.length)
    (hadjusted : adjustedCount count applied.inserted applied.removed kind = .ok count') :
    count' = (applied.root.getD []).flatten.length := by
  obtain ⟨-, hperm, -, hinserted, hremoved⟩ := apply_spec hordered h
  have hlength := hperm.length_eq
  rw [replaced, written, List.length_append, List.length_append, List.length_filterMap_eq_countP,
    List.length_filterMap_eq_countP] at hlength
  simp only [pairs, List.length_map, Option.isSome_map] at hlength
  have hexchange := countP_exchange (fun change => change.2.isSome)
    (fun change => (held (root.getD []).flatten change.1).isSome) batch
  rw [adjustedCount] at hadjusted
  split at hadjusted
  · cases hadjusted
    omega
  · cases hadjusted

end Tree

/-! ### What a script keeps -/

/-- A tree's entries are in order, and as many as are counted. -/
structure TreeCounted (root : Option Tree) (count : Nat) : Prop where
  ordered : (root.getD []).flatten.Pairwise (fun a b => a.key < b.key)
  counted : count = (root.getD []).flatten.length

lemma TreeCounted.apply {root : Option Tree} {count count' : Nat} {batch : Batch}
    {applied : BtreeBatch} {kind : String} (h : TreeCounted root count)
    (happlied : Tree.apply root batch = .ok applied)
    (hadjusted : adjustedCount count applied.inserted applied.removed kind = .ok count') :
    TreeCounted applied.root count' :=
  ⟨(Tree.apply_spec h.ordered happlied).1, Tree.apply_counts h.ordered happlied h.counted hadjusted⟩

/-- An index's entries are in order and counted, and hold nothing but their keys. -/
structure PagedIndex.Counted (index : PagedIndex) : Prop where
  tree : TreeCounted index.root index.entryCount
  empty : ∀ entry ∈ (index.root.getD []).flatten, entry.value = []

/-- A catalog's tables are in the order of their names, and each tree in the order of its keys. -/
structure PagedStorage.Counted (storage : PagedStorage) : Prop where
  inOrder : storage.tables.InOrder
  tables : ∀ name table, storage.tables.get name = some table → TreeCounted table.root table.rowCount
  indexes : ∀ index ∈ storage.indexes.values, index.Counted

variable {json : SerdeJson} {storage storage' : PagedStorage} {candidate candidate' : ScriptCandidate}

lemma PagedIndex.Counted.applyIndexEntries {index index' : PagedIndex}
    {entries : List (List UInt8 × Bool)} (h : index.Counted)
    (hok : applyIndexEntries index entries = .ok index') : index'.Counted := by
  rw [TinyJoin.applyIndexEntries] at hok
  split at hok
  · cases hok
    exact h
  · obtain ⟨applied, happlied, hok⟩ := Except.bind_eq_ok.mp hok
    obtain ⟨hremoved, hok⟩ := Except.ite_error_eq_ok.mp hok
    obtain ⟨hinserted, hok⟩ := Except.ite_error_eq_ok.mp hok
    obtain ⟨entryCount, hcount, hok⟩ := Except.bind_eq_ok.mp hok
    cases hok
    rw [not_not] at hremoved hinserted
    rw [← hremoved, ← hinserted] at hcount
    refine ⟨h.tree.apply happlied hcount, fun entry hentry => ?_⟩
    obtain ⟨-, -, hmem, -, -⟩ := Tree.apply_spec h.tree.ordered happlied
    rcases hmem entry hentry with hold | hnew
    · obtain ⟨other, hother, heq⟩ := List.mem_map.mp hold
      exact (Prod.mk.inj heq).2 ▸ h.empty other hother
    · obtain ⟨change, -, heq⟩ := List.mem_map.mp hnew
      have hvalue := (Prod.mk.inj heq).2
      split at hvalue
      · exact (Option.some.inj hvalue).symm
      · cases hvalue

lemma applyIndexes_counted {table : PagedTable} {name : String}
    {changes : List (List UInt8 × ChangedRow)} {indexes indexes' : List (String × PagedIndex)}
    (h : ∀ index ∈ indexes.map Prod.snd, index.Counted)
    (hok : applyIndexes json table name changes indexes = .ok indexes') :
    ∀ index ∈ indexes'.map Prod.snd, index.Counted := by
  induction indexes generalizing indexes' with
  | nil =>
    cases hok
    exact h
  | cons first indexes ih =>
    obtain ⟨indexName, index⟩ := first
    rw [List.map_cons, List.forall_mem_cons] at h
    rw [applyIndexes] at hok
    split at hok
    · obtain ⟨_, -, hok⟩ := Except.bind_eq_ok.mp hok
      obtain ⟨_, -, hok⟩ := Except.bind_eq_ok.mp hok
      obtain ⟨written, hwritten, hok⟩ := Except.bind_eq_ok.mp hok
      obtain ⟨rest, hrest, hok⟩ := Except.bind_eq_ok.mp hok
      cases hok
      exact List.forall_mem_cons.mpr ⟨h.1.applyIndexEntries hwritten, ih h.2 hrest⟩
    · obtain ⟨rest, hrest, hok⟩ := Except.bind_eq_ok.mp hok
      cases hok
      exact List.forall_mem_cons.mpr ⟨h.1, ih h.2 hrest⟩

lemma PagedStorage.Counted.applyRowChanges {name : String} {changes : List (List UInt8 × ChangedRow)}
    (h : storage.Counted) (hok : applyRowChanges json storage name changes = .ok storage') :
    storage'.Counted := by
  obtain ⟨table, htable, hok⟩ := Except.bind_eq_ok.mp hok
  obtain ⟨applied, happlied, hok⟩ := Except.bind_eq_ok.mp hok
  obtain ⟨hsame, hok⟩ := Except.ite_error_eq_ok.mp hok
  obtain ⟨rowCount, hcount, hok⟩ := Except.bind_eq_ok.mp hok
  obtain ⟨indexes, hindexes, hok⟩ := Except.bind_eq_ok.mp hok
  cases hok
  rw [not_or, not_not, not_not] at hsame
  rw [← hsame.1, ← hsame.2] at hcount
  refine ⟨h.inOrder.put, fun other found hfound => ?_, applyIndexes_counted h.indexes hindexes⟩
  change (storage.tables.put (storage.tables.position name) name
    { table with root := applied.root, rowCount }).get other = some found at hfound
  rw [h.inOrder.get_put] at hfound
  split at hfound
  · cases hfound
    exact (h.tables name table (table_eq_ok.mp htable)).apply happlied hcount
  · exact h.tables other found hfound

lemma PagedStorage.Counted.applyChanges {changes : List RowChange} {previous : List PreviousRow}
    (h : candidate.storage.Counted)
    (hok : applyChanges json candidate changes previous = .ok candidate') :
    candidate'.storage.Counted := by
  cases changes with
  | nil =>
    cases hok
    exact h
  | cons first rest =>
    obtain ⟨_, -, hok⟩ := Except.bind_eq_ok.mp hok
    obtain ⟨_, -, hok⟩ := Except.bind_eq_ok.mp hok
    obtain ⟨_, -, hok⟩ := Except.bind_eq_ok.mp hok
    obtain ⟨_, -, hok⟩ := Except.bind_eq_ok.mp hok
    obtain ⟨_, -, hok⟩ := Except.bind_eq_ok.mp hok
    obtain ⟨_, -, hok⟩ := Except.bind_eq_ok.mp hok
    obtain ⟨storage', hstorage, hok⟩ := Except.bind_eq_ok.mp hok
    cases hok
    exact h.applyRowChanges hstorage

lemma PagedStorage.Counted.applyGroups {groups : List (String × List (RowChange × PreviousRow))}
    (h : candidate.storage.Counted)
    (hok : groups.foldlM (fun candidate group => TinyJoin.applyChanges json candidate
      (group.2.map Prod.fst) (group.2.map Prod.snd)) candidate = .ok candidate') :
    candidate'.storage.Counted := by
  induction groups generalizing candidate with
  | nil =>
    cases hok
    exact h
  | cons group groups ih =>
    rw [List.foldlM_cons] at hok
    obtain ⟨next, hnext, hok⟩ := Except.bind_eq_ok.mp hok
    exact ih (h.applyChanges hnext) hok

/-- What a script has made of a database after any number of its statements' changes. -/
inductive ScriptCandidate.Leads (json : SerdeJson) (candidate : ScriptCandidate) :
    ScriptCandidate → Prop where
  | start : Leads json candidate candidate
  | statement {before after : ScriptCandidate} {changes : List RowChange} {previous : List PreviousRow} :
    Leads json candidate before → applyChangesByTable json before changes previous = .ok after →
      Leads json candidate after

/-- However a script's statements change the rows of its tables, and whatever planning reports of the
rows before, the trees of its tables and indexes stay in order and counted. -/
theorem script_keeps_counts (json : SerdeJson) (candidate candidate' : ScriptCandidate)
    (counted : candidate.storage.Counted) (run : candidate.Leads json candidate') :
    candidate'.storage.Counted := by
  induction run with
  | start => exact counted
  | @statement before after changes previous _ hok ih =>
    cases changes with
    | nil =>
      cases hok
      exact ih
    | cons first rest =>
      rw [applyChangesByTable] at hok
      split at hok
      · exact ih.applyChanges hok
      · exact ih.applyGroups hok

/-- The weir's gauges, with an index of their notes. -/
def notedWeir : PagedStorage :=
  { weir with indexes := ⟨[("by_note", ⟨gaugesByNote, 17,
    some [[⟨[0, 1, 128, 0, 0, 0, 0, 0, 1, 44] ++ gaugeEntry.key, [], true⟩]], 1⟩)]⟩ }

theorem script_keeps_counts_weir : ∃ candidate,
    applyChangesByTable literalJson ⟨notedWeir, 0⟩
      [.put "gauges" (192 :: gaugeEntry.key.tail) gaugeEntry.value] [] = .ok candidate ∧
      candidate.storage.indexes.values.map PagedIndex.entryCount = [2] ∧
      candidate.storage.Counted := by
  have hruns : (do
      let candidate ← applyChangesByTable literalJson ⟨notedWeir, 0⟩
        [.put "gauges" (192 :: gaugeEntry.key.tail) gaugeEntry.value] []
      return candidate.storage.indexes.values.map PagedIndex.entryCount : Result (List Nat)) =
        .ok [2] := by decide +kernel
  obtain ⟨candidate, happlied, hruns⟩ := Except.bind_eq_ok.mp hruns
  have hinOrder : notedWeir.tables.InOrder := List.pairwise_singleton _ _
  have hcounted : notedWeir.Counted := by
    refine ⟨hinOrder, fun name table hget => ?_, fun index hindex => ?_⟩
    · obtain rfl := (Prod.mk.inj (List.mem_singleton.mp (hinOrder.get_eq_some_iff.mp hget))).2
      exact ⟨List.pairwise_singleton _ _, rfl⟩
    · rw [List.mem_singleton.mp hindex]
      exact ⟨⟨List.pairwise_singleton _ _, rfl⟩, fun entry hentry => by
        rw [List.mem_singleton.mp hentry]⟩
  exact ⟨candidate, happlied, Except.ok.inj hruns, script_keeps_counts literalJson ⟨notedWeir, 0⟩ candidate
    hcounted (.statement .start happlied)⟩

end TinyJoin
