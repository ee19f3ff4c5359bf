import Mathlib.Data.List.TakeWhile
import TinyJoin.Lib.Reassign
import TinyJoin.ScriptChanges

/-! A script's writer leaves in a table what a statement's changes, made one after another, would. -/
namespace TinyJoin
open Reassign

/-! ### Batches -/

namespace Tree
variable {entries : List TreeEntry} {batch : Batch} {key : List UInt8}

/-- The value that a key holds among entries. -/
def held (entries : List TreeEntry) (key : List UInt8) : Option (List UInt8) :=
  (entries.find? (fun entry => entry.key == key)).map (fun entry => entry.value)

lemma held_append (before after : List TreeEntry) :
    held (before ++ after) key = (held before key).or (held after key) := by
  rw [held, List.find?_append, Option.map_or]
  rfl

lemma held_eq_none (h : ∀ entry ∈ entries, entry.key ≠ key) : held entries key = none := by
  rw [held, Option.map_eq_none_iff, List.find?_eq_none]
  intro entry hentry heq
  exact h entry hentry (beq_iff_eq.mp heq)

lemma held_newValue (other : List UInt8) (value : Option (List UInt8)) :
    held (value.map (newValue other)).toList key = if key = other then value else none := by
  cases value with
  | none => exact (ite_self _).symm
  | some value =>
    by_cases hkey : key = other
    · simp [held, newValue, hkey]
    · have hne : other ≠ key := fun heq => hkey heq.symm
      simp [held, newValue, hkey, hne]

/-- Entries in key order are those below a key, the key's, and those above it. -/
lemma split_at (hordered : entries.Pairwise (fun a b => a.key < b.key)) (key : List UInt8) :
    ∃ before at' after, entries = before ++ (at' ++ after) ∧
      entries.takeWhile (fun entry => entry.key < key) = before ∧
      (entries.dropWhile (fun entry => entry.key < key)).dropWhile (fun entry => entry.key == key) =
        after ∧
      (∀ entry ∈ before, entry.key < key) ∧ (∀ entry ∈ at', entry.key = key) ∧
      ∀ entry ∈ after, key < entry.key := by
  refine ⟨_, (entries.dropWhile (fun entry => entry.key < key)).takeWhile
    (fun entry => entry.key == key), _, ?_, rfl, rfl, ?_, ?_, ?_⟩
  · rw [List.takeWhile_append_dropWhile, List.takeWhile_append_dropWhile]
  · intro entry hentry
    simpa using List.mem_takeWhile_imp hentry
  · intro entry hentry
    simpa using List.mem_takeWhile_imp hentry
  · induction entries with
    | nil => exact fun _ hmem => (nomatch hmem)
    | cons first rest ih =>
      rw [List.pairwise_cons] at hordered
      by_cases hlt : first.key < key
      · rw [List.dropWhile_cons_of_pos (by simpa using hlt)]
        exact ih hordered.2
      · rw [List.dropWhile_cons_of_neg (by simpa using hlt)]
        have hrest : ∀ entry ∈ rest, key < entry.key := fun entry hentry =>
          (not_lt.mp hlt).trans_lt (hordered.1 entry hentry)
        by_cases heq : first.key = key
        · rw [List.dropWhile_cons_of_pos (by simpa using heq)]
          exact fun entry hentry => hrest entry ((List.dropWhile_sublist _).subset hentry)
        · rw [List.dropWhile_cons_of_neg (by simpa using heq)]
          exact List.forall_mem_cons.mpr ⟨lt_of_le_of_ne (not_lt.mp hlt) (Ne.symm heq), hrest⟩

/-- A batch merged into entries edits what they hold. -/
lemma held_mergeEntries (hordered : entries.Pairwise (fun a b => a.key < b.key))
    (hbatch : (batch.map Prod.fst).Pairwise (· < ·)) (key : List UInt8) :
    held (mergeEntries entries batch) key = edits (held entries) batch key := by
  induction batch generalizing entries with
  | nil => rfl
  | cons change batch ih =>
    obtain ⟨changed, value⟩ := change
    rw [List.map_cons, List.pairwise_cons] at hbatch
    obtain ⟨before, at', after, hentries, htake, hdrop, hbefore, hat, hafter⟩ :=
      split_at hordered changed
    rw [mergeEntries, htake, hdrop, held_append, held_append, held_newValue, edits_cons]
    have hrest := @ih after (hordered.sublist (hentries ▸
      (List.sublist_append_right at' after).trans (List.sublist_append_right before _))) hbatch.2
    rw [hrest]
    have hkeys : ∀ other, other ≤ changed → other ∉ batch.map Prod.fst := fun other hle hmem =>
      absurd (hbatch.1 other hmem) (not_lt.mpr hle)
    rcases lt_trichotomy key changed with hlt | heq | hgt
    · have habove : held after key = none := held_eq_none (fun entry hentry heq =>
        absurd (hafter entry hentry) (heq ▸ hlt.not_gt))
      have hhere : held at' key = none := held_eq_none (fun entry hentry heq =>
        absurd (hat entry hentry) (heq ▸ hlt.ne))
      rw [edits_of_not_mem (hkeys key hlt.le), edits_of_not_mem (hkeys key hlt.le), habove,
        if_neg hlt.ne, Function.update_of_ne hlt.ne, hentries, held_append, held_append, habove, hhere]
    · subst heq
      have habove : held after key = none := held_eq_none (fun entry hentry heq =>
        absurd (hafter entry hentry) (heq ▸ lt_irrefl _))
      have hbelow : held before key = none := held_eq_none (fun entry hentry heq =>
        absurd (hbefore entry hentry) (heq ▸ lt_irrefl _))
      rw [edits_of_not_mem (hkeys key le_rfl), edits_of_not_mem (hkeys key le_rfl), habove, hbelow,
        if_pos rfl, Function.update_self, Option.none_or, Option.or_none]
    · have hbelow : held before key = none := held_eq_none (fun entry hentry heq =>
        absurd (hbefore entry hentry) (heq ▸ hgt.not_gt))
      have hhere : held at' key = none := held_eq_none (fun entry hentry heq =>
        absurd (hat entry hentry) (heq ▸ hgt.ne'))
      rw [hbelow, if_neg hgt.ne', Option.none_or, Option.none_or]
      refine edits_congr ?_ batch
      rw [Function.update_of_ne hgt.ne', hentries, held_append, held_append, hbelow, hhere,
        Option.none_or, Option.none_or]

lemma apply_eq_ok {root : Option Tree} {applied : BtreeBatch}
    (h : Tree.apply root batch = .ok applied) :
    (applied.root.getD []).flatten = mergeEntries ((root.getD []).flatten) batch := by
  obtain ⟨_, -, h⟩ := Except.bind_eq_ok.mp h
  cases h
  dsimp only
  split
  · next hempty => exact (List.isEmpty_iff.mp hempty).symm
  · exact List.flatten_singleton

end Tree

/-! ### Changes by key -/

section Writing
variable {json : SerdeJson} {storage : PagedStorage} {table : PagedTable} {name : String}
  {view : TableView}

lemma nextRecord_eq_ok (htable : storage.table name = .ok table) {key : List UInt8} {row : PatchRow}
    {next : Option (List UInt8)} {bytes : Nat} (h : nextRecord json table key row = .ok (next, bytes)) :
    row.writes json storage name = next := by
  cases row with
  | map row =>
    obtain ⟨record, hrecord, h⟩ := Except.bind_eq_ok.mp h
    obtain ⟨_, -, h⟩ := Except.bind_eq_ok.mp h
    cases h
    simp only [PatchRow.writes, htable, bind, Except.bind, hrecord]
    rfl
  | record record =>
    obtain ⟨_, -, h⟩ := Except.bind_eq_ok.mp h
    obtain ⟨_, -, h⟩ := Except.bind_eq_ok.mp h
    cases h
    rfl
  | delete key =>
    cases h
    rfl
  | remove =>
    cases h
    rfl

/-- One change of a statement puts its record in the place of what its key had planned. -/
lemma writeChange_eq_ok {writing writing' : Writing} {change : RowChange} {previous : PreviousRow}
    (hvalid : writing.changes.Valid)
    (hok : writeChange json storage table writing (change, previous) = .ok writing') :
    ∃ key planned bytes,
      PagedTransaction.changeKey storage change.table change.patchRow change.parts.2.2 previous =
        .ok key ∧
      nextRecord json table key change.patchRow = .ok (planned.row.next, bytes) ∧
      writing'.changes.Valid ∧
      ∀ row, row ∈ writing'.changes.rows ↔
        row = (key, planned) ∨ row.1 ≠ key ∧ row ∈ writing.changes.rows := by
  rcases hparts : change.parts with ⟨name, row, encoded⟩
  have hname : change.table = name := by rw [RowChange.table, hparts]
  have hrow : change.patchRow = row := by rw [RowChange.patchRow, hparts]
  rw [hname, hrow]
  simp only [writeChange, hparts] at hok
  obtain ⟨key, hkey, hok⟩ := Except.bind_eq_ok.mp hok
  cases hslot : (writing.changes.observe key).getMut key with
  | some slot =>
    simp only [hslot] at hok
    obtain ⟨-, hok⟩ := Except.ite_error_eq_ok.mp hok
    obtain ⟨⟨next, nextBytes⟩, hnext, hok⟩ := Except.bind_eq_ok.mp hok
    obtain ⟨_, -, hok⟩ := Except.bind_eq_ok.mp hok
    obtain ⟨_, -, hok⟩ := Except.bind_eq_ok.mp hok
    cases hok
    obtain ⟨planned, hplanned⟩ := KeyedRows.getMut_eq_some hslot
    refine ⟨key, ⟨⟨planned.row.old, next⟩, planned.written || !row.isDelete⟩, nextBytes, hkey, hnext,
      ?_, fun other => ?_⟩
    · have hobserved : (writing.changes.observe key).Valid := hvalid.observe
      exact hobserved.modify slot (fun planned =>
        ⟨⟨planned.row.old, next⟩, planned.written || !row.isDelete⟩)
    rw [KeyedRows.modify, KeyedRows.observe_rows]
    exact mem_modify_keyed_iff hvalid.nodup hplanned (fun planned =>
      ⟨⟨planned.row.old, next⟩, planned.written || !row.isDelete⟩) other
  | none =>
    simp only [hslot] at hok
    obtain ⟨⟨next, nextBytes⟩, hnext, hok⟩ := Except.bind_eq_ok.mp hok
    obtain ⟨⟨old, operations⟩, -, hok⟩ := Except.bind_eq_ok.mp hok
    obtain ⟨_, -, hok⟩ := Except.bind_eq_ok.mp hok
    obtain ⟨_, -, hok⟩ := Except.bind_eq_ok.mp hok
    cases hok
    have hmissing := hvalid.getMut_eq_none hslot
    exact ⟨key, ⟨⟨old, next⟩, !row.isDelete⟩, nextBytes, hkey, hnext, hvalid.insert hmissing _,
      KeyedRows.mem_insert_iff hmissing _⟩

/-- The rows planned are those in which a view differs from the one before the statement. -/
structure WritingHolds (name : String) (view view' : TableView) (writing : Writing) : Prop where
  valid : writing.changes.Valid
  planned : ∀ key planned, (key, planned) ∈ writing.changes.rows → view' name key = planned.row.next
  unplanned : ∀ key, key ∉ writing.changes.keys → view' name key = view name key

/-- A change is planned for the key that it is made to. -/
lemma WritingHolds.change {view' : TableView} {writing writing' : Writing}
    (h : WritingHolds name view view' writing) (htable : storage.table name = .ok table)
    {change : RowChange × PreviousRow} (hname : change.1.table = name)
    (hreports : change.2.Reports json storage view change.1)
    (hok : writeChange json storage table writing change = .ok writing') :
    WritingHolds name view (change.1.apply json storage view') writing' := by
  obtain ⟨key, planned, bytes, hkey, hnext, hvalid, hrows⟩ := writeChange_eq_ok h.valid hok
  have hmade : change.1.key storage = some key := changeKey_eq_ok hreports hkey
  have hwritten : change.1.apply json storage view' name key = planned.row.next := by
    rw [RowChange.apply, if_pos ⟨hname.symm, hmade⟩, hname]
    exact nextRecord_eq_ok htable hnext
  have hframe : ∀ other, other ≠ key →
      change.1.apply json storage view' name other = view' name other := by
    intro other hother
    rw [RowChange.apply, if_neg]
    rintro ⟨-, hsame⟩
    rw [hmade, Option.some.injEq] at hsame
    exact hother hsame.symm
  refine ⟨hvalid, fun other row hmem => ?_, fun other hmissing => ?_⟩
  · rcases (hrows _).mp hmem with heq | ⟨hother, hmem⟩
    · cases heq
      exact hwritten
    · rw [hframe other hother]
      exact h.planned other row hmem
  · have hother : other ≠ key := by
      rintro rfl
      exact hmissing (KeyedRows.mem_keys_iff.mpr ⟨planned, (hrows _).mpr (.inl rfl)⟩)
    rw [hframe other hother]
    refine h.unplanned other (fun hmem => hmissing ?_)
    obtain ⟨row, hrow⟩ := KeyedRows.mem_keys_iff.mp hmem
    exact KeyedRows.mem_keys_iff.mpr ⟨row, (hrows _).mpr (.inr ⟨hother, hrow⟩)⟩

/-- The loop over a statement's changes plans what they leave, and finds a record of each row written. -/
lemma WritingHolds.changes {view' : TableView} {writing writing' : Writing}
    (h : WritingHolds name view view' writing) (htable : storage.table name = .ok table)
    {changes : List (RowChange × PreviousRow)} (hnames : ∀ change ∈ changes, change.1.table = name)
    (hreports : ∀ change ∈ changes, change.2.Reports json storage view change.1)
    (hok : changes.foldlM (writeChange json storage table) writing = .ok writing') :
    WritingHolds name view (RowChange.applyAll json storage view' (changes.map Prod.fst)) writing' ∧
      ∀ change ∈ changes, ∀ row, change.1 = .upsert name row →
        ∃ record, encodeRow json table.schema row.row = .ok record := by
  induction changes generalizing view' writing with
  | nil =>
    cases hok
    exact ⟨h, fun _ hmem => (nomatch hmem)⟩
  | cons change changes ih =>
    rw [List.foldlM_cons] at hok
    obtain ⟨next, hnext, hok⟩ := Except.bind_eq_ok.mp hok
    rw [List.forall_mem_cons] at hnames hreports
    obtain ⟨hlast, hrecords⟩ := ih (h.change htable hnames.1 hreports.1 hnext) hnames.2
      hreports.2 hok
    refine ⟨hlast, List.forall_mem_cons.mpr ⟨?_, hrecords⟩⟩
    intro row hrow
    obtain ⟨change, previous⟩ := change
    obtain rfl : change = .upsert name row := hrow
    obtain ⟨_, _, _, -, hrecord, -⟩ := writeChange_eq_ok h.valid hnext
    obtain ⟨record, hencoded, -⟩ := Except.bind_eq_ok.mp hrecord
    exact ⟨record, hencoded⟩

end Writing

/-! ### Writing the trees -/

section Trees
variable {json : SerdeJson} {storage storage' : PagedStorage} {name : String}

lemma table_eq_ok {table : PagedTable} :
    storage.table name = .ok table ↔ storage.tables.get name = some table := by
  rw [PagedStorage.table]
  cases storage.tables.get name with
  | none => exact iff_of_false (by simp) (by simp)
  | some found => exact ⟨fun h => congrArg some (Except.ok.inj h), fun h => congrArg _ (Option.some.inj h)⟩

/-- Writing a table's changed rows edits the records that its keys hold, and no other table's. -/
lemma applyRowChanges_eq_ok {table : PagedTable} (htable : storage.table name = .ok table)
    (hinOrder : storage.tables.InOrder)
    (hordered : table.entries.Pairwise (fun a b => a.key < b.key))
    {changes : List (List UInt8 × ChangedRow)} (hsorted : (changes.map Prod.fst).Pairwise (· < ·))
    (hok : applyRowChanges json storage name changes = .ok storage') :
    storage'.committed name = edits (storage.committed name) (changedBatch changes) ∧
      ∀ other, other ≠ name → storage'.committed other = storage.committed other := by
  obtain ⟨found, hfound, hok⟩ := Except.bind_eq_ok.mp hok
  rw [htable, Except.ok.injEq] at hfound
  subst hfound
  obtain ⟨applied, happlied, hok⟩ := Except.bind_eq_ok.mp hok
  obtain ⟨-, hok⟩ := Except.ite_error_eq_ok.mp hok
  obtain ⟨rowCount, -, hok⟩ := Except.bind_eq_ok.mp hok
  obtain ⟨indexes, -, hok⟩ := Except.bind_eq_ok.mp hok
  cases hok
  have hget : ∀ other, (storage.tables.put (storage.tables.position name) name
      { table with root := applied.root, rowCount }).get other =
        if other = name then some { table with root := applied.root, rowCount }
        else storage.tables.get other := fun other => hinOrder.get_put
  constructor
  · funext key
    have hbatch : ((changedBatch changes).map Prod.fst).Pairwise (· < ·) := by
      rw [changedBatch, List.map_map]
      exact hsorted
    have hbefore : storage.committed name = Tree.held table.entries := by
      funext key
      rw [PagedStorage.committed, table_eq_ok.mp htable]
      rfl
    rw [PagedStorage.committed, hget, if_pos rfl, hbefore,
      ← Tree.held_mergeEntries hordered hbatch, PagedTable.entries, ← Tree.apply_eq_ok happlied]
    rfl
  · intro other hother
    funext key
    rw [PagedStorage.committed, PagedStorage.committed, hget, if_neg hother]

end Trees

/-! ### A statement's changes -/

section Statement

/-- Changes leave the tables that they name none of. -/
lemma RowChange.applyAll_other {json : SerdeJson} {storage : PagedStorage} {view : TableView}
    {table : String} {changes : List RowChange} (h : ∀ change ∈ changes, change.table ≠ table) :
    applyAll json storage view changes table = view table := by
  induction changes generalizing view with
  | nil => rfl
  | cons change changes ih =>
    rw [List.forall_mem_cons] at h
    refine (ih h.2).trans ?_
    funext key
    rw [RowChange.apply, if_neg (fun hsame => h.1 hsame.1.symm)]

variable {json : SerdeJson} {candidate candidate' : ScriptCandidate} {table : PagedTable}
  {name : String} {changes : List RowChange} {previous : List PreviousRow}

/-- A script's writer leaves in the table what the statement's changes, made one after another, leave
there, and every row that it wrote has a record. -/
lemma applyChanges_spec (htable : candidate.storage.table name = .ok table)
    (hinOrder : candidate.storage.tables.InOrder)
    (hordered : table.entries.Pairwise (fun a b => a.key < b.key))
    (hnames : ∀ change ∈ changes, change.table = name)
    (hreports : ∀ change ∈ PagedTransaction.withPrevious changes previous,
      change.2.Reports json candidate.storage candidate.storage.committed change.1)
    (hok : applyChanges json candidate changes previous = .ok candidate') :
    (∀ other, candidate'.storage.committed other =
      RowChange.applyAll json candidate.storage candidate.storage.committed changes other) ∧
      ∀ row, .upsert name row ∈ changes →
        ∃ record, encodeRow json table.schema row.row = .ok record := by
  cases changes with
  | nil =>
    cases hok
    exact ⟨fun _ => rfl, fun _ hmem => (nomatch hmem)⟩
  | cons first rest =>
    obtain rfl : first.table = name := hnames first List.mem_cons_self
    obtain ⟨_, -, hok⟩ := Except.bind_eq_ok.mp hok
    obtain ⟨_, -, hok⟩ := Except.bind_eq_ok.mp hok
    obtain ⟨charged, -, hok⟩ := Except.bind_eq_ok.mp hok
    obtain ⟨found, hfound, hok⟩ := Except.bind_eq_ok.mp hok
    rw [htable, Except.ok.injEq] at hfound
    subst hfound
    obtain ⟨writing, hwriting, hok⟩ := Except.bind_eq_ok.mp hok
    obtain ⟨⟨retained, operations⟩, -, hok⟩ := Except.bind_eq_ok.mp hok
    obtain ⟨storage', happlied, hok⟩ := Except.bind_eq_ok.mp hok
    cases hok
    have hfst := PagedTransaction.withPrevious_fst (first :: rest) previous
    have hbegin : WritingHolds first.table candidate.storage.committed candidate.storage.committed
        ⟨.empty, 0, charged⟩ :=
      ⟨KeyedRows.valid_empty, fun _ _ hmem => (nomatch hmem), fun _ _ => rfl⟩
    obtain ⟨holds, hrecords⟩ := hbegin.changes htable
      (fun change hchange => hnames _ (hfst ▸ List.mem_map_of_mem hchange)) hreports hwriting
    rw [hfst] at holds
    obtain ⟨hperm, hsorted⟩ := holds.valid.intoSorted_spec
    have hkeys : (writing.changes.intoSorted.map (fun row => (row.1, row.2.row))).map Prod.fst =
        writing.changes.intoSorted.map Prod.fst := by
      rw [List.map_map]
      rfl
    obtain ⟨hwritten, hothers⟩ := applyRowChanges_eq_ok htable hinOrder hordered
      (hkeys ▸ hsorted) happlied
    refine ⟨fun other => ?_, fun row hrow => ?_⟩
    · by_cases hother : other = first.table
      · rw [hother, hwritten]
        funext key
        have hbatch : (changedBatch (writing.changes.intoSorted.map
            (fun row => (row.1, row.2.row)))).map Prod.fst =
              writing.changes.intoSorted.map Prod.fst := by
          rw [changedBatch, List.map_map, List.map_map]
          rfl
        by_cases hkey : key ∈ writing.changes.keys
        · obtain ⟨planned, hplanned⟩ := KeyedRows.mem_keys_iff.mp hkey
          rw [holds.planned key planned hplanned]
          refine edits_of_mem (hbatch ▸ hsorted.imp (fun hlt => hlt.ne)) ?_
          rw [changedBatch, List.map_map]
          exact List.mem_map.mpr ⟨_, hperm.mem_iff.mpr hplanned, rfl⟩
        · rw [holds.unplanned key hkey]
          refine edits_of_not_mem (hbatch ▸ fun hmem => hkey ?_)
          exact (hperm.map Prod.fst).mem_iff.mp hmem
      · rw [hothers other hother]
        refine (RowChange.applyAll_other (fun change hchange => ?_)).symm
        rw [hnames change hchange]
        exact Ne.symm hother
    · obtain ⟨entry, hentry, heq⟩ := List.mem_map.mp (hfst.symm ▸ hrow)
      exact hrecords entry hentry row heq

end Statement
end TinyJoin
