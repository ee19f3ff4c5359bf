import TinyJoin.OverlayInvariant
import TinyJoin.Lib.Effect
import TinyJoin.Transaction

/-! The rows a transaction's readers should see, as one map that each statement's changes are applied
to, and that the staged rows over the committed ones are that map. -/
namespace TinyJoin

/-- The record each key of each table holds, if it holds one. -/
abbrev TableView : Type := String → List UInt8 → Option (List UInt8)

def PagedTable.committed (table : PagedTable) (key : List UInt8) : Option (List UInt8) :=
  (table.entries.find? (fun entry => entry.key == key)).map (fun entry => entry.value)

def PagedStorage.committed (storage : PagedStorage) : TableView := fun table key =>
  (storage.tables.get table).bind (fun table => table.committed key)

/-! ### Changes applied to a view -/

/-- The record a change leaves in its key. -/
def PatchRow.writes (json : SerdeJson) (storage : PagedStorage) (table : String) :
    PatchRow → Option (List UInt8)
  | .map row => (do encodeRow json (← storage.table table).schema row.row).toOption
  | .record bytes => some bytes
  | .delete _ => none
  | .remove => none

namespace RowChange

def table (change : RowChange) : String := change.parts.1

def patchRow (change : RowChange) : PatchRow := change.parts.2.1

/-- The encoded key of the row a change is made to. -/
def key (storage : PagedStorage) (change : RowChange) : Option (List UInt8) :=
  match change with
  | .upsert table row => (do encodePrimaryKey (← storage.table table).schema row.row).toOption
  | .delete table row => (do encodePrimaryKey (← storage.table table).schema row.row).toOption
  | .put _ key _ => some key
  | .remove _ key => some key

/-- The view once a change is made. -/
def apply (json : SerdeJson) (storage : PagedStorage) (view : TableView) (change : RowChange) :
    TableView := fun table key =>
  if table = change.table ∧ change.key storage = some key then
    change.patchRow.writes json storage change.table
  else view table key

/-- The view once a statement's changes are made, one after another. -/
def applyAll (json : SerdeJson) (storage : PagedStorage) (view : TableView)
    (changes : List RowChange) : TableView :=
  changes.foldl (apply json storage) view

end RowChange

/-- A row kept for a key is the one the key holds. -/
def HeldRow.Describes (json : SerdeJson) (storage : PagedStorage) (table : String)
    (key : List UInt8) : Option HeldRow → Option (List UInt8) → Prop
  | none, value => value = none
  | some (.stored storedKey record), value => storedKey = key ∧ value = some record
  | some (.map row), value =>
    ∃ record, (do encodeRow json (← storage.table table).schema row.row) = .ok record ∧
      value = some record
  | some (.measured _), value => value.isSome

/-- What planning reports for a change is what its key held before the statement, where planning
read it. -/
def PreviousRow.Reports (json : SerdeJson) (storage : PagedStorage) (view : TableView)
    (change : RowChange) (held : PreviousRow) : Prop :=
  match held with
  | .unread => True
  | .read row => ∃ key, change.key storage = some key ∧
    HeldRow.Describes json storage change.table key row (view change.table key)

/-- The transactions that statements make over a committed database, each with the view its readers
should see. An ordered walk of a table may come between any two. -/
inductive Staged (json : SerdeJson) (storage : PagedStorage) :
    PagedTransaction → TableView → Prop where
  | new : Staged json storage (.new storage.revision) storage.committed
  | stage {transaction transaction' : PagedTransaction} {view : TableView}
      {changes : List RowChange} {previous : List PreviousRow} :
    Staged json storage transaction view →
    (∀ change ∈ PagedTransaction.withPrevious changes previous,
      change.2.Reports json storage view change.1) →
    transaction.stage json storage changes previous = .ok transaction' →
    Staged json storage transaction' (RowChange.applyAll json storage view changes)
  | walk {transaction : PagedTransaction} {view : TableView} (table : String) :
    Staged json storage transaction view → Staged json storage (transaction.merged table) view

/-! ### What staging keeps -/

section Invariant
variable {json : SerdeJson} {storage : PagedStorage}

/-- A staged entry was made from the committed row of its key. -/
def EntryMade (json : SerdeJson) (storage : PagedStorage) (table : String) (key : List UInt8)
    (entry : OverlayEntry) : Prop :=
  ∃ paged change, storage.table table = .ok paged ∧
    HeldRow.Describes json storage table key change.base (storage.committed table key) ∧
    overlayEntry json storage paged (storage.tableIndexes table) key change = .ok entry

/-- A table's staged rows, over its committed ones, are what a view shows of it. -/
structure OverlayHolds (json : SerdeJson) (storage : PagedStorage) (view : TableView)
    (table : String) (overlay : TableOverlay) : Prop where
  coherent : overlay.Coherent
  deletes : overlay.CountsDeletes
  made : ∀ row ∈ overlay.rows, EntryMade json storage table row.1 row.2
  shows : ∀ key, view table key =
    ((overlay.get key).map (fun entry => entry.row.next)).getD (storage.committed table key)

structure TransactionHolds (json : SerdeJson) (storage : PagedStorage)
    (transaction : PagedTransaction) (view : TableView) : Prop where
  revision : transaction.baseRevision = storage.revision
  inOrder : transaction.tables.InOrder
  staged : ∀ table overlay, transaction.table table = some overlay →
    OverlayHolds json storage view table overlay
  unstaged : ∀ table, transaction.table table = none →
    ∀ key, view table key = storage.committed table key

lemma overlayEntry_eq_ok {paged : PagedTable} {indexes : List PagedIndex} {key : List UInt8}
    {change : PatchChange} {entry : OverlayEntry}
    (h : overlayEntry json storage paged indexes key change = .ok entry) :
    ∃ next map measured rowBytes,
      patchRecord json paged key change.row = .ok (next, map) ∧
      recordChanged json paged.schema change.base next = .ok entry.changed ∧
      changeRow json paged key map next = .ok (measured, rowBytes) ∧
      entryCost json storage paged indexes key change entry.changed measured = .ok entry.cost ∧
      entry.row = ⟨change.base, next⟩ := by
  rw [overlayEntry, Except.bind_eq_ok] at h
  obtain ⟨⟨next, map⟩, hrecord, h⟩ := h
  rw [Except.bind_eq_ok] at h
  obtain ⟨changed, hchanged, h⟩ := h
  rw [Except.bind_eq_ok] at h
  obtain ⟨baseBytes, -, h⟩ := h
  rw [Except.bind_eq_ok] at h
  obtain ⟨⟨measured, rowBytes⟩, hmeasured, h⟩ := h
  rw [Except.bind_eq_ok] at h
  obtain ⟨cost, hcost, h⟩ := h
  cases h
  exact ⟨next, map, measured, rowBytes, hrecord, hchanged, hmeasured, hcost, rfl⟩

/-- The record a change comes to is the one it writes. -/
lemma patchRecord_eq_ok {paged : PagedTable} {table : String} {key : List UInt8} {row : PatchRow}
    {next : Option (List UInt8)} {map : Option RowMap} (hpaged : storage.table table = .ok paged)
    (h : patchRecord json paged key row = .ok (next, map)) :
    next = row.writes json storage table ∧ next.isNone = row.isDelete := by
  cases row with
  | map row =>
    rw [patchRecord, Except.bind_eq_ok] at h
    obtain ⟨record, hrecord, h⟩ := h
    cases h
    rw [PatchRow.writes, hpaged]
    change some record = (encodeRow json paged.schema row.row).toOption ∧ _
    rw [hrecord]
    exact ⟨rfl, rfl⟩
  | record bytes =>
    cases h
    exact ⟨rfl, rfl⟩
  | delete key =>
    cases h
    exact ⟨rfl, rfl⟩
  | remove =>
    rw [patchRecord] at h
    split_ifs at h
    · cases h
      exact ⟨rfl, rfl⟩
    · rw [Except.bind_eq_ok] at h
      obtain ⟨row, -, h⟩ := h
      cases h
      exact ⟨rfl, rfl⟩

lemma changeCostIn_measured {paged : PagedTable} {indexes : List PagedIndex} {row : ChangeRow}
    {isDelete : Bool} {key : List UInt8} {bytes : Nat} {cost : ChangeCost} :
    storage.changeCostIn json paged indexes row isDelete key (some (.measured bytes)) ≠
      .ok cost := by
  intro h
  rw [PagedStorage.changeCostIn] at h
  simp only [Except.bind_eq_ok] at h
  obtain ⟨_, -, _, -, _, -, _, -, _, -, _, hbase, -⟩ := h
  cases hbase

/-- Whether a record differs from the row a key holds, which was not merely measured. -/
lemma recordChanged_eq_ok {table : String} {paged : PagedTable} {key : List UInt8}
    {held : Option HeldRow} {value next : Option (List UInt8)} {changed : Bool}
    (hpaged : storage.table table = .ok paged)
    (hheld : HeldRow.Describes json storage table key held value)
    (hmeasured : ∀ bytes, held ≠ some (.measured bytes))
    (h : recordChanged json paged.schema held next = .ok changed) :
    changed = true ↔ value ≠ next := by
  cases held with
  | none =>
    rw [show value = none from hheld]
    cases next <;> simp [← Except.ok.inj h]
  | some held =>
    cases held with
    | map row =>
      obtain ⟨record, hrecord, rfl⟩ := hheld
      rw [hpaged] at hrecord
      change encodeRow json paged.schema row.row = .ok record at hrecord
      cases next with
      | none => simp [← Except.ok.inj h]
      | some bytes =>
        rw [recordChanged, hrecord] at h
        rw [← Except.ok.inj h]
        simp
    | stored storedKey record =>
      obtain ⟨-, rfl⟩ := hheld
      cases next <;> simp [← Except.ok.inj h]
    | measured bytes => exact absurd rfl (hmeasured bytes)

/-- An entry is marked as changed exactly when what it stages differs from the committed row. -/
lemma EntryMade.changed_iff {table : String} {key : List UInt8} {entry : OverlayEntry}
    (h : EntryMade json storage table key entry) :
    entry.changed = true ↔ storage.committed table key ≠ entry.row.next := by
  obtain ⟨paged, change, hpaged, hbase, hentry⟩ := h
  obtain ⟨next, map, measured, rowBytes, -, hchanged, -, hcost, hrow⟩ := overlayEntry_eq_ok hentry
  have hnext : entry.row.next = next := by rw [hrow]
  rw [hnext]
  refine recordChanged_eq_ok hpaged hbase ?_ hchanged
  intro bytes hheld
  have htrue : entry.changed = true := by
    rw [hheld] at hchanged
    cases next <;> exact (Except.ok.inj hchanged).symm
  rw [htrue, entryCost, if_pos rfl, hheld] at hcost
  obtain ⟨cost, hcost, -⟩ := Except.map_eq_ok.mp hcost
  exact changeCostIn_measured hcost

variable {transaction : PagedTransaction} {view : TableView}

lemma toOption_of_ok {α : Type} {x : Result α} {a : α} (h : x = .ok a) : x.toOption = some a := by
  rw [h]
  rfl

/-- The key a change is staged at is the one it is made to. -/
lemma changeKey_eq_ok {change : RowChange} {held : PreviousRow} {key : List UInt8}
    (hreports : held.Reports json storage view change)
    (h : PagedTransaction.changeKey storage change.table change.patchRow change.parts.2.2 held =
      .ok key) : change.key storage = some key := by
  have hstored : ∀ storedKey record, held = .read (some (.stored storedKey record)) →
      change.key storage = some storedKey := by
    rintro storedKey record rfl
    obtain ⟨key, hkey, hsame, -⟩ := hreports
    rw [hkey, hsame]
  cases change with
  | put table key record => exact congrArg some (Except.ok.inj h)
  | remove table key => exact congrArg some (Except.ok.inj h)
  | upsert table row =>
    match held, h, hstored with
    | .unread, h, _ => exact toOption_of_ok h
    | .read none, h, _ => exact toOption_of_ok h
    | .read (some (.map _)), h, _ => exact toOption_of_ok h
    | .read (some (.measured _)), h, _ => exact toOption_of_ok h
    | .read (some (.stored storedKey record)), h, hstored =>
      exact (hstored storedKey record rfl).trans (congrArg some (Except.ok.inj h))
  | delete table row =>
    match held, h, hstored with
    | .unread, h, _ => exact toOption_of_ok h
    | .read none, h, _ => exact toOption_of_ok h
    | .read (some (.map _)), h, _ => exact toOption_of_ok h
    | .read (some (.measured _)), h, _ => exact toOption_of_ok h
    | .read (some (.stored storedKey record)), h, hstored =>
      exact (hstored storedKey record rfl).trans (congrArg some (Except.ok.inj h))

/-- A key's committed row, as the storage reads it. -/
lemma committedEntry_eq_ok {table : String} {key : List UInt8} {value : Option (List UInt8)}
    (h : storage.committedEntry table key = .ok value) : storage.committed table key = value := by
  rw [PagedStorage.committedEntry, Except.check_bind_eq_ok, Except.bind_eq_ok] at h
  obtain ⟨-, paged, hpaged, h⟩ := h
  rw [PagedStorage.committedEntryOf, Except.check_bind_eq_ok] at h
  have hcommitted : storage.committed table key = paged.committed key := by
    rw [PagedStorage.table] at hpaged
    rw [PagedStorage.committed]
    cases hget : storage.tables.get table with
    | none => rw [hget] at hpaged; cases hpaged
    | some found =>
      rw [hget] at hpaged
      rw [Except.ok.inj hpaged]
      rfl
  rw [hcommitted, PagedTable.committed, PagedTable.entries]
  cases hroot : paged.root with
  | none =>
    rw [hroot] at h
    exact Except.ok.inj h.2
  | some tree =>
    rw [hroot] at h
    obtain ⟨found, hfound, h⟩ := Except.bind_eq_ok.mp h.2
    rw [Tree.get, Except.check_bind_eq_ok] at hfound
    rw [Option.getD_some, Except.ok.inj hfound.2]
    cases found with
    | none => exact Except.ok.inj h
    | some value =>
      obtain ⟨_, -, h⟩ := Except.bind_eq_ok.mp h
      exact Except.ok.inj h

/-- The entry staged for a key, if one is. -/
def PagedTransaction.entry (transaction : PagedTransaction) (table : String) (key : List UInt8) :
    Option OverlayEntry :=
  (transaction.table table).bind (fun overlay => overlay.get key)

lemma TransactionHolds.shows (h : TransactionHolds json storage transaction view) (table : String)
    (key : List UInt8) : view table key =
      ((transaction.entry table key).map (fun entry => entry.row.next)).getD
        (storage.committed table key) := by
  rw [PagedTransaction.entry]
  cases hoverlay : transaction.table table with
  | none => exact h.unstaged table hoverlay key
  | some overlay => exact (h.staged table overlay hoverlay).shows key

lemma TransactionHolds.made (h : TransactionHolds json storage transaction view) {table : String}
    {key : List UInt8} {entry : OverlayEntry} (hentry : transaction.entry table key = some entry) :
    EntryMade json storage table key entry := by
  rw [PagedTransaction.entry, Option.bind_eq_some_iff] at hentry
  obtain ⟨overlay, hoverlay, hget⟩ := hentry
  have holds := h.staged table overlay hoverlay
  exact holds.made _ (holds.coherent.get_eq_some_iff.mp hget)

lemma EntryMade.describes {table : String} {key : List UInt8} {entry : OverlayEntry}
    (h : EntryMade json storage table key entry) :
    HeldRow.Describes json storage table key entry.row.old (storage.committed table key) := by
  obtain ⟨paged, change, -, hbase, hentry⟩ := h
  obtain ⟨next, map, measured, rowBytes, -, -, -, -, hrow⟩ := overlayEntry_eq_ok hentry
  rw [hrow]
  exact hbase

/-- Without staged deletes, a key with no row to see has no entry either. -/
lemma TransactionHolds.entry_eq_none (h : TransactionHolds json storage transaction view)
    {table : String} {key : List UInt8} (hview : view table key = none)
    (hdeletes : (transaction.table table).any (fun overlay => 0 < overlay.deletes) = false) :
    transaction.entry table key = none := by
  by_contra hsome
  obtain ⟨entry, hentry⟩ := Option.ne_none_iff_exists'.mp hsome
  rw [h.shows, hentry] at hview
  rw [PagedTransaction.entry, Option.bind_eq_some_iff] at hentry
  obtain ⟨overlay, hoverlay, hget⟩ := hentry
  have holds := h.staged table overlay hoverlay
  have hrow := holds.coherent.get_eq_some_iff.mp hget
  have hnext : entry.row.next = none := hview
  have hpos : 0 < overlay.deletes := by
    rw [holds.deletes, List.countP_pos_iff]
    exact ⟨_, hrow, by rw [hnext]; rfl⟩
  rw [hoverlay] at hdeletes
  simp [hpos.ne'] at hdeletes

/-- What a statement's first change to a key starts from. -/
lemma firstChange_eq_ok (h : TransactionHolds json storage transaction view) {change : RowChange}
    {held : PreviousRow} {key : List UInt8} {planned : PatchChange} {found : Option Probing.Probe}
    (hreports : held.Reports json storage view change) (hkey : change.key storage = some key)
    (hfirst : PagedTransaction.firstChange storage (transaction.table change.table) change.table
      key held change.patchRow = .ok (planned, found)) :
    HeldRow.Describes json storage change.table key planned.base
        (storage.committed change.table key) ∧
      planned.row = change.patchRow ∧
      planned.replacedDelete =
        (transaction.entry change.table key).any (fun entry => entry.row.next.isNone) ∧
      (∀ probe ∈ found, ∃ overlay, transaction.table change.table = some overlay ∧
        probe = overlay.find key) ∧
      (found.any (fun probe => probe.isOk) = false →
        transaction.entry change.table key = none) := by
  rw [PagedTransaction.firstChange, Except.bind_eq_ok] at hfirst
  obtain ⟨base, hbase, hfirst⟩ := hfirst
  obtain ⟨rfl, rfl⟩ := Prod.mk.inj (Except.ok.inj hfirst)
  set unstaged := !change.patchRow.isDelete &&
    !(transaction.table change.table).any (fun overlay => 0 < overlay.deletes) &&
    held.readNothing with hunstaged
  have hread : unstaged = true → transaction.entry change.table key = none := by
    intro htrue
    rw [hunstaged, Bool.and_eq_true, Bool.and_eq_true, Bool.not_eq_true'] at htrue
    obtain ⟨⟨-, hdeletes⟩, hnothing⟩ := htrue
    refine h.entry_eq_none ?_ (by simpa using hdeletes)
    match held, hnothing, hreports with
    | .read none, _, hreports =>
      obtain ⟨key', hkey', hnone⟩ := hreports
      rw [hkey, Option.some.injEq] at hkey'
      rw [hkey']
      exact hnone
  -- The search is skipped only where it would find nothing.
  have hreplaced : ((transaction.table change.table).bind (fun overlay =>
      (if unstaged then none else
        (transaction.table change.table).map (fun overlay => overlay.find key)).bind
          overlay.entryAt)) = transaction.entry change.table key := by
    cases htrue : unstaged with
    | true =>
      rw [hread htrue]
      cases transaction.table change.table <;> rfl
    | false =>
      rw [PagedTransaction.entry]
      cases transaction.table change.table <;> rfl
  rw [hreplaced] at hbase ⊢
  refine ⟨?_, rfl, rfl, ?_, ?_⟩
  · cases hentry : transaction.entry change.table key with
    | some entry =>
      rw [hentry] at hbase
      rw [← Except.ok.inj hbase]
      exact (h.made hentry).describes
    | none =>
      have hcommitted : view change.table key = storage.committed change.table key := by
        rw [h.shows, hentry]
        rfl
      rw [hentry] at hbase
      cases held with
      | read row =>
        obtain ⟨key', hkey', hrow⟩ := hreports
        rw [hkey, Option.some.injEq] at hkey'
        rw [← Except.ok.inj hbase, ← hcommitted, hkey']
        exact hrow
      | unread =>
        obtain ⟨value, hvalue, hbase⟩ := Except.bind_eq_ok.mp hbase
        rw [← Except.ok.inj hbase, committedEntry_eq_ok hvalue]
        cases value with
        | none => rfl
        | some record => exact ⟨rfl, rfl⟩
  · intro probe hprobe
    cases htrue : unstaged with
    | true => rw [htrue] at hprobe; cases hprobe
    | false =>
      rw [htrue] at hprobe
      obtain ⟨overlay, hoverlay, heq⟩ := Option.map_eq_some_iff.mp hprobe
      exact ⟨overlay, hoverlay, heq.symm⟩
  · intro hnone
    cases htrue : unstaged with
    | true => exact hread htrue
    | false =>
      rw [htrue] at hnone
      rw [PagedTransaction.entry]
      cases hoverlay : transaction.table change.table with
      | none => rfl
      | some overlay =>
        rw [hoverlay] at hnone
        rw [Option.bind_some, TableOverlay.get]
        change (overlay.find key).isOk = false at hnone
        cases hfind : overlay.find key with
        | ok position => rw [hfind] at hnone; cases hnone
        | error slot => rfl

namespace PagedTransaction

/-- The changes planned for a table so far. -/
def Patching.planned (patching : Patching) (table : String) : KeyedRows PatchChange :=
  (NameMap.get ⟨patching.patched⟩ table).getD .empty

/-- The tables of a patch with one table's changes replaced, as a map by name. -/
lemma patchPlace_set (patched : List (String × KeyedRows PatchChange)) (table : String)
    (keyed : KeyedRows PatchChange) :
    (patchPlace patched table).1.set (patchPlace patched table).2 (table, keyed) =
        (NameMap.put ⟨patched⟩ (NameMap.position ⟨patched⟩ table) table keyed).entries ∧
      ((((patchPlace patched table).1[(patchPlace patched table).2]?).map Prod.snd).getD .empty) =
        (NameMap.get ⟨patched⟩ table).getD .empty := by
  rw [patchPlace, NameMap.get, NameMap.position]
  set place := (patched.takeWhile (fun entry => entry.1 < table)).length with hplace
  split_ifs with hfound
  · refine ⟨?_, rfl⟩
    obtain ⟨entry, hentry, rfl⟩ := Option.map_eq_some_iff.mp hfound
    apply List.ext_getElem?
    intro position
    rw [NameMap.put, NameMap.setAt, List.getElem?_set, List.getElem?_modify]
    split_ifs with hat hlt
    · rw [← hat, hentry]
      rfl
    · exact absurd (List.getElem?_eq_some_iff.mp hentry).1 hlt
    · cases patched[position]? <;> rfl
  · have hsplit : patched.takeWhile (fun entry => entry.1 < table) ++
        patched.dropWhile (fun entry => entry.1 < table) = patched :=
      List.takeWhile_append_dropWhile
    have hinsert : ∀ keyed : KeyedRows PatchChange, patched.insertIdx place (table, keyed) =
        patched.takeWhile (fun entry => entry.1 < table) ++
          (table, keyed) :: patched.dropWhile (fun entry => entry.1 < table) := by
      intro keyed
      conv_lhs => rw [← hsplit]
      exact NameMap.insertIdx_length_append _ _ _
    constructor
    · rw [NameMap.put, NameMap.insertAt, hinsert, hinsert, hplace, List.set_append_right _ _ le_rfl,
        Nat.sub_self]
      rfl
    · rw [hinsert, hplace, List.getElem?_append_right le_rfl, Nat.sub_self]
      rfl

/-- What the changes of a statement planned so far come to. -/
structure PatchingHolds (json : SerdeJson) (storage : PagedStorage)
    (transaction : PagedTransaction) (view view' : TableView) (patching : Patching) : Prop where
  inOrder : NameMap.InOrder ⟨patching.patched⟩
  valid : ∀ table, (patching.planned table).Valid
  base : ∀ table key planned, (key, planned) ∈ (patching.planned table).rows →
    HeldRow.Describes json storage table key planned.base (storage.committed table key)
  writes : ∀ table key planned, (key, planned) ∈ (patching.planned table).rows →
    planned.row.writes json storage table = view' table key
  replacedDelete : ∀ table key planned, (key, planned) ∈ (patching.planned table).rows →
    planned.replacedDelete =
      (transaction.entry table key).any (fun entry => entry.row.next.isNone)
  others : ∀ table key, key ∉ (patching.planned table).keys → view' table key = view table key
  replaces : patching.replaces = false →
    ∀ table, ∀ key ∈ (patching.planned table).keys, transaction.entry table key = none

lemma patchingHolds_nil : PatchingHolds json storage transaction view view ⟨[], false⟩ where
  inOrder := List.Pairwise.nil
  valid _ := KeyedRows.valid_empty
  base _ _ _ hrow := (nomatch hrow)
  writes _ _ _ hrow := (nomatch hrow)
  replacedDelete _ _ _ hrow := (nomatch hrow)
  others _ _ _ := rfl
  replaces _ _ _ hrow := (nomatch hrow)

/-- A table's changes put in the place of those planned for it. -/
lemma planned_put {patched : List (String × KeyedRows PatchChange)} {replaces replaces' : Bool}
    (hinOrder : NameMap.InOrder ⟨patched⟩) (table : String) (keyed : KeyedRows PatchChange) :
    NameMap.InOrder ⟨(patchPlace patched table).1.set (patchPlace patched table).2 (table, keyed)⟩ ∧
    ∀ other, Patching.planned ⟨(patchPlace patched table).1.set (patchPlace patched table).2
        (table, keyed), replaces⟩ other =
      if other = table then keyed else Patching.planned ⟨patched, replaces'⟩ other := by
  rw [(patchPlace_set patched table keyed).1]
  refine ⟨hinOrder.put, fun other => ?_⟩
  change (NameMap.get (NameMap.put ⟨patched⟩ _ table keyed) other).getD .empty = _
  rw [hinOrder.get_put]
  split_ifs <;> rfl

/-- What one change adds to those a statement has planned. -/
lemma patchChange_eq_ok {patching patching' : Patching} {change : RowChange × PreviousRow}
    (hok : transaction.patchChange storage patching change = .ok patching') :
    ∃ key keyed, changeKey storage change.1.table change.1.patchRow change.1.parts.2.2 change.2 =
        .ok key ∧
      patching'.patched = (patchPlace patching.patched change.1.table).1.set
        (patchPlace patching.patched change.1.table).2 (change.1.table, keyed) ∧
      ((∃ slot, ((patching.planned change.1.table).observe key).getMut key = some slot ∧
          keyed = ((patching.planned change.1.table).observe key).modify slot (fun planned =>
            { planned with upserted := planned.upserted || !change.1.patchRow.isDelete
                           row := change.1.patchRow }) ∧
          patching'.replaces = patching.replaces) ∨
        ∃ planned found, ((patching.planned change.1.table).observe key).getMut key = none ∧
          firstChange storage (transaction.table change.1.table) change.1.table key change.2
            change.1.patchRow = .ok (planned, found) ∧
          keyed = ((patching.planned change.1.table).observe key).insert key planned ∧
          patching'.replaces = (patching.replaces || found.any (fun probe => probe.isOk))) := by
  rcases hparts : change.1.parts with ⟨table, row, encoded⟩
  have htable : change.1.table = table := by rw [RowChange.table, hparts]
  have hrow : change.1.patchRow = row := by rw [RowChange.patchRow, hparts]
  rw [htable, hrow]
  simp only [patchChange, hparts] at hok
  obtain ⟨key, hkey, hok⟩ := Except.bind_eq_ok.mp hok
  have hplanned : (((patchPlace patching.patched table).1[(patchPlace patching.patched table).2]?).map
      Prod.snd).getD .empty = patching.planned table :=
    (patchPlace_set patching.patched table .empty).2
  simp only [hplanned] at hok
  cases hslot : ((patching.planned table).observe key).getMut key with
  | some slot =>
    simp only [hslot] at hok
    obtain ⟨-, hok⟩ := Except.ite_error_eq_ok.mp hok
    rw [← Except.ok.inj hok]
    exact ⟨key, _, hkey, rfl, .inl ⟨slot, hslot, rfl, rfl⟩⟩
  | none =>
    simp only [hslot] at hok
    obtain ⟨⟨planned, found⟩, hfirst, hok⟩ := Except.bind_eq_ok.mp hok
    rw [← Except.ok.inj hok]
    exact ⟨key, _, hkey, rfl, .inr ⟨planned, found, hslot, hfirst, rfl, rfl⟩⟩

/-- One change of a statement puts its row in the place of what its key had planned. -/
lemma PatchingHolds.planned_row (h : TransactionHolds json storage transaction view)
    {view' : TableView} {patching patching' : Patching} {change : RowChange × PreviousRow}
    (holds : PatchingHolds json storage transaction view view' patching)
    (hreports : change.2.Reports json storage view change.1)
    (hok : transaction.patchChange storage patching change = .ok patching') :
    ∃ key keyed planned, change.1.key storage = some key ∧
      NameMap.InOrder ⟨patching'.patched⟩ ∧
      (∀ table, patching'.planned table =
        if table = change.1.table then keyed else patching.planned table) ∧
      keyed.Valid ∧
      (∀ row, row ∈ keyed.rows ↔ row = (key, planned) ∨
        row.1 ≠ key ∧ row ∈ (patching.planned change.1.table).rows) ∧
      HeldRow.Describes json storage change.1.table key planned.base
        (storage.committed change.1.table key) ∧
      planned.row = change.1.patchRow ∧
      planned.replacedDelete =
        (transaction.entry change.1.table key).any (fun entry => entry.row.next.isNone) ∧
      (patching'.replaces = false → patching.replaces = false ∧
        transaction.entry change.1.table key = none) := by
  obtain ⟨key, keyed, hkey, hpatched, hkeyed⟩ := patchChange_eq_ok hok
  have htarget := changeKey_eq_ok hreports hkey
  obtain ⟨hinOrder, hplanned⟩ := @planned_put patching.patched patching'.replaces patching.replaces
    holds.inOrder change.1.table keyed
  rw [← hpatched] at hinOrder hplanned
  have hvalid := holds.valid change.1.table
  rcases hkeyed with ⟨slot, hslot, rfl, hreplaces⟩ | ⟨planned, found, hslot, hfirst, rfl, hreplaces⟩
  · obtain ⟨planned, hrow⟩ := KeyedRows.getMut_eq_some hslot
    have hmem := List.mem_of_getElem? hrow
    refine ⟨key, _, { planned with
      upserted := planned.upserted || !change.1.patchRow.isDelete, row := change.1.patchRow },
      htarget, hinOrder, hplanned, hvalid.observe.modify _ _, ?_, ?_, rfl, ?_, ?_⟩
    · intro row
      rw [KeyedRows.modify, KeyedRows.observe_rows]
      exact mem_modify_keyed_iff hvalid.nodup hrow (fun planned => { planned with
        upserted := planned.upserted || !change.1.patchRow.isDelete
        row := change.1.patchRow }) row
    · exact holds.base _ key planned hmem
    · exact holds.replacedDelete _ key planned hmem
    · intro hnone
      rw [hreplaces] at hnone
      exact ⟨hnone, holds.replaces hnone _ key (KeyedRows.mem_keys_iff.mpr ⟨planned, hmem⟩)⟩
  · have hmissing := hvalid.getMut_eq_none hslot
    obtain ⟨hbase, hrow, hdelete, -, hnew⟩ := firstChange_eq_ok h hreports htarget hfirst
    refine ⟨key, _, planned, htarget, hinOrder, hplanned, hvalid.insert hmissing planned,
      KeyedRows.mem_insert_iff hmissing planned, hbase, hrow, hdelete, ?_⟩
    · intro hnone
      rw [hreplaces, Bool.or_eq_false_iff] at hnone
      exact ⟨hnone.1, hnew hnone.2⟩

lemma PatchingHolds.patchChange (h : TransactionHolds json storage transaction view)
    {view' : TableView} {patching patching' : Patching} {change : RowChange × PreviousRow}
    (holds : PatchingHolds json storage transaction view view' patching)
    (hreports : change.2.Reports json storage view change.1)
    (hok : transaction.patchChange storage patching change = .ok patching') :
    PatchingHolds json storage transaction view (change.1.apply json storage view') patching' := by
  obtain ⟨target, keyed, planned, htarget, hinOrder, hplanned, hvalid, hrows, hbase, hrow, hdelete,
    hreplaces⟩ := holds.planned_row h hreports hok
  -- A key of another row shows what it showed.
  have hframe : ∀ table key, ¬ (table = change.1.table ∧ key = target) →
      change.1.apply json storage view' table key = view' table key := by
    intro table key hother
    rw [RowChange.apply, if_neg]
    rintro ⟨htable, hkey⟩
    rw [htarget, Option.some.injEq] at hkey
    exact hother ⟨htable, hkey.symm⟩
  have hwritten : change.1.apply json storage view' change.1.table target =
      change.1.patchRow.writes json storage change.1.table := by
    rw [RowChange.apply, if_pos ⟨rfl, htarget⟩]
  -- Each planned row is the changed one, or one planned before.
  have hcases : ∀ table key row, (key, row) ∈ (patching'.planned table).rows →
      (table = change.1.table ∧ key = target ∧ row = planned) ∨
        ¬ (table = change.1.table ∧ key = target) ∧ (key, row) ∈ (patching.planned table).rows := by
    intro table key row hmem
    rw [hplanned] at hmem
    split_ifs at hmem with htable
    · subst htable
      rcases (hrows _).mp hmem with heq | ⟨hne, hmem⟩
      · exact .inl ⟨rfl, (Prod.mk.inj heq).1, (Prod.mk.inj heq).2⟩
      · exact .inr ⟨fun hsame => hne hsame.2, hmem⟩
    · exact .inr ⟨fun hsame => htable hsame.1, hmem⟩
  refine ⟨hinOrder, ?_, ?_, ?_, ?_, ?_, ?_⟩
  · intro table
    rw [hplanned]
    split_ifs
    · exact hvalid
    · exact holds.valid table
  · intro table key row hmem
    rcases hcases table key row hmem with ⟨rfl, rfl, rfl⟩ | ⟨-, hmem⟩
    · exact hbase
    · exact holds.base table key row hmem
  · intro table key row hmem
    rcases hcases table key row hmem with ⟨rfl, rfl, rfl⟩ | ⟨hother, hmem⟩
    · rw [hwritten, hrow]
    · rw [hframe table key hother]
      exact holds.writes table key row hmem
  · intro table key row hmem
    rcases hcases table key row hmem with ⟨rfl, rfl, rfl⟩ | ⟨-, hmem⟩
    · exact hdelete
    · exact holds.replacedDelete table key row hmem
  · intro table key hmissing
    have hother : ¬ (table = change.1.table ∧ key = target) := by
      rintro ⟨rfl, rfl⟩
      rw [hplanned, if_pos rfl] at hmissing
      exact hmissing (KeyedRows.mem_keys_iff.mpr ⟨planned, (hrows _).mpr (.inl rfl)⟩)
    rw [hframe table key hother]
    refine holds.others table key (fun hmem => hmissing ?_)
    rw [hplanned]
    split_ifs with htable
    · subst htable
      obtain ⟨row, hmem⟩ := KeyedRows.mem_keys_iff.mp hmem
      exact KeyedRows.mem_keys_iff.mpr ⟨row, (hrows _).mpr (.inr ⟨fun hsame =>
        hother ⟨rfl, hsame⟩, hmem⟩)⟩
    · exact hmem
  · intro hnone table key hmem
    obtain ⟨hbefore, hentry⟩ := hreplaces hnone
    obtain ⟨row, hmem⟩ := KeyedRows.mem_keys_iff.mp hmem
    rcases hcases table key row hmem with ⟨rfl, rfl, rfl⟩ | ⟨-, hmem⟩
    · exact hentry
    · exact holds.replaces hbefore table key (KeyedRows.mem_keys_iff.mpr ⟨row, hmem⟩)

lemma PatchingHolds.patchChanges (h : TransactionHolds json storage transaction view)
    {view' : TableView} {patching patching' : Patching} {changes : List (RowChange × PreviousRow)}
    (holds : PatchingHolds json storage transaction view view' patching)
    (hreports : ∀ change ∈ changes, change.2.Reports json storage view change.1)
    (hok : transaction.patchChanges storage patching changes = .ok patching') :
    PatchingHolds json storage transaction view
      (RowChange.applyAll json storage view' (changes.map Prod.fst)) patching' := by
  induction changes generalizing patching view' with
  | nil =>
    rw [← Except.ok.inj hok]
    exact holds
  | cons change changes ih =>
    obtain ⟨next, hnext, hok⟩ := Except.bind_eq_ok.mp hok
    rw [List.forall_mem_cons] at hreports
    exact ih (holds.patchChange h hreports.1 hnext) hreports.2 hok

/-- The entries of a list that the transaction stages already. -/
def replacedOf (transaction : PagedTransaction) (table : String)
    (entries : List (List UInt8 × OverlayEntry)) : List OverlayEntry :=
  entries.filterMap (fun row => transaction.entry table row.1)

lemma replacedOf_cons (table : String) (row : List UInt8 × OverlayEntry)
    (rows : List (List UInt8 × OverlayEntry)) :
    transaction.replacedOf table (row :: rows) =
      (transaction.entry table row.1).toList ++ transaction.replacedOf table rows := by
  rw [replacedOf, List.filterMap_cons]
  cases transaction.entry table row.1 <;> rfl

/-- A table's part of a patch shows the rows of the statement's view, made from committed ones. -/
structure PatchTableHolds (json : SerdeJson) (storage : PagedStorage)
    (transaction : PagedTransaction) (view' : TableView) (patched : PatchTable) : Prop where
  place : patched.place = transaction.tables.position patched.table
  keys : (patched.entries.map Prod.fst).Pairwise (· < ·)
  made : ∀ row ∈ patched.entries, EntryMade json storage patched.table row.1 row.2
  next : ∀ row ∈ patched.entries, row.2.row.next = view' patched.table row.1
  deletes : patched.deletes = patched.entries.countP (fun row => row.2.row.next.isNone) -
    (transaction.replacedOf patched.table patched.entries).countP
      (fun entry => entry.row.next.isNone)

structure PatchHolds (json : SerdeJson) (storage : PagedStorage) (transaction : PagedTransaction)
    (view view' : TableView) (patch : OverlayPatch) : Prop where
  names : patch.tables.Pairwise (fun a b => a.table < b.table)
  tables : ∀ patched ∈ patch.tables, PatchTableHolds json storage transaction view' patched
  others : ∀ table key, (∀ patched ∈ patch.tables, patched.table = table →
    key ∉ patched.entries.map Prod.fst) → view' table key = view table key
  replaces : patch.replaces = false → ∀ patched ∈ patch.tables, ∀ row ∈ patched.entries,
    transaction.entry patched.table row.1 = none
  found : ∀ probe ∈ patch.found, ∃ patched row overlay, patch.tables = [patched] ∧
    patched.entries = [row] ∧ transaction.table patched.table = some overlay ∧
    probe = overlay.find row.1

lemma patchEntries_eq_ok {table : String} {paged : PagedTable} {indexes : List PagedIndex}
    {changes : List (List UInt8 × PatchChange)} {entries : List (List UInt8 × OverlayEntry)}
    {deletes : Int} (hpaged : storage.table table = .ok paged)
    (hdelete : ∀ change ∈ changes, change.2.replacedDelete =
      (transaction.entry table change.1).any (fun entry => entry.row.next.isNone))
    (hok : patchEntries json storage paged indexes changes = .ok (entries, deletes)) :
    entries.map Prod.fst = changes.map Prod.fst ∧
      (∀ row ∈ entries, ∃ change, (row.1, change) ∈ changes ∧
        overlayEntry json storage paged indexes row.1 change = .ok row.2) ∧
      deletes = entries.countP (fun row => row.2.row.next.isNone) -
        (transaction.replacedOf table entries).countP (fun entry => entry.row.next.isNone) := by
  induction changes generalizing entries deletes with
  | nil =>
    obtain ⟨rfl, rfl⟩ := Prod.mk.inj (Except.ok.inj hok)
    exact ⟨rfl, fun row hrow => (nomatch hrow), rfl⟩
  | cons first changes ih =>
    obtain ⟨key, change⟩ := first
    obtain ⟨entry, hentry, hok⟩ := Except.bind_eq_ok.mp hok
    obtain ⟨⟨rest, restDeletes⟩, hrest, hok⟩ := Except.bind_eq_ok.mp hok
    obtain ⟨rfl, rfl⟩ := Prod.mk.inj (Except.ok.inj hok)
    rw [List.forall_mem_cons] at hdelete
    obtain ⟨hkeys, hmade, hdeletes⟩ := ih hdelete.2 hrest
    refine ⟨?_, ?_, ?_⟩
    · rw [List.map_cons, List.map_cons, hkeys]
    · intro row hrow
      rcases List.mem_cons.mp hrow with rfl | hrow
      · exact ⟨change, List.mem_cons_self, hentry⟩
      · obtain ⟨change, hmem, hmade⟩ := hmade row hrow
        exact ⟨change, List.mem_cons_of_mem _ hmem, hmade⟩
    · obtain ⟨next, map, -, -, hrecord, -, -, -, hrow⟩ := overlayEntry_eq_ok hentry
      have hnext : entry.row.next.isNone = change.row.isDelete := by
        rw [hrow]
        exact (patchRecord_eq_ok hpaged hrecord).2
      have hreplaced : change.replacedDelete =
        (transaction.entry table key).any (fun entry => entry.row.next.isNone) := hdelete.1
      rw [List.countP_cons, hnext, hdeletes, replacedOf_cons, List.countP_append, hreplaced]
      cases transaction.entry table key with
      | none =>
        simp only [Option.any_none, Bool.false_eq_true, if_false, Option.toList_none,
          List.countP_nil]
        split_ifs <;> omega
      | some old =>
        simp only [Option.any_some, Option.toList_some, List.countP_singleton]
        split_ifs <;> omega

/-- A table's changes make its part of a patch. -/
lemma PatchingHolds.patchTable {view' : TableView} {patching : Patching}
    (holds : PatchingHolds json storage transaction view view' patching) {table : String}
    {keyed : KeyedRows PatchChange} (hmem : (table, keyed) ∈ patching.patched) {paged : PagedTable}
    (hpaged : storage.table table = .ok paged) {entries : List (List UInt8 × OverlayEntry)}
    {deletes : Int}
    (hok : patchEntries json storage paged (storage.tableIndexes table) keyed.intoSorted =
      .ok (entries, deletes)) :
    PatchTableHolds json storage transaction view'
        ⟨table, transaction.tables.position table, entries, deletes, 0⟩ ∧
      (entries.map Prod.fst).Perm (patching.planned table).keys := by
  have hkeyed : patching.planned table = keyed := by
    rw [Patching.planned, holds.inOrder.get_eq_some_iff.mpr hmem]
    rfl
  subst hkeyed
  obtain ⟨hperm, hsorted⟩ := (holds.valid table).intoSorted_spec
  obtain ⟨hkeys, hmade, hdeletes⟩ := patchEntries_eq_ok hpaged
    (fun change hchange => holds.replacedDelete table change.1 change.2 (hperm.mem_iff.mp hchange))
    hok
  refine ⟨⟨rfl, ?_, ?_, ?_, hdeletes⟩, ?_⟩
  · rw [hkeys]
    exact hsorted
  · intro row hrow
    obtain ⟨change, hchange, hentry⟩ := hmade row hrow
    exact ⟨paged, change, hpaged, holds.base _ _ _ (hperm.mem_iff.mp hchange), hentry⟩
  · intro row hrow
    obtain ⟨change, hchange, hentry⟩ := hmade row hrow
    obtain ⟨next, map, -, -, hrecord, -, -, -, heq⟩ := overlayEntry_eq_ok hentry
    rw [heq]
    exact (patchRecord_eq_ok hpaged hrecord).1.trans
      (holds.writes _ _ _ (hperm.mem_iff.mp hchange))
  · rw [hkeys]
    exact hperm.map _

lemma PatchingHolds.patchTables {view' : TableView} {patching : Patching}
    (holds : PatchingHolds json storage transaction view view' patching)
    {patched : List (String × KeyedRows PatchChange)} (hsub : patched ⊆ patching.patched)
    {tables : List PatchTable} (hok : patchTables json transaction storage patched = .ok tables) :
    tables.map (fun patched => patched.table) = patched.map Prod.fst ∧
      ∀ patched ∈ tables, PatchTableHolds json storage transaction view' patched ∧
        (patched.entries.map Prod.fst).Perm (patching.planned patched.table).keys := by
  induction patched generalizing tables with
  | nil =>
    rw [← Except.ok.inj hok]
    exact ⟨rfl, fun patched hpatched => (nomatch hpatched)⟩
  | cons first rest ih =>
    obtain ⟨table, keyed⟩ := first
    obtain ⟨paged, hpaged, hok⟩ := Except.bind_eq_ok.mp hok
    obtain ⟨⟨entries, deletes⟩, hentries, hok⟩ := Except.bind_eq_ok.mp hok
    obtain ⟨restTables, hrest, hok⟩ := Except.bind_eq_ok.mp hok
    rw [← Except.ok.inj hok]
    obtain ⟨hnames, htables⟩ := ih (fun entry hentry => hsub (List.mem_cons_of_mem _ hentry)) hrest
    refine ⟨?_, ?_⟩
    · rw [List.map_cons, List.map_cons, hnames]
    · rw [List.forall_mem_cons]
      exact ⟨holds.patchTable (hsub List.mem_cons_self) hpaged hentries, htables⟩

lemma withPrevious_fst (changes : List RowChange) (previous : List PreviousRow) :
    (withPrevious changes previous).map Prod.fst = changes := by
  induction changes generalizing previous with
  | nil => rfl
  | cons change changes ih => rw [withPrevious, List.map_cons, ih]

/-- A statement's only change makes a patch of one entry. -/
lemma patchHolds_single (h : TransactionHolds json storage transaction view) {change : RowChange}
    {held : PreviousRow} (hreports : held.Reports json storage view change) {key : List UInt8}
    (hkey : changeKey storage change.table change.patchRow change.parts.2.2 held = .ok key)
    {planned : PatchChange} {found : Option Probing.Probe}
    (hfirst : firstChange storage (transaction.table change.table) change.table key held
      change.patchRow = .ok (planned, found))
    {paged : PagedTable} (hpaged : storage.table change.table = .ok paged) {entry : OverlayEntry}
    (hentry : overlayEntry json storage paged (storage.tableIndexes change.table) key planned =
      .ok entry) :
    PatchHolds json storage transaction view (change.apply json storage view)
      ⟨[⟨change.table, transaction.tables.position change.table, [(key, entry)],
        (if change.patchRow.isDelete then 1 else 0) - (if planned.replacedDelete then 1 else 0), 0⟩],
        found.any (fun probe => probe.isOk), found⟩ := by
  have htarget := changeKey_eq_ok hreports hkey
  obtain ⟨hbase, hrow, hdelete, hfound, hnew⟩ := firstChange_eq_ok h hreports htarget hfirst
  obtain ⟨next, map, -, -, hrecord, -, -, -, heq⟩ := overlayEntry_eq_ok hentry
  obtain ⟨hnext, hisNone⟩ := patchRecord_eq_ok hpaged hrecord
  rw [hrow] at hnext hisNone
  have hentryNext : entry.row.next = next := by rw [heq]
  refine ⟨List.pairwise_singleton _ _, ?_, ?_, ?_, ?_⟩
  · rw [List.forall_mem_singleton]
    refine ⟨rfl, List.pairwise_singleton _ _, ?_, ?_, ?_⟩
    · rw [List.forall_mem_singleton]
      exact ⟨paged, planned, hpaged, hbase, hentry⟩
    · rw [List.forall_mem_singleton, hentryNext, RowChange.apply, if_pos ⟨rfl, htarget⟩]
      exact hnext
    · rw [replacedOf_cons, hdelete]
      simp only [List.countP_singleton, hentryNext, hisNone]
      cases transaction.entry change.table key with
      | none => simp [replacedOf]
      | some old => simp [replacedOf]
  · intro table key' hother
    rw [RowChange.apply, if_neg]
    rintro ⟨rfl, hsame⟩
    rw [htarget, Option.some.injEq] at hsame
    exact hother _ (List.mem_singleton_self _) rfl (by simp [hsame])
  · intro hnone
    rw [List.forall_mem_singleton, List.forall_mem_singleton]
    exact hnew hnone
  · intro probe hprobe
    obtain ⟨overlay, hoverlay, heq⟩ := hfound probe hprobe
    exact ⟨_, _, overlay, rfl, rfl, hoverlay, heq⟩

/-- The patch of a statement takes the rows a reader sees to those it should see next. -/
lemma TransactionHolds.patch (h : TransactionHolds json storage transaction view)
    {changes : List RowChange} {previous : List PreviousRow} {patch : OverlayPatch}
    (hreports : ∀ change ∈ withPrevious changes previous,
      change.2.Reports json storage view change.1)
    (hok : transaction.patch json storage changes previous = .ok patch) :
    PatchHolds json storage transaction view (RowChange.applyAll json storage view changes)
      patch := by
  have hchanges := withPrevious_fst changes previous
  rw [PagedTransaction.patch] at hok
  split at hok
  · next change held hwith =>
    rw [hwith] at hreports hchanges
    rw [List.forall_mem_singleton] at hreports
    rw [← hchanges]
    rcases hparts : change.parts with ⟨table, row, encoded⟩
    simp only [hparts] at hok
    have htable : change.table = table := by rw [RowChange.table, hparts]
    have hrow : change.patchRow = row := by rw [RowChange.patchRow, hparts]
    have hencoded : change.parts.2.2 = encoded := by rw [hparts]
    subst htable hrow hencoded
    obtain ⟨key, hkey, hok⟩ := Except.bind_eq_ok.mp hok
    obtain ⟨⟨planned, found⟩, hfirst, hok⟩ := Except.bind_eq_ok.mp hok
    obtain ⟨paged, hpaged, hok⟩ := Except.bind_eq_ok.mp hok
    obtain ⟨entry, hentry, hok⟩ := Except.bind_eq_ok.mp hok
    rw [← Except.ok.inj hok]
    exact patchHolds_single h hreports hkey hfirst hpaged hentry
  · obtain ⟨patching, hpatching, hok⟩ := Except.bind_eq_ok.mp hok
    obtain ⟨tables, htables, hok⟩ := Except.bind_eq_ok.mp hok
    have holds := patchingHolds_nil.patchChanges h hreports hpatching
    rw [hchanges] at holds
    obtain ⟨hnames, hpatched⟩ := holds.patchTables (List.Subset.refl _) htables
    rw [← Except.ok.inj hok]
    refine ⟨?_, fun patched hmem => (hpatched patched hmem).1, ?_, ?_,
      fun _ hprobe => (nomatch hprobe)⟩
    · have hinOrder : (patching.patched.map Prod.fst).Pairwise (· < ·) :=
        List.pairwise_map.mpr holds.inOrder
      rw [← hnames] at hinOrder
      exact List.pairwise_map.mp hinOrder
    · intro table key hother
      apply holds.others
      intro hmem
      have hname : table ∈ tables.map (fun patched => patched.table) := by
        rw [hnames]
        rw [Patching.planned] at hmem
        cases hget : NameMap.get ⟨patching.patched⟩ table with
        | none => rw [hget] at hmem; cases hmem
        | some keyed => exact List.mem_map.mpr ⟨_, holds.inOrder.get_eq_some_iff.mp hget, rfl⟩
      obtain ⟨patched, hpatch, rfl⟩ := List.mem_map.mp hname
      exact hother patched hpatch rfl ((hpatched patched hpatch).2.mem_iff.mpr hmem)
    · intro hnone patched hmem row hrow
      refine holds.replaces hnone _ _ ((hpatched patched hmem).2.mem_iff.mp ?_)
      exact List.mem_map.mpr ⟨row, hrow, rfl⟩

/-! ### Installing a patch -/

/-- A patch's tables go where their overlays were found, which installing later names keeps. -/
lemma installTables_spec {found : Option Probing.Probe} {tables : List PatchTable}
    (hinOrder : transaction.tables.InOrder)
    (hnames : tables.Pairwise (fun a b => a.table < b.table))
    (hplace : ∀ patched ∈ tables, patched.place = transaction.tables.position patched.table) :
    (transaction.installTables found tables).tables.InOrder ∧
      (∀ name, (∀ patched ∈ tables, name < patched.table) →
        (transaction.installTables found tables).tables.position name =
          transaction.tables.position name) ∧
      (∀ patched ∈ tables, (transaction.installTables found tables).table patched.table =
        some (((transaction.table patched.table).getD .empty).install patched.entries
          patched.deletes found)) ∧
      ∀ name, (∀ patched ∈ tables, patched.table ≠ name) →
        (transaction.installTables found tables).table name = transaction.table name := by
  induction tables with
  | nil => exact ⟨hinOrder, fun _ _ => rfl, fun _ hpatched => (nomatch hpatched), fun _ _ => rfl⟩
  | cons patched tables ih =>
    rw [List.pairwise_cons] at hnames
    rw [List.forall_mem_cons] at hplace
    obtain ⟨hinOrder', hposition, htables, hothers⟩ := ih hnames.2 hplace.2
    set installed := transaction.installTables found tables with hinstalled
    have hput : (transaction.installTables found (patched :: tables)).tables =
        installed.tables.put (installed.tables.position patched.table) patched.table
          (((transaction.table patched.table).getD .empty).install patched.entries
            patched.deletes found) := by
      have hplaced : patched.place = installed.tables.position patched.table := by
        rw [hplace.1, hposition _ hnames.1]
      have hstaged : installed.stagedFor patched = transaction.table patched.table := by
        rw [← hothers patched.table (fun other hother => (hnames.1 other hother).ne'),
          PagedTransaction.stagedFor, hplaced]
        rfl
      rw [← hstaged, ← hplaced]
      rfl
    have hget : ∀ name, (transaction.installTables found (patched :: tables)).table name =
        if name = patched.table then some (((transaction.table patched.table).getD .empty).install
          patched.entries patched.deletes found) else installed.table name := by
      intro name
      rw [PagedTransaction.table, hput, hinOrder'.get_put]
      rfl
    refine ⟨?_, ?_, ?_, ?_⟩
    · rw [hput]
      exact hinOrder'.put
    · intro name hname
      rw [List.forall_mem_cons] at hname
      rw [hput, hinOrder'.position_put hname.1, hposition name hname.2]
    · rw [List.forall_mem_cons]
      refine ⟨by rw [hget, if_pos rfl], fun other hother => ?_⟩
      rw [hget, if_neg (hnames.1 other hother).ne', htables other hother]
    · intro name hname
      rw [List.forall_mem_cons] at hname
      rw [hget, if_neg hname.1.symm, hothers name hname.2]

end PagedTransaction

end Invariant
end TinyJoin
