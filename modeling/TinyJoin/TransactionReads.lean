import Mathlib.Data.Finset.Card
import TinyJoin.StagingExact
import TinyJoin.StoredFiltering

/-! Reads within a transaction: whatever has been staged, each presents the rows of one view, the
committed rows with every statement's changes applied. -/
namespace TinyJoin
open PagedTransaction Query

variable {json : SerdeJson} {storage : PagedStorage} {transaction : PagedTransaction} {view : TableView}
  {name : String} {table : PagedTable}

/-! ### Rows of a view -/

/-- Rows that are those a view shows of a table, each once. -/
structure Lists (view : TableView) (name : String) (rows : List (List UInt8 × List UInt8)) : Prop where
  nodup : (rows.map Prod.fst).Nodup
  mem : ∀ row, row ∈ rows ↔ view name row.1 = some row.2

/-- A view whose rows of a table were written from rows of its schema. -/
def ViewStored (json : SerdeJson) (view : TableView) (name : String) (schema : TableDefinition) : Prop :=
  ∀ key value, view name key = some value → ∃ row, StoredEntry json schema row key value

lemma storage_table_eq_ok (h : storage.table name = .ok table) : storage.tables.get name = some table := by
  rw [PagedStorage.table] at h
  cases hget : storage.tables.get name with
  | none => rw [hget] at h; cases h
  | some found =>
    rw [hget] at h
    rw [Except.ok.inj h]

lemma committed_eq (htable : storage.table name = .ok table) (key : List UInt8) :
    storage.committed name key = table.committed key := by
  rw [PagedStorage.committed, storage_table_eq_ok htable]
  rfl

/-- Ascending keys find the one entry that has each. -/
lemma KeysAscend.committed_eq_some_iff (h : KeysAscend table.entries) {key value : List UInt8} :
    table.committed key = some value ↔ ∃ entry ∈ table.entries, entry.key = key ∧ entry.value = value := by
  rw [PagedTable.committed, Option.map_eq_some_iff]
  constructor
  · rintro ⟨entry, hfound, rfl⟩
    have hkey := @List.find?_some _ (fun entry : TreeEntry => entry.key == key) _ _ hfound
    exact ⟨entry, List.mem_of_find?_eq_some hfound, beq_iff_eq.mp hkey, rfl⟩
  · rintro ⟨entry, hentry, rfl, rfl⟩
    refine ⟨entry, ?_, rfl⟩
    obtain ⟨before, after, hsplit⟩ := List.append_of_mem hentry
    rw [KeysAscend, hsplit] at h
    have hbefore := (List.pairwise_append.mp h).2.2
    rw [hsplit, List.find?_append, List.find?_eq_none.mpr, Option.none_or, List.find?_cons_of_pos]
    · exact beq_self_eq_true entry.key
    · intro other hother heq
      exact absurd (beq_iff_eq.mp heq) (hbefore other hother entry List.mem_cons_self).ne

lemma KeysAscend.nodup {entries : List TreeEntry} (h : KeysAscend entries) :
    (entries.map TreeEntry.key).Nodup := by
  rw [List.Nodup, List.pairwise_map]
  exact List.Pairwise.imp (fun hlt => hlt.ne) h

lemma rowsOf_all (table : PagedTable) (except : List (List UInt8)) :
    rowsOf table none .ascending except =
      (table.entries.filter (fun entry => entry.key ∉ except)).map (fun entry => (entry.key, entry.value)) := by
  rw [rowsOf, inOrder, within]
  congr 1
  exact List.filter_eq_self.mpr fun _ _ => rfl

lemma mem_rowsOf_all (h : KeysAscend table.entries) {except : List (List UInt8)}
    {row : List UInt8 × List UInt8} : row ∈ rowsOf table none .ascending except ↔
      table.committed row.1 = some row.2 ∧ row.1 ∉ except := by
  rw [rowsOf_all, List.mem_map, h.committed_eq_some_iff]
  constructor
  · rintro ⟨entry, hentry, rfl⟩
    obtain ⟨hmem, hkept⟩ := List.mem_filter.mp hentry
    exact ⟨⟨entry, hmem, rfl, rfl⟩, of_decide_eq_true hkept⟩
  · rintro ⟨⟨entry, hmem, hkey, hvalue⟩, hkept⟩
    refine ⟨entry, List.mem_filter.mpr ⟨hmem, ?_⟩, Prod.ext hkey hvalue⟩
    rw [hkey]
    exact decide_eq_true hkept

lemma rowsOf_all_nodup (h : KeysAscend table.entries) (except : List (List UInt8)) :
    ((rowsOf table none .ascending except).map Prod.fst).Nodup := by
  rw [rowsOf_all, List.map_map]
  exact h.nodup.sublist (List.Sublist.map _ List.filter_sublist)

/-! ### Staged rows -/

/-- The row that a changed entry stages, if it stages one. -/
def stagedRow (row : List UInt8 × OverlayEntry) : Option (List UInt8 × List UInt8) :=
  if row.2.changed then row.2.row.next.map (fun record => (row.1, record)) else none

section Presenting
variable {σ : Type} {predicate : Option Predicate} {filter : Option TinyJoin.Filter}
  {reader : PagedReadView σ} {scanned : Nat → σ → Result σ}
  {visitor : StoredRecord → σ → Result (VisitControl × σ)}

/-- What a walk of staged entries charges, and presents. -/
lemma presentStaged_presents {entries : List (List UInt8 × OverlayEntry)}
    (hschema : validateSchemaShape table.schema = .ok ())
    (hlayout : RecordLayout.new table.schema = .ok table.layout)
    (hfilter : VisitFilter json table.schema name predicate filter)
    (hstored : ∀ row ∈ entries.filterMap stagedRow, ∃ held, StoredEntry json table.schema held row.1 row.2)
    (s : σ) :
    PresentsRows json name table predicate ⟨reader.chargeWork, scanned, visitor⟩
      (entries.filterMap stagedRow) s
      (reader.presentStaged table filter ⟨reader.chargeWork, scanned, visitor⟩ entries s) := by
  induction entries generalizing s with
  | nil => exact .done s
  | cons row entries ih =>
    obtain ⟨key, entry⟩ := row
    rw [PagedReadView.presentStaged]
    cases hcharge : reader.chargeWork 1 s with
    | error error => exact .refused ⟨1, .inl hcharge⟩
    | ok charged =>
      refine .charged ⟨1, .inl hcharge⟩ ?_
      simp only [bind, Except.bind]
      cases hrow : stagedRow (key, entry) with
      | none =>
        rw [List.filterMap_cons_none hrow] at hstored ⊢
        cases hchanged : entry.changed with
        | false => exact ih hstored charged
        | true =>
          simp only [stagedRow, hchanged, if_true, Option.map_eq_none_iff] at hrow
          simp only [Bool.not_true, Bool.false_eq_true, if_false, hrow]
          exact ih hstored charged
      | some staged =>
        rw [List.filterMap_cons_some hrow] at hstored ⊢
        obtain ⟨⟨held, hheld⟩, hrest⟩ := List.forall_mem_cons.mp hstored
        have hchanged : entry.changed = true := by
          by_contra hunchanged
          rw [stagedRow, if_neg hunchanged] at hrow
          cases hrow
        rw [stagedRow, if_pos hchanged, Option.map_eq_some_iff] at hrow
        obtain ⟨record, hnext, rfl⟩ := hrow
        simp only [hchanged, Bool.not_true, Bool.false_eq_true, if_false]
        rw [hnext]
        dsimp only
        cases hscanned : scanned 1 charged with
        | error error => exact .refused ⟨1, .inr hscanned⟩
        | ok s =>
          refine .charged ⟨1, .inr hscanned⟩ ?_
          obtain ⟨opened, hopened, -⟩ :=
            @reader_of_stored json table.schema table.layout held key record name none _ hschema hlayout
              hheld rfl
          have hrecord : table.record key record = .ok opened := hopened
          have haccepts := hfilter.accepts_eq hschema hlayout hheld hopened
          dsimp only
          rw [hrecord]
          dsimp only
          rw [haccepts]
          cases hmatches : recordMatches json name predicate opened with
          | error error => exact .undecided hrecord hmatches
          | ok matched =>
            cases matched with
            | false =>
              refine .passed hrecord ?_ (ih hrest s)
              rw [hmatches]
              simp
            | true =>
              simp only [Bool.not_true, Bool.false_eq_true, if_false]
              cases hvisited : visitor opened s with
              | error error => exact .failed hrecord hmatches hvisited
              | ok visited =>
                obtain ⟨control, s'⟩ := visited
                cases control with
                | continued => exact .shown hrecord hmatches hvisited (ih hrest s')
                | stop => exact .stopped hrecord hmatches hvisited

end Presenting

/-! ### The rows of a staged table -/

/-- The keys whose committed rows a transaction replaces. -/
def replacedKeys (overlay : TableOverlay) : List (List UInt8) :=
  (overlay.ordered.filter (fun row => row.2.changed)).map Prod.fst

/-- The rows of a table within a transaction, in the order that its visits come to them. -/
def visitedRows (transaction : PagedTransaction) (name : String) (table : PagedTable) :
    List (List UInt8 × List UInt8) :=
  match transaction.table name with
  | none => rowsOf table none .ascending []
  | some overlay =>
    rowsOf table none .ascending (replacedKeys overlay) ++ overlay.ordered.filterMap stagedRow

lemma stagedRow_eq_some {row : List UInt8 × OverlayEntry} {staged : List UInt8 × List UInt8} :
    stagedRow row = some staged ↔
      row.2.changed = true ∧ row.1 = staged.1 ∧ row.2.row.next = some staged.2 := by
  rw [stagedRow]
  split
  · next hchanged =>
    rw [Option.map_eq_some_iff]
    constructor
    · rintro ⟨record, hnext, rfl⟩
      exact ⟨hchanged, rfl, hnext⟩
    · rintro ⟨-, hkey, hnext⟩
      exact ⟨staged.2, hnext, Prod.ext hkey rfl⟩
  · next hunchanged =>
    constructor
    · intro hcontra
      cases hcontra
    · exact fun h => absurd h.1 hunchanged

section Overlay
variable {overlay : TableOverlay} (h : OverlayHolds json storage view name overlay)
include h

lemma get_of_mem_ordered {row : List UInt8 × OverlayEntry} (hrow : row ∈ overlay.ordered) :
    overlay.get row.1 = some row.2 :=
  h.coherent.get_eq_some_iff.mpr (h.coherent.ordered_spec.1.mem_iff.mp hrow)

/-- An entry that is not marked as changed stages what is committed. -/
lemma next_of_unchanged {key : List UInt8} {entry : OverlayEntry} (hget : overlay.get key = some entry)
    (hunchanged : entry.changed = false) : entry.row.next = storage.committed name key := by
  have hmade := h.made _ (h.coherent.get_eq_some_iff.mp hget)
  by_contra hne
  rw [hmade.changed_iff.mpr (Ne.symm hne)] at hunchanged
  cases hunchanged

lemma mem_replacedKeys {key : List UInt8} :
    key ∈ replacedKeys overlay ↔ ∃ entry, overlay.get key = some entry ∧ entry.changed = true := by
  rw [replacedKeys, List.mem_map]
  constructor
  · rintro ⟨row, hrow, rfl⟩
    obtain ⟨hmem, hchanged⟩ := List.mem_filter.mp hrow
    exact ⟨row.2, get_of_mem_ordered h hmem, hchanged⟩
  · rintro ⟨entry, hget, hchanged⟩
    have hmem := h.coherent.ordered_spec.1.mem_iff.mpr (h.coherent.get_eq_some_iff.mp hget)
    exact ⟨(key, entry), List.mem_filter.mpr ⟨hmem, hchanged⟩, rfl⟩

lemma mem_staged {row : List UInt8 × List UInt8} :
    row ∈ overlay.ordered.filterMap stagedRow ↔
      ∃ entry, overlay.get row.1 = some entry ∧ entry.changed = true ∧ entry.row.next = some row.2 := by
  rw [List.mem_filterMap]
  constructor
  · rintro ⟨held, hheld, hstaged⟩
    obtain ⟨hchanged, hkey, hnext⟩ := stagedRow_eq_some.mp hstaged
    exact ⟨held.2, hkey ▸ get_of_mem_ordered h hheld, hchanged, hnext⟩
  · rintro ⟨entry, hget, hchanged, hnext⟩
    have hmem := h.coherent.ordered_spec.1.mem_iff.mpr (h.coherent.get_eq_some_iff.mp hget)
    exact ⟨(row.1, entry), hmem, stagedRow_eq_some.mpr ⟨hchanged, rfl, hnext⟩⟩

/-- What a view shows for a key is what is staged there, if that is a change, or else what is committed. -/
lemma view_eq (key : List UInt8) (value : List UInt8) : view name key = some value ↔
    storage.committed name key = some value ∧ key ∉ replacedKeys overlay ∨
      ∃ entry, overlay.get key = some entry ∧ entry.changed = true ∧ entry.row.next = some value := by
  rw [h.shows key, mem_replacedKeys h]
  cases hget : overlay.get key with
  | none => simp
  | some entry =>
    rw [Option.map_some, Option.getD_some]
    cases hchanged : entry.changed with
    | true => simp [hchanged]
    | false => simp [hchanged, next_of_unchanged h hget hchanged]

end Overlay

/-- The rows that a table's visits come to within a transaction are those of its view. -/
lemma lists_visitedRows (h : TransactionHolds json storage transaction view)
    (htable : storage.table name = .ok table) (hascend : KeysAscend table.entries) :
    Lists view name (visitedRows transaction name table) := by
  rw [visitedRows]
  cases hoverlay : transaction.table name with
  | none =>
    refine ⟨rowsOf_all_nodup hascend [], fun row => ?_⟩
    rw [mem_rowsOf_all hascend, h.unstaged name hoverlay, committed_eq htable]
    exact and_iff_left List.not_mem_nil
  | some overlay =>
    have hholds := h.staged name overlay hoverlay
    constructor
    · rw [List.map_append, List.nodup_append]
      refine ⟨rowsOf_all_nodup hascend _, ?_, ?_⟩
      · rw [List.Nodup, List.pairwise_map, List.pairwise_filterMap]
        refine hholds.coherent.ordered_spec.2.imp ?_
        intro a b hlt row hrow row' hrow'
        rw [← (stagedRow_eq_some.mp hrow).2.1, ← (stagedRow_eq_some.mp hrow').2.1]
        exact hlt.ne
      · intro key hkey key' hkey' heq
        obtain ⟨row, hrow, rfl⟩ := List.mem_map.mp hkey
        obtain ⟨row', hrow', rfl⟩ := List.mem_map.mp hkey'
        obtain ⟨entry, hget, hchanged, -⟩ := (mem_staged hholds).mp hrow'
        refine ((mem_rowsOf_all hascend).mp hrow).2 ((mem_replacedKeys hholds).mpr ⟨entry, ?_, hchanged⟩)
        rw [heq]
        exact hget
    · intro row
      rw [List.mem_append, mem_rowsOf_all hascend, mem_staged hholds, view_eq hholds,
        committed_eq htable]

/-! ### Reads of whole tables -/

section Readers
variable {σ : Type} {reader : PagedReadView σ} {predicate : Option Predicate}
  {filter : Option TinyJoin.Filter} {scanned : Nat → σ → Result σ}
  {visitor : StoredRecord → σ → Result (VisitControl × σ)}

lemma reader_ready (h : TransactionHolds json storage transaction view) (hstorage : reader.storage = storage)
    (htransaction : reader.transaction = some transaction) : reader.ensureBaseRevision = .ok () := by
  rw [PagedReadView.ensureBaseRevision, htransaction]
  dsimp only
  rw [PagedTransaction.ensureBaseRevision, hstorage, if_pos h.revision.symm]

lemma reader_overlay (htransaction : reader.transaction = some transaction) :
    reader.overlay name = transaction.table name := by
  rw [PagedReadView.overlay, htransaction]
  rfl

/-- A visit of a whole table within a transaction presents the rows of its view. -/
lemma visitAll_presents (h : TransactionHolds json storage transaction view)
    (hstorage : reader.storage = storage) (htransaction : reader.transaction = some transaction)
    (hready : storage.ensureReady = .ok ()) (htable : storage.table name = .ok table)
    (hstored : TableStored json table) (hview : ViewStored json view name table.schema)
    (hfilter : VisitFilter json table.schema name predicate filter) (s : σ) :
    PresentsRows json name table predicate ⟨reader.chargeWork, scanned, visitor⟩
      (visitedRows transaction name table) s
      (reader.visitRowsWhere name none .ascending filter scanned visitor s) := by
  have hlists := lists_visitedRows h htable hstored.ascend
  have hranged : Ranged table.leadingKeyType none table.entries :=
    hstored.ranged (fun _ _ hcontra => by cases hcontra) fun _ _ hcontra => by cases hcontra
  have hcommitted : ∀ except : List (List UInt8), except.Pairwise (fun key later => key < later) → ∀ s,
      PresentsRows json name table predicate ⟨reader.chargeWork, scanned, visitor⟩
        (rowsOf table none .ascending except) s (storage.visitRowsWhere name none .ascending except filter
          ⟨reader.chargeWork, scanned, visitor⟩ s) := by
    intro except hexcept s
    refine visitRowsWhere_presents hready htable hstored hfilter hranged hexcept ?_ ?_ s
    · intro hcontra
      cases hcontra
    · exact fun _ _ => openVisit_isOk fun bound hbound => by cases hbound; exact Nat.zero_le _
  rw [visitedRows] at hlists ⊢
  rw [PagedReadView.visitRowsWhere, reader_ready h hstorage htransaction, reader_overlay htransaction,
    hstorage]
  simp only [bind, Except.bind]
  cases hoverlay : transaction.table name with
  | none => exact hcommitted [] .nil s
  | some overlay =>
    rw [hoverlay] at hlists
    have hkeys : (replacedKeys overlay).Pairwise (fun key later => key < later) := by
      rw [replacedKeys, List.pairwise_map]
      exact List.Pairwise.sublist List.filter_sublist
        (h.staged name overlay hoverlay).coherent.ordered_spec.2
    have happend := (hcommitted _ hkeys s).append fun s =>
      @presentStaged_presents json name table σ predicate filter reader scanned visitor overlay.ordered
        hstored.schema hstored.layout hfilter
        (fun row hrow => hview row.1 row.2 ((hlists.mem row).mp (List.mem_append_right _ hrow))) s
    rw [htable]
    exact happend

/-! ### Counts -/

/-- Entries told apart by whether their keys held a row, and whether they hold one now. -/
def movesAs (kind : Bool → Bool → Bool) (row : List UInt8 × OverlayEntry) : Bool :=
  kind row.2.row.old.isSome row.2.row.next.isSome

/-- The entries that add a row to the committed ones, and those that take one out. -/
def inserts : List UInt8 × OverlayEntry → Bool := movesAs fun old next => !old && next

def removes : List UInt8 × OverlayEntry → Bool := movesAs fun old next => old && !next

/-- Entries that take out no more rows than there are change the count by those they add and take out. -/
lemma countStaged_eq {entries : List (List UInt8 × OverlayEntry)} {count : Nat}
    (henough : entries.countP removes ≤ count) : PagedReadView.countStaged entries count =
      .ok (count + entries.countP inserts - entries.countP removes) := by
  induction entries generalizing count with
  | nil => rfl
  | cons row entries ih =>
    obtain ⟨key, entry⟩ := row
    rw [PagedReadView.countStaged]
    have hinserts : inserts (key, entry) = (!entry.row.old.isSome && entry.row.next.isSome) := rfl
    have hremoves : removes (key, entry) = (entry.row.old.isSome && !entry.row.next.isSome) := rfl
    rw [List.countP_cons, hremoves] at henough
    rw [List.countP_cons, List.countP_cons, hinserts, hremoves]
    cases hold : entry.row.old.isSome with
    | false =>
      cases hnext : entry.row.next.isSome with
      | false =>
        rw [hold, hnext] at henough
        exact ih henough
      | true =>
        rw [hold, hnext] at henough
        refine (ih (henough.trans (Nat.le_succ count))).trans ?_
        simp only [Bool.not_false, Bool.not_true, Bool.and_self, if_true, Bool.false_eq_true, if_false]
        congr 1
        omega
    | true =>
      cases hnext : entry.row.next.isSome with
      | false =>
        rw [hold, hnext] at henough
        simp only [Bool.not_false, Bool.not_true, Bool.and_self, if_true, Bool.false_eq_true, if_false] at henough ⊢
        rw [if_neg (by omega), ih (by omega)]
        congr 1
        omega
      | true =>
        rw [hold, hnext] at henough
        exact ih henough

/-- A kept row says whether its key held one. -/
lemma isSome_of_describes {key : List UInt8} {held : Option HeldRow} {value : Option (List UInt8)}
    (h : HeldRow.Describes json storage name key held value) : held.isSome = value.isSome := by
  cases held with
  | none => rw [show value = none from h]; rfl
  | some row =>
    cases row with
    | map row =>
      obtain ⟨record, -, rfl⟩ := h
      rfl
    | stored storedKey record =>
      obtain ⟨-, rfl⟩ := h
      rfl
    | measured bytes => exact (show value.isSome = true from h).symm

/-- The rows that a view lists are as many as it counts. -/
lemma count_eq {overlay : TableOverlay} {rows : List (List UInt8 × List UInt8)}
    (h : OverlayHolds json storage view name overlay) (htable : storage.table name = .ok table)
    (hascend : KeysAscend table.entries) (hrows : Lists view name rows) :
    overlay.ordered.countP removes ≤ table.entries.length ∧
      table.entries.length + overlay.ordered.countP inserts - overlay.ordered.countP removes =
        rows.length := by
  -- As sets of keys: those listed are the committed ones, without those taken out, and those added.
  have hkeys : (overlay.ordered.map Prod.fst).Nodup := by
    rw [List.Nodup, List.pairwise_map]
    exact h.coherent.ordered_spec.2.imp fun hlt => hlt.ne
  have hcount : ∀ kind : List UInt8 × OverlayEntry → Bool, overlay.ordered.countP kind =
      ((overlay.ordered.filter kind).map Prod.fst).toFinset.card := by
    intro kind
    rw [List.toFinset_card_of_nodup (hkeys.sublist (List.Sublist.map _ List.filter_sublist)),
      List.length_map, List.countP_eq_length_filter]
  have hmoves : ∀ kind : Bool → Bool → Bool, (∀ b, kind b b = false) → ∀ key,
      key ∈ ((overlay.ordered.filter (movesAs kind)).map Prod.fst).toFinset ↔
        kind (storage.committed name key).isSome (view name key).isSome = true := by
    intro kind hsame key
    have hheld : ∀ entry, overlay.get key = some entry →
        entry.row.old.isSome = (storage.committed name key).isSome ∧ view name key = entry.row.next := by
      intro entry hget
      refine ⟨isSome_of_describes (h.made _ (h.coherent.get_eq_some_iff.mp hget)).describes, ?_⟩
      rw [h.shows key, hget]
      rfl
    rw [List.mem_toFinset, List.mem_map]
    constructor
    · rintro ⟨row, hrow, rfl⟩
      obtain ⟨hrow, hkind⟩ := List.mem_filter.mp hrow
      obtain ⟨hold, hnext⟩ := hheld row.2 (get_of_mem_ordered h hrow)
      rw [← hold, hnext]
      exact hkind
    · intro hkind
      cases hget : overlay.get key with
      | none =>
        rw [h.shows key, hget, Option.map_none, Option.getD_none, hsame] at hkind
        cases hkind
      | some entry =>
        obtain ⟨hold, hnext⟩ := hheld entry hget
        rw [← hold, hnext] at hkind
        have hrow := h.coherent.ordered_spec.1.mem_iff.mpr (h.coherent.get_eq_some_iff.mp hget)
        exact ⟨(key, entry), List.mem_filter.mpr ⟨hrow, hkind⟩, rfl⟩
  have hadds := hmoves (fun old next => !old && next) (by decide)
  have htakes := hmoves (fun old next => old && !next) (by decide)
  have hcommitted : ∀ key, key ∈ (table.entries.map TreeEntry.key).toFinset ↔
      (storage.committed name key).isSome = true := by
    intro key
    rw [List.mem_toFinset, List.mem_map, committed_eq htable, Option.isSome_iff_exists]
    constructor
    · rintro ⟨entry, hentry, rfl⟩
      exact ⟨entry.value, hascend.committed_eq_some_iff.mpr ⟨entry, hentry, rfl, rfl⟩⟩
    · rintro ⟨value, hvalue⟩
      obtain ⟨entry, hentry, hkey, -⟩ := hascend.committed_eq_some_iff.mp hvalue
      exact ⟨entry, hentry, hkey⟩
  have hlisted : ∀ key, key ∈ (rows.map Prod.fst).toFinset ↔ (view name key).isSome = true := by
    intro key
    rw [List.mem_toFinset, List.mem_map, Option.isSome_iff_exists]
    constructor
    · rintro ⟨row, hrow, rfl⟩
      exact ⟨row.2, (hrows.mem row).mp hrow⟩
    · rintro ⟨value, hvalue⟩
      exact ⟨(key, value), (hrows.mem (key, value)).mpr hvalue, rfl⟩
  have hlength : table.entries.length = (table.entries.map TreeEntry.key).toFinset.card := by
    rw [List.toFinset_card_of_nodup hascend.nodup, List.length_map]
  have hrowsLength : rows.length = (rows.map Prod.fst).toFinset.card := by
    rw [List.toFinset_card_of_nodup hrows.nodup, List.length_map]
  have hsub : ((overlay.ordered.filter removes).map Prod.fst).toFinset ⊆
      (table.entries.map TreeEntry.key).toFinset := by
    intro key hkey
    exact (hcommitted key).mpr (Bool.and_eq_true_iff.mp ((htakes key).mp hkey)).1
  have hset : (rows.map Prod.fst).toFinset =
      ((table.entries.map TreeEntry.key).toFinset \ ((overlay.ordered.filter removes).map Prod.fst).toFinset) ∪
        ((overlay.ordered.filter inserts).map Prod.fst).toFinset := by
    ext key
    rw [Finset.mem_union, Finset.mem_sdiff, hlisted, hcommitted, inserts, removes, hadds, htakes]
    cases (storage.committed name key).isSome <;> cases (view name key).isSome <;> simp
  have hdisjoint : Disjoint
      ((table.entries.map TreeEntry.key).toFinset \ ((overlay.ordered.filter removes).map Prod.fst).toFinset)
      ((overlay.ordered.filter inserts).map Prod.fst).toFinset := by
    rw [Finset.disjoint_left]
    intro key hleft hright
    rw [Finset.mem_sdiff, hcommitted] at hleft
    rw [inserts, hadds, hleft.1] at hright
    cases hright
  have hcard := Finset.card_le_card hsub
  rw [hcount, hcount, hlength, hrowsLength, hset, Finset.card_union_of_disjoint hdisjoint,
    Finset.card_sdiff_of_subset hsub]
  omega

/-! ### Reads of one key -/

/-- A visit of the row that a key holds, if it holds one. -/
def PagedTable.visitHeld {σ : Type} (table : PagedTable) (key : List UInt8) (held : Option (List UInt8))
    (visitor : StoredRecord → σ → Result (VisitControl × σ)) (s : σ) : Result (VisitOutcome × σ) :=
  match held with
  | none => .ok (.complete, s)
  | some value => do
    let (control, s) ← visitor (← table.record key value) s
    return (if control = .stop then .stopped else .complete, s)

/-- The row that a key holds, decoded, if it holds one. -/
def PagedTable.decodeHeld (json : SerdeJson) (table : PagedTable) (key : List UInt8) :
    Option (List UInt8) → Result (Option Row)
  | none => .ok none
  | some value => do return some (← (← table.record key value).toRow json)

/-- What a table's tree holds for a key that it could. -/
lemma committed_of_root {key : List UInt8} (hkey : key.length ≤ maxBtreeKeyBytes) :
    (table.root = none → table.committed key = none) ∧
      ∀ tree, table.root = some tree → tree.get key = .ok (table.committed key) := by
  constructor
  · intro hroot
    rw [PagedTable.committed, PagedTable.entries, hroot]
    rfl
  · intro tree hroot
    rw [Tree.get, validateKey_eq_ok.mpr hkey, PagedTable.committed, PagedTable.entries, hroot]
    rfl

lemma visitEntry_eq {key : List UInt8} (hkey : key.length ≤ maxBtreeKeyBytes)
    (hready : storage.ensureReady = .ok ()) (s : σ) :
    storage.visitEntry table key visitor s = table.visitHeld key (table.committed key) visitor s := by
  obtain ⟨hnone, hsome⟩ := @committed_of_root table key hkey
  rw [PagedStorage.visitEntry, hready]
  simp only [bind, Except.bind]
  cases hroot : table.root with
  | none =>
    rw [hnone hroot]
    rfl
  | some tree =>
    dsimp only
    rw [hsome tree hroot]
    cases table.committed key <;> rfl

lemma committedEntryOf_eq {key : List UInt8} (hkey : key.length ≤ maxBtreeKeyBytes)
    (hready : storage.ensureReady = .ok ())
    (hopens : ∀ value, table.committed key = some value → ∃ record, table.record key value = .ok record) :
    storage.committedEntryOf table key = .ok (table.committed key) := by
  obtain ⟨hnone, hsome⟩ := @committed_of_root table key hkey
  rw [PagedStorage.committedEntryOf, hready]
  simp only [bind, Except.bind]
  cases hroot : table.root with
  | none =>
    rw [hnone hroot]
    rfl
  | some tree =>
    dsimp only
    rw [hsome tree hroot]
    cases hcommitted : table.committed key with
    | none => rfl
    | some value =>
      obtain ⟨record, hrecord⟩ := hopens value hcommitted
      dsimp only
      rw [hrecord]
      rfl

lemma lookupPrimaryKey_eq {row : Row} {key : List UInt8}
    (hencode : encodePrimaryKey table.schema row = .ok key) (hkey : key.length ≤ maxBtreeKeyBytes)
    (hready : storage.ensureReady = .ok ()) (htable : storage.table name = .ok table) :
    storage.lookupPrimaryKey json name row = table.decodeHeld json key (table.committed key) := by
  obtain ⟨hnone, hsome⟩ := @committed_of_root table key hkey
  rw [PagedStorage.lookupPrimaryKey, hready, htable]
  simp only [bind, Except.bind]
  rw [hencode]
  dsimp only
  cases hroot : table.root with
  | none =>
    rw [hnone hroot]
    rfl
  | some tree =>
    dsimp only
    rw [hsome tree hroot]
    cases table.committed key <;> rfl

lemma length_encodeKeyValues {schema : TableDefinition} {start key : List UInt8}
    {columns : List (String × Value)} (hstart : start.length ≤ maxBtreeKeyBytes)
    (h : encodeKeyValues schema start columns = .ok key) : key.length ≤ maxBtreeKeyBytes := by
  induction columns generalizing start with
  | nil =>
    cases h
    exact hstart
  | cons column columns ih =>
    obtain ⟨dataType, -, h⟩ := Except.bind_eq_ok.mp h
    obtain ⟨longer, -, h⟩ := Except.bind_eq_ok.mp h
    obtain ⟨_, hshort, h⟩ := Except.bind_eq_ok.mp h
    exact ih (validateKeySize_eq_ok.mp hshort) h

/-- No encoded primary key is longer than a stored one may be. -/
lemma PrimaryKey.length_encode {schema : TableDefinition} {primary : PrimaryKey} {key : List UInt8}
    (h : primary.encode schema = .ok key) : key.length ≤ maxBtreeKeyBytes := by
  cases primary with
  | ofRow row =>
    obtain ⟨-, tuple, -, -, hshort⟩ := encodePrimaryKey_eq_ok.mp h
    exact hshort
  | ofValues values => exact length_encodeKeyValues (Nat.zero_le _) h

/-- What is found staged for a key is what the view shows there, and else that is what is committed. -/
lemma shown_cases (h : TransactionHolds json storage transaction view)
    (htransaction : reader.transaction = some transaction) (htable : storage.table name = .ok table)
    (key : List UInt8) :
    (∃ entry, (reader.overlay name).bind (fun overlay => overlay.get key) = some entry ∧
        view name key = entry.row.next) ∨
      (reader.overlay name).bind (fun overlay => overlay.get key) = none ∧
        view name key = table.committed key := by
  have hshows := h.shows name key
  rw [PagedTransaction.entry, committed_eq htable] at hshows
  rw [reader_overlay htransaction]
  cases hentry : (transaction.table name).bind (fun overlay => overlay.get key) with
  | none =>
    rw [hentry] at hshows
    exact .inr ⟨rfl, hshows⟩
  | some entry =>
    rw [hentry] at hshows
    exact .inl ⟨entry, rfl, hshows⟩

lemma visitKey_eq (h : TransactionHolds json storage transaction view)
    (hstorage : reader.storage = storage) (htransaction : reader.transaction = some transaction)
    (hready : storage.ensureReady = .ok ()) (htable : storage.table name = .ok table)
    {primary : PrimaryKey} {key : List UInt8} (hencode : primary.encode table.schema = .ok key) (s : σ) :
    reader.visitKey name primary visitor s =
      reader.chargeWork 1 s >>= table.visitHeld key (view name key) visitor := by
  rw [PagedReadView.visitKey, reader_ready h hstorage htransaction, hstorage, htable]
  simp only [bind, Except.bind]
  cases reader.chargeWork 1 s with
  | error error => rfl
  | ok s =>
    dsimp only
    rw [hencode]
    dsimp only
    rcases shown_cases h htransaction htable key with ⟨entry, hentry, hshown⟩ | ⟨hentry, hshown⟩
    · rw [hentry, hshown]
      dsimp only
      cases entry.row.next <;> rfl
    · rw [hentry, hshown]
      exact visitEntry_eq (PrimaryKey.length_encode hencode) hready s

lemma lookupPrimaryKey_view (h : TransactionHolds json storage transaction view)
    (hstorage : reader.storage = storage) (htransaction : reader.transaction = some transaction)
    (hready : storage.ensureReady = .ok ()) (htable : storage.table name = .ok table)
    {row : Row} {key : List UInt8} (hencode : encodePrimaryKey table.schema row = .ok key) (s : σ) :
    reader.lookupPrimaryKey json name row s = (do
      let s ← reader.chargeWork 1 s
      return (← table.decodeHeld json key (view name key), s)) := by
  have hshort : key.length ≤ maxBtreeKeyBytes := @PrimaryKey.length_encode table.schema (.ofRow row) key hencode
  rw [PagedReadView.lookupPrimaryKey, reader_ready h hstorage htransaction]
  simp only [bind, Except.bind]
  cases reader.chargeWork 1 s with
  | error error => rfl
  | ok s =>
    dsimp only
    rw [PagedReadView.lookupStaged, htransaction, hstorage]
    dsimp only
    rw [htable]
    simp only [bind, Except.bind]
    rw [hencode]
    dsimp only
    have hcases := shown_cases h htransaction htable key
    rw [reader_overlay htransaction] at hcases
    rcases hcases with ⟨entry, hentry, hshown⟩ | ⟨hentry, hshown⟩
    · rw [hentry, hshown]
      dsimp only
      cases entry.row.next with
      | none => rfl
      | some record =>
        rw [PagedTable.decodeHeld]
        cases hrecord : table.record key record with
        | error error => simp only [hrecord]; rfl
        | ok opened =>
          cases hrow : opened.toRow json with
          | error error => simp only [hrecord, bind, Except.bind, hrow]
          | ok decoded => simp only [hrecord, bind, Except.bind, hrow]; rfl
    · rw [hentry, hshown]
      simp only [pure, Except.pure]
      rw [lookupPrimaryKey_eq hencode hshort hready htable]

lemma encodedKey_eq (h : TransactionHolds json storage transaction view)
    (hstorage : reader.storage = storage) (htransaction : reader.transaction = some transaction)
    (hready : storage.ensureReady = .ok ()) (htable : storage.table name = .ok table)
    (hopens : ∀ key value, view name key = some value → ∃ record, table.record key value = .ok record)
    {key : List UInt8} (hkey : key.length ≤ maxBtreeKeyBytes) (s : σ) :
    reader.holdsEncodedKey name key s =
        (do let s ← reader.chargeWork 1 s; return ((view name key).isSome, s)) ∧
      reader.heldEncodedKey name key s = (do let s ← reader.chargeWork 1 s; return (view name key, s)) := by
  rw [PagedReadView.holdsEncodedKey, PagedReadView.heldEncodedKey, reader_ready h hstorage htransaction,
    hstorage, PagedStorage.committedEntry, hready, htable]
  simp only [bind, Except.bind]
  cases reader.chargeWork 1 s with
  | error error => exact ⟨rfl, rfl⟩
  | ok s =>
    dsimp only
    rcases shown_cases h htransaction htable key with ⟨entry, hentry, hshown⟩ | ⟨hentry, hshown⟩
    · rw [hentry, hshown]
      dsimp only
      cases hnext : entry.row.next with
      | none => exact ⟨rfl, rfl⟩
      | some value =>
        obtain ⟨record, hrecord⟩ := hopens key value (hshown.trans hnext)
        dsimp only
        rw [hrecord]
        exact ⟨rfl, rfl⟩
    · rw [hentry, hshown]
      have hentryOf := committedEntryOf_eq hkey hready fun value hvalue => hopens key value (hshown.trans hvalue)
      dsimp only
      rw [hentryOf]
      exact ⟨rfl, rfl⟩

end Readers

/-! ### All reads -/

/-- Whatever statements a transaction has staged over a committed database, every read through it agrees
with one view, the committed rows with those statements' changes applied: visits of a table, filtered or
not, present its rows each once, a count is theirs, and a read by a key finds the row there. -/
theorem transaction_reads_show_view {σ : Type} (json : SerdeJson) (storage : PagedStorage)
    (transaction : PagedTransaction) (view : TableView) (hstaged : Staged json storage transaction view)
    (name : String) (table : PagedTable) (hready : storage.ensureReady = .ok ())
    (htable : storage.table name = .ok table) (hstored : TableStored json table)
    (hcount : table.rowCount = table.entries.length) (hview : ViewStored json view name table.schema)
    (reader : PagedReadView σ) (hstorage : reader.storage = storage)
    (htransaction : reader.transaction = some transaction) :
    (∃ rows, Lists view name rows ∧ reader.tableRowCount name = .ok rows.length ∧
      (∀ visitor s, PresentsRows json name table none ⟨reader.chargeWork, fun _ s => .ok s, visitor⟩ rows s
        (reader.visitTable name visitor s)) ∧
      ∀ predicate filter scanned visitor s, VisitFilter json table.schema name predicate (some filter) →
        PresentsRows json name table predicate ⟨reader.chargeWork, scanned, visitor⟩ rows s
          (reader.visitTableWhere name filter scanned visitor s)) ∧
    (∀ row key visitor s, encodePrimaryKey table.schema row = .ok key →
      reader.visitPrimaryKey name row visitor s =
          (reader.chargeWork 1 s >>= table.visitHeld key (view name key) visitor) ∧
        reader.lookupPrimaryKey json name row s = (do
          let s ← reader.chargeWork 1 s
          return (← table.decodeHeld json key (view name key), s))) ∧
    (∀ values key visitor s, (PrimaryKey.ofValues values).encode table.schema = .ok key →
      reader.visitPrimaryKeyValues name values visitor s =
        (reader.chargeWork 1 s >>= table.visitHeld key (view name key) visitor)) ∧
    ∀ key s, key.length ≤ maxBtreeKeyBytes →
      reader.holdsEncodedKey name key s =
          (do let s ← reader.chargeWork 1 s; return ((view name key).isSome, s)) ∧
        reader.heldEncodedKey name key s =
          (do let s ← reader.chargeWork 1 s; return (view name key, s)) := by
  have h := holds_of_staged hstaged
  have hlists := lists_visitedRows h htable hstored.ascend
  refine ⟨⟨_, hlists, ?_, ?_, ?_⟩, ?_, ?_, ?_⟩
  · rw [PagedReadView.tableRowCount, reader_ready h hstorage htransaction, hstorage,
      PagedStorage.tableRowCount, hready, htable, reader_overlay htransaction]
    simp only [bind, Except.bind, pure, Except.pure]
    rw [hcount]
    cases hoverlay : transaction.table name with
    | none =>
      rw [visitedRows, hoverlay]
      dsimp only
      rw [rowsOf_all, List.length_map, List.filter_eq_self.mpr (by simp)]
    | some overlay =>
      obtain ⟨henough, htotal⟩ := count_eq (h.staged name overlay hoverlay) htable hstored.ascend hlists
      dsimp only
      rw [countStaged_eq henough, htotal]
  · exact fun visitor s => visitAll_presents h hstorage htransaction hready htable hstored hview .all s
  · exact fun predicate filter scanned visitor s hfilter =>
      visitAll_presents h hstorage htransaction hready htable hstored hview hfilter s
  · exact fun row key visitor s hencode =>
      ⟨@visitKey_eq json storage transaction view name table σ reader visitor h hstorage htransaction hready
        htable (.ofRow row) key hencode s,
        lookupPrimaryKey_view h hstorage htransaction hready htable hencode s⟩
  · exact fun values key visitor s hencode => visitKey_eq h hstorage htransaction hready htable hencode s
  · intro key s hkey
    refine encodedKey_eq h hstorage htransaction hready htable ?_ hkey s
    intro key value hvalue
    obtain ⟨row, hrow⟩ := hview key value hvalue
    obtain ⟨record, hrecord, -⟩ :=
      @reader_of_stored json table.schema table.layout row key value name none _ hstored.schema
        hstored.layout hrow rfl
    exact ⟨record, hrecord⟩

/-- A reader of the weir's database, and of what a transaction has staged over it. -/
def weirReader (transaction : PagedTransaction) : PagedReadView (List (List UInt8)) :=
  ⟨weir, some transaction, none⟩

theorem transaction_reads_show_view_weir : ∃ transaction,
    (PagedTransaction.new 1).stage literalJson weir [.remove "gauges" gaugeEntry.key] [] = .ok transaction ∧
      (weirReader transaction).tableRowCount "gauges" = .ok 0 ∧
      PresentsRows literalJson "gauges" gaugeTable none keepKeys [] []
        ((weirReader transaction).visitTable "gauges" keepKeys.visitor []) := by
  have hstages : ((PagedTransaction.new 1).stage literalJson weir [.remove "gauges" gaugeEntry.key] []).isOk =
      true := by decide +kernel
  cases hok : (PagedTransaction.new 1).stage literalJson weir [.remove "gauges" gaugeEntry.key] [] with
  | error error =>
    rw [hok] at hstages
    cases hstages
  | ok transaction =>
    have hreports : ∀ change ∈ withPrevious [.remove "gauges" gaugeEntry.key] [],
        change.2.Reports literalJson weir weir.committed change.1 := by
      intro change hchange
      rw [List.mem_singleton.mp hchange]
      trivial
    have hnothing : ∀ key, RowChange.applyAll literalJson weir weir.committed
        [.remove "gauges" gaugeEntry.key] "gauges" key = none := by
      intro key
      change (if _ then _ else _) = none
      split
      · rfl
      · next hother =>
        have hne : gaugeEntry.key ≠ key := fun heq => hother ⟨rfl, congrArg some heq⟩
        change (List.find? (fun entry : TreeEntry => entry.key == key) [gaugeEntry]).map TreeEntry.value = none
        rw [List.find?_cons_of_neg (by simpa using hne)]
        rfl
    obtain ⟨⟨rows, hlists, hcount, hpresents, -⟩, -⟩ := transaction_reads_show_view literalJson weir transaction _
      (.stage .new hreports hok) "gauges" gaugeTable rfl rfl gaugeTable_stored rfl
      (fun key value hvalue => by rw [hnothing key] at hvalue; cases hvalue) (weirReader transaction) rfl rfl
    have hempty : rows = [] := by
      rw [List.eq_nil_iff_forall_not_mem]
      intro row hrow
      have hshown := (hlists.mem row).mp hrow
      rw [hnothing row.1] at hshown
      cases hshown
    rw [hempty] at hcount hpresents
    exact ⟨transaction, rfl, hcount, hpresents keepKeys.visitor []⟩

/-! ### Reads in key order -/

end TinyJoin
