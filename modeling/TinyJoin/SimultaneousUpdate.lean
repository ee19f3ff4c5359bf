import TinyJoin.ScriptWrites
import TinyJoin.StagedWrites
import TinyJoin.StagingExact
import TinyJoin.UpdateChanges

/-! An UPDATE, from the rows that it visits to the table that either writer leaves. -/
namespace TinyJoin
open Reassign

/-! ### Reading a key -/

section Reading
variable {σ : Type} {json : SerdeJson}

/-- Whether a row holds the primary key of a map. -/
def PagedReadView.holdsPrimaryKey (view : PagedReadView σ) (table : String) (row : RowMap) (s : σ) :
    Result Bool := do
  return (← view.visitPrimaryKey table row.row (fun _ s => .ok (.stop, s)) s).1 = .stopped

/-- The rows that a reader shows: a transaction's, or the committed ones. -/
def PagedReadView.Shows (json : SerdeJson) (view : PagedReadView σ) (shown : TableView) : Prop :=
  match view.transaction with
  | some transaction => TransactionHolds json view.storage transaction shown
  | none => shown = view.storage.committed

/-- What an entry's visit comes to where the visitor stops. -/
lemma visitEntry_stop {storage : PagedStorage} {paged : PagedTable} {key : List UInt8} {s s' : σ}
    {outcome : VisitOutcome}
    (h : storage.visitEntry paged key (fun _ s => .ok (.stop, s)) s = .ok (outcome, s')) :
    outcome = .stopped ↔ (paged.committed key).isSome := by
  obtain ⟨_, -, h⟩ := Except.bind_eq_ok.mp h
  cases hroot : paged.root with
  | none =>
    rw [hroot] at h
    cases h
    simp [PagedTable.committed, PagedTable.entries, hroot]
  | some tree =>
    rw [hroot] at h
    obtain ⟨found, hfound, h⟩ := Except.bind_eq_ok.mp h
    obtain ⟨_, -, hfound⟩ := Except.bind_eq_ok.mp hfound
    have hheld : paged.committed key = found := by
      rw [PagedTable.committed, PagedTable.entries, hroot]
      exact Except.ok.inj hfound
    rw [hheld]
    cases found with
    | none =>
      cases h
      simp
    | some value =>
      obtain ⟨record, -, h⟩ := Except.bind_eq_ok.mp h
      cases h
      simp

/-- A map's key reads as held exactly where a reader shows a row. -/
lemma PagedReadView.holdsPrimaryKey_eq {view : PagedReadView σ} {shown : TableView}
    (hshows : view.Shows json shown) {table : String} {paged : PagedTable}
    (htable : view.storage.table table = .ok paged) {row : RowMap} {key : List UInt8}
    (hkey : encodePrimaryKey paged.schema row.row = .ok key) {s : σ} {held : Bool}
    (h : view.holdsPrimaryKey table row s = .ok held) : held = (shown table key).isSome := by
  obtain ⟨⟨outcome, s'⟩, hvisit, h⟩ := Except.bind_eq_ok.mp h
  cases h
  obtain ⟨_, -, hvisit⟩ := Except.bind_eq_ok.mp hvisit
  obtain ⟨_, -, hvisit⟩ := Except.bind_eq_ok.mp hvisit
  obtain ⟨_, hpaged, hvisit⟩ := Except.bind_eq_ok.mp hvisit
  rw [htable, Except.ok.injEq] at hpaged
  subst hpaged
  obtain ⟨_, hencoded, hvisit⟩ := Except.bind_eq_ok.mp hvisit
  obtain rfl : key = _ := Except.ok.inj (hkey.symm.trans hencoded)
  have hcommitted : view.storage.committed table key = paged.committed key := by
    rw [PagedStorage.committed, table_eq_ok.mp htable]
    rfl
  rw [PagedReadView.Shows] at hshows
  unfold PagedReadView.overlay at hvisit
  cases htransaction : view.transaction with
  | none =>
    rw [htransaction] at hvisit hshows
    rw [hshows, hcommitted, Bool.eq_iff_iff, decide_eq_true_eq]
    exact visitEntry_stop hvisit
  | some transaction =>
    rw [htransaction] at hvisit hshows
    have hentry : (transaction.table table).bind (fun overlay => overlay.get key) =
        transaction.entry table key := rfl
    dsimp only [Option.bind_some] at hvisit
    rw [hentry] at hvisit
    rw [hshows.shows]
    cases hstaged : transaction.entry table key with
    | none =>
      rw [hstaged] at hvisit
      rw [Option.map_none, Option.getD_none, hcommitted, Bool.eq_iff_iff, decide_eq_true_eq]
      exact visitEntry_stop hvisit
    | some entry =>
      rw [hstaged] at hvisit
      rw [Option.map_some, Option.getD_some]
      cases hnext : entry.row.next with
      | none =>
        simp only [hnext] at hvisit
        cases hvisit
        rfl
      | some record =>
        simp only [hnext] at hvisit
        obtain ⟨_, -, hvisit⟩ := Except.bind_eq_ok.mp hvisit
        cases hvisit
        rfl

end Reading

/-! ### What the writers are given -/

section Planned
variable {json : SerdeJson} {plan : UpdatePlan} {assignments : List (String × Assigned)}
  {records : List UInt8 → Option (List UInt8)} {rows : List UInt8 → Option Row}
  {accepts : Row → Bool} {planned : List PlannedRow} {storage : PagedStorage} {paged : PagedTable}

lemma withPrevious_map (changes : List (RowChange × PreviousRow)) :
    PagedTransaction.withPrevious (changes.map Prod.fst) (changes.map Prod.snd) = changes := by
  induction changes with
  | nil => rfl
  | cons change changes ih =>
    rw [List.map_cons, List.map_cons, PagedTransaction.withPrevious, List.tail_cons, ih]
    rfl

lemma HeldRow.Keeps.describes {table : String} (hpaged : storage.table table = .ok paged)
    (hstores : StoresRows json paged.schema records rows) {key : List UInt8} {row : Row}
    (hrow : rows key = some row) {held : HeldRow} (h : held.Keeps records key row) :
    HeldRow.Describes json storage table key (some held) (records key) := by
  cases held with
  | stored storedKey value => exact h
  | measured bytes => exact h.elim
  | map map =>
    obtain ⟨record, hrecord, hstored⟩ := hstores.stored key row hrow
    refine ⟨record, ?_, hrecord⟩
    simp only [hpaged, bind, Except.bind, show map.row = row from h, hstored.record]

lemma PlannedRow.Plans.upserted_key {row : PlannedRow} (h : row.Plans json plan assignments records)
    (hpaged : storage.table plan.table = .ok paged) (hschema : paged.schema = plan.schema) :
    (row.update.upserted plan.table).1.key storage = some row.update.newKey := by
  have hwritten := h.update.written
  have hkey := h.update.key
  unfold PlannedUpdate.newKey at hkey ⊢
  unfold PlannedUpdate.upserted
  cases hnext : row.update.next with
  | record written => rfl
  | map oldPrimaryKey newKey newRow =>
    rw [hnext] at hwritten hkey
    simp only [RowChange.key, hpaged, hschema, bind, Except.bind, hwritten.2, hkey]
    rfl

lemma PlannedUpdate.upserted_table (update : PlannedUpdate) (table : String) :
    (update.upserted table).1.table = table := by
  unfold PlannedUpdate.upserted
  split <;> rfl

lemma PlannedUpdate.upserted_isDelete (update : PlannedUpdate) (table : String) :
    (update.upserted table).1.patchRow.isDelete = false := by
  unfold PlannedUpdate.upserted
  split <;> rfl

lemma PlannedUpdate.deleted_eq {update : PlannedUpdate} {table : String}
    {change : RowChange × PreviousRow} (h : update.deleted table = some change) :
    ∃ key, change.1 = .delete table key := by
  unfold PlannedUpdate.deleted at h
  split at h
  · split at h
    · cases h
      exact ⟨_, rfl⟩
    · cases h
  · cases h

lemma plannedChanges_table {updates : List PlannedUpdate} {table : String} :
    ∀ change ∈ plannedChanges table updates, change.1.table = table := by
  intro change hchange
  rcases List.mem_append.mp hchange with hdeleted | hupserted
  · obtain ⟨update, -, hdeleted⟩ := List.mem_filterMap.mp hdeleted
    obtain ⟨key, hkey⟩ := PlannedUpdate.deleted_eq hdeleted
    rw [hkey]
    rfl
  · obtain ⟨update, -, rfl⟩ := List.mem_map.mp hupserted
    exact update.upserted_table table

/-- What a plan reports of each change's key is what the key held. -/
lemma PlansRows.reports (h : PlansRows json plan assignments records rows accepts planned)
    {view : TableView} (hview : view plan.table = records)
    (hpaged : storage.table plan.table = .ok paged) (hschema : paged.schema = plan.schema)
    (hstores : StoresRows json plan.schema records rows) :
    ∀ change ∈ plannedChanges plan.table (planned.map PlannedRow.update),
      change.2.Reports json storage view change.1 := by
  have hread : ∀ row ∈ planned, ∀ change : RowChange, change.table = plan.table →
      change.key storage = some row.update.oldKey →
      row.update.read.Reports json storage view change := by
    intro row hrow change htable hkey
    obtain ⟨hbefore, -⟩ := (h.mem _ _).mp
      (List.mem_map_of_mem (f := fun row : PlannedRow => (row.update.oldKey, row.before)) hrow)
    unfold PlannedUpdate.read
    cases hold : row.update.oldRow with
    | none => trivial
    | some held =>
      refine ⟨_, hkey, ?_⟩
      rw [htable, hview]
      exact ((h.plans row hrow).kept held hold).describes hpaged (hschema ▸ hstores) hbefore
  intro change hchange
  rcases List.mem_append.mp hchange with hdeleted | hupserted
  · obtain ⟨update, hupdate, hdeleted⟩ := List.mem_filterMap.mp hdeleted
    obtain ⟨row, hrow, rfl⟩ := List.mem_map.mp hupdate
    have hspec := (h.plans row hrow).deleted hpaged hschema
    split at hspec
    · obtain ⟨key, hdelete, hedits⟩ := hspec
      obtain rfl := Option.some.inj (hdelete.symm.trans hdeleted)
      exact hread row hrow _ hedits.named hedits.key
    · rw [hspec] at hdeleted
      cases hdeleted
  · obtain ⟨update, hupdate, rfl⟩ := List.mem_map.mp hupserted
    obtain ⟨row, hrow, rfl⟩ := List.mem_map.mp hupdate
    have hkey := (h.plans row hrow).upserted_key hpaged hschema
    have htable := row.update.upserted_table plan.table
    unfold PlannedUpdate.newKey at hkey
    unfold PlannedUpdate.upserted at hkey htable ⊢
    cases hnext : row.update.next with
    | record record =>
      rw [hnext] at hkey htable
      exact hread row hrow _ htable hkey
    | map oldPrimaryKey newKey newRow =>
      rw [hnext] at hkey htable
      dsimp only at hkey htable ⊢
      split
      · trivial
      · next hstays => exact hread row hrow _ htable (by rw [hkey, not_not.mp hstays])

/-- The keys that rows are written at are those of the rows' moves. -/
lemma upserted_keys (hpaged : storage.table plan.table = .ok paged)
    (hschema : paged.schema = plan.schema)
    (hplans : ∀ row ∈ planned, row.Plans json plan assignments records) :
    (((planned.map PlannedRow.update).map (PlannedUpdate.upserted plan.table)).map Prod.fst).map
      (RowChange.key storage) = (planned.map (fun row => row.update.newKey)).map some := by
  rw [List.map_map, List.map_map, List.map_map, List.map_map]
  exact List.map_congr_left (fun row hrow => (hplans row hrow).upserted_key hpaged hschema)

/-- No two of the changes write one key, as both writers demand of a statement. -/
lemma PlansRows.writesOnce (h : PlansRows json plan assignments records rows accepts planned)
    (hpaged : storage.table plan.table = .ok paged) (hschema : paged.schema = plan.schema)
    (hfree : ¬Collides (Updates plan.schema plan.table assignments accepts) rows) :
    RowChange.WritesOnce storage
      ((plannedChanges plan.table (planned.map PlannedRow.update)).map Prod.fst) := by
  have hnodup : (planned.map (fun row => row.update.newKey)).Nodup :=
    (clear_iff.mp (not_not.mp (fun hclear => hfree (h.collides_iff.mpr hclear)))).1
  have hwrites : ((plannedChanges plan.table (planned.map PlannedRow.update)).map Prod.fst).filter
      (fun change => !change.patchRow.isDelete) =
        ((planned.map PlannedRow.update).map (PlannedUpdate.upserted plan.table)).map Prod.fst := by
    rw [plannedChanges, List.map_append, List.filter_append, List.filter_eq_nil_iff.mpr,
      List.filter_eq_self.mpr, List.nil_append]
    · intro change hchange
      obtain ⟨_, hwrite, rfl⟩ := List.mem_map.mp hchange
      obtain ⟨update, -, rfl⟩ := List.mem_map.mp hwrite
      simp [update.upserted_isDelete plan.table]
    · intro change hchange
      obtain ⟨_, hdelete, rfl⟩ := List.mem_map.mp hchange
      obtain ⟨update, -, hdeleted⟩ := List.mem_filterMap.mp hdelete
      obtain ⟨key, hkey⟩ := PlannedUpdate.deleted_eq hdeleted
      simp [hkey, RowChange.patchRow, RowChange.parts, PatchRow.isDelete]
  rw [RowChange.WritesOnce, hwrites, upserted_keys hpaged hschema h.plans]
  exact hnodup.map (Option.some_injective _)

/-- Where every written map has a record, every planned row has one. -/
lemma PlansRows.encodes (h : PlansRows json plan assignments records rows accepts planned)
    (hmaps : ∀ row ∈ planned, ∀ map, (row.update.upserted plan.table).1 = .upsert plan.table map →
      ∃ record, encodeRow json plan.schema map.row = .ok record) :
    ∀ row ∈ planned, ∃ record, encodeRow json plan.schema row.next = .ok record := by
  intro row hrow
  have hwritten := (h.plans row hrow).update.written
  cases hnext : row.update.next with
  | record record =>
    rw [hnext] at hwritten
    exact ⟨record, hwritten⟩
  | map oldPrimaryKey newKey newRow =>
    rw [hnext] at hwritten
    rw [← hwritten.2]
    refine hmaps row hrow newRow ?_
    unfold PlannedUpdate.upserted
    rw [hnext]

/-- A transaction that staged a plan made a record of every row that it writes. -/
lemma PlansRows.encodes_staged (h : PlansRows json plan assignments records rows accepts planned)
    {shown : TableView} (hview : shown plan.table = records)
    (hpaged : storage.table plan.table = .ok paged) (hschema : paged.schema = plan.schema)
    (hstores : StoresRows json plan.schema records rows)
    (hfree : ¬Collides (Updates plan.schema plan.table assignments accepts) rows)
    {transaction transaction' : PagedTransaction}
    (holds : TransactionHolds json storage transaction shown)
    (hok : transaction.stage json storage
      ((plannedChanges plan.table (planned.map PlannedRow.update)).map Prod.fst)
      ((plannedChanges plan.table (planned.map PlannedRow.update)).map Prod.snd) =
        .ok transaction') :
    ∀ row ∈ planned, ∃ record, encodeRow json plan.schema row.next = .ok record := by
  refine h.encodes (fun row hrow map hmap => ?_)
  have hnodup : (planned.map (fun row => row.update.newKey)).Nodup :=
    (clear_iff.mp (not_not.mp (fun hclear => hfree (h.collides_iff.mpr hclear)))).1
  obtain ⟨before, after, rfl⟩ := List.append_of_mem hrow
  have hchanges : PagedTransaction.withPrevious
      ((plannedChanges plan.table ((before ++ row :: after).map PlannedRow.update)).map Prod.fst)
      ((plannedChanges plan.table ((before ++ row :: after).map PlannedRow.update)).map Prod.snd) =
      (((before ++ row :: after).map PlannedRow.update).filterMap
          (PlannedUpdate.deleted plan.table) ++
        (before.map PlannedRow.update).map (PlannedUpdate.upserted plan.table)) ++
        (.upsert plan.table map, (row.update.upserted plan.table).2) ::
          (after.map PlannedRow.update).map (PlannedUpdate.upserted plan.table) := by
    rw [withPrevious_map, plannedChanges, ← hmap]
    simp only [List.map_append, List.map_cons, List.append_assoc]
  have hreports := h.reports hview hpaged hschema hstores
  rw [← withPrevious_map (plannedChanges plan.table _)] at hreports
  rw [← hschema]
  refine PagedTransaction.stage_encodes holds hreports hok hchanges ?_ hpaged
  intro other hother _ hkey
  rw [← hmap, (h.plans row hrow).upserted_key hpaged hschema] at hkey
  have hkeys := upserted_keys hpaged hschema
    (fun row hrow => h.plans row (List.mem_append_right before (List.mem_cons_of_mem _ hrow)))
  have hmem : some row.update.newKey ∈ (after.map (fun row => row.update.newKey)).map some := by
    rw [← hkeys, ← hkey]
    exact List.mem_map_of_mem (List.mem_map_of_mem hother)
  rw [List.mem_map_of_injective (Option.some_injective _)] at hmem
  rw [List.map_append, List.map_cons, List.nodup_append] at hnodup
  exact (List.nodup_cons.mp hnodup.2.1).1 hmem

end Planned

/-! ### The statement -/

section Statement
variable {σ : Type} {json : SerdeJson} {reader : DmlReader} {table : String}
  {assignments : List (String × Assigned)} {returning : Option (List String)} {visit : Visit}

lemma StoresRows.isSome_iff {schema : TableDefinition} {records : List UInt8 → Option (List UInt8)}
    {rows : List UInt8 → Option Row} (h : StoresRows json schema records rows) (key : List UInt8) :
    (records key).isSome = (rows key).isSome := by
  cases hrow : rows key with
  | none => rw [h.free key hrow]; rfl
  | some row =>
    obtain ⟨record, hrecord, -⟩ := h.stored key row hrow
    rw [hrecord]
    rfl

lemma applyChangesByTable_eq {candidate : ScriptCandidate} {changes : List RowChange}
    {previous : List PreviousRow} (hnames : ∀ change ∈ changes, change.table = table) :
    applyChangesByTable json candidate changes previous =
      applyChanges json candidate changes previous := by
  cases changes with
  | nil => rfl
  | cons first rest =>
    rw [applyChangesByTable, if_pos]
    rw [List.all_eq_true]
    intro change hchange
    rw [beq_iff_eq, hnames change hchange, hnames first List.mem_cons_self]

/-- A visit that comes to its end is planned as every matching row, each once. -/
lemma planRows_spec {plan : UpdatePlan} {updating : Updating} {layout : RecordLayout}
    {records : List UInt8 → Option (List UInt8)} {rows : List UInt8 → Option Row}
    {accepts : Row → Bool}
    (hprepare : prepareUpdate json reader table assignments returning = .ok plan)
    (hlayout : RecordLayout.new plan.schema = .ok layout)
    (hstores : StoresRows json plan.schema records rows)
    (hjson : ∀ key row, rows key = some row → JsonRoundTrips json plan.schema row)
    (hvisit : visit.Covers plan.schema layout records rows accepts)
    (hok : planRows json plan visit = .ok updating) :
    ∃ planned : List PlannedRow, updating.updates = planned.map PlannedRow.update ∧
      PlansRows json plan assignments records rows accepts planned := by
  obtain ⟨-, -, hprepares, hrecords⟩ := prepareUpdate_spec hprepare
  obtain ⟨layout', hnew, hlaid⟩ := layout_new hprepares.shape
  obtain rfl : layout = layout' := Except.ok.inj (hlayout.symm.trans hnew)
  obtain ⟨folded, hfold, hok⟩ := Except.bind_eq_ok.mp hok
  cases hfailure : visit.failure with
  | some error =>
    rw [hfailure] at hok
    cases hok
  | none =>
    rw [hfailure] at hok
    cases hok
    obtain ⟨presented, hpresents, hnodup, hmem⟩ := hvisit hfailure
    obtain ⟨planned, hupdates, hentries, hplans⟩ := foldlM_planRow hprepares hrecords hlaid hstores
      hjson hpresents (fun entry hentry => ((hmem entry.1 entry.2).mp hentry).1) hfold
    refine ⟨planned, hupdates, ⟨?_, fun key row => by rw [hentries, hmem], hplans⟩⟩
    rw [← hentries, List.map_map] at hnodup
    exact hnodup

/-- An UPDATE is one simultaneous assignment. It is rejected for a duplicate key exactly where two rows
would come to have one; and otherwise either writer, a transaction's or a script's, leaves the table in
which every matching row is replaced by what its assignments make of it as it was before. -/
theorem planUpdate_simultaneous (view : PagedReadView σ) (shown : TableView) (paged : PagedTable)
    (rows : List UInt8 → Option Row) (accepts : Row → Bool) {plan : UpdatePlan} {updating : Updating}
    (hshows : view.Shows json shown) (hpaged : view.storage.table table = .ok paged)
    (hlayout : RecordLayout.new paged.schema = .ok paged.layout)
    (hschema : reader.tableSchema table = .ok paged.schema)
    (hreads : ∀ row, ∃ s, reader.holdsPrimaryKey table row = view.holdsPrimaryKey table row s)
    (hstores : StoresRows json paged.schema (shown table) rows)
    (hjson : ∀ key row, rows key = some row → JsonRoundTrips json paged.schema row)
    (hvisit : visit.Covers paged.schema paged.layout (shown table) rows accepts)
    (hprepare : prepareUpdate json reader table assignments returning = .ok plan)
    (hupdating : planRows json plan visit = .ok updating) :
    (∀ error, planUpdate json reader table assignments visit returning = .error error →
      (error = duplicatePrimaryKey "UPDATE of" table ∧
          Collides (Updates paged.schema table assignments accepts) rows) ∨
        ∃ row, reader.holdsPrimaryKey table row = .error error) ∧
    ∀ planned, planUpdate json reader table assignments visit returning = .ok planned →
      ¬Collides (Updates paged.schema table assignments accepts) rows ∧
      planned.outcome.rowCount = {key | ∃ row, rows key = some row ∧ accepts row = true}.ncard ∧
      RowChange.WritesOnce view.storage planned.changes ∧
      (∀ transaction transaction', TransactionHolds json view.storage transaction shown →
        transaction.stage json view.storage planned.changes planned.previous = .ok transaction' →
        ∃ shown' rows', TransactionHolds json view.storage transaction' shown' ∧
          Replaces (Updates paged.schema table assignments accepts) rows rows' ∧
          StoresRows json paged.schema (shown' table) rows' ∧
          ∀ other, other ≠ table → shown' other = shown other) ∧
      ∀ operations candidate', shown = view.storage.committed → view.storage.tables.InOrder →
        paged.entries.Pairwise (fun a b => a.key < b.key) →
        applyChangesByTable json ⟨view.storage, operations⟩ planned.changes planned.previous =
          .ok candidate' →
        ∃ rows', Replaces (Updates paged.schema table assignments accepts) rows rows' ∧
          StoresRows json paged.schema (candidate'.storage.committed table) rows' ∧
          ∀ other, other ≠ table → candidate'.storage.committed other = shown other := by
  obtain ⟨hfound, rfl, -, -⟩ := prepareUpdate_spec hprepare
  have hsame : paged.schema = plan.schema := Except.ok.inj (hschema.symm.trans hfound)
  rw [hsame] at hlayout hstores hjson hvisit ⊢
  obtain ⟨planned, hupdates, hplans⟩ :=
    planRows_spec hprepare hlayout hstores hjson hvisit hupdating
  have hfinds : ∀ row ∈ planned, reader.Finds plan.table rows row.update := by
    intro row hrow oldPrimaryKey newKey newRow hnext held hheld
    have hwritten := (hplans.plans row hrow).update.written
    have hkey := (hplans.plans row hrow).update.key
    unfold PlannedUpdate.newKey at hkey
    rw [hnext] at hwritten hkey
    rw [← hwritten.2, ← hsame] at hkey
    obtain ⟨s, hread⟩ := hreads newRow
    rw [PagedReadView.holdsPrimaryKey_eq hshows hpaged hkey (hread.symm.trans hheld)]
    exact hstores.isSome_iff newKey
  obtain ⟨hclear, hfails⟩ := hplans.checkKeys_spec hfinds
  constructor
  · intro error hok
    simp only [planUpdate, hprepare, hupdating, hupdates, bind, Except.bind] at hok
    cases hcheck : checkKeys reader plan.table (planned.map PlannedRow.update) with
    | error e =>
      rw [hcheck] at hok
      obtain rfl := Except.error.inj hok
      exact hfails e hcheck
    | ok _ =>
      rw [hcheck] at hok
      cases hok
  · intro result hok
    obtain ⟨plan', hplan', hok⟩ := Except.bind_eq_ok.mp hok
    obtain rfl : plan = plan' := Except.ok.inj (hprepare.symm.trans hplan')
    obtain ⟨updating', hupdating', hok⟩ := Except.bind_eq_ok.mp hok
    obtain rfl : updating = updating' := Except.ok.inj (hupdating.symm.trans hupdating')
    dsimp only at hok
    rw [hupdates] at hok
    obtain ⟨_, hcheck, hok⟩ := Except.bind_eq_ok.mp hok
    cases hok
    have hfree := hclear hcheck
    have hreports := hplans.reports rfl hpaged hsame hstores
    rw [← withPrevious_map (plannedChanges plan.table _)] at hreports
    refine ⟨hfree, ?_, hplans.writesOnce hpaged hsame hfree, ?_, ?_⟩
    · rw [← hplans.rowCount]
      exact List.length_map _
    · intro transaction transaction' holds hstage
      have hencodes := hplans.encodes_staged rfl hpaged hsame hstores hfree holds hstage
      obtain ⟨rows', hreplaces, hstores', hothers⟩ :=
        hplans.applyAll rfl hpaged hsame hstores hfree hencodes
      exact ⟨_, rows', PagedTransaction.holds_stage holds hreports hstage, hreplaces, hstores',
        hothers⟩
    · rintro operations candidate' rfl hinOrder hordered happlied
      have hnames : ∀ change ∈ (plannedChanges plan.table (planned.map PlannedRow.update)).map
          Prod.fst, change.table = plan.table := by
        intro change hchange
        obtain ⟨entry, hentry, rfl⟩ := List.mem_map.mp hchange
        exact plannedChanges_table entry hentry
      rw [applyChangesByTable_eq hnames] at happlied
      obtain ⟨hwritten, hrecords⟩ := applyChanges_spec hpaged hinOrder hordered hnames hreports happlied
      have hencodes := hplans.encodes (fun row hrow map hmap => by
        rw [← hsame]
        refine hrecords map ?_
        rw [← hmap]
        exact List.mem_map_of_mem (List.mem_append_right _
          (List.mem_map_of_mem (List.mem_map_of_mem hrow))))
      obtain ⟨rows', hreplaces, hstores', hothers⟩ :=
        hplans.applyAll rfl hpaged hsame hstores hfree hencodes
      refine ⟨rows', hreplaces, ?_, fun other hother => ?_⟩
      · rw [hwritten]
        exact hstores'
      · rw [hwritten]
        exact hothers other hother

/-! Every guest moves up a seat, onto the next one's: `UPDATE seats SET id = id + 1`. -/

open PagedTransaction (seats numbersOnly)

def seat (id guest : Int) : RowMap := ⟨[("id", .ofI64 id), ("guest", .ofI64 guest)]⟩

def seatKey (id : UInt8) : List UInt8 := [128, 0, 0, 0, 0, 0, 0, id]

def seatedTable : PagedTable where
  schema := seats
  layout := ⟨[.key 0, .stored 0], [.integer], [0], [1]⟩
  treeId := 16
  root := some [[⟨seatKey 1, [0, 1, 7], true⟩, ⟨seatKey 2, [0, 1, 9], true⟩]]
  rowCount := 2

def seated : PagedStorage := ⟨1, false, ⟨[("seats", seatedTable)]⟩, .new⟩

def seatedRows (key : List UInt8) : Option Row :=
  if key = seatKey 1 then some (seat 1 7).row
  else if key = seatKey 2 then some (seat 2 9).row
  else none

def seatedView : PagedReadView Unit := ⟨seated, none, none⟩

def seatedReader : DmlReader where
  tableSchema table := if table = "seats" then .ok seats else .error (.tableNotFound table)
  recordLayout table := if table = "seats" then some seatedTable.layout else none
  name_eq := by
    intro table schema h
    split at h
    · next htable =>
      cases h
      exact htable.symm
    · cases h
  valid := by
    intro table schema h
    split at h
    · cases h
      rfl
    · cases h
  layout_new := by
    intro table schema layout h hlayout
    split at h
    · next htable =>
      cases h
      rw [if_pos htable] at hlayout
      cases hlayout
      rfl
    · cases h
  textLimits _ _ := none
  holdsPrimaryKey table row := seatedView.holdsPrimaryKey table row ()

def moveUp : List (String × Assigned) :=
  [("id", .expression (.binary .add (.column "id") (.value (.ofI64 1))))]

def seatedVisit : Visit := ⟨[.map (seat 1 7), .map (seat 2 9)], none⟩

lemma seat_row (id guest : Int) (name : String) : (seat id guest).row name =
    if name = "id" then some (.ofI64 id) else if name = "guest" then some (.ofI64 guest)
    else none := by
  rw [RowMap.row, seat]
  by_cases hid : name = "id"
  · subst hid
    rfl
  · rw [List.lookup_cons, beq_eq_false_iff_ne.mpr hid, if_neg hid]
    by_cases hguest : name = "guest"
    · subst hguest
      rfl
    · rw [List.lookup_cons, beq_eq_false_iff_ne.mpr hguest, if_neg hguest]
      rfl

lemma seat_storedAs {id guest : Int} {key record : List UInt8}
    (hid : (Value.ofI64 id).dropZeroSign = .ofI64 id ∧ (Value.ofI64 id).isNull = false ∧
      (Value.ofI64 id).holds .integer = true)
    (hguest : (Value.ofI64 guest).isNull = false ∧ (Value.ofI64 guest).holds .integer = true)
    (hkey : encodePrimaryKey seats (seat id guest).row = .ok key)
    (hrecord : encodeRow numbersOnly seats (seat id guest).row = .ok record) :
    StoredAs numbersOnly seats (seat id guest).row key record := by
  refine ⟨⟨fun name => ?_, fun column hcolumn value hvalue => ?_⟩, ?_, hkey, hrecord⟩
  · rw [seat_row]
    simp only [seats, List.map_cons, List.map_nil, List.mem_cons, List.not_mem_nil, or_false]
    split_ifs <;> simp_all
  · rw [seat_row] at hvalue
    simp only [seats, List.mem_cons, List.not_mem_nil, or_false] at hcolumn
    rcases hcolumn with rfl | rfl
    · cases hvalue
      rw [if_neg (by simp [hid.2.1])]
      exact hid.2.2
    · cases hvalue
      rw [if_neg (by simp [hguest.1])]
      exact hguest.2
  · funext name
    rw [entryRow, seat_row]
    by_cases hname : name = "id"
    · subst hname
      exact congrArg some hid.1
    · rw [if_neg (by simpa [seats] using hname)]

lemma seated_storesRows :
    StoresRows numbersOnly seats (seated.committed "seats") seatedRows where
  free key hfree := by
    rw [seatedRows] at hfree
    split at hfree
    · cases hfree
    · next hone =>
      split at hfree
      · cases hfree
      · next htwo =>
        change (Tree.held [⟨seatKey 1, [0, 1, 7], true⟩, ⟨seatKey 2, [0, 1, 9], true⟩] key) = none
        refine Tree.held_eq_none (fun entry hentry => ?_)
        rcases List.mem_pair.mp hentry with rfl | rfl
        · exact Ne.symm hone
        · exact Ne.symm htwo
  stored key row hrow := by
    rw [seatedRows] at hrow
    split at hrow
    · next hone =>
      cases hrow
      subst hone
      exact ⟨[0, 1, 7], rfl, seat_storedAs ⟨rfl, rfl, rfl⟩ ⟨rfl, rfl⟩ rfl rfl⟩
    · split at hrow
      · next htwo =>
        cases hrow
        subst htwo
        exact ⟨[0, 1, 9], rfl, seat_storedAs ⟨rfl, rfl, rfl⟩ ⟨rfl, rfl⟩ rfl rfl⟩
      · cases hrow

lemma seatedVisit_covers : seatedVisit.Covers seats seatedTable.layout (seated.committed "seats")
    seatedRows (fun _ => true) := by
  refine fun _ => ⟨[(seatKey 1, (seat 1 7).row), (seatKey 2, (seat 2 9).row)],
    .cons rfl (.cons rfl .nil), by decide, fun key row => ?_⟩
  rw [List.mem_pair, and_iff_left rfl, seatedRows]
  constructor
  · rintro (heq | heq)
    · cases heq
      exact if_pos rfl
    · cases heq
      rfl
  · intro hrow
    split at hrow
    · next hone =>
      cases hrow
      exact .inl (hone ▸ rfl)
    · split at hrow
      · next htwo =>
        cases hrow
        exact .inr (htwo ▸ rfl)
      · cases hrow

theorem planUpdate_simultaneous_moveUp :
    ∃ planned candidate rows',
      planUpdate numbersOnly seatedReader "seats" moveUp seatedVisit none = .ok planned ∧
      planned.outcome.rowCount = 2 ∧
      applyChangesByTable numbersOnly ⟨seated, 0⟩ planned.changes planned.previous =
        .ok candidate ∧
      Replaces (Updates seats "seats" moveUp (fun _ => true)) seatedRows rows' ∧
      StoresRows numbersOnly seats (candidate.storage.committed "seats") rows' := by
  have hruns : (do
      let planned ← planUpdate numbersOnly seatedReader "seats" moveUp seatedVisit none
      let candidate ← applyChangesByTable numbersOnly ⟨seated, 0⟩ planned.changes planned.previous
      return (planned.outcome.rowCount, candidate.storage.committed "seats" (seatKey 2)) :
        Result (Nat × Option (List UInt8))) = .ok (2, some [0, 1, 7]) := by decide +kernel
  obtain ⟨planned, hplanned, hruns⟩ := Except.bind_eq_ok.mp hruns
  obtain ⟨candidate, happlied, hruns⟩ := Except.bind_eq_ok.mp hruns
  obtain ⟨hcount, -⟩ := Prod.mk.inj (Except.ok.inj hruns)
  obtain ⟨plan, hplan, hrest⟩ := Except.bind_eq_ok.mp hplanned
  obtain ⟨updating, hupdating, -⟩ := Except.bind_eq_ok.mp hrest
  obtain ⟨-, hok⟩ := @planUpdate_simultaneous Unit numbersOnly seatedReader "seats" moveUp none
    seatedVisit seatedView _ seatedTable seatedRows (fun _ => true) plan updating rfl rfl rfl rfl
    (fun row => ⟨(), rfl⟩) seated_storesRows
    (fun key row _ column hcolumn htype => by
      rcases List.mem_pair.mp hcolumn with rfl | rfl <;> cases htype)
    seatedVisit_covers hplan hupdating
  obtain ⟨-, -, -, -, hscript⟩ := hok planned hplanned
  obtain ⟨rows', hreplaces, hstores, -⟩ := hscript 0 candidate rfl (List.pairwise_singleton _ _)
    (by decide) happlied
  exact ⟨planned, candidate, rows', hplanned, hcount, happlied, hreplaces, hstores⟩

end Statement
end TinyJoin
