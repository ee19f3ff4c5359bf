import TinyJoin.StagedRuns

/-! What a staged statement wrote: each change that is a key's last was encoded. -/
namespace TinyJoin
namespace PagedTransaction

section Writes
variable {json : SerdeJson} {storage : PagedStorage} {transaction transaction' : PagedTransaction}
  {view view' : TableView} {patching patching' : Patching}

/-- A planned row stays while no change is made to its key. -/
lemma PatchingHolds.patchChanges_keeps (h : TransactionHolds json storage transaction view)
    (holds : PatchingHolds json storage transaction view view' patching)
    {changes : List (RowChange × PreviousRow)}
    (hreports : ∀ change ∈ changes, change.2.Reports json storage view change.1)
    (hok : transaction.patchChanges storage patching changes = .ok patching') {table : String}
    {key : List UInt8} {planned : PatchChange}
    (hmem : (key, planned) ∈ (patching.planned table).rows)
    (hothers : ∀ other ∈ changes, other.1.table = table → other.1.key storage ≠ some key) :
    (key, planned) ∈ (patching'.planned table).rows := by
  induction changes generalizing patching view' with
  | nil =>
    cases hok
    exact hmem
  | cons change changes ih =>
    obtain ⟨next, hnext, hok⟩ := Except.bind_eq_ok.mp hok
    rw [List.forall_mem_cons] at hreports hothers
    obtain ⟨target, keyed, added, htarget, -, hplanned, -, hrows, -⟩ :=
      holds.planned_row h hreports.1 hnext
    refine ih (holds.patchChange h hreports.1 hnext) hreports.2 hok ?_ hothers.2
    rw [hplanned]
    split
    · next htable =>
      refine (hrows _).mpr (.inr ⟨fun hkey => ?_, htable ▸ hmem⟩)
      exact hothers.1 htable.symm (by rw [htarget]; exact congrArg some hkey.symm)
    · exact hmem

/-- The last change to a key is what is planned for it. -/
lemma PatchingHolds.patchChanges_last (h : TransactionHolds json storage transaction view)
    (holds : PatchingHolds json storage transaction view view' patching)
    {before after : List (RowChange × PreviousRow)} {change : RowChange × PreviousRow}
    (hreports : ∀ each ∈ before ++ change :: after, each.2.Reports json storage view each.1)
    (hok : transaction.patchChanges storage patching (before ++ change :: after) = .ok patching')
    (hlast : ∀ other ∈ after, other.1.table = change.1.table →
      other.1.key storage ≠ change.1.key storage) :
    ∃ key planned, (key, planned) ∈ (patching'.planned change.1.table).rows ∧
      planned.row = change.1.patchRow := by
  induction before generalizing patching view' with
  | nil =>
    obtain ⟨next, hnext, hok⟩ := Except.bind_eq_ok.mp hok
    rw [List.nil_append, List.forall_mem_cons] at hreports
    obtain ⟨target, keyed, added, htarget, -, hplanned, -, hrows, -, hrow, -⟩ :=
      holds.planned_row h hreports.1 hnext
    refine ⟨target, added, ?_, hrow⟩
    rw [htarget] at hlast
    refine (holds.patchChange h hreports.1 hnext).patchChanges_keeps h hreports.2 hok ?_ hlast
    rw [hplanned, if_pos rfl]
    exact (hrows _).mpr (.inl rfl)
  | cons first before ih =>
    obtain ⟨next, hnext, hok⟩ := Except.bind_eq_ok.mp hok
    rw [List.cons_append, List.forall_mem_cons] at hreports
    exact ih (holds.patchChange h hreports.1 hnext) hreports.2 hok

lemma patchEntries_each {paged : PagedTable} {indexes : List PagedIndex}
    {changes : List (List UInt8 × PatchChange)} {made : List (List UInt8 × OverlayEntry) × Int}
    (hok : patchEntries json storage paged indexes changes = .ok made) :
    ∀ change ∈ changes, ∃ entry,
      overlayEntry json storage paged indexes change.1 change.2 = .ok entry := by
  induction changes generalizing made with
  | nil => exact fun _ hmem => (nomatch hmem)
  | cons first changes ih =>
    obtain ⟨entry, hentry, hok⟩ := Except.bind_eq_ok.mp hok
    obtain ⟨rest, hrest, -⟩ := Except.bind_eq_ok.mp hok
    exact List.forall_mem_cons.mpr ⟨⟨entry, hentry⟩, ih hrest⟩

lemma patchTables_each {patched : List (String × KeyedRows PatchChange)} {tables : List PatchTable}
    (hok : patchTables json transaction storage patched = .ok tables) :
    ∀ entry ∈ patched, ∃ paged made, storage.table entry.1 = .ok paged ∧
      patchEntries json storage paged (storage.tableIndexes entry.1) entry.2.intoSorted =
        .ok made := by
  induction patched generalizing tables with
  | nil => exact fun _ hmem => (nomatch hmem)
  | cons first patched ih =>
    obtain ⟨paged, hpaged, hok⟩ := Except.bind_eq_ok.mp hok
    obtain ⟨made, hmade, hok⟩ := Except.bind_eq_ok.mp hok
    obtain ⟨rest, hrest, -⟩ := Except.bind_eq_ok.mp hok
    exact List.forall_mem_cons.mpr ⟨⟨paged, made, hpaged, hmade⟩, ih hrest⟩

/-- A statement that was patched made a record of each change that is a key's last. -/
lemma TransactionHolds.patch_records (h : TransactionHolds json storage transaction view)
    {changes : List RowChange} {previous : List PreviousRow} {patch : OverlayPatch}
    (hreports : ∀ change ∈ withPrevious changes previous,
      change.2.Reports json storage view change.1)
    (hok : transaction.patch json storage changes previous = .ok patch)
    {before after : List (RowChange × PreviousRow)} {change : RowChange × PreviousRow}
    (hchanges : withPrevious changes previous = before ++ change :: after)
    (hlast : ∀ other ∈ after, other.1.table = change.1.table →
      other.1.key storage ≠ change.1.key storage) :
    ∃ paged key made, storage.table change.1.table = .ok paged ∧
      patchRecord json paged key change.1.patchRow = .ok made := by
  rw [PagedTransaction.patch] at hok
  split at hok
  · next only held hwith =>
    have hone : (only, held) = change := by
      rw [hchanges] at hwith
      cases before with
      | nil => exact (List.cons.inj hwith).1.symm
      | cons first before => simp at hwith
    subst hone
    rcases hparts : only.parts with ⟨table, row, encoded⟩
    simp only [hparts] at hok
    obtain ⟨key, -, hok⟩ := Except.bind_eq_ok.mp hok
    obtain ⟨⟨planned, found⟩, hfirst, hok⟩ := Except.bind_eq_ok.mp hok
    obtain ⟨paged, hpaged, hok⟩ := Except.bind_eq_ok.mp hok
    obtain ⟨entry, hentry, hok⟩ := Except.bind_eq_ok.mp hok
    obtain ⟨base, -, hplanned⟩ := Except.bind_eq_ok.mp hfirst
    cases hplanned
    obtain ⟨next, map, -, -, hrecord, -⟩ := overlayEntry_eq_ok hentry
    rw [RowChange.table, RowChange.patchRow, hparts]
    exact ⟨paged, key, _, hpaged, hrecord⟩
  · obtain ⟨patching, hpatching, hok⟩ := Except.bind_eq_ok.mp hok
    obtain ⟨tables, htables, -⟩ := Except.bind_eq_ok.mp hok
    rw [hchanges] at hpatching hreports
    obtain ⟨key, planned, hmem, hrow⟩ :=
      patchingHolds_nil.patchChanges_last h hreports hpatching hlast
    have holds := patchingHolds_nil.patchChanges h hreports hpatching
    cases hget : NameMap.get ⟨patching.patched⟩ change.1.table with
    | none =>
      rw [Patching.planned, hget] at hmem
      cases hmem
    | some keyed =>
      have hkeyed : patching.planned change.1.table = keyed := by rw [Patching.planned, hget]; rfl
      obtain ⟨paged, made, hpaged, hmade⟩ :=
        patchTables_each htables _ (holds.inOrder.get_eq_some_iff.mp hget)
      obtain ⟨hperm, -⟩ := (holds.valid change.1.table).intoSorted_spec
      rw [hkeyed] at hmem hperm
      obtain ⟨entry, hentry⟩ := patchEntries_each hmade _ (hperm.mem_iff.mpr hmem)
      obtain ⟨next, map, -, -, hrecord, -⟩ := overlayEntry_eq_ok hentry
      rw [hrow] at hrecord
      exact ⟨paged, key, _, hpaged, hrecord⟩

/-- A staged statement's written rows all have records: those that are a key's last change. -/
lemma stage_encodes (h : TransactionHolds json storage transaction view)
    {changes : List RowChange} {previous : List PreviousRow}
    (hreports : ∀ change ∈ withPrevious changes previous,
      change.2.Reports json storage view change.1)
    (hok : transaction.stage json storage changes previous = .ok transaction')
    {before after : List (RowChange × PreviousRow)} {table : String} {row : RowMap}
    {held : PreviousRow}
    (hchanges : withPrevious changes previous = before ++ (.upsert table row, held) :: after)
    (hlast : ∀ other ∈ after, other.1.table = table →
      other.1.key storage ≠ (RowChange.upsert table row).key storage) {paged : PagedTable}
    (hpaged : storage.table table = .ok paged) :
    ∃ record, encodeRow json paged.schema row.row = .ok record := by
  obtain ⟨-, ⟨rfl, -⟩ | ⟨planned, patch, change, hplanned, -⟩⟩ := stage_eq_ok hok
  · rw [withPrevious] at hchanges
    simp at hchanges
  · obtain ⟨paged', key, made, hpaged', hrecord⟩ :=
      TransactionHolds.patch_records h hreports hplanned hchanges hlast
    have hsame : paged' = paged := Except.ok.inj (hpaged'.symm.trans hpaged)
    rw [hsame] at hrecord
    obtain ⟨record, hencoded, -⟩ := Except.bind_eq_ok.mp hrecord
    exact ⟨record, hencoded⟩

end Writes
end PagedTransaction
end TinyJoin
