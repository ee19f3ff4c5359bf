import TinyJoin.StagedView

/-! What every transaction keeps, whatever statements it stages: its staged rows over the committed ones
are what its readers should see. -/
namespace TinyJoin
namespace PagedTransaction
variable {json : SerdeJson} {storage : PagedStorage} {transaction transaction' : PagedTransaction}
  {view view' : TableView}

/-- The patch once its tables' changed rows are counted. -/
def counted (patch : OverlayPatch) (changed : PatchTable → Int) : OverlayPatch :=
  { patch with tables := patch.tables.map fun patched => { patched with changed := changed patched } }

/-- Counting its changed rows changes nothing else of a patch. -/
lemma PatchHolds.counted {patch : OverlayPatch}
    (h : PatchHolds json storage transaction view view' patch) (changed : PatchTable → Int) :
    PatchHolds json storage transaction view view' (counted patch changed) where
  names := by
    rw [PagedTransaction.counted, List.pairwise_map]
    exact h.names
  tables := by
    rw [PagedTransaction.counted, List.forall_mem_map]
    intro patched hpatched
    have htable := h.tables patched hpatched
    exact ⟨htable.place, htable.keys, htable.made, htable.next, htable.deletes⟩
  others table key hother := by
    refine h.others table key (fun patched hpatched => ?_)
    exact hother { patched with changed := changed patched } (List.mem_map_of_mem hpatched)
  replaces hnone := by
    rw [PagedTransaction.counted, List.forall_mem_map]
    exact h.replaces hnone
  found probe hprobe := by
    obtain ⟨patched, row, overlay, htables, hentries, hoverlay, heq⟩ := h.found probe hprobe
    refine ⟨{ patched with changed := changed patched }, row, overlay, ?_, hentries, hoverlay, heq⟩
    rw [PagedTransaction.counted, htables]
    rfl

/-- What a validated patch is, and the totals it comes with. -/
lemma validatePatch_eq_ok {patch patch' : OverlayPatch} {change : TotalsChange}
    (h : transaction.validatePatch json storage patch = .ok (patch', change)) :
    ∃ shares, addShare ((patch.tables.flatMap (fun patched =>
          if patch.replaces then transaction.replacedEntries patched else [])).foldl takeOut
        ⟨transaction.totals.overlayKeys, transaction.totals.overlayBytes, transaction.totals.usage⟩)
        (patch.entries.map (fun entry => entry.2.2)) = .ok shares ∧
      patch' = counted patch (fun patched => costed (patched.entries.map Prod.snd) -
        costed (if patch.replaces then transaction.replacedEntries patched else [])) ∧
      change.overlayKeys = shares.overlayKeys ∧ change.overlayBytes = shares.overlayBytes ∧
      change.usage = shares.usage ∧
      change.released = (patch.tables.flatMap (fun patched =>
        if patch.replaces then transaction.replacedEntries patched else [])).flatMap
          OverlayEntry.claimSlots ∧
      transaction.claimEntries storage change.released patch'.entries ∅ = .ok change.claimed := by
  rw [validatePatch, Except.bind_eq_ok] at h
  obtain ⟨shares, hshares, h⟩ := h
  obtain ⟨claimed, hclaimed, h⟩ := Except.bind_eq_ok.mp h
  obtain ⟨_, -, h⟩ := Except.bind_eq_ok.mp h
  obtain ⟨_, -, h⟩ := Except.bind_eq_ok.mp h
  obtain ⟨rfl, rfl⟩ := Prod.mk.inj (Except.ok.inj h)
  exact ⟨shares, hshares, rfl, rfl, rfl, rfl, rfl, hclaimed⟩

/-- The totals a statement leaves. -/
def nextTotals (totals : Totals) (patch : OverlayPatch) (change : TotalsChange) : Totals :=
  let (claims, released) := releaseClaims totals.claims totals.released change.released.dedup
  let claims := extendClaims claims change.claimed
  let (claims, released) :=
    if released > 64 && released > claims.entries.length / 2 then
      (Indexed.retain claims (fun _ holder => holder.isSome), 0)
    else (claims, released)
  ⟨change.overlayKeys, change.overlayBytes, change.usage,
    patch.tables.foldl countChanged totals.changedTables, claims, released⟩

/-- A statement that is staged changes nothing, or installs its validated patch. -/
lemma stage_eq_ok {changes : List RowChange} {previous : List PreviousRow}
    (h : transaction.stage json storage changes previous = .ok transaction') :
    transaction.ensureBaseRevision storage = .ok () ∧
    ((changes = [] ∧ transaction' = transaction) ∨
      ∃ planned patch change, transaction.patch json storage changes previous = .ok planned ∧
        transaction.validatePatch json storage planned = .ok (patch, change) ∧
        transaction' = { transaction.installTables patch.found patch.tables with
          totals := nextTotals transaction.totals patch change }) := by
  rw [stage, Except.check_bind_eq_ok] at h
  obtain ⟨hready, h⟩ := h
  refine ⟨hready, ?_⟩
  split at h
  · next hempty => exact .inl ⟨List.isEmpty_iff.mp hempty, (Except.ok.inj h).symm⟩
  · obtain ⟨planned, hplanned, h⟩ := Except.bind_eq_ok.mp h
    obtain ⟨⟨patch, change⟩, hvalid, h⟩ := Except.bind_eq_ok.mp h
    refine .inr ⟨planned, patch, change, hplanned, hvalid, ?_⟩
    exact (Except.ok.inj h).symm

/-- Installing keeps what a transaction was begun on. -/
lemma installTables_baseRevision (found : Option Probing.Probe) (tables : List PatchTable) :
    (transaction.installTables found tables).baseRevision = transaction.baseRevision := by
  induction tables with
  | nil => rfl
  | cons patched tables ih => exact ih

/-- The rows staged for a table, none where no statement has changed it. -/
def overlayOf (transaction : PagedTransaction) (table : String) : TableOverlay :=
  (transaction.table table).getD .empty

lemma entry_eq (table : String) (key : List UInt8) :
    transaction.entry table key = (transaction.overlayOf table).get key := by
  rw [entry, overlayOf]
  cases transaction.table table <;> rfl

lemma replacedOf_eq (table : String) (entries : List (List UInt8 × OverlayEntry)) :
    transaction.replacedOf table entries =
      entries.filterMap (fun row => (transaction.overlayOf table).get row.1) := by
  rw [replacedOf]
  simp only [entry_eq]

lemma overlayHolds (h : TransactionHolds json storage transaction view)
    (table : String) :
    OverlayHolds json storage view table (transaction.overlayOf table) := by
  rw [PagedTransaction.overlayOf]
  cases hoverlay : transaction.table table with
  | some overlay => exact h.staged table overlay hoverlay
  | none =>
    exact ⟨TableOverlay.coherent_empty, rfl, fun row hrow => (nomatch hrow),
      fun key => h.unstaged table hoverlay key⟩

section Install
variable {patch : OverlayPatch}

/-- A patch has one part for a table. -/
lemma PatchHolds.eq_of_table (holds : PatchHolds json storage transaction view view' patch)
    {a b : PatchTable} (ha : a ∈ patch.tables) (hb : b ∈ patch.tables) (heq : a.table = b.table) :
    a = b := by
  have hnodup : (patch.tables.map PatchTable.table).Nodup :=
    List.pairwise_map.mpr (holds.names.imp (fun hlt => ne_of_lt hlt))
  exact List.inj_on_of_nodup_map hnodup ha hb heq

/-- Where a patch looked for its only entry's key, it looked in the rows staged for its table. -/
lemma PatchHolds.probed (holds : PatchHolds json storage transaction view view' patch)
    {patched : PatchTable} (hpatched : patched ∈ patch.tables) :
    ∀ probe ∈ patch.found, ∀ row ∈ patched.entries.head?,
      probe = (transaction.overlayOf patched.table).find row.1 := by
  intro probe hprobe row hrow
  obtain ⟨only, onlyRow, overlay, htables, hentries, hoverlay, heq⟩ := holds.found probe hprobe
  rw [htables, List.mem_singleton] at hpatched
  subst hpatched
  rw [hentries, List.head?_cons, Option.mem_some_iff] at hrow
  rw [overlayOf, hoverlay, Option.getD_some, ← hrow]
  exact heq

/-- What installing a patch leaves of each table. -/
lemma PatchHolds.installed (h : TransactionHolds json storage transaction view)
    (holds : PatchHolds json storage transaction view view' patch) :
    (transaction.installTables patch.found patch.tables).tables.InOrder ∧
    (∀ patched ∈ patch.tables,
      (transaction.installTables patch.found patch.tables).table patched.table =
        some ((transaction.overlayOf patched.table).install patched.entries patched.deletes
          patch.found)) ∧
    ∀ table, (∀ patched ∈ patch.tables, patched.table ≠ table) →
      (transaction.installTables patch.found patch.tables).table table = transaction.table table := by
  obtain ⟨hinOrder, -, hin, hout⟩ := @installTables_spec transaction patch.found patch.tables
    h.inOrder holds.names (fun patched hpatched => (holds.tables patched hpatched).place)
  exact ⟨hinOrder, hin, hout⟩

/-- The entries a table's part of a patch brings are keyed apart. -/
lemma PatchTableHolds.nodup {patched : PatchTable}
    (h : PatchTableHolds json storage transaction view' patched) :
    (patched.entries.map Prod.fst).Nodup := h.keys.imp (fun hlt => ne_of_lt hlt)

/-- A table's deletes stay counted, and the rows of its overlay where they are found. -/
lemma PatchHolds.overlayInstalled (h : TransactionHolds json storage transaction view)
    (holds : PatchHolds json storage transaction view view' patch) {patched : PatchTable}
    (hpatched : patched ∈ patch.tables) :
    0 ≤ (transaction.overlayOf patched.table).deletes + patched.deletes ∧
    OverlayHolds json storage view' patched.table
      ((transaction.overlayOf patched.table).install patched.entries patched.deletes
        patch.found) := by
  have htable := holds.tables patched hpatched
  have hoverlay := overlayHolds h patched.table
  have hfound := holds.probed hpatched
  have hdeletes := htable.deletes
  rw [replacedOf_eq] at hdeletes
  obtain ⟨hpos, hcounts⟩ := hoverlay.deletes.install hoverlay.coherent htable.nodup hfound hdeletes
  obtain ⟨hcoherent, hrows⟩ := @TableOverlay.Coherent.install _ hoverlay.coherent _ _
    patched.deletes htable.nodup hfound
  refine ⟨hpos, hcoherent, hcounts, ?_, ?_⟩
  · intro row hrow
    rcases (hrows row).mp hrow with hrow | ⟨-, hrow⟩
    · exact htable.made row hrow
    · exact hoverlay.made row hrow
  · intro key
    rw [hoverlay.coherent.get_install htable.nodup hfound]
    cases hfind : patched.entries.find? (fun row => row.1 == key) with
    | some row =>
      have hkey : row.1 = key := by simpa using List.find?_some hfind
      rw [← hkey]
      exact (htable.next row (List.mem_of_find?_eq_some hfind)).symm
    | none =>
      -- a key the patch leaves shows what it showed
      have hother : view' patched.table key = view patched.table key := by
        refine holds.others _ _ (fun other hother hsame hmem => ?_)
        obtain rfl := holds.eq_of_table hother hpatched hsame
        obtain ⟨row, hrow, hkey⟩ := List.mem_map.mp hmem
        have hnot := List.find?_eq_none.mp hfind row hrow
        simp [hkey] at hnot
      rw [hother, hoverlay.shows key]
      rfl

/-- Installing a patch takes the rows a reader sees to those it should see next. -/
lemma PatchHolds.transactionHolds (h : TransactionHolds json storage transaction view)
    (holds : PatchHolds json storage transaction view view' patch) (totals : Totals) :
    TransactionHolds json storage { transaction.installTables patch.found patch.tables with totals }
      view' := by
  obtain ⟨hinOrder, hin, hout⟩ := holds.installed h
  have hcases : ∀ table, (∃ patched ∈ patch.tables, patched.table = table) ∨
      ∀ patched ∈ patch.tables, patched.table ≠ table := by
    intro table
    by_cases hex : ∃ patched ∈ patch.tables, patched.table = table
    · exact .inl hex
    · exact .inr (fun patched hmem heq => hex ⟨patched, hmem, heq⟩)
  have hsame : ∀ table, (∀ patched ∈ patch.tables, patched.table ≠ table) → ∀ key,
      view' table key = view table key :=
    fun table hother key => holds.others table key
      (fun patched hpatched heq => absurd heq (hother patched hpatched))
  refine ⟨(installTables_baseRevision _ _).trans h.revision, hinOrder, ?_, ?_⟩
  · intro table overlay hoverlay
    have hoverlay : (transaction.installTables patch.found patch.tables).table table =
      some overlay := hoverlay
    rcases hcases table with ⟨patched, hpatched, rfl⟩ | hother
    · rw [hin patched hpatched] at hoverlay
      rw [← Option.some.inj hoverlay]
      exact (holds.overlayInstalled h hpatched).2
    · rw [hout table hother] at hoverlay
      have hbefore := h.staged table overlay hoverlay
      exact ⟨hbefore.coherent, hbefore.deletes, hbefore.made,
        fun key => (hsame table hother key).trans (hbefore.shows key)⟩
  · intro table hnone key
    have hnone : (transaction.installTables patch.found patch.tables).table table = none := hnone
    rcases hcases table with ⟨patched, hpatched, rfl⟩ | hother
    · rw [hin patched hpatched] at hnone
      nomatch hnone
    · rw [hout table hother] at hnone
      exact (hsame table hother key).trans (h.unstaged table hnone key)

/-- The entry of each key once a patch is installed: the one the patch brings, or the one before. -/
lemma PatchHolds.entry_installed (h : TransactionHolds json storage transaction view)
    (holds : PatchHolds json storage transaction view view' patch) :
    (∀ patched ∈ patch.tables, ∀ key,
      (transaction.installTables patch.found patch.tables).entry patched.table key =
        (patched.entry key).or (transaction.entry patched.table key)) ∧
    ∀ table, (∀ patched ∈ patch.tables, patched.table ≠ table) → ∀ key,
      (transaction.installTables patch.found patch.tables).entry table key =
        transaction.entry table key := by
  obtain ⟨-, hin, hout⟩ := holds.installed h
  constructor
  · intro patched hpatched key
    rw [entry, hin patched hpatched, Option.bind_some, entry_eq, PatchTable.entry]
    exact (overlayHolds h patched.table).coherent.get_install (holds.tables patched hpatched).nodup
      (holds.probed hpatched)
  · intro table hother key
    rw [entry, hout table hother, entry]

end Install

/-- A statement that is staged takes the rows a reader sees to those it should see next. -/
lemma holds_stage (h : TransactionHolds json storage transaction view) {changes : List RowChange}
    {previous : List PreviousRow}
    (hreports : ∀ change ∈ withPrevious changes previous,
      change.2.Reports json storage view change.1)
    (hok : transaction.stage json storage changes previous = .ok transaction') :
    TransactionHolds json storage transaction' (RowChange.applyAll json storage view changes) := by
  obtain ⟨-, ⟨rfl, rfl⟩ | ⟨planned, patch, change, hplanned, hvalid, rfl⟩⟩ := stage_eq_ok hok
  · exact h
  · obtain ⟨shares, -, rfl, -⟩ := validatePatch_eq_ok hvalid
    exact ((TransactionHolds.patch h hreports hplanned).counted _).transactionHolds h _

/-- An ordered walk of a table puts its staged rows in order, and changes none. -/
lemma table_merged (hinOrder : transaction.tables.InOrder) (walked table : String) :
    (transaction.merged walked).tables.InOrder ∧
    (transaction.merged walked).table table =
      if table = walked then (transaction.table walked).map TableOverlay.merged
      else transaction.table table := by
  have hunchanged : transaction.table walked = none →
      transaction.table table = if table = walked then
        (transaction.table walked).map TableOverlay.merged else transaction.table table := by
    intro hnone
    split
    · next heq => rw [heq, hnone]; rfl
    · rfl
  rw [merged]
  cases hplace : transaction.tables.position walked with
  | error place =>
    refine ⟨hinOrder, hunchanged ?_⟩
    rw [PagedTransaction.table, NameMap.get, hplace]
  | ok place =>
    have hget : transaction.table walked = transaction.tables.atPosition place := by
      rw [PagedTransaction.table, NameMap.get, hplace]
    cases hoverlay : transaction.tables.atPosition place with
    | none =>
      simp only [hoverlay]
      exact ⟨hinOrder, hunchanged (hget.trans hoverlay)⟩
    | some overlay =>
      have hput : transaction.tables.setAt place overlay.merged =
          transaction.tables.put (transaction.tables.position walked) walked overlay.merged := by
        rw [hplace]
        rfl
      simp only [hoverlay, hput]
      refine ⟨hinOrder.put, ?_⟩
      rw [PagedTransaction.table, hinOrder.get_put, hget, hoverlay]
      rfl

lemma holds_merged (h : TransactionHolds json storage transaction view) (walked : String) :
    TransactionHolds json storage (transaction.merged walked) view := by
  have htable := fun table => (table_merged h.inOrder walked table).2
  refine ⟨?_, (table_merged h.inOrder walked walked).1, ?_, ?_⟩
  · rw [← h.revision, merged]
    split
    · split <;> rfl
    · rfl
  · intro table overlay hoverlay
    rw [htable] at hoverlay
    split at hoverlay
    · next heq =>
      obtain ⟨before, hbefore, rfl⟩ := Option.map_eq_some_iff.mp hoverlay
      have hstaged := h.staged walked before hbefore
      obtain ⟨hcoherent, -⟩ := hstaged.coherent.merged
      refine ⟨hcoherent, ?_, ?_, ?_⟩
      · rw [TableOverlay.CountsDeletes, TableOverlay.merged_deletes, TableOverlay.merged_rows]
        exact hstaged.deletes
      · rw [TableOverlay.merged_rows, heq]
        exact hstaged.made
      · intro key
        rw [heq, hstaged.shows key]
        refine congrArg (fun entry : Option OverlayEntry =>
          (entry.map (fun entry => entry.row.next)).getD (storage.committed walked key)) ?_
        apply Option.ext
        intro entry
        rw [hstaged.coherent.get_eq_some_iff, hcoherent.get_eq_some_iff, TableOverlay.merged_rows]
    · exact h.staged table overlay hoverlay
  · intro table hnone key
    rw [htable] at hnone
    split at hnone
    · next heq =>
      rw [heq]
      exact h.unstaged walked (Option.map_eq_none_iff.mp hnone) key
    · exact h.unstaged table hnone key

/-- The rows every staged transaction shows are those of its view. -/
theorem holds_of_staged (h : Staged json storage transaction view) :
    TransactionHolds json storage transaction view := by
  induction h with
  | new =>
    refine ⟨rfl, List.Pairwise.nil, fun _ _ hoverlay => (nomatch hoverlay), fun _ _ _ => rfl⟩
  | stage _ hreports hok ih => exact holds_stage ih hreports hok
  | walk table _ ih => exact holds_merged ih table

end PagedTransaction
end TinyJoin
