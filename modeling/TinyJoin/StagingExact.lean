import TinyJoin.StagedClaims

/-! Staging in place: a statement that fails leaves its transaction as it was, and one that is staged
leaves the totals its staged rows come to, with nothing taken out of them that was not in them. -/
namespace TinyJoin
namespace PagedTransaction
variable {json : SerdeJson} {storage : PagedStorage} {transaction transaction' : PagedTransaction}
  {view view' : TableView} {patch : OverlayPatch}

/-! ## The order in which a statement's parts are written -/

def withTotals (transaction : PagedTransaction) (totals : Totals) : PagedTransaction :=
  { transaction with totals }

/-- Counts a table's changed rows. -/
def countTable (patched : PatchTable) (transaction : PagedTransaction) : PagedTransaction :=
  transaction.withTotals { transaction.totals with
    changedTables := countChanged transaction.totals.changedTables patched }

/-- Gives up a claim, if one is kept for the value. -/
def releaseClaim (slot : ClaimSlot) (transaction : PagedTransaction) : PagedTransaction :=
  let totals := transaction.totals
  if (totals.claims.lookup slot).isSome then
    transaction.withTotals { totals with
      claims := totals.claims.insert slot none, released := totals.released + 1 }
  else transaction

/-- Adds claims, and rebuilds their map once the values given up are many. -/
def takeClaims (claimed : Claims) (transaction : PagedTransaction) : PagedTransaction :=
  let claims := extendClaims transaction.totals.claims claimed
  let released := transaction.totals.released
  let (claims, released) :=
    if released > 64 && released > claims.entries.length / 2 then
      (Indexed.retain claims (fun _ holder => holder.isSome), 0)
    else (claims, released)
  transaction.withTotals { transaction.totals with claims, released }

def setShares (change : TotalsChange) (transaction : PagedTransaction) : PagedTransaction :=
  transaction.withTotals { transaction.totals with
    overlayKeys := change.overlayKeys, overlayBytes := change.overlayBytes, usage := change.usage }

/-- A statement staged in place, its parts written one after another. -/
def stageInPlace (json : SerdeJson) (storage : PagedStorage) (changes : List RowChange)
    (previous : List PreviousRow) : Effect PagedTransaction EngineError Unit := do
  let transaction ← Effect.get
  Effect.ofExcept (transaction.ensureBaseRevision storage)
  if changes.isEmpty then pure ()
  else
    let patch ← Effect.ofExcept (transaction.patch json storage changes previous)
    let (patch, change) ← Effect.ofExcept (transaction.validatePatch json storage patch)
    -- No fallible validation remains.
    Effect.forEach (fun patched => Effect.modify (countTable patched)) patch.tables
    Effect.modify (fun transaction => transaction.installTables patch.found patch.tables)
    Effect.forEach (fun slot => Effect.modify (releaseClaim slot)) change.released.dedup
    Effect.modify (takeClaims change.claimed)
    Effect.modify (setShares change)

lemma installTables_withTotals (found : Option Probing.Probe) (tables : List PatchTable)
    (totals : Totals) : (transaction.withTotals totals).installTables found tables =
      (transaction.installTables found tables).withTotals totals := by
  induction tables with
  | nil => rfl
  | cons patched tables ih =>
    rw [installTables, ih]
    rfl

lemma foldl_countTable (tables : List PatchTable) (transaction : PagedTransaction) :
    tables.foldl (fun transaction patched => countTable patched transaction) transaction =
      transaction.withTotals { transaction.totals with
        changedTables := tables.foldl countChanged transaction.totals.changedTables } := by
  induction tables generalizing transaction with
  | nil => rfl
  | cons patched tables ih => exact ih (countTable patched transaction)

lemma foldl_releaseClaim (slots : List ClaimSlot) (transaction : PagedTransaction) :
    slots.foldl (fun transaction slot => releaseClaim slot transaction) transaction =
      transaction.withTotals { transaction.totals with
        claims := (releaseClaims transaction.totals.claims transaction.totals.released slots).1
        released := (releaseClaims transaction.totals.claims transaction.totals.released slots).2 } := by
  induction slots generalizing transaction with
  | nil => rfl
  | cons slot slots ih =>
    rw [List.foldl_cons, ih, releaseClaim, releaseClaims]
    split_ifs <;> rfl

/-- Staging in place comes to the transaction that staging makes, or fails and changes nothing. -/
lemma stageInPlace_eq (changes : List RowChange) (previous : List PreviousRow) :
    stageInPlace json storage changes previous transaction =
      match transaction.stage json storage changes previous with
      | .ok transaction' => (.ok (), transaction')
      | .error error => (.error error, transaction) := by
  rw [stageInPlace, stage]
  cases hready : transaction.ensureBaseRevision storage with
  | error error => simp only [bind, Effect.get, Effect.ofExcept, hready, Except.bind]
  | ok _ =>
    cases changes with
    | nil =>
      simp only [bind, Effect.get, Effect.ofExcept, hready, Except.bind, List.isEmpty_nil, if_true]
      rfl
    | cons first rest =>
      simp only [bind, Effect.get, Effect.ofExcept, hready, Except.bind, List.isEmpty_cons,
        Bool.false_eq_true, if_false]
      cases hplanned : transaction.patch json storage (first :: rest) previous with
      | error error => rfl
      | ok planned =>
        cases hvalid : transaction.validatePatch json storage planned with
        | error error =>
          simp only [hvalid]
          rfl
        | ok valid =>
          obtain ⟨patch, change⟩ := valid
          simp only [hvalid, Effect.forEach_modify, Effect.modify, foldl_countTable,
            installTables_withTotals, foldl_releaseClaim]
          rfl

/-! ## Exact totals -/

/-- The totals of a transaction are those its staged rows come to. -/
structure TotalsExact (transaction : PagedTransaction) : Prop where
  overlayKeys : transaction.totals.overlayKeys = transaction.stagedRows.length
  overlayBytes : transaction.totals.overlayBytes =
    (transaction.stagedEntries.map OverlayEntry.retained).sum
  usage : transaction.totals.usage = usageOf transaction.stagedEntries
  changed : ∀ table, (tableCount transaction.totals.changedTables table).getD 0 =
    transaction.changedRows table
  deletes : ∀ table, (transaction.overlayOf table).CountsDeletes
  claims : transaction.ClaimsExact

/-- What staging a patch takes out of a transaction's totals is in them. -/
structure NoUnderflow (transaction : PagedTransaction) (patch : OverlayPatch) : Prop where
  shares : Subtracts transaction.sharesOf (patch.tables.flatMap (transaction.takenOut patch))
  changed : ∀ patched ∈ patch.tables, 0 ≤ (((tableCount transaction.totals.changedTables
    patched.table).getD 0 : Nat) : Int) + transaction.changedBy patch patched
  deletes : ∀ patched ∈ patch.tables,
    0 ≤ ((transaction.overlayOf patched.table).deletes : Int) + patched.deletes

lemma TotalsExact.sharesOf_eq (h : transaction.TotalsExact) :
    transaction.sharesOf = recount transaction.stagedEntries := by
  rw [sharesOf, recount, h.overlayKeys, h.overlayBytes, h.usage, stagedEntries, List.length_map]

lemma totalsExact_new (revision : Nat) : (new revision).TotalsExact where
  overlayKeys := rfl
  overlayBytes := rfl
  usage := rfl
  changed _ := rfl
  deletes _ := rfl
  claims slot key := by
    constructor
    · exact fun hheld => (nomatch hheld)
    · exact fun ⟨row, hrow, _⟩ => (nomatch hrow)

/-- Nothing a patch takes out of exact totals is missing from them. -/
lemma PatchHolds.noUnderflow (h : TransactionHolds json storage transaction view)
    (hexact : transaction.TotalsExact)
    (holds : PatchHolds json storage transaction view view' patch) :
    transaction.NoUnderflow patch where
  shares := (holds.shares h hexact.sharesOf_eq transaction.totals).1
  changed := (holds.changedRows h hexact.changed transaction.totals).1
  deletes _ hpatched := (holds.overlayInstalled h hpatched).1

/-- A statement that is staged keeps the totals exact. -/
lemma TotalsExact.stage (h : TransactionHolds json storage transaction view)
    (htrees : (storage.indexes.values.map PagedIndex.treeId).Nodup)
    (hexact : transaction.TotalsExact) {changes : List RowChange} {previous : List PreviousRow}
    (hreports : ∀ change ∈ withPrevious changes previous,
      change.2.Reports json storage view change.1)
    (hok : transaction.stage json storage changes previous = .ok transaction') :
    transaction'.TotalsExact := by
  obtain ⟨-, ⟨rfl, rfl⟩ | ⟨planned, patch, change, hplanned, hvalid, rfl⟩⟩ := stage_eq_ok hok
  · exact hexact
  · obtain ⟨shares, hshares, rfl, hkeys, hbytes, husage, hreleased, hclaimed⟩ :=
      validatePatch_eq_ok hvalid
    have hplans := TransactionHolds.patch h hreports hplanned
    set changed : PatchTable → Int := fun patched => costed (patched.entries.map Prod.snd) -
      costed (transaction.takenOut planned patched) with hchanged
    have holds := hplans.counted changed
    have htaken : (counted planned changed).tables.flatMap
        (transaction.takenOut (counted planned changed)) =
          planned.tables.flatMap (transaction.takenOut planned) := by
      rw [counted, List.flatMap_map]
      rfl
    set totals := nextTotals transaction.totals (counted planned changed) change with htotals
    have hinstalled := holds.transactionHolds h totals
    have hsum := (holds.shares h hexact.sharesOf_eq totals).2 shares (by
      rw [htaken, entries_eq_patchRows]
      have hrows : patchRows (counted planned changed) = patchRows planned := by
        rw [patchRows, counted, List.flatMap_map]
        rfl
      rw [hrows, ← entries_eq_patchRows]
      exact hshares)
    refine ⟨?_, ?_, ?_, ?_, ?_, ?_⟩
    · have hlength : change.overlayKeys = (stagedEntries _).length :=
        hkeys.trans (congrArg Shares.overlayKeys hsum)
      rw [stagedEntries, List.length_map] at hlength
      exact hlength
    · exact hbytes.trans (congrArg Shares.overlayBytes hsum)
    · exact husage.trans (congrArg Shares.usage hsum)
    · refine (holds.changedRows h hexact.changed totals).2 ?_
      rw [counted, List.forall_mem_map]
      exact fun patched _ => rfl
    · exact fun table => (overlayHolds hinstalled table).deletes
    · exact holds.claims h htrees hexact.claims (by rw [htaken]; exact hreleased) hclaimed

/-- Changing one element of a list to one that comes to the same. -/
lemma flatMap_modify {α β : Type} {f : α → α} {g : α → List β} {l : List α} {position : Nat}
    (h : ∀ a ∈ l[position]?, g (f a) = g a) : (l.modify position f).flatMap g = l.flatMap g := by
  induction l generalizing position with
  | nil => cases position <;> rfl
  | cons a l ih =>
    cases position with
    | zero => rw [List.modify_zero_cons, List.flatMap_cons, List.flatMap_cons, h a rfl]
    | succ position =>
      rw [List.modify_succ_cons, List.flatMap_cons, List.flatMap_cons, ih]
      exact h

/-- An ordered walk changes neither the totals nor the staged rows. -/
lemma merged_spec (transaction : PagedTransaction) (walked : String) :
    (transaction.merged walked).totals = transaction.totals ∧
      (transaction.merged walked).stagedRows = transaction.stagedRows := by
  rw [merged]
  cases transaction.tables.position walked with
  | error place => exact ⟨rfl, rfl⟩
  | ok place =>
    cases hoverlay : transaction.tables.atPosition place with
    | none => simp only [hoverlay, and_self]
    | some overlay =>
      simp only [hoverlay, true_and]
      rw [NameMap.atPosition, Option.map_eq_some_iff] at hoverlay
      obtain ⟨entry, hentry, rfl⟩ := hoverlay
      rw [stagedRows, NameMap.setAt]
      refine flatMap_modify ?_
      intro found hfound
      rw [Option.mem_def.mp hfound, Option.some.injEq] at hentry
      rw [hentry, TableOverlay.merged_rows]

lemma TotalsExact.merged (hinOrder : transaction.tables.InOrder) (hexact : transaction.TotalsExact)
    (walked : String) : (transaction.merged walked).TotalsExact := by
  obtain ⟨htotals, hrows⟩ := merged_spec transaction walked
  have htable := fun table => (table_merged hinOrder walked table).2
  have hoverlay : ∀ table,
      ((transaction.merged walked).overlayOf table).rows = (transaction.overlayOf table).rows ∧
      ((transaction.merged walked).overlayOf table).deletes =
        (transaction.overlayOf table).deletes := by
    intro table
    rw [overlayOf, overlayOf, htable]
    split_ifs with heq
    · rw [heq]
      cases transaction.table walked with
      | none => exact ⟨rfl, rfl⟩
      | some overlay => exact ⟨TableOverlay.merged_rows, TableOverlay.merged_deletes⟩
    · exact ⟨rfl, rfl⟩
  refine ⟨?_, ?_, ?_, ?_, ?_, ?_⟩
  · rw [htotals, hrows, hexact.overlayKeys]
  · rw [htotals, stagedEntries, hrows, hexact.overlayBytes, stagedEntries]
  · rw [htotals, stagedEntries, hrows, hexact.usage, stagedEntries]
  · intro table
    rw [htotals, hexact.changed, changedRows, changedRows, (hoverlay table).1]
  · intro table
    rw [TableOverlay.CountsDeletes, (hoverlay table).1, (hoverlay table).2]
    exact hexact.deletes table
  · intro slot key
    rw [htotals, Claimed, hrows]
    exact hexact.claims slot key

/-- The totals of every staged transaction are exact. -/
lemma totalsExact_of_staged (htrees : (storage.indexes.values.map PagedIndex.treeId).Nodup)
    (h : Staged json storage transaction view) : transaction.TotalsExact := by
  induction h with
  | new => exact totalsExact_new _
  | stage hstaged hreports hok ih =>
    exact ih.stage (holds_of_staged hstaged) htrees hreports hok
  | walk table hstaged ih => exact ih.merged (holds_of_staged hstaged).inOrder table

/-- Over any committed database whose indexes have trees of their own, every transaction that
statements make has the totals its staged rows come to. A further statement that fails leaves the
transaction as it was; one that is staged leaves exact totals again, and takes nothing out of them
that was not in them. -/
theorem staging_is_atomic_and_exact (json : SerdeJson) (storage : PagedStorage)
    (htrees : (storage.indexes.values.map PagedIndex.treeId).Nodup)
    (transaction : PagedTransaction) (view : TableView)
    (hstaged : Staged json storage transaction view) :
    transaction.TotalsExact ∧
    ∀ (changes : List RowChange) (previous : List PreviousRow),
      (∀ error transaction', stageInPlace json storage changes previous transaction =
        (.error error, transaction') → transaction' = transaction) ∧
      ((∀ change ∈ withPrevious changes previous,
          change.2.Reports json storage view change.1) →
        (∀ patch, transaction.patch json storage changes previous = .ok patch →
          transaction.NoUnderflow patch) ∧
        ∀ transaction', stageInPlace json storage changes previous transaction =
          (.ok (), transaction') →
            transaction'.TotalsExact ∧
              Staged json storage transaction' (RowChange.applyAll json storage view changes)) := by
  have hexact := totalsExact_of_staged htrees hstaged
  have holds := holds_of_staged hstaged
  refine ⟨hexact, fun changes previous => ⟨?_, fun hreports => ⟨?_, ?_⟩⟩⟩
  · intro error transaction' hfails
    rw [stageInPlace_eq] at hfails
    cases hstage : transaction.stage json storage changes previous with
    | ok staged => rw [hstage] at hfails; nomatch hfails
    | error _ =>
      rw [hstage] at hfails
      exact (Prod.mk.inj hfails).2.symm
  · exact fun patch hpatch => (TransactionHolds.patch holds hreports hpatch).noUnderflow holds hexact
  · intro transaction' hok
    rw [stageInPlace_eq] at hok
    cases hstage : transaction.stage json storage changes previous with
    | error error => rw [hstage] at hok; nomatch hok
    | ok staged =>
      rw [hstage] at hok
      obtain rfl := (Prod.mk.inj hok).2
      exact ⟨hexact.stage holds htrees hreports hstage, hstaged.stage hreports hstage⟩

/-- The seats of a hall, one to a guest. -/
def seats : TableDefinition where
  name := "seats"
  primaryKey := ["id"]
  columns := [⟨"id", .integer, false, none⟩, ⟨"guest", .integer, true, none⟩]

/-- The hall before anyone is seated. -/
def hall : PagedStorage where
  revision := 1
  recoveryRequired := false
  tables := ⟨[("seats", ⟨seats, ⟨[.key 0, .stored 0], [.integer], [0], [1]⟩, 16, none, 0⟩)]⟩
  indexes := ⟨[("seats_guest", ⟨⟨"seats_guest", "seats", ["guest"], true⟩, 17, none, 0⟩)]⟩

def numbersOnly : SerdeJson := ⟨fun _ => [], fun _ => .ok [], fun _ => .error "expected value"⟩

/-- Seats guest 7 in seat 5. -/
def seatGuest : RowChange := .put "seats" [128, 0, 0, 0, 0, 0, 0, 5] [0, 1, 7]

theorem staging_is_atomic_and_exact_seat : ∃ transaction,
    (PagedTransaction.new 1).stage numbersOnly hall [seatGuest] [] = .ok transaction ∧
      transaction.TotalsExact ∧ transaction.totals.overlayKeys = 1 ∧
      (transaction.totals.claims.lookup (17, [128, 0, 0, 0, 0, 0, 0, 7])).join =
        some [128, 0, 0, 0, 0, 0, 0, 5] := by
  have hstages : ((PagedTransaction.new 1).stage numbersOnly hall [seatGuest] []).toOption.map
      (fun transaction => (transaction.totals.overlayKeys,
        (transaction.totals.claims.lookup (17, [128, 0, 0, 0, 0, 0, 0, 7])).join)) =
      some (1, some [128, 0, 0, 0, 0, 0, 0, 5]) := by decide +kernel
  cases hok : (PagedTransaction.new 1).stage numbersOnly hall [seatGuest] [] with
  | error error =>
    rw [hok] at hstages
    nomatch hstages
  | ok transaction =>
    rw [hok] at hstages
    obtain ⟨hkeys, hclaim⟩ := Prod.mk.inj (Option.some.inj hstages)
    have hreports : ∀ change ∈ withPrevious [seatGuest] [],
        change.2.Reports numbersOnly hall hall.committed change.1 := by
      intro change hchange
      rw [List.mem_singleton.mp hchange]
      trivial
    have hstaged := Staged.stage Staged.new hreports hok
    exact ⟨transaction, rfl, (staging_is_atomic_and_exact numbersOnly hall (by decide) transaction _
      hstaged).1, hkeys, hclaim⟩

end PagedTransaction
end TinyJoin
