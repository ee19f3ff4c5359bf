import Mathlib.Algebra.BigOperators.Group.List.Basic
import TinyJoin.StagedRuns

/-! The totals a transaction keeps are those its staged entries come to: each statement takes out what
the entries it replaces came to, which is in them, and adds what its own come to. -/
namespace TinyJoin

/-! ## Sums of what entries retain and cost -/

namespace PagedWriteUsage

def add (usage other : PagedWriteUsage) : PagedWriteUsage where
  rowWrite := ⟨usage.rowWrite.changes + other.rowWrite.changes,
    usage.rowWrite.bytes + other.rowWrite.bytes⟩
  inputBytes := usage.inputBytes + other.inputBytes
  preparedBytes := usage.preparedBytes + other.preparedBytes
  operations := usage.operations + other.operations

/-- Each budget of one usage is in the same budget of another. -/
structure Within (usage other : PagedWriteUsage) : Prop where
  changes : usage.rowWrite.changes ≤ other.rowWrite.changes
  bytes : usage.rowWrite.bytes ≤ other.rowWrite.bytes
  inputBytes : usage.inputBytes ≤ other.inputBytes
  preparedBytes : usage.preparedBytes ≤ other.preparedBytes
  operations : usage.operations ≤ other.operations

lemma add_left_comm (a b c : PagedWriteUsage) : a.add (b.add c) = b.add (a.add c) := by
  simp only [add, Nat.add_left_comm]

lemma within_add (usage other : PagedWriteUsage) : usage.Within (usage.add other) :=
  ⟨Nat.le_add_right _ _, Nat.le_add_right _ _, Nat.le_add_right _ _, Nat.le_add_right _ _,
    Nat.le_add_right _ _⟩

/-- What is taken out of a sum leaves the rest. -/
lemma add_minus (usage other : PagedWriteUsage) : (usage.add other).minus usage = other := by
  simp only [minus, add, RowWriteUsage.minus, Nat.add_sub_cancel_left]

lemma plus_eq_ok {usage other total : PagedWriteUsage} (h : usage.plus other = .ok total) :
    total = other.add usage := by
  rw [plus, Except.bind_eq_ok] at h
  obtain ⟨rowWrite, hrow, h⟩ := h
  have hrowWrite : rowWrite = ⟨usage.rowWrite.changes + other.rowWrite.changes,
      usage.rowWrite.bytes + other.rowWrite.bytes⟩ := by
    rw [RowWriteUsage.plus] at hrow
    split at hrow
    · nomatch hrow
    · simp only at hrow
      exact (Except.ok.inj (Except.ite_error_eq_ok.mp hrow).2).symm
  simp only at h
  obtain ⟨-, h⟩ := Except.ite_error_eq_ok.mp h
  obtain ⟨-, h⟩ := Except.check_bind_eq_ok.mp h
  obtain ⟨-, h⟩ := Except.check_bind_eq_ok.mp h
  rw [← Except.ok.inj h, hrowWrite, add]
  simp only [Nat.add_comm]

end PagedWriteUsage

namespace PagedTransaction

/-- The usage of one entry added to others'. -/
def addUsage (entry : OverlayEntry) (usage : PagedWriteUsage) : PagedWriteUsage :=
  match entry.cost with
  | some cost => cost.usage.add usage
  | none => usage

/-- What a list of entries costs its write set. -/
def usageOf (entries : List OverlayEntry) : PagedWriteUsage := entries.foldr addUsage .zero

/-- What a list of entries retains and costs. -/
def recount (entries : List OverlayEntry) : Shares where
  overlayKeys := entries.length
  overlayBytes := (entries.map OverlayEntry.retained).sum
  usage := usageOf entries

instance : LeftCommutative addUsage where
  left_comm a b usage := by
    rw [addUsage, addUsage, addUsage, addUsage]
    cases a.cost with
    | none => rfl
    | some cost =>
      cases b.cost with
      | none => rfl
      | some other => exact PagedWriteUsage.add_left_comm _ _ _

lemma recount_perm {entries entries' : List OverlayEntry} (h : entries.Perm entries') :
    recount entries = recount entries' := by
  rw [recount, recount, h.length_eq, (h.map _).sum_eq, usageOf, h.foldr_eq]
  rfl

/-- Each entry is in the totals it is taken out of. -/
def Subtracts : Shares → List OverlayEntry → Prop
  | _, [] => True
  | shares, entry :: entries => 1 ≤ shares.overlayKeys ∧ entry.retained ≤ shares.overlayBytes ∧
    (∀ cost ∈ entry.cost, cost.usage.Within shares.usage) ∧ Subtracts (takeOut shares entry) entries

lemma takeOut_recount (entry : OverlayEntry) (entries : List OverlayEntry) :
    takeOut (recount (entry :: entries)) entry = recount entries := by
  have hbytes : (recount (entry :: entries)).overlayBytes - entry.retained =
      (recount entries).overlayBytes := by
    rw [recount, recount, List.map_cons, List.sum_cons, Nat.add_sub_cancel_left]
  have husage : (recount (entry :: entries)).usage = addUsage entry (usageOf entries) := rfl
  rw [takeOut, hbytes, husage, addUsage]
  cases entry.cost with
  | none => rfl
  | some cost =>
    simp only [PagedWriteUsage.add_minus]
    rfl

/-- Taking entries out of what they and others come to leaves what the others come to. -/
lemma foldl_takeOut (out kept : List OverlayEntry) :
    Subtracts (recount (out ++ kept)) out ∧
      out.foldl takeOut (recount (out ++ kept)) = recount kept := by
  induction out with
  | nil => exact ⟨trivial, rfl⟩
  | cons entry out ih =>
    have hstep := takeOut_recount entry (out ++ kept)
    rw [List.cons_append, List.foldl_cons, Subtracts, hstep]
    refine ⟨⟨?_, ?_, ?_, ih.1⟩, ih.2⟩
    · exact Nat.succ_le_succ (Nat.zero_le _)
    · rw [recount, List.map_cons, List.sum_cons]
      exact Nat.le_add_right _ _
    · intro cost hcost
      have husage : (recount (entry :: (out ++ kept))).usage =
          cost.usage.add (usageOf (out ++ kept)) := by
        change addUsage entry _ = _
        rw [addUsage, hcost]
        rfl
      rw [husage]
      exact PagedWriteUsage.within_add _ _

lemma retainEntry_eq_ok {keys retained bytes keys' retained' : Nat}
    (h : retainEntry keys retained bytes = .ok (keys', retained')) :
    keys' = keys + 1 ∧ retained' = retained + bytes := by
  rw [retainEntry] at h
  obtain ⟨-, h⟩ := Except.ite_error_eq_ok.mp h
  split at h
  · obtain ⟨hkeys, hretained⟩ := Prod.mk.inj (Except.ok.inj h)
    exact ⟨hkeys.symm, hretained.symm⟩
  · nomatch h

/-- Adding entries to what others come to makes what all of them come to. -/
lemma addShare_recount {entries kept : List OverlayEntry} {shares : Shares}
    (h : addShare (recount kept) entries = .ok shares) : shares = recount (entries ++ kept) := by
  induction entries generalizing kept with
  | nil => exact (Except.ok.inj h).symm
  | cons entry entries ih =>
    rw [addShare, Except.bind_eq_ok] at h
    obtain ⟨⟨keys, bytes⟩, hretain, h⟩ := h
    obtain ⟨usage, husage, h⟩ := Except.bind_eq_ok.mp h
    obtain ⟨hkeys, hbytes⟩ := retainEntry_eq_ok hretain
    have hnext : (⟨keys, bytes, usage⟩ : Shares) = recount (entry :: kept) := by
      have hsum : (recount (entry :: kept)).overlayBytes = bytes := by
        rw [hbytes, recount, recount, List.map_cons, List.sum_cons, Nat.add_comm]
      have hcost : addUsage entry (usageOf kept) = usage := by
        rw [addCost.eq_def] at husage
        rw [addUsage]
        cases hentry : entry.cost with
        | none =>
          rw [hentry] at husage
          exact Except.ok.inj husage
        | some cost =>
          rw [hentry] at husage
          exact (PagedWriteUsage.plus_eq_ok husage).symm
      rw [hkeys, ← hsum, ← hcost]
      rfl
    simp only [hnext] at h
    rw [ih h]
    exact recount_perm (List.perm_middle.trans (List.Perm.refl _))

/-! ## The staged entries -/

/-- Every staged entry, with its table and its key. -/
def stagedRows (transaction : PagedTransaction) : List (String × List UInt8 × OverlayEntry) :=
  transaction.tables.entries.flatMap fun table => table.2.rows.map fun row => (table.1, row)

def stagedEntries (transaction : PagedTransaction) : List OverlayEntry :=
  transaction.stagedRows.map fun row => row.2.2

/-- Where a staged row stands. -/
def place (row : String × List UInt8 × OverlayEntry) : String × List UInt8 := (row.1, row.2.1)

section Rows
variable {json : SerdeJson} {storage : PagedStorage} {transaction : PagedTransaction}
  {view view' : TableView} {patch : OverlayPatch}

lemma mem_stagedRows (h : TransactionHolds json storage transaction view) {table : String}
    {key : List UInt8} {entry : OverlayEntry} :
    (table, key, entry) ∈ transaction.stagedRows ↔ transaction.entry table key = some entry := by
  rw [stagedRows, List.mem_flatMap, PagedTransaction.entry, Option.bind_eq_some_iff]
  constructor
  · rintro ⟨⟨name, overlay⟩, hoverlay, hrow⟩
    obtain ⟨row, hrow, heq⟩ := List.mem_map.mp hrow
    obtain ⟨rfl, rfl⟩ := Prod.mk.inj heq
    have htable : transaction.table name = some overlay := h.inOrder.get_eq_some_iff.mpr hoverlay
    exact ⟨overlay, htable, (h.staged name overlay htable).coherent.get_eq_some_iff.mpr hrow⟩
  · rintro ⟨overlay, htable, hget⟩
    have hrow := (h.staged table overlay htable).coherent.get_eq_some_iff.mp hget
    exact ⟨(table, overlay), h.inOrder.get_eq_some_iff.mp htable,
      List.mem_map.mpr ⟨(key, entry), hrow, rfl⟩⟩

/-- No two staged rows stand in one place. -/
lemma stagedRows_pairwise (h : TransactionHolds json storage transaction view) :
    transaction.stagedRows.Pairwise (fun a b => place a ≠ place b) := by
  rw [stagedRows, List.pairwise_flatMap]
  constructor
  · rintro ⟨name, overlay⟩ hoverlay
    have hcoherent := (h.staged name overlay (h.inOrder.get_eq_some_iff.mpr hoverlay)).coherent
    refine List.pairwise_map.mpr ((List.pairwise_map.mp hcoherent.nodup).imp ?_)
    intro a b hne heq
    exact hne (Prod.mk.inj heq).2
  · refine h.inOrder.imp ?_
    intro a b hlt x hx y hy heq
    obtain ⟨_, -, rfl⟩ := List.mem_map.mp hx
    obtain ⟨_, -, rfl⟩ := List.mem_map.mp hy
    exact ne_of_lt hlt (Prod.mk.inj heq).1

lemma nodup_of_places {rows : List (String × List UInt8 × OverlayEntry)}
    (h : rows.Pairwise (fun a b => place a ≠ place b)) : rows.Nodup :=
  h.imp (fun hne heq => hne (congrArg place heq))

/-- A patch's entries, as staged rows. -/
def patchRows (patch : OverlayPatch) : List (String × List UInt8 × OverlayEntry) :=
  patch.tables.flatMap fun patched => patched.entries.map fun row => (patched.table, row)

/-- The staged rows a patch replaces. -/
def replacedRows (transaction : PagedTransaction) (patch : OverlayPatch) :
    List (String × List UInt8 × OverlayEntry) :=
  patch.tables.flatMap fun patched => patched.entries.filterMap fun row =>
    (transaction.entry patched.table row.1).map fun entry => (patched.table, row.1, entry)

lemma PatchHolds.patchRows_pairwise
    (holds : PatchHolds json storage transaction view view' patch) :
    (patchRows patch).Pairwise (fun a b => place a ≠ place b) := by
  rw [patchRows, List.pairwise_flatMap]
  constructor
  · intro patched hpatched
    refine List.pairwise_map.mpr ((List.pairwise_map.mp (holds.tables patched hpatched).nodup).imp ?_)
    intro a b hne heq
    exact hne (Prod.mk.inj heq).2
  · refine holds.names.imp ?_
    intro a b hlt x hx y hy heq
    obtain ⟨_, -, rfl⟩ := List.mem_map.mp hx
    obtain ⟨_, -, rfl⟩ := List.mem_map.mp hy
    exact ne_of_lt hlt (Prod.mk.inj heq).1

lemma PatchHolds.replacedRows_pairwise
    (holds : PatchHolds json storage transaction view view' patch) :
    (transaction.replacedRows patch).Pairwise (fun a b => place a ≠ place b) := by
  rw [replacedRows, List.pairwise_flatMap]
  constructor
  · intro patched hpatched
    refine List.pairwise_filterMap.mpr
      ((List.pairwise_map.mp (holds.tables patched hpatched).nodup).imp ?_)
    intro a b hne x hx y hy heq
    obtain ⟨_, -, rfl⟩ := Option.map_eq_some_iff.mp hx
    obtain ⟨_, -, rfl⟩ := Option.map_eq_some_iff.mp hy
    exact hne (Prod.mk.inj heq).2
  · refine holds.names.imp ?_
    intro a b hlt x hx y hy heq
    obtain ⟨_, -, hx⟩ := List.mem_filterMap.mp hx
    obtain ⟨_, -, rfl⟩ := Option.map_eq_some_iff.mp hx
    obtain ⟨_, -, hy⟩ := List.mem_filterMap.mp hy
    obtain ⟨_, -, rfl⟩ := Option.map_eq_some_iff.mp hy
    exact ne_of_lt hlt (Prod.mk.inj heq).1

/-- Whether a patch has an entry in a place. -/
def covers (patch : OverlayPatch) (at' : String × List UInt8) : Prop :=
  ∃ patched ∈ patch.tables, patched.table = at'.1 ∧ at'.2 ∈ patched.entries.map Prod.fst

lemma mem_replacedRows (h : TransactionHolds json storage transaction view)
    {row : String × List UInt8 × OverlayEntry} :
    row ∈ transaction.replacedRows patch ↔ row ∈ transaction.stagedRows ∧ covers patch (place row) := by
  obtain ⟨table, key, entry⟩ := row
  rw [replacedRows, List.mem_flatMap, mem_stagedRows h, covers, place]
  constructor
  · rintro ⟨patched, hpatched, hrow⟩
    obtain ⟨new, hnew, hrow⟩ := List.mem_filterMap.mp hrow
    obtain ⟨old, hold, heq⟩ := Option.map_eq_some_iff.mp hrow
    simp only [Prod.mk.injEq] at heq
    obtain ⟨rfl, rfl, rfl⟩ := heq
    exact ⟨hold, patched, hpatched, rfl, List.mem_map.mpr ⟨new, hnew, rfl⟩⟩
  · rintro ⟨hold, patched, hpatched, rfl, hkey⟩
    obtain ⟨new, hnew, rfl⟩ := List.mem_map.mp hkey
    exact ⟨patched, hpatched, List.mem_filterMap.mpr ⟨new, hnew, Option.map_eq_some_iff.mpr
      ⟨entry, hold, rfl⟩⟩⟩

/-- A row stands staged after a patch if the patch brings it, or if it stood there and the patch has
none in its place. -/
lemma PatchHolds.mem_installed (h : TransactionHolds json storage transaction view)
    (holds : PatchHolds json storage transaction view view' patch) (totals : Totals)
    {row : String × List UInt8 × OverlayEntry} :
    row ∈ stagedRows { transaction.installTables patch.found patch.tables with totals } ↔
      row ∈ patchRows patch ∨ row ∈ transaction.stagedRows ∧ ¬covers patch (place row) := by
  obtain ⟨table, key, entry⟩ := row
  obtain ⟨hin, hout⟩ := holds.entry_installed h
  rw [mem_stagedRows (holds.transactionHolds h totals), mem_stagedRows h, patchRows, List.mem_flatMap,
    covers, place]
  have hsame : PagedTransaction.entry
      { transaction.installTables patch.found patch.tables with totals } table key =
      (transaction.installTables patch.found patch.tables).entry table key := rfl
  rw [hsame]
  by_cases htable : ∃ patched ∈ patch.tables, patched.table = table
  · obtain ⟨patched, hpatched, rfl⟩ := htable
    have hnodup := (holds.tables patched hpatched).nodup
    have hone : ∀ other ∈ patch.tables, other.table = patched.table → other = patched :=
      fun other hother heq => holds.eq_of_table hother hpatched heq
    rw [hin patched hpatched, PatchTable.entry]
    cases hfind : patched.entries.find? (fun row => row.1 == key) with
    | some row =>
      have hrow := List.mem_of_find?_eq_some hfind
      have hkey : row.1 = key := by simpa using List.find?_some hfind
      rw [Option.map_some, Option.some_or, Option.some.injEq]
      constructor
      · rintro rfl
        exact .inl ⟨patched, hpatched, List.mem_map.mpr ⟨row, hrow, by rw [← hkey]⟩⟩
      · rintro (⟨other, hother, hmem⟩ | ⟨-, hno⟩)
        · obtain ⟨new, hnew, heq⟩ := List.mem_map.mp hmem
          obtain ⟨hname, rfl⟩ := Prod.mk.inj heq
          obtain rfl := hone other hother hname
          exact congrArg Prod.snd (List.inj_on_of_nodup_map hnodup hrow hnew hkey)
        · exact absurd ⟨patched, hpatched, rfl, List.mem_map.mpr ⟨row, hrow, hkey⟩⟩ hno
    | none =>
      have hmissing : key ∉ patched.entries.map Prod.fst := by
        intro hmem
        obtain ⟨row, hrow, rfl⟩ := List.mem_map.mp hmem
        have hno := List.find?_eq_none.mp hfind row hrow
        simp at hno
      rw [Option.map_none, Option.none_or]
      constructor
      · intro hentry
        refine .inr ⟨hentry, ?_⟩
        rintro ⟨other, hother, hname, hkey⟩
        obtain rfl := hone other hother hname
        exact hmissing hkey
      · rintro (⟨other, hother, hmem⟩ | ⟨hentry, -⟩)
        · obtain ⟨new, hnew, heq⟩ := List.mem_map.mp hmem
          obtain ⟨hname, rfl⟩ := Prod.mk.inj heq
          obtain rfl := hone other hother hname
          exact absurd (List.mem_map.mpr ⟨_, hnew, rfl⟩) hmissing
        · exact hentry
  · have hother : ∀ patched ∈ patch.tables, patched.table ≠ table :=
      fun patched hpatched heq => htable ⟨patched, hpatched, heq⟩
    rw [hout table hother]
    constructor
    · intro hentry
      refine .inr ⟨hentry, ?_⟩
      rintro ⟨patched, hpatched, heq, _⟩
      exact hother patched hpatched heq
    · rintro (⟨patched, hpatched, hmem⟩ | ⟨hentry, -⟩)
      · obtain ⟨new, -, heq⟩ := List.mem_map.mp hmem
        exact absurd (Prod.mk.inj heq).1 (hother patched hpatched)
      · exact hentry

/-- What a patch replaces is in the staged rows, and what it brings takes its place. -/
lemma PatchHolds.exists_kept (h : TransactionHolds json storage transaction view)
    (holds : PatchHolds json storage transaction view view' patch) (totals : Totals) :
    ∃ kept, transaction.stagedRows.Perm (transaction.replacedRows patch ++ kept) ∧
      (stagedRows { transaction.installTables patch.found patch.tables with totals }).Perm
        (patchRows patch ++ kept) := by
  classical
  refine ⟨transaction.stagedRows.filter (fun row => !decide (covers patch (place row))), ?_, ?_⟩
  · refine (List.filter_append_perm (fun row => decide (covers patch (place row))) _).symm.trans ?_
    refine List.Perm.append_right _ ?_
    refine (List.perm_ext_iff_of_nodup ((nodup_of_places (stagedRows_pairwise h)).filter _)
      (nodup_of_places holds.replacedRows_pairwise)).mpr (fun row => ?_)
    rw [List.mem_filter, decide_eq_true_eq, mem_replacedRows h]
  · have hbrought : ∀ row ∈ patchRows patch, covers patch (place row) := by
      intro row hrow
      obtain ⟨patched, hpatched, hrow⟩ := List.mem_flatMap.mp hrow
      obtain ⟨new, hnew, rfl⟩ := List.mem_map.mp hrow
      exact ⟨patched, hpatched, rfl, List.mem_map.mpr ⟨new, hnew, rfl⟩⟩
    refine (List.perm_ext_iff_of_nodup
      (nodup_of_places (stagedRows_pairwise (holds.transactionHolds h totals))) ?_).mpr
        (fun row => ?_)
    · refine List.nodup_append.mpr ⟨nodup_of_places holds.patchRows_pairwise,
        (nodup_of_places (stagedRows_pairwise h)).filter _, ?_⟩
      rintro row hrow _ hkept rfl
      have hno := (List.mem_filter.mp hkept).2
      rw [Bool.not_eq_true', decide_eq_false_iff_not] at hno
      exact hno (hbrought row hrow)
    · rw [holds.mem_installed h totals, List.mem_append, List.mem_filter, Bool.not_eq_true',
        decide_eq_false_iff_not]

/-! ## Totals of a patch -/

/-- The entries that a table's part of a patch takes out of the totals. -/
def takenOut (transaction : PagedTransaction) (patch : OverlayPatch) (patched : PatchTable) :
    List OverlayEntry :=
  if patch.replaces then transaction.replacedEntries patched else []

/-- The shares of the totals a transaction keeps. -/
def sharesOf (transaction : PagedTransaction) : Shares :=
  ⟨transaction.totals.overlayKeys, transaction.totals.overlayBytes, transaction.totals.usage⟩

lemma PatchHolds.takenOut_eq (holds : PatchHolds json storage transaction view view' patch)
    {patched : PatchTable} (hpatched : patched ∈ patch.tables) :
    transaction.takenOut patch patched = transaction.replacedOf patched.table patched.entries := by
  have hstaged : transaction.stagedFor patched = transaction.table patched.table := by
    rw [stagedFor, (holds.tables patched hpatched).place]
    rfl
  rw [takenOut]
  split_ifs with hreplaces
  · rw [replacedEntries, hstaged, replacedOf]
    cases hoverlay : transaction.table patched.table with
    | some overlay => simp only [PagedTransaction.entry, hoverlay, Option.bind_some]
    | none => simp [PagedTransaction.entry, hoverlay]
  · -- a patch that found no staged entry for its keys replaces none
    rw [Bool.not_eq_true] at hreplaces
    refine (List.filterMap_eq_nil_iff.mpr (fun row hrow => ?_)).symm
    exact holds.replaces hreplaces patched hpatched row hrow

lemma PatchHolds.takenOut_rows (holds : PatchHolds json storage transaction view view' patch) :
    patch.tables.flatMap (transaction.takenOut patch) =
      (transaction.replacedRows patch).map (fun row => row.2.2) := by
  rw [replacedRows, List.map_flatMap]
  refine List.flatMap_congr (fun patched hpatched => ?_)
  rw [holds.takenOut_eq hpatched, replacedOf, List.map_filterMap]
  simp only [Option.map_map]
  congr 1
  funext row
  exact (Option.map_id' ..).symm

lemma entries_eq_patchRows :
    patch.entries.map (fun entry => entry.2.2) = (patchRows patch).map (fun row => row.2.2) := by
  rw [OverlayPatch.entries, patchRows, List.map_flatMap, List.map_flatMap]
  simp only [List.map_map]
  rfl

/-- The totals of a patch: what it replaces is in them, and once it is out and the patch's entries are
in, they are what the staged entries come to. -/
lemma PatchHolds.shares (h : TransactionHolds json storage transaction view)
    (holds : PatchHolds json storage transaction view view' patch)
    (hexact : transaction.sharesOf = recount transaction.stagedEntries) (totals : Totals) :
    Subtracts transaction.sharesOf (patch.tables.flatMap (transaction.takenOut patch)) ∧
    ∀ shares, addShare ((patch.tables.flatMap (transaction.takenOut patch)).foldl takeOut
        transaction.sharesOf) (patch.entries.map (fun entry => entry.2.2)) = .ok shares →
      shares = recount (stagedEntries
        { transaction.installTables patch.found patch.tables with totals }) := by
  obtain ⟨kept, hold, hnew⟩ := holds.exists_kept h totals
  have hbefore := hold.map (fun row => row.2.2)
  rw [List.map_append, ← holds.takenOut_rows] at hbefore
  have hafter := hnew.map (fun row => row.2.2)
  rw [List.map_append, ← entries_eq_patchRows] at hafter
  have hshares : transaction.sharesOf = recount (patch.tables.flatMap (transaction.takenOut patch) ++
      kept.map (fun row => row.2.2)) := by
    rw [hexact]
    exact recount_perm hbefore
  obtain ⟨hsubtracts, hout⟩ := foldl_takeOut (patch.tables.flatMap (transaction.takenOut patch))
    (kept.map (fun row => row.2.2))
  rw [hshares]
  refine ⟨hsubtracts, fun shares hadd => ?_⟩
  rw [hout] at hadd
  rw [addShare_recount hadd]
  exact (recount_perm hafter).symm

/-! ## Changed rows -/

/-- How many of a table's staged rows differ from the committed ones. -/
def changedRows (transaction : PagedTransaction) (table : String) : Nat :=
  (transaction.overlayOf table).rows.countP (fun row => row.2.cost.isSome)

/-- Putting a count in the place of a table's own. -/
lemma tableCount_replace (counts : List (String × Nat)) (name table : String) (count : Nat) :
    tableCount (counts.map (fun entry => if entry.1 == name then (entry.1, count) else entry)) table =
      if table = name then (tableCount counts table).map (fun _ => count)
      else tableCount counts table := by
  have hname : (fun entry : String × Nat => entry.1 == table) ∘ (fun entry : String × Nat =>
      if entry.1 == name then (entry.1, count) else entry) = fun entry => entry.1 == table := by
    funext entry
    by_cases h : entry.1 = name
    · simp [h]
    · simp [h]
  rw [tableCount, List.find?_map, hname, tableCount]
  cases hfind : counts.find? (fun entry => entry.1 == table) with
  | none => simp
  | some entry =>
    have hentry : entry.1 = table := by simpa using List.find?_some hfind
    by_cases h : table = name
    · simp [h, hentry]
    · simp [h, hentry]

/-- Adding a count for a table that has none. -/
lemma tableCount_insert {counts : List (String × Nat)} {name : String}
    (hnone : tableCount counts name = none) (table : String) (count : Nat) :
    tableCount (counts.insertIdx (counts.takeWhile (fun entry => entry.1 < name)).length
      (name, count)) table = if table = name then some count else tableCount counts table := by
  have hsplit : counts = counts.takeWhile (fun entry => entry.1 < name) ++
      counts.dropWhile (fun entry => entry.1 < name) := List.takeWhile_append_dropWhile.symm
  generalize counts.takeWhile (fun entry => entry.1 < name) = before at hsplit
  generalize counts.dropWhile (fun entry => entry.1 < name) = after at hsplit
  subst hsplit
  rw [tableCount, Option.map_eq_none_iff, List.find?_append, Option.or_eq_none_iff] at hnone
  rw [NameMap.insertIdx_length_append, tableCount, tableCount, List.find?_append, List.find?_append,
    List.find?_cons]
  by_cases h : table = name
  · subst h
    rw [hnone.1]
    simp
  · have hne : (name == table) = false := by simpa using fun heq => h heq.symm
    rw [hne, if_neg h]

lemma tableCount_countChanged (counts : List (String × Nat)) (patched : PatchTable)
    (table : String) :
    (tableCount (countChanged counts patched) table).getD 0 =
      if table = patched.table then changedCount counts patched.table patched.changed
      else (tableCount counts table).getD 0 := by
  rw [countChanged]
  set count := changedCount counts patched.table patched.changed with hcount
  by_cases hsome : (tableCount counts patched.table).isSome
  · rw [if_pos hsome, tableCount_replace]
    by_cases h : table = patched.table
    · obtain ⟨before, hbefore⟩ := Option.isSome_iff_exists.mp hsome
      simp [h, hbefore]
    · rw [if_neg h, if_neg h]
  · rw [if_neg hsome]
    have hnone := Option.not_isSome_iff_eq_none.mp hsome
    by_cases hpos : 0 < count
    · rw [if_pos hpos, tableCount_insert hnone]
      by_cases h : table = patched.table
      · rw [if_pos h, if_pos h]
        rfl
      · rw [if_neg h, if_neg h]
    · rw [if_neg hpos]
      by_cases h : table = patched.table
      · rw [if_pos h, h, hnone]
        exact (Nat.eq_zero_of_not_pos hpos).symm
      · rw [if_neg h]

/-- Each table of a patch has its count changed once. -/
lemma tableCount_foldl {tables : List PatchTable}
    (hnames : tables.Pairwise (fun a b => a.table < b.table)) (counts : List (String × Nat)) :
    (∀ patched ∈ tables, (tableCount (tables.foldl countChanged counts) patched.table).getD 0 =
      changedCount counts patched.table patched.changed) ∧
    ∀ table, (∀ patched ∈ tables, patched.table ≠ table) →
      (tableCount (tables.foldl countChanged counts) table).getD 0 =
        (tableCount counts table).getD 0 := by
  induction tables generalizing counts with
  | nil => exact ⟨fun _ hpatched => (nomatch hpatched), fun _ _ => rfl⟩
  | cons first rest ih =>
    rw [List.pairwise_cons] at hnames
    obtain ⟨hin, hout⟩ := ih hnames.2 (countChanged counts first)
    rw [List.foldl_cons]
    constructor
    · rw [List.forall_mem_cons]
      constructor
      · rw [hout first.table (fun other hother => (hnames.1 other hother).ne'),
          tableCount_countChanged, if_pos rfl]
      · intro patched hpatched
        rw [hin patched hpatched, changedCount, tableCount_countChanged,
          if_neg (hnames.1 patched hpatched).ne', ← changedCount]
    · intro table hother
      rw [List.forall_mem_cons] at hother
      rw [hout table hother.2, tableCount_countChanged, if_neg hother.1.symm]

/-- How many more changed rows a table has with its part of a patch. -/
def changedBy (transaction : PagedTransaction) (patch : OverlayPatch) (patched : PatchTable) : Int :=
  costed (patched.entries.map Prod.snd) - costed (transaction.takenOut patch patched)

/-- A table's changed rows stay counted, and never fall below none. -/
lemma PatchHolds.changedRows (h : TransactionHolds json storage transaction view)
    (holds : PatchHolds json storage transaction view view' patch)
    (hexact : ∀ table, (tableCount transaction.totals.changedTables table).getD 0 =
      transaction.changedRows table) (totals : Totals) :
    (∀ patched ∈ patch.tables, 0 ≤ (((tableCount transaction.totals.changedTables
      patched.table).getD 0 : Nat) : Int) + transaction.changedBy patch patched) ∧
    ((∀ patched ∈ patch.tables, patched.changed = transaction.changedBy patch patched) →
      ∀ table, (tableCount (patch.tables.foldl countChanged transaction.totals.changedTables)
          table).getD 0 =
        PagedTransaction.changedRows
          { transaction.installTables patch.found patch.tables with totals } table) := by
  obtain ⟨-, hin, hout⟩ := holds.installed h
  have hcount : ∀ patched ∈ patch.tables, ((((transaction.overlayOf patched.table).install
      patched.entries patched.deletes patch.found).rows.countP (fun row => row.2.cost.isSome) : Nat) :
        Int) = (transaction.changedRows patched.table : Nat) +
          transaction.changedBy patch patched := by
    intro patched hpatched
    have hnodup := (holds.tables patched hpatched).nodup
    have hcounts := @TableOverlay.Coherent.countP_install _ (overlayHolds h patched.table).coherent
      _ _ patched.deletes hnodup (holds.probed hpatched) (fun entry => entry.cost.isSome)
    have hrows : (patched.entries.map Prod.snd).countP (fun entry => entry.cost.isSome) =
        patched.entries.countP (fun row => row.2.cost.isSome) := List.countP_map
    rw [changedBy, holds.takenOut_eq hpatched, replacedOf_eq, costed, costed, hrows,
      PagedTransaction.changedRows]
    omega
  constructor
  · intro patched hpatched
    rw [hexact, ← hcount patched hpatched]
    exact Int.natCast_nonneg _
  · intro hchanged table
    obtain ⟨hfoldIn, hfoldOut⟩ := tableCount_foldl holds.names transaction.totals.changedTables
    by_cases htable : ∃ patched ∈ patch.tables, patched.table = table
    · obtain ⟨patched, hpatched, rfl⟩ := htable
      have hinstalled : overlayOf
          { transaction.installTables patch.found patch.tables with totals } patched.table =
          (transaction.overlayOf patched.table).install patched.entries patched.deletes
            patch.found := congrArg (fun overlay => overlay.getD .empty) (hin patched hpatched)
      rw [hfoldIn patched hpatched, changedCount, hexact, hchanged patched hpatched,
        ← hcount patched hpatched, Int.toNat_natCast, PagedTransaction.changedRows, hinstalled]
    · have hother : ∀ patched ∈ patch.tables, patched.table ≠ table :=
        fun patched hpatched heq => htable ⟨patched, hpatched, heq⟩
      have hsame : overlayOf { transaction.installTables patch.found patch.tables with totals } table =
          transaction.overlayOf table :=
        congrArg (fun overlay => overlay.getD .empty) (hout table hother)
      rw [hfoldOut table hother, hexact, PagedTransaction.changedRows, PagedTransaction.changedRows,
        hsame]

end Rows

end PagedTransaction
end TinyJoin
