import Mathlib.Data.List.Dedup
import TinyJoin.StagedTotals

/-! The claims a transaction keeps on the values of unique indexes are those of its staged entries. -/
namespace TinyJoin

/-! ### The claims of an entry -/

section Entries
variable {json : SerdeJson} {storage : PagedStorage}

lemma PagedStorage.rowClaims_eq_ok {tuple : IndexDefinition → Result (Option (List UInt8))}
    {key : List UInt8} {indexes : List PagedIndex} {bytes bytes' : Nat}
    {claims claims' : List UniqueClaim}
    (h : rowClaims tuple key indexes bytes claims = .ok (bytes', claims')) :
    ∀ claim ∈ claims', claim ∈ claims ∨ ∃ index ∈ indexes, index.treeId = claim.treeId := by
  induction indexes generalizing bytes claims with
  | nil =>
    obtain ⟨-, rfl⟩ := Prod.mk.inj (Except.ok.inj h)
    exact fun claim hclaim => .inl hclaim
  | cons index indexes ih =>
    obtain ⟨value, -, h⟩ := Except.bind_eq_ok.mp h
    intro claim hclaim
    cases value with
    | none =>
      rcases ih h claim hclaim with hbefore | ⟨other, hother, heq⟩
      · exact .inl hbefore
      · exact .inr ⟨other, List.mem_cons_of_mem _ hother, heq⟩
    | some prefixBytes =>
      obtain ⟨owners, -, h⟩ := Except.bind_eq_ok.mp h
      rcases ih h claim hclaim with hbefore | ⟨other, hother, heq⟩
      · rcases List.mem_append.mp hbefore with hbefore | hnew
        · exact .inl hbefore
        · rw [List.mem_singleton] at hnew
          exact .inr ⟨index, List.mem_cons_self, by rw [hnew]⟩
      · exact .inr ⟨other, List.mem_cons_of_mem _ hother, heq⟩

lemma PagedStorage.changeCostIn_claims {paged : PagedTable} {indexes : List PagedIndex}
    {row : ChangeRow} {isDelete : Bool} {key : List UInt8} {base : Option HeldRow} {cost : ChangeCost}
    (h : storage.changeCostIn json paged indexes row isDelete key base = .ok cost) :
    ∀ claim ∈ cost.claims, ∃ index ∈ indexes, index.treeId = claim.treeId := by
  rw [changeCostIn] at h
  simp only [Except.bind_eq_ok] at h
  obtain ⟨_, -, _, -, _, -, _, -, _, -, _, -, ⟨preparedBytes, claims⟩, hclaims, h⟩ := h
  obtain ⟨_, -, _, -, h⟩ := h
  obtain rfl := Except.ok.inj h
  intro claim hclaim
  rw [changeClaims] at hclaims
  split_ifs at hclaims
  · obtain ⟨-, rfl⟩ := Prod.mk.inj (Except.ok.inj hclaims)
    cases hclaim
  · rcases rowClaims_eq_ok hclaims claim hclaim with hnone | ⟨index, hindex, heq⟩
    · cases hnone
    · exact ⟨index, (List.mem_filter.mp hindex).1, heq⟩

/-- A staged row claims values of its own table's indexes. -/
lemma EntryMade.claimSlots {table : String} {key : List UInt8} {entry : OverlayEntry}
    (h : EntryMade json storage table key entry) {slot : ClaimSlot} (hslot : slot ∈ entry.claimSlots) :
    ∃ index ∈ storage.tableIndexes table, index.treeId = slot.1 := by
  obtain ⟨paged, change, -, -, hentry⟩ := h
  obtain ⟨next, map, measured, rowBytes, -, -, -, hcost, -⟩ := overlayEntry_eq_ok hentry
  rw [OverlayEntry.claimSlots] at hslot
  cases hsome : entry.cost with
  | none =>
    rw [hsome] at hslot
    cases hslot
  | some cost =>
    rw [hsome] at hslot hcost
    obtain ⟨claim, hclaim, rfl⟩ := List.mem_map.mp hslot
    rw [entryCost] at hcost
    split_ifs at hcost
    · obtain ⟨cost', hcost', heq⟩ := Except.map_eq_ok.mp hcost
      rw [Option.some.inj heq] at hcost'
      exact PagedStorage.changeCostIn_claims hcost' claim hclaim
    · cases Except.ok.inj hcost

/-- The indexes of two tables have different trees. -/
lemma PagedStorage.table_of_treeId
    (htrees : (storage.indexes.values.map PagedIndex.treeId).Nodup) {a b : String}
    {index other : PagedIndex} (hindex : index ∈ storage.tableIndexes a)
    (hother : other ∈ storage.tableIndexes b) (heq : index.treeId = other.treeId) : a = b := by
  obtain ⟨hindex, ha⟩ := List.mem_filter.mp hindex
  obtain ⟨hother, hb⟩ := List.mem_filter.mp hother
  have hsame : index = other := List.inj_on_of_nodup_map htrees hindex hother heq
  rw [← beq_iff_eq.mp ha, ← beq_iff_eq.mp hb, hsame]

end Entries

namespace PagedTransaction

/-! ### Claims given up and claims made -/

lemma lookup_releaseClaims (claims : Claims) (released : Nat) (slots : List ClaimSlot)
    (slot : ClaimSlot) : ((releaseClaims claims released slots).1.lookup slot).join =
      if slot ∈ slots then none else (claims.lookup slot).join := by
  induction slots generalizing claims released with
  | nil => rfl
  | cons first rest ih =>
    rw [releaseClaims]
    split_ifs with hsome hmem hmem
    · rw [ih]
      by_cases hrest : slot ∈ rest
      · rw [if_pos hrest]
      · rw [if_neg hrest]
        have heq : slot = first := (List.mem_cons.mp hmem).resolve_right hrest
        rw [heq, AList.lookup_insert]
        rfl
    · rw [List.mem_cons, not_or] at hmem
      rw [ih, if_neg hmem.2, AList.lookup_insert_ne hmem.1]
    · rw [ih]
      by_cases hrest : slot ∈ rest
      · rw [if_pos hrest]
      · rw [if_neg hrest]
        have heq : slot = first := (List.mem_cons.mp hmem).resolve_right hrest
        rw [heq, Option.not_isSome_iff_eq_none.mp hsome]
        rfl
    · rw [List.mem_cons, not_or] at hmem
      rw [ih, if_neg hmem.2]

lemma lookup_extendClaims (claims claimed : Claims) (slot : ClaimSlot) :
    (extendClaims claims claimed).lookup slot =
      (claimed.lookup slot).or (claims.lookup slot) := by
  have hfold : ∀ (entries : List (Sigma (fun _ : ClaimSlot => Option (List UInt8)))) (claims : Claims),
      entries.NodupKeys →
      (entries.foldl (fun claims claim => claims.insert claim.1 claim.2) claims).lookup slot =
        (entries.dlookup slot).or (claims.lookup slot) := by
    intro entries
    induction entries with
    | nil => exact fun claims _ => rfl
    | cons first rest ih =>
      intro claims hnodup
      obtain ⟨hfirst, hrest⟩ := List.nodupKeys_cons.mp hnodup
      rw [List.foldl_cons, ih _ hrest]
      by_cases heq : slot = first.1
      · subst heq
        rw [AList.lookup_insert, List.dlookup_cons_eq, List.dlookup_eq_none.mpr hfirst]
        rfl
      · rw [AList.lookup_insert_ne heq, List.dlookup_cons_ne _ _ heq]
  exact hfold claimed.entries claims claimed.nodupKeys

section Patch
variable {json : SerdeJson} {storage : PagedStorage} {transaction : PagedTransaction}
  {released : List ClaimSlot}

/-- A row of a patch takes the values it claims, which no other row holds. -/
lemma claimValues_eq_ok {patched : PatchTable} {key : List UInt8} {claims : List UniqueClaim}
    {claimed claimed' : Claims}
    (h : transaction.claimValues storage released patched key claims claimed = .ok claimed') :
    (∀ slot, claimed'.lookup slot =
      if slot ∈ claims.map (fun claim => (claim.treeId, claim.prefixBytes)) then some (some key)
      else claimed.lookup slot) ∧
    ∀ slot ∈ claims.map (fun claim => (claim.treeId, claim.prefixBytes)),
      ∀ holder ∈ transaction.holder released claimed slot, holder = key := by
  induction claims generalizing claimed with
  | nil =>
    rw [← Except.ok.inj h]
    exact ⟨fun slot => rfl, fun slot hslot => (nomatch hslot)⟩
  | cons claim claims ih =>
    rw [claimValues, Except.ite_error_eq_ok] at h
    obtain ⟨hfree, h⟩ := h
    rw [Bool.or_eq_true, not_or, Bool.not_eq_true] at hfree
    obtain ⟨hlookup, hothers⟩ := ih h
    rw [List.map_cons]
    set first : ClaimSlot := (claim.treeId, claim.prefixBytes) with hfirst
    have hholder : ∀ holder ∈ transaction.holder released claimed first, holder = key := by
      intro holder hmem
      rw [Option.mem_def.mp hmem, Option.any_some, bne_eq_false_iff_eq] at hfree
      exact hfree.1
    constructor
    · intro slot
      rw [hlookup slot]
      by_cases heq : slot = first
      · rw [heq, AList.lookup_insert, if_pos List.mem_cons_self]
        split_ifs <;> rfl
      · rw [AList.lookup_insert_ne heq]
        simp only [List.mem_cons, heq, false_or]
    · intro slot hslot
      by_cases heq : slot = first
      · rw [heq]
        exact hholder
      · have hrest := (List.mem_cons.mp hslot).resolve_left heq
        have hsame : transaction.holder released (claimed.insert first (some key)) slot =
            transaction.holder released claimed slot := by
          rw [holder, holder, AList.lookup_insert_ne heq]
        rw [← hsame]
        exact hothers slot hrest

/-- The values an entry of a patch claims. -/
def claimsOf (row : PatchTable × List UInt8 × OverlayEntry) : List ClaimSlot := row.2.2.claimSlots

/-- The rows of a patch take the values they claim, each held by one row. -/
lemma claimEntries_eq_ok {entries : List (PatchTable × List UInt8 × OverlayEntry)}
    {claimed claimed' : Claims}
    (h : transaction.claimEntries storage released entries claimed = .ok claimed') :
    (∀ row ∈ entries, ∀ slot ∈ claimsOf row, claimed'.lookup slot = some (some row.2.1)) ∧
    (∀ slot, (∀ row ∈ entries, slot ∉ claimsOf row) →
      claimed'.lookup slot = claimed.lookup slot) ∧
    ∀ row ∈ entries, ∀ slot ∈ claimsOf row,
      ∀ holder ∈ transaction.holder released claimed slot, holder = row.2.1 := by
  induction entries generalizing claimed with
  | nil =>
    rw [← Except.ok.inj h]
    exact ⟨fun row hrow => (nomatch hrow), fun slot _ => rfl, fun row hrow => (nomatch hrow)⟩
  | cons first rest ih =>
    obtain ⟨patched, key, entry⟩ := first
    obtain ⟨between, hbetween, h⟩ := Except.bind_eq_ok.mp h
    obtain ⟨htakes, hothers, hfree⟩ := ih h
    have hslots : ((entry.cost.map (fun cost => cost.claims)).getD []).map
        (fun claim => ((claim.treeId, claim.prefixBytes) : ClaimSlot)) = entry.claimSlots := by
      rw [OverlayEntry.claimSlots]
      cases entry.cost <;> rfl
    obtain ⟨hfirst, hfirstFree⟩ := claimValues_eq_ok hbetween
    rw [hslots] at hfirst hfirstFree
    have hheld : ∀ slot ∈ entry.claimSlots,
        transaction.holder released between slot = some key := by
      intro slot hslot
      rw [holder, hfirst slot, if_pos hslot]
      rfl
    refine ⟨?_, ?_, ?_⟩
    · rw [List.forall_mem_cons]
      refine ⟨fun slot hslot => ?_, htakes⟩
      by_cases hlater : ∃ row ∈ rest, slot ∈ claimsOf row
      · -- a later row of the patch that claims the value is the same row
        obtain ⟨row, hrow, hclaims⟩ := hlater
        rw [htakes row hrow slot hclaims, ← hfree row hrow slot hclaims key (hheld slot hslot)]
      · have hin : slot ∈ entry.claimSlots := hslot
        rw [hothers slot (fun row hrow hclaims => hlater ⟨row, hrow, hclaims⟩), hfirst slot,
          if_pos hin]
    · intro slot hnone
      rw [List.forall_mem_cons] at hnone
      have hout : slot ∉ entry.claimSlots := hnone.1
      rw [hothers slot hnone.2, hfirst slot, if_neg hout]
    · rw [List.forall_mem_cons]
      refine ⟨hfirstFree, fun row hrow slot hslot held hheldBefore => ?_⟩
      by_cases hin : slot ∈ entry.claimSlots
      · rw [hfirstFree slot hin held hheldBefore]
        exact hfree row hrow slot hslot key (hheld slot hin)
      · refine hfree row hrow slot hslot held ?_
        rw [holder, hfirst slot, if_neg hin]
        exact hheldBefore

end Patch

/-! ### The claims of the staged rows -/

section Rows
variable {json : SerdeJson} {storage : PagedStorage} {transaction : PagedTransaction}
  {view view' : TableView} {patch : OverlayPatch}

/-- A value is claimed by the row staged at a key. -/
def Claimed (transaction : PagedTransaction) (slot : ClaimSlot) (key : List UInt8) : Prop :=
  ∃ row ∈ transaction.stagedRows, row.2.1 = key ∧ slot ∈ row.2.2.claimSlots

/-- The live claims are those of the staged rows. -/
def ClaimsExact (transaction : PagedTransaction) : Prop :=
  ∀ slot key, (transaction.totals.claims.lookup slot).join = some key ↔
    transaction.Claimed slot key

/-- The claims a statement leaves, once those given up are. -/
lemma lookup_nextTotals (totals : Totals) (patch : OverlayPatch) (change : TotalsChange)
    (slot : ClaimSlot) : ((nextTotals totals patch change).claims.lookup slot).join =
      ((change.claimed.lookup slot).or
        ((releaseClaims totals.claims totals.released change.released.dedup).1.lookup slot)).join := by
  rw [← lookup_extendClaims, nextTotals]
  rcases releaseClaims totals.claims totals.released change.released.dedup with ⟨claims, released⟩
  dsimp only
  split_ifs
  · rw [Indexed.lookup_retain]
    rcases (extendClaims claims change.claimed).lookup slot with _ | _ | _ <;> rfl
  · rfl

lemma mem_patch_entries {row : PatchTable × List UInt8 × OverlayEntry} :
    row ∈ patch.entries ↔ row.1 ∈ patch.tables ∧ row.2 ∈ row.1.entries := by
  rw [OverlayPatch.entries, List.mem_flatMap]
  constructor
  · rintro ⟨patched, hpatched, hrow⟩
    obtain ⟨entry, hentry, rfl⟩ := List.mem_map.mp hrow
    exact ⟨hpatched, hentry⟩
  · rintro ⟨hpatched, hentry⟩
    exact ⟨row.1, hpatched, List.mem_map.mpr ⟨row.2, hentry, rfl⟩⟩

/-- Two staged rows that claim one value are the same row. -/
lemma Claimed.place_eq (h : TransactionHolds json storage transaction view)
    (htrees : (storage.indexes.values.map PagedIndex.treeId).Nodup)
    (hexact : transaction.ClaimsExact) {slot : ClaimSlot}
    {a b : String × List UInt8 × OverlayEntry}
    (ha : a ∈ transaction.stagedRows) (hb : b ∈ transaction.stagedRows)
    (haslot : slot ∈ a.2.2.claimSlots) (hbslot : slot ∈ b.2.2.claimSlots) : place a = place b := by
  have hakey := (hexact slot a.2.1).mpr ⟨a, ha, rfl, haslot⟩
  have hbkey := (hexact slot b.2.1).mpr ⟨b, hb, rfl, hbslot⟩
  rw [hakey, Option.some.injEq] at hbkey
  obtain ⟨index, hindex, heq⟩ := (h.made ((mem_stagedRows h).mp ha)).claimSlots haslot
  obtain ⟨other, hother, hsame⟩ := (h.made ((mem_stagedRows h).mp hb)).claimSlots hbslot
  have htable := PagedStorage.table_of_treeId htrees hindex hother (heq.trans hsame.symm)
  rw [place, place, htable, hbkey]

/-- A statement's claims take the places of those its entries' keys held. -/
lemma PatchHolds.claims (h : TransactionHolds json storage transaction view)
    (holds : PatchHolds json storage transaction view view' patch)
    (htrees : (storage.indexes.values.map PagedIndex.treeId).Nodup)
    (hexact : transaction.ClaimsExact) {change : TotalsChange}
    (hreleased : change.released = (patch.tables.flatMap (transaction.takenOut patch)).flatMap
      OverlayEntry.claimSlots)
    (hclaimed : transaction.claimEntries storage change.released patch.entries ∅ =
      .ok change.claimed) :
    ClaimsExact { transaction.installTables patch.found patch.tables with
      totals := nextTotals transaction.totals patch change } := by
  obtain ⟨htakes, hothers, hfree⟩ := claimEntries_eq_ok hclaimed
  have hlookup : ∀ slot, ((nextTotals transaction.totals patch change).claims.lookup slot).join =
      ((change.claimed.lookup slot).or ((releaseClaims transaction.totals.claims
        transaction.totals.released change.released.dedup).1.lookup slot)).join :=
    lookup_nextTotals transaction.totals patch change
  have hgiven : ∀ slot, slot ∈ change.released ↔
      ∃ row ∈ transaction.replacedRows patch, slot ∈ row.2.2.claimSlots := by
    intro slot
    rw [hreleased, holds.takenOut_rows, List.mem_flatMap]
    simp only [List.mem_map, exists_exists_and_eq_and]
  intro slot key
  change ((nextTotals transaction.totals patch change).claims.lookup slot).join = some key ↔ _
  rw [hlookup slot]
  by_cases hpatch : ∃ row ∈ patch.entries, slot ∈ claimsOf row
  · obtain ⟨row, hrow, hslot⟩ := hpatch
    obtain ⟨hpatched, hentry⟩ := mem_patch_entries.mp hrow
    rw [htakes row hrow slot hslot, Option.some_or, Option.join_some, Option.some.injEq]
    have hstaged : (row.1.table, row.2) ∈ stagedRows
        { transaction.installTables patch.found patch.tables with
          totals := nextTotals transaction.totals patch change } :=
      (holds.mem_installed h _).mpr (.inl (List.mem_flatMap.mpr
        ⟨row.1, hpatched, List.mem_map.mpr ⟨row.2, hentry, rfl⟩⟩))
    constructor
    · rintro rfl
      exact ⟨_, hstaged, rfl, hslot⟩
    · rintro ⟨other, hother, rfl, hclaims⟩
      rcases (holds.mem_installed h _).mp hother with hnew | ⟨hold, hkept⟩
      · -- the other row is of the patch too
        obtain ⟨patched, hpatched, hnew⟩ := List.mem_flatMap.mp hnew
        obtain ⟨entry, hentry, rfl⟩ := List.mem_map.mp hnew
        have hmem : (patched, entry) ∈ patch.entries := mem_patch_entries.mpr ⟨hpatched, hentry⟩
        have hsame := htakes (patched, entry) hmem slot hclaims
        rw [htakes row hrow slot hslot, Option.some.injEq, Option.some.injEq] at hsame
        exact hsame
      · -- the other row was staged before, and does not give the value up
        have hheld := (hexact slot other.2.1).mpr ⟨other, hold, rfl, hclaims⟩
        have hkeeps : slot ∉ change.released := by
          rw [hgiven]
          rintro ⟨gone, hgone, hgoneSlot⟩
          obtain ⟨hgone, hcovers⟩ := (mem_replacedRows h).mp hgone
          rw [Claimed.place_eq h htrees hexact hgone hold hgoneSlot hclaims] at hcovers
          exact hkept hcovers
        refine (hfree row hrow slot hslot other.2.1 ?_).symm
        rw [holder, AList.lookup_empty, if_neg (by simpa using hkeeps)]
        exact hheld
  · have hnone : ∀ row ∈ patch.entries, slot ∉ claimsOf row :=
      fun row hrow hslot => hpatch ⟨row, hrow, hslot⟩
    rw [hothers slot hnone, AList.lookup_empty, Option.none_or, lookup_releaseClaims]
    simp only [List.mem_dedup]
    constructor
    · intro hheld
      split_ifs at hheld with hgone
      obtain ⟨row, hrow, hkey, hslot⟩ := (hexact slot key).mp hheld
      refine ⟨row, (holds.mem_installed h _).mpr (.inr ⟨hrow, fun hcovers => hgone ?_⟩), hkey, hslot⟩
      exact (hgiven slot).mpr ⟨row, (mem_replacedRows h).mpr ⟨hrow, hcovers⟩, hslot⟩
    · rintro ⟨row, hrow, hkey, hslot⟩
      rcases (holds.mem_installed h _).mp hrow with hnew | ⟨hold, hkept⟩
      · obtain ⟨patched, hpatched, hnew⟩ := List.mem_flatMap.mp hnew
        obtain ⟨entry, hentry, rfl⟩ := List.mem_map.mp hnew
        exact absurd hslot (hnone (patched, entry) (mem_patch_entries.mpr ⟨hpatched, hentry⟩))
      · have hkeeps : slot ∉ change.released := by
          rw [hgiven]
          rintro ⟨gone, hgone, hgoneSlot⟩
          obtain ⟨hgone, hcovers⟩ := (mem_replacedRows h).mp hgone
          rw [Claimed.place_eq h htrees hexact hgone hold hgoneSlot hslot] at hcovers
          exact hkept hcovers
        rw [if_neg hkeeps]
        exact (hexact slot key).mpr ⟨row, hold, hkey, hslot⟩

end Rows
end PagedTransaction
end TinyJoin
