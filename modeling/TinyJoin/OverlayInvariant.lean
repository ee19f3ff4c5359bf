import Mathlib.Data.List.Nodup
import TinyJoin.Overlay

/-! What holds of a table's staged rows however their keys arrive: each key is found where it is,
the walk presents every row once in key order, and the count of deletes is exact. -/
namespace TinyJoin

lemma KeyIndex.home_inBounds : Probing.InBounds KeyIndex.home := by
  intro bits key
  rw [KeyIndex.home, Nat.log2_two_pow, Nat.shiftRight_eq_div_pow]
  rw [Nat.div_lt_iff_lt_mul (Nat.two_pow_pos _), ← pow_add]
  have hlt : (KeyIndex.keyHash key).toNat < 2 ^ 64 := (KeyIndex.keyHash key).toNat_lt
  exact hlt.trans_le (Nat.pow_le_pow_right Nat.two_pos (by omega))

/-- Rows of distinct keys with the row at one place changed. -/
lemma mem_modify_keyed_iff {T : Type} {rows : List (List UInt8 × T)} {key : List UInt8} {value : T}
    {position : Nat} (hnodup : (rows.map Prod.fst).Nodup)
    (hrow : rows[position]? = some (key, value)) (change : T → T) (row : List UInt8 × T) :
    row ∈ rows.modify position (fun row => (row.1, change row.2)) ↔
      row = (key, change value) ∨ row.1 ≠ key ∧ row ∈ rows := by
  obtain ⟨hlt, hget⟩ := List.getElem?_eq_some_iff.mp hrow
  obtain ⟨before, after, hrows, rfl⟩ : ∃ before after, rows = before ++ (key, value) :: after ∧
      before.length = position := by
    refine ⟨rows.take position, rows.drop (position + 1), ?_, ?_⟩
    · rw [← hget, List.getElem_cons_drop, List.take_append_drop]
    · rw [List.length_take]
      omega
  rw [hrows, NameMap.modify_length_append]
  rw [hrows, List.map_append, List.map_cons] at hnodup
  have hbefore : ∀ row ∈ before, row.1 ≠ key := fun row hrow heq =>
    (List.nodup_append.mp hnodup).2.2 row.1 (List.mem_map.mpr ⟨row, hrow, rfl⟩) key
      List.mem_cons_self heq
  have hafter : ∀ row ∈ after, row.1 ≠ key := fun row hrow heq =>
    (List.nodup_cons.mp (List.nodup_append.mp hnodup).2.1).1 (List.mem_map.mpr ⟨row, hrow, heq⟩)
  simp only [List.mem_append, List.mem_cons]
  constructor
  · rintro (hrow | rfl | hrow)
    · exact .inr ⟨hbefore row hrow, .inl hrow⟩
    · exact .inl rfl
    · exact .inr ⟨hafter row hrow, .inr (.inr hrow)⟩
  · rintro (rfl | ⟨hne, hrow | rfl | hrow⟩)
    · exact .inr (.inl rfl)
    · exact .inl hrow
    · exact absurd rfl hne
    · exact .inr (.inr hrow)

lemma map_fst_modify {T : Type} (rows : List (List UInt8 × T)) (position : Nat) (change : T → T) :
    (rows.modify position (fun row => (row.1, change row.2))).map Prod.fst =
      rows.map Prod.fst := by
  apply List.ext_getElem?
  intro place
  rw [List.getElem?_map, List.getElem?_modify, List.getElem?_map]
  cases rows[place]? with
  | none => rfl
  | some row =>
    change some (if position = place then (row.1, change row.2) else row).1 = some row.1
    split_ifs <;> rfl

namespace TableOverlay
variable {overlay : TableOverlay} {key : List UInt8} {entry : OverlayEntry}

/-- The staged keys, in arrival order. -/
def keys (overlay : TableOverlay) : List (List UInt8) := overlay.rows.map Prod.fst

/-- The rows, the index and the order agree. -/
structure Coherent (overlay : TableOverlay) : Prop where
  nodup : overlay.keys.Nodup
  fits : Probing.Fits KeyIndex.home overlay.slots overlay.keys
  ordered : LazyOrder.Ordered overlay.keyOf overlay.rows.length overlay.order overlay.sorted

lemma coherent_empty : empty.Coherent where
  nodup := List.nodup_nil
  fits := .inl ⟨rfl, rfl⟩
  ordered := LazyOrder.ordered_nil _

lemma keys_getElem? (position : Nat) :
    overlay.keys[position]? = (overlay.rows[position]?).map Prod.fst := List.getElem?_map

lemma keyOf_eq {position : Nat} (hkey : overlay.keys[position]? = some key) :
    overlay.keyOf position = key := by
  rw [keyOf, ← keys_getElem?, hkey]
  rfl

lemma Coherent.keyOf_inj (h : overlay.Coherent) :
    ∀ a < overlay.rows.length, ∀ b < overlay.rows.length,
      overlay.keyOf a = overlay.keyOf b → a = b := by
  intro a ha b hb heq
  have hlength : overlay.keys.length = overlay.rows.length := List.length_map _
  have ha' : a < overlay.keys.length := hlength ▸ ha
  have hb' : b < overlay.keys.length := hlength ▸ hb
  rw [keyOf_eq (List.getElem?_eq_getElem ha'), keyOf_eq (List.getElem?_eq_getElem hb')] at heq
  exact (h.nodup.getElem_inj_iff).mp heq

/-- The entry staged for a key is the one its row holds. -/
lemma Coherent.get_eq_some_iff (h : overlay.Coherent) :
    overlay.get key = some entry ↔ (key, entry) ∈ overlay.rows := by
  have hfind : ∀ position, overlay.find key = .ok position ↔ overlay.keys[position]? = some key :=
    fun position => h.fits.find_eq_ok_iff KeyIndex.home_inBounds h.nodup
  rw [get]
  constructor
  · cases hfound : overlay.find key with
    | error slot => exact fun hnone => (nomatch hnone)
    | ok position =>
      have hkey := (hfind position).mp hfound
      rw [keys_getElem?, Option.map_eq_some_iff] at hkey
      obtain ⟨row, hrow, hkey⟩ := hkey
      rw [entryAt, hrow]
      rintro ⟨⟩
      rw [← hkey]
      exact List.mem_of_getElem? hrow
  · intro hmem
    obtain ⟨position, hrow⟩ := List.mem_iff_getElem?.mp hmem
    have hkey : overlay.keys[position]? = some key := by rw [keys_getElem?, hrow]; rfl
    rw [(hfind position).mpr hkey, entryAt, hrow]
    rfl

lemma Coherent.get_eq_none_iff (h : overlay.Coherent) :
    overlay.get key = none ↔ key ∉ overlay.keys := by
  rw [← not_iff_not, not_not, ← Ne, Option.ne_none_iff_exists']
  constructor
  · rintro ⟨entry, hentry⟩
    exact List.mem_map.mpr ⟨_, h.get_eq_some_iff.mp hentry, rfl⟩
  · intro hmem
    obtain ⟨row, hrow, rfl⟩ := List.mem_map.mp hmem
    exact ⟨row.2, h.get_eq_some_iff.mpr hrow⟩

/-- The rows with a key's entry put in place of what the key held. -/
def Installed (rows rows' : List (List UInt8 × OverlayEntry)) (key : List UInt8)
    (entry : OverlayEntry) : Prop :=
  ∀ row, row ∈ rows' ↔ row = (key, entry) ∨ row.1 ≠ key ∧ row ∈ rows

/-- Where a key's row stands among the rows. -/
lemma Coherent.getElem?_of_find (h : overlay.Coherent) {position : Nat}
    (hfound : overlay.find key = .ok position) : ∃ old, overlay.rows[position]? = some (key, old) := by
  have hkey := (h.fits.find_eq_ok_iff KeyIndex.home_inBounds h.nodup).mp hfound
  change overlay.keys[position]? = some key at hkey
  rw [keys_getElem?, Option.map_eq_some_iff] at hkey
  obtain ⟨row, hrow, rfl⟩ := hkey
  exact ⟨row.2, hrow⟩

lemma Coherent.installEntry (h : overlay.Coherent) {found : Option Probing.Probe}
    (hfound : ∀ probe ∈ found, probe = overlay.find key) :
    (overlay.installEntry found key entry).Coherent ∧
      Installed overlay.rows (overlay.installEntry found key entry).rows key entry := by
  have hprobe : found.getD (overlay.find key) = overlay.find key := by
    cases found with
    | none => rfl
    | some probe => exact hfound probe rfl
  rw [TableOverlay.installEntry, hprobe]
  cases hfind : overlay.find key with
  | ok position =>
    obtain ⟨old, hrow⟩ := h.getElem?_of_find hfind
    have hkeys := map_fst_modify overlay.rows position (fun _ => entry)
    refine ⟨⟨?_, ?_, ?_⟩, fun row => mem_modify_keyed_iff h.nodup hrow (fun _ => entry) row⟩
    · rw [keys, hkeys]
      exact h.nodup
    · rw [keys, hkeys]
      exact h.fits
    · rw [List.length_modify]
      refine h.ordered.congr (fun p _ => ?_)
      rw [keyOf, keyOf, ← List.getElem?_map, ← List.getElem?_map, hkeys]
  | error slot =>
    have hmissing : key ∉ overlay.keys := by
      rw [← h.get_eq_none_iff, get, hfind]
      rfl
    have hkeys : (overlay.rows ++ [(key, entry)]).map Prod.fst = overlay.keys ++ [key] := by
      rw [List.map_append]
      rfl
    have hkeysLength : overlay.keys.length = overlay.rows.length := List.length_map _
    refine ⟨⟨?_, ?_, ?_⟩, ?_⟩
    · rw [keys, hkeys, List.nodup_append]
      exact ⟨h.nodup, List.nodup_singleton key, fun a ha b hb heq =>
        hmissing (List.mem_singleton.mp hb ▸ heq ▸ ha)⟩
    · simp only [keys, hkeys, ← hkeysLength]
      exact h.fits.insert KeyIndex.home_inBounds hfind hmissing
    · have hsame : ∀ p < overlay.rows.length,
          (((overlay.rows ++ [(key, entry)])[p]?).map Prod.fst).getD [] = overlay.keyOf p := by
        intro p hp
        rw [List.getElem?_append_left hp, keyOf]
      have hlast : (((overlay.rows ++ [(key, entry)])[overlay.rows.length]?).map Prod.fst).getD []
          = key := by
        rw [List.getElem?_concat_length]
        rfl
      have hpush := h.ordered.push hsame
      rw [hlast] at hpush
      have hlength : (overlay.rows ++ [(key, entry)]).length = overlay.rows.length + 1 := by simp
      simp only [hlength]
      exact hpush
    · intro row
      simp only [List.mem_append, List.mem_singleton]
      constructor
      · rintro (hrow | rfl)
        · refine .inr ⟨fun heq => hmissing ?_, hrow⟩
          exact List.mem_map.mpr ⟨row, hrow, heq⟩
        · exact .inl rfl
      · rintro (rfl | ⟨-, hrow⟩)
        · exact .inr rfl
        · exact .inl hrow

/-- The entries a list of installs leaves, the later of two for one key. -/
lemma Coherent.installEntries (h : overlay.Coherent) {found : Option Probing.Probe}
    {entries : List (List UInt8 × OverlayEntry)} (hnodup : (entries.map Prod.fst).Nodup)
    (hfound : ∀ probe ∈ found, ∀ row ∈ entries.head?, probe = overlay.find row.1) :
    (overlay.installEntries found entries).Coherent ∧
      ∀ row, row ∈ (overlay.installEntries found entries).rows ↔
        row ∈ entries ∨ row.1 ∉ entries.map Prod.fst ∧ row ∈ overlay.rows := by
  induction entries generalizing overlay found with
  | nil => exact ⟨h, fun row => by simp [TableOverlay.installEntries]⟩
  | cons first entries ih =>
    rw [List.map_cons, List.nodup_cons] at hnodup
    obtain ⟨hfirst, hinstalled⟩ := @Coherent.installEntry _ _ first.2 h found
      (fun probe hprobe => hfound probe hprobe first rfl)
    have hnone : ∀ probe ∈ (none : Option Probing.Probe), ∀ row ∈ entries.head?,
        probe = (overlay.installEntry found first.1 first.2).find row.1 :=
      fun probe hprobe => (nomatch hprobe)
    obtain ⟨hrest, hrows⟩ := ih hfirst hnodup.2 hnone
    refine ⟨hrest, fun row => ?_⟩
    rw [TableOverlay.installEntries, hrows row, hinstalled row]
    simp only [List.mem_cons, List.map_cons, not_or]
    constructor
    · rintro (hrow | ⟨hout, rfl | ⟨hne, hrow⟩⟩)
      · exact .inl (.inr hrow)
      · exact .inl (.inl rfl)
      · exact .inr ⟨⟨hne, hout⟩, hrow⟩
    · rintro ((rfl | hrow) | ⟨⟨hne, hout⟩, hrow⟩)
      · exact .inr ⟨hnodup.1, .inl rfl⟩
      · exact .inl hrow
      · exact .inr ⟨hout, .inr ⟨hne, hrow⟩⟩

lemma coherent_deletes (deletes : Nat) (h : overlay.Coherent) :
    { overlay with deletes }.Coherent := ⟨h.nodup, h.fits, h.ordered⟩

lemma Coherent.install (h : overlay.Coherent) {found : Option Probing.Probe}
    {entries : List (List UInt8 × OverlayEntry)} {deletes : Int}
    (hnodup : (entries.map Prod.fst).Nodup)
    (hfound : ∀ probe ∈ found, ∀ row ∈ entries.head?, probe = overlay.find row.1) :
    (overlay.install entries deletes found).Coherent ∧
      ∀ row, row ∈ (overlay.install entries deletes found).rows ↔
        row ∈ entries ∨ row.1 ∉ entries.map Prod.fst ∧ row ∈ overlay.rows :=
  (coherent_deletes _ h).installEntries hnodup hfound

/-- An entry once installed is the one its key is found with, and no other key's changes. -/
lemma Coherent.get_install (h : overlay.Coherent) {found : Option Probing.Probe}
    {entries : List (List UInt8 × OverlayEntry)} {deletes : Int}
    (hnodup : (entries.map Prod.fst).Nodup)
    (hfound : ∀ probe ∈ found, ∀ row ∈ entries.head?, probe = overlay.find row.1) :
    (overlay.install entries deletes found).get key =
      ((entries.find? (fun row => row.1 == key)).map Prod.snd).or (overlay.get key) := by
  obtain ⟨hcoherent, hrows⟩ := @Coherent.install _ h _ _ deletes hnodup hfound
  apply Option.ext
  intro entry
  rw [hcoherent.get_eq_some_iff, hrows]
  cases hfind : entries.find? (fun row => row.1 == key) with
  | none =>
    have hout : key ∉ entries.map Prod.fst := by
      intro hmem
      obtain ⟨row, hrow, rfl⟩ := List.mem_map.mp hmem
      have := List.find?_eq_none.mp hfind row hrow
      simp at this
    rw [Option.map_none, Option.none_or, h.get_eq_some_iff]
    constructor
    · rintro (hrow | ⟨-, hrow⟩)
      · exact absurd (List.mem_map.mpr ⟨_, hrow, rfl⟩) hout
      · exact hrow
    · exact fun hrow => .inr ⟨hout, hrow⟩
  | some row =>
    have hrow : row ∈ entries := List.mem_of_find?_eq_some hfind
    have hkey : row.1 = key := by simpa using List.find?_some hfind
    rw [Option.map_some, Option.some_or, Option.some.injEq]
    constructor
    · rintro (hentry | ⟨hout, -⟩)
      · have := List.inj_on_of_nodup_map hnodup hrow hentry hkey
        rw [this]
      · exact absurd (List.mem_map.mpr ⟨row, hrow, hkey⟩) hout
    · rintro rfl
      left
      rw [← hkey]
      exact hrow

lemma merged_rows : overlay.merged.rows = overlay.rows := by
  rw [merged]
  split_ifs <;> rfl

lemma merged_deletes : overlay.merged.deletes = overlay.deletes := by
  rw [merged]
  split_ifs <;> rfl

lemma Coherent.merged (h : overlay.Coherent) :
    overlay.merged.Coherent ∧ overlay.merged.sorted = overlay.rows.length := by
  rw [TableOverlay.merged]
  split_ifs with hlt
  · exact ⟨⟨h.nodup, h.fits, h.ordered.mergeTail h.keyOf_inj⟩, rfl⟩
  · have := h.ordered.bound
    exact ⟨h, by omega⟩

/-- A walk presents each staged row once, in key order. -/
lemma Coherent.ordered_spec (h : overlay.Coherent) :
    overlay.ordered.Perm overlay.rows ∧
      overlay.ordered.Pairwise (fun a b => a.1 < b.1) := by
  obtain ⟨hmerged, hsorted⟩ := h.merged
  have hperm := hmerged.ordered.perm
  rw [merged_rows] at hperm
  constructor
  · rw [TableOverlay.ordered]
    exact LazyOrder.filterMap_getElem?_perm hperm
  · have hpair := hmerged.ordered.head
    rw [hsorted, List.take_of_length_le (by rw [hperm.length_eq, List.length_range])] at hpair
    rw [TableOverlay.ordered, List.pairwise_filterMap]
    refine hpair.imp ?_
    intro a b hlt row hrow row' hrow'
    rw [keyOf, keyOf, merged_rows, hrow, hrow'] at hlt
    exact hlt

/-- How many entries of a kind an install leaves: it adds its own and drops those they replace. -/
lemma Coherent.countP_install (h : overlay.Coherent) {found : Option Probing.Probe}
    {entries : List (List UInt8 × OverlayEntry)} {deletes : Int}
    (hnodup : (entries.map Prod.fst).Nodup)
    (hfound : ∀ probe ∈ found, ∀ row ∈ entries.head?, probe = overlay.find row.1)
    (p : OverlayEntry → Bool) :
    (overlay.install entries deletes found).rows.countP (fun row => p row.2) +
        (entries.filterMap (fun row => overlay.get row.1)).countP p =
      overlay.rows.countP (fun row => p row.2) + entries.countP (fun row => p row.2) := by
  obtain ⟨hcoherent, hrows⟩ := @Coherent.install _ h _ _ deletes hnodup hfound
  set staged := fun row : List UInt8 × OverlayEntry => decide (row.1 ∈ entries.map Prod.fst)
    with hstaged
  -- What the install leaves is its entries and the rows of other keys.
  have hleft : (overlay.install entries deletes found).rows.Perm
      (entries ++ overlay.rows.filter (fun row => !staged row)) := by
    refine (List.perm_ext_iff_of_nodup hcoherent.nodup.of_map ?_).mpr ?_
    · refine List.nodup_append.mpr ⟨hnodup.of_map, h.nodup.of_map.filter _, ?_⟩
      rintro a ha b hb rfl
      have hnot := (List.mem_filter.mp hb).2
      simp only [hstaged, Bool.not_eq_true', decide_eq_false_iff_not] at hnot
      exact hnot (List.mem_map.mpr ⟨a, ha, rfl⟩)
    · intro row
      rw [hrows row, List.mem_append, List.mem_filter]
      simp only [hstaged, Bool.not_eq_true', decide_eq_false_iff_not]
      exact or_congr_right and_comm
  -- The rows of its keys are those it replaces.
  have hout : (overlay.rows.filter staged).Perm (entries.filterMap (fun row =>
      (overlay.get row.1).map (Prod.mk row.1))) := by
    refine (List.perm_ext_iff_of_nodup (h.nodup.of_map.filter _) ?_).mpr ?_
    · refine List.pairwise_filterMap.mpr ((List.pairwise_map.mp hnodup).imp ?_)
      rintro a b hne row hrow row' hrow' rfl
      obtain ⟨old, -, rfl⟩ := Option.map_eq_some_iff.mp hrow
      obtain ⟨old', -, heq⟩ := Option.map_eq_some_iff.mp hrow'
      exact hne (Prod.mk.inj heq).1.symm
    · intro row
      rw [List.mem_filter, List.mem_filterMap]
      simp only [hstaged, decide_eq_true_eq, Option.map_eq_some_iff]
      constructor
      · rintro ⟨hrow, hkey⟩
        obtain ⟨new, hnew, heq⟩ := List.mem_map.mp hkey
        exact ⟨new, hnew, row.2, h.get_eq_some_iff.mpr (by rw [heq]; exact hrow), by rw [heq]⟩
      · rintro ⟨new, hnew, old, hold, rfl⟩
        exact ⟨h.get_eq_some_iff.mp hold, List.mem_map.mpr ⟨new, hnew, rfl⟩⟩
  have hcount := (List.filter_append_perm staged overlay.rows).countP_eq (fun row => p row.2)
  rw [List.countP_append, hout.countP_eq] at hcount
  rw [hleft.countP_eq, List.countP_append, ← hcount]
  have hsame : (entries.filterMap (fun row => overlay.get row.1)).countP p =
      (entries.filterMap (fun row => (overlay.get row.1).map (Prod.mk row.1))).countP
        (fun row => p row.2) := by
    have hsnd : entries.filterMap (fun row => overlay.get row.1) =
        (entries.filterMap (fun row => (overlay.get row.1).map (Prod.mk row.1))).map Prod.snd := by
      rw [List.map_filterMap]
      congr 1
      funext row
      rw [Option.map_map]
      exact (Option.map_id' ..).symm
    rw [hsnd, List.countP_map]
    rfl
  omega

/-- The staged deletes are counted exactly. -/
def CountsDeletes (overlay : TableOverlay) : Prop :=
  overlay.deletes = overlay.rows.countP (fun row => row.2.row.next.isNone)

lemma installEntries_deletes (found : Option Probing.Probe)
    (entries : List (List UInt8 × OverlayEntry)) :
    (overlay.installEntries found entries).deletes = overlay.deletes := by
  induction entries generalizing overlay found with
  | nil => rfl
  | cons first entries ih =>
    rw [installEntries, ih, installEntry]
    split <;> rfl

/-- Deletes counted by what an install adds and what it replaces stay exact, and never fall short. -/
lemma CountsDeletes.install (hcounts : overlay.CountsDeletes) (h : overlay.Coherent)
    {found : Option Probing.Probe} {entries : List (List UInt8 × OverlayEntry)}
    (hnodup : (entries.map Prod.fst).Nodup)
    (hfound : ∀ probe ∈ found, ∀ row ∈ entries.head?, probe = overlay.find row.1) {deletes : Int}
    (hdeletes : deletes = entries.countP (fun row => row.2.row.next.isNone) -
      (entries.filterMap (fun row => overlay.get row.1)).countP
        (fun entry => entry.row.next.isNone)) :
    0 ≤ overlay.deletes + deletes ∧ (overlay.install entries deletes found).CountsDeletes := by
  have hcount := @Coherent.countP_install _ h _ _ deletes hnodup hfound
    (fun entry => entry.row.next.isNone)
  rw [CountsDeletes] at hcounts ⊢
  have hkept : (overlay.install entries deletes found).deletes =
      ((overlay.deletes : Int) + deletes).toNat := installEntries_deletes _ _
  rw [hkept]
  omega
end TableOverlay

namespace KeyedRows
variable {T : Type} {keyed : KeyedRows T} {key : List UInt8}

/-- The keys planned for, in arrival order. -/
def keys (keyed : KeyedRows T) : List (List UInt8) := keyed.rows.map Prod.fst

/-- Each key once: in ascending order while none arrived below the last, all of them kept after. -/
structure Valid (keyed : KeyedRows T) : Prop where
  nodup : keyed.keys.Nodup
  ascending : keyed.seen = none → keyed.keys.Pairwise (· < ·)
  kept : ∀ seen, keyed.seen = some seen → ∀ key, key ∈ seen ↔ key ∈ keyed.keys

lemma valid_empty : (empty : KeyedRows T).Valid where
  nodup := List.nodup_nil
  ascending _ := List.Pairwise.nil
  kept _ hseen := (nomatch hseen)

lemma observe_rows : (keyed.observe key).rows = keyed.rows := by
  rw [observe]
  split
  · split_ifs <;> rfl
  · rfl

lemma Valid.observe (h : keyed.Valid) : (keyed.observe key).Valid := by
  rw [KeyedRows.observe]
  split
  · split_ifs
    · refine ⟨h.nodup, fun hseen => (nomatch hseen), ?_⟩
      rintro seen ⟨⟩ key
      rfl
    · exact h
  · exact h

/-- While no key has been kept, the observed key is not below the last. -/
lemma observe_not_lt (hseen : (keyed.observe key).seen = none) :
    ∀ last ∈ keyed.rows.getLast?, ¬ key < last.1 := by
  intro last hlast hlt
  have hlast' : keyed.rows.getLast? = some last := hlast
  cases hkept : keyed.seen with
  | none => simp [observe, hkept, hlast', hlt] at hseen
  | some seen => simp [observe, hkept] at hseen

lemma mem_keys_iff : key ∈ keyed.keys ↔ ∃ row, (key, row) ∈ keyed.rows := by
  rw [keys, List.mem_map]
  constructor
  · rintro ⟨row, hrow, rfl⟩
    exact ⟨row.2, hrow⟩
  · rintro ⟨row, hrow⟩
    exact ⟨_, hrow, rfl⟩

/-- Keys in ascending order are at or below one that the last is not above, and only the last can
equal it. -/
lemma le_of_mem_keys (hpair : keyed.keys.Pairwise (· < ·))
    (hlast : ∀ last ∈ keyed.rows.getLast?, ¬ key < last.1) :
    ∀ a ∈ keyed.keys, a < key ∨ (keyed.rows.getLast?).map Prod.fst = some key := by
  intro a ha
  have hne : keyed.keys ≠ [] := List.ne_nil_of_mem ha
  have hget : (keyed.rows.getLast?).map Prod.fst = some (keyed.keys.getLast hne) := by
    rw [← List.getLast?_map]
    exact List.getLast?_eq_some_getLast hne
  have hle : keyed.keys.getLast hne ≤ key := by
    obtain ⟨last, hrow, heq⟩ := Option.map_eq_some_iff.mp hget
    rw [← heq]
    exact not_lt.mp (hlast last hrow)
  rw [hget, Option.some.injEq]
  rcases hle.lt_or_eq with hlt | heq
  · left
    rw [← List.dropLast_append_getLast hne] at ha hpair
    rcases List.mem_append.mp ha with ha | ha
    · exact ((List.pairwise_append.mp hpair).2.2 a ha _ (List.mem_singleton_self _)).trans hlt
    · rwa [List.mem_singleton.mp ha]
  · exact .inr heq

lemma getMut_eq_some {slot : Nat}
    (hget : (keyed.observe key).getMut key = some slot) :
    ∃ row, keyed.rows[slot]? = some (key, row) := by
  rw [getMut, observe_rows] at hget
  cases hseen : (keyed.observe key).seen with
  | none =>
    rw [hseen] at hget
    simp only [Option.ite_none_right_eq_some, Option.some.injEq] at hget
    obtain ⟨hlast, rfl⟩ := hget
    rw [Option.map_eq_some_iff] at hlast
    obtain ⟨row, hrow, rfl⟩ := hlast
    rw [List.getLast?_eq_getElem?] at hrow
    exact ⟨row.2, hrow⟩
  | some seen =>
    rw [hseen] at hget
    simp only [Option.ite_none_right_eq_some] at hget
    obtain ⟨-, hfind⟩ := hget
    rw [List.findIdx?_eq_some_iff_getElem] at hfind
    obtain ⟨hlt, heq, -⟩ := hfind
    refine ⟨keyed.rows[slot].2, ?_⟩
    rw [List.getElem?_eq_getElem hlt, ← beq_iff_eq.mp heq]

lemma Valid.getMut_eq_none (h : keyed.Valid) (hget : (keyed.observe key).getMut key = none) :
    key ∉ keyed.keys := by
  have hkeys : (keyed.observe key).keys = keyed.keys := by rw [keys, observe_rows, keys]
  rw [getMut, observe_rows] at hget
  cases hseen : (keyed.observe key).seen with
  | none =>
    rw [hseen] at hget
    simp only [ite_eq_right_iff, reduceCtorEq, imp_false] at hget
    have hpair := h.observe.ascending hseen
    rw [hkeys] at hpair
    intro hmem
    rcases le_of_mem_keys hpair (observe_not_lt hseen) key hmem with hlt | hlast
    · exact lt_irrefl _ hlt
    · exact hget hlast
  | some seen =>
    rw [hseen] at hget
    intro hmem
    have hkept : seen.contains key = true := by
      rw [List.contains_iff_mem, h.observe.kept seen hseen, hkeys]
      exact hmem
    simp only [hkept, if_true, List.findIdx?_eq_none_iff] at hget
    obtain ⟨row, hrow⟩ := mem_keys_iff.mp hmem
    simpa using hget _ hrow

lemma Valid.modify (h : keyed.Valid) (slot : Nat) (change : T → T) :
    (keyed.modify slot change).Valid := by
  have hkeys : (keyed.modify slot change).keys = keyed.keys := map_fst_modify keyed.rows slot change
  exact ⟨hkeys ▸ h.nodup, fun hseen => hkeys ▸ h.ascending hseen,
    fun seen hseen key => hkeys ▸ h.kept seen hseen key⟩

lemma insert_keys (row : T) : (keyed.insert key row).keys = keyed.keys ++ [key] := by
  rw [keys, KeyedRows.insert, List.map_append]
  rfl

lemma Valid.insert (h : keyed.Valid) (hmissing : key ∉ keyed.keys) (row : T) :
    ((keyed.observe key).insert key row).Valid := by
  have hkeys : (keyed.observe key).keys = keyed.keys := by rw [keys, observe_rows, keys]
  refine ⟨?_, ?_, ?_⟩
  · rw [insert_keys, hkeys, List.nodup_append]
    refine ⟨h.nodup, List.nodup_singleton key, fun a ha b hb heq => hmissing ?_⟩
    rwa [← List.mem_singleton.mp hb, ← heq]
  · intro hseen
    rw [KeyedRows.insert, Option.map_eq_none_iff] at hseen
    have hpair := h.observe.ascending hseen
    rw [hkeys] at hpair
    rw [insert_keys, hkeys, List.pairwise_append]
    refine ⟨hpair, List.pairwise_singleton _ _, ?_⟩
    intro a ha b hb
    rw [List.mem_singleton.mp hb]
    rcases le_of_mem_keys hpair (observe_not_lt hseen) a ha with hlt | hlast
    · exact hlt
    · obtain ⟨row, hrow, rfl⟩ := Option.map_eq_some_iff.mp hlast
      exact absurd (mem_keys_iff.mpr ⟨row.2, List.mem_of_getLast? hrow⟩) hmissing
  · intro seen hseen other
    rw [KeyedRows.insert, Option.map_eq_some_iff] at hseen
    obtain ⟨before, hbefore, rfl⟩ := hseen
    rw [insert_keys, hkeys, List.mem_insert_iff, h.observe.kept before hbefore, hkeys,
      List.mem_append, List.mem_singleton]
    exact or_comm

/-- The rows once one was inserted for a key that had none. -/
lemma mem_insert_iff (hmissing : key ∉ keyed.keys) (row : T) (other : List UInt8 × T) :
    other ∈ ((keyed.observe key).insert key row).rows ↔
      other = (key, row) ∨ other.1 ≠ key ∧ other ∈ keyed.rows := by
  rw [KeyedRows.insert, observe_rows, List.mem_append, List.mem_singleton]
  constructor
  · rintro (hmem | rfl)
    · exact .inr ⟨fun heq => hmissing (mem_keys_iff.mpr ⟨other.2, heq ▸ hmem⟩), hmem⟩
    · exact .inl rfl
  · rintro (rfl | ⟨-, hmem⟩)
    · exact .inr rfl
    · exact .inl hmem

/-- The planned rows come out once each, in key order. -/
lemma Valid.intoSorted_spec (h : keyed.Valid) :
    keyed.intoSorted.Perm keyed.rows ∧ (keyed.intoSorted.map Prod.fst).Pairwise (· < ·) := by
  rw [intoSorted]
  cases hseen : keyed.seen with
  | none => exact ⟨List.Perm.refl _, h.ascending hseen⟩
  | some seen =>
    have hinj : ∀ a ∈ List.range keyed.rows.length, ∀ b ∈ List.range keyed.rows.length,
        ((keyed.rows[a]?).map Prod.fst).getD [] = ((keyed.rows[b]?).map Prod.fst).getD [] →
          a = b := by
      intro a ha b hb heq
      rw [List.mem_range] at ha hb
      rw [List.getElem?_eq_getElem ha, List.getElem?_eq_getElem hb] at heq
      have hlength : keyed.keys.length = keyed.rows.length := List.length_map _
      have ha' : a < keyed.keys.length := hlength ▸ ha
      have hb' : b < keyed.keys.length := hlength ▸ hb
      apply (@List.Nodup.getElem_inj_iff _ _ h.nodup _ ha' _ hb').mp
      simpa [keys] using heq
    have hsorted := LazyOrder.sortKeyed_pairwise List.nodup_range hinj
    refine ⟨LazyOrder.filterMap_getElem?_perm (LazyOrder.sortKeyed_perm _ _), ?_⟩
    rw [List.pairwise_map, List.pairwise_filterMap]
    refine hsorted.imp ?_
    intro a b hlt row hrow row' hrow'
    rw [hrow, hrow'] at hlt
    exact hlt
end KeyedRows
end TinyJoin
