import Mathlib.Data.Prod.Lex
import TinyJoin.OverlayInvariant
import TinyJoin.ScriptChanges

/-! A statement's changes as an ordered map: whatever the order its keys arrive in, each is held once, is
found from its first row on, and comes out in key order. -/
namespace TinyJoin
open Bytes

lemma mapM_congr_of_mem {α β : Type} {f g : α → Option β} {l : List α} (h : ∀ a ∈ l, f a = g a) :
    l.mapM f = l.mapM g := by
  induction l with
  | nil => rfl
  | cons a l ih =>
    rw [List.mapM_cons, List.mapM_cons, h a List.mem_cons_self,
      ih fun b hb => h b (List.mem_cons_of_mem a hb)]

lemma mapM_eq_filterMap {α β : Type} {f : α → Option β} {l : List α} (h : ∀ a ∈ l, (f a).isSome) :
    l.mapM f = some (l.filterMap f) := by
  induction l with
  | nil => rfl
  | cons a l ih =>
    obtain ⟨b, hb⟩ := Option.isSome_iff_exists.mp (h a List.mem_cons_self)
    rw [List.mapM_cons, ih fun b hb => h b (List.mem_cons_of_mem a hb), hb,
      List.filterMap_cons_some hb]
    rfl

namespace KeyedRows
variable {T : Type}

/-- Sorts keys, each beside a position, by key; the positions are not reached where the keys differ. -/
def sortKeyed (keyed : List (List UInt8 × Nat)) : List (List UInt8 × Nat) :=
  keyed.mergeSort (fun a b => toLex a ≤ toLex b)

/-- Each row's key beside its position, which has 32 bits, in key order. -/
def order (keyed : KeyedRows T) : List (List UInt8 × Nat) :=
  let order := keyed.rows.zipIdx.map (fun placed => (placed.1.1, placed.2 % 2 ^ 32))
  if keyed.seen.isSome then sortKeyed order else order

/-- Takes the rows at the positions, one after another. There is none to take of a row that was taken
before, or outside the rows. -/
def takeAll {α : Type} : List Nat → List (Option α) → Option (List α)
  | [], _ => some []
  | position :: positions, rows => do
    let row ← (rows[position]?).join
    let taken ← takeAll positions (rows.set position none)
    some (row :: taken)

/-- The rows in key order, moved out by position. -/
def takeSorted (keyed : KeyedRows T) : Option (List (List UInt8 × T)) :=
  if keyed.seen.isNone then some keyed.rows
  else takeAll (keyed.order.map Prod.snd) (keyed.rows.map some)

/-- The changed rows in key order. -/
def changes (keyed : KeyedRows PlannedChange) : Option (List (List UInt8 × ChangedRow)) :=
  keyed.order.mapM (fun placed =>
    (keyed.rows[placed.2]?).map (fun row => (placed.1, row.2.row)))

/-- A key that arrives: how a row it has is changed, and the row it gets where it has none. -/
structure Arrival (T : Type) where
  key : List UInt8
  change : T → T
  first : Option T

/-- What an arrival does, which looks for its key before anything is inserted. -/
def arrive (keyed : KeyedRows T) (arrival : Arrival T) : KeyedRows T :=
  let observed := keyed.observe arrival.key
  match observed.getMut arrival.key, arrival.first with
  | some position, _ => observed.modify position arrival.change
  | none, some row => observed.insert arrival.key row
  | none, none => observed

def run (arrivals : List (Arrival T)) : KeyedRows T := arrivals.foldl arrive empty

/-- The row that a lookup of `key` finds. -/
def found (keyed : KeyedRows T) (key : List UInt8) : Option T :=
  ((keyed.observe key).getMut key).bind (fun position => (keyed.rows[position]?).map Prod.snd)

/-! ## The map -/

/-- The row that a key has after an arrival. -/
def Arrival.after (arrival : Arrival T) (row : Option T) : Option T :=
  match row with
  | some row => some (arrival.change row)
  | none => arrival.first

/-- The row a key has in the map that the arrivals make. -/
def held (arrivals : List (Arrival T)) (key : List UInt8) : Option T :=
  (arrivals.filter (fun arrival => arrival.key = key)).foldl (fun row arrival => arrival.after row) none

/-- Whether a row of `key` was inserted. -/
def Inserted (arrivals : List (Arrival T)) (key : List UInt8) : Prop :=
  ∃ arrival ∈ arrivals, arrival.key = key ∧ arrival.first.isSome

variable {keyed : KeyedRows T} {key : List UInt8} {arrivals : List (Arrival T)} {arrival : Arrival T}

@[simp] lemma run_nil : run ([] : List (Arrival T)) = empty := rfl

lemma run_concat : run (arrivals ++ [arrival]) = (run arrivals).arrive arrival := by
  rw [run, run, List.foldl_append]
  rfl

@[simp] lemma held_nil : held ([] : List (Arrival T)) key = none := rfl

lemma held_concat : held (arrivals ++ [arrival]) key =
    if arrival.key = key then arrival.after (held arrivals key) else held arrivals key := by
  rw [held, held, List.filter_append, List.foldl_append]
  by_cases h : arrival.key = key
  · rw [if_pos h, List.filter_singleton, decide_eq_true h]
    rfl
  · rw [if_neg h, List.filter_singleton, decide_eq_false h]
    rfl

/-- A key has a row from the first that was inserted for it on. -/
lemma isSome_held_iff : (held arrivals key).isSome ↔ Inserted arrivals key := by
  induction arrivals using List.reverseRecOn with
  | nil => simp [Inserted]
  | append_singleton arrivals arrival ih =>
    have hlast : Inserted (arrivals ++ [arrival]) key ↔
        Inserted arrivals key ∨ arrival.key = key ∧ arrival.first.isSome := by
      simp [Inserted, or_and_right, exists_or]
    rw [hlast, ← ih, held_concat]
    by_cases h : arrival.key = key
    · rw [if_pos h]
      cases held arrivals key with
      | none => simp [Arrival.after, h]
      | some row => simp [Arrival.after]
    · simp [h]

/-- What the rows hold of a map from keys to rows. -/
structure Holds (map : List UInt8 → Option T) (keyed : KeyedRows T) : Prop where
  valid : keyed.Valid
  rows : ∀ key row, (key, row) ∈ keyed.rows ↔ map key = some row

lemma Holds.mem_keys_iff {map : List UInt8 → Option T} (h : Holds map keyed) :
    key ∈ keyed.keys ↔ (map key).isSome := by
  rw [KeyedRows.mem_keys_iff, Option.isSome_iff_exists]
  exact exists_congr fun row => h.rows key row

/-- A lookup finds a key's row. -/
lemma Holds.found_eq {map : List UInt8 → Option T} (h : Holds map keyed) :
    keyed.found key = map key := by
  cases hget : (keyed.observe key).getMut key with
  | none =>
    rw [found, hget]
    have hmissing := h.valid.getMut_eq_none hget
    rw [h.mem_keys_iff, Option.not_isSome_iff_eq_none] at hmissing
    exact hmissing.symm
  | some position =>
    obtain ⟨row, hrow⟩ := getMut_eq_some hget
    rw [found, hget, Option.bind_some, hrow]
    exact ((h.rows key row).mp (List.mem_of_getElem? hrow)).symm

/-- An arrival does to the map what it does to the rows. -/
lemma Holds.arrive {map : List UInt8 → Option T} (h : Holds map keyed) (arrival : Arrival T) :
    Holds (fun key => if arrival.key = key then arrival.after (map key) else map key)
      (keyed.arrive arrival) := by
  cases hget : (keyed.observe arrival.key).getMut arrival.key with
  | some position =>
    obtain ⟨row, hrow⟩ := getMut_eq_some hget
    have hmap := (h.rows _ row).mp (List.mem_of_getElem? hrow)
    rw [KeyedRows.arrive]
    simp only [hget]
    refine ⟨h.valid.observe.modify _ _, fun key other => ?_⟩
    rw [modify, observe_rows, mem_modify_keyed_iff h.valid.nodup hrow]
    by_cases hkey : arrival.key = key
    · subst hkey
      simp [hmap, Arrival.after, eq_comm]
    · simp [hkey, Ne.symm hkey, h.rows]
  | none =>
    have hmissing := h.valid.getMut_eq_none hget
    have hmap : map arrival.key = none := by
      rwa [h.mem_keys_iff, Option.not_isSome_iff_eq_none] at hmissing
    rw [KeyedRows.arrive]
    cases hfirst : arrival.first with
    | some row =>
      simp only [hget]
      refine ⟨h.valid.insert hmissing row, fun key other => ?_⟩
      rw [mem_insert_iff hmissing]
      by_cases hkey : arrival.key = key
      · subst hkey
        simp [hmap, Arrival.after, hfirst, eq_comm]
      · simp [hkey, Ne.symm hkey, h.rows]
    | none =>
      simp only [hget]
      refine ⟨h.valid.observe, fun key other => ?_⟩
      rw [observe_rows, h.rows]
      by_cases hkey : arrival.key = key
      · subst hkey
        simp [hmap, Arrival.after, hfirst]
      · simp [hkey]

/-- The rows hold the map that the arrivals make. -/
lemma holds_run (arrivals : List (Arrival T)) : Holds (held arrivals) (run arrivals) := by
  induction arrivals using List.reverseRecOn with
  | nil => exact ⟨valid_empty, fun key row => by simp [empty]⟩
  | append_singleton arrivals arrival ih =>
    rw [run_concat]
    have hstep := ih.arrive arrival
    exact ⟨hstep.valid, fun key row => by rw [hstep.rows, held_concat]⟩

/-! ## The order -/

lemma sortKeyed_perm (placed : List (List UInt8 × Nat)) : (sortKeyed placed).Perm placed :=
  List.mergeSort_perm placed _

/-- Keys that differ are put in ascending order. -/
lemma sortKeyed_pairwise {placed : List (List UInt8 × Nat)} (h : (placed.map Prod.fst).Nodup) :
    ((sortKeyed placed).map Prod.fst).Pairwise (· < ·) := by
  have hsorted : (sortKeyed placed).Pairwise (fun a b => toLex a ≤ toLex b) := by
    have hmerge := @List.pairwise_mergeSort _
      (fun a b : List UInt8 × Nat => decide (toLex a ≤ toLex b))
      (fun a b c hab hbc => by simpa using (of_decide_eq_true hab).trans (of_decide_eq_true hbc))
      (fun a b => by simpa using le_total (toLex a) (toLex b)) placed
    exact hmerge.imp of_decide_eq_true
  have hdistinct : (sortKeyed placed).Pairwise (fun a b => a.1 ≠ b.1) :=
    List.pairwise_map.mp (((sortKeyed_perm placed).map Prod.fst).nodup_iff.mpr h)
  rw [List.pairwise_map]
  refine (hsorted.and hdistinct).imp ?_
  rintro a b ⟨hle, hne⟩
  rcases Prod.Lex.toLex_le_toLex.mp hle with hlt | ⟨heq, -⟩
  · exact hlt
  · exact absurd heq hne

/-- Keys beside their positions, where the positions have 32 bits. -/
lemma order_perm (hfits : keyed.rows.length ≤ 2 ^ 32) :
    keyed.order.Perm (keyed.rows.zipIdx.map (fun placed => (placed.1.1, placed.2))) := by
  have hplaced : keyed.rows.zipIdx.map (fun placed => (placed.1.1, placed.2 % 2 ^ 32)) =
      keyed.rows.zipIdx.map (fun placed => (placed.1.1, placed.2)) := by
    apply List.map_congr_left
    intro placed hmem
    have hlt := List.snd_lt_of_mem_zipIdx hmem
    rw [Nat.mod_eq_of_lt (by omega)]
  rw [order, hplaced]
  split_ifs
  · exact sortKeyed_perm _
  · exact List.Perm.refl _

lemma order_positions (hfits : keyed.rows.length ≤ 2 ^ 32) :
    (keyed.order.map Prod.snd).Perm (List.range keyed.rows.length) := by
  refine ((order_perm hfits).map Prod.snd).trans (List.Perm.of_eq ?_)
  rw [List.map_map, List.range_eq_range', ← List.zipIdx_map_snd 0 keyed.rows]
  rfl

/-- The key beside a position is that of the row there. -/
lemma getElem?_of_mem_order (hfits : keyed.rows.length ≤ 2 ^ 32) {placed : List UInt8 × Nat}
    (h : placed ∈ keyed.order) : ∃ row, keyed.rows[placed.2]? = some (placed.1, row) := by
  rw [(order_perm hfits).mem_iff, List.mem_map] at h
  obtain ⟨⟨row, position⟩, hmem, rfl⟩ := h
  exact ⟨row.2, List.mem_zipIdx_iff_getElem?.mp hmem⟩

lemma Valid.order_pairwise (h : keyed.Valid) : (keyed.order.map Prod.fst).Pairwise (· < ·) := by
  have hkeys : (keyed.rows.zipIdx.map (fun placed => (placed.1.1, placed.2 % 2 ^ 32))).map Prod.fst =
      keyed.keys := by
    have hrows := congrArg (List.map Prod.fst) (List.zipIdx_map_fst 0 keyed.rows)
    rw [List.map_map] at hrows
    rw [List.map_map, keys, ← hrows]
    rfl
  rw [order]
  cases hseen : keyed.seen with
  | none =>
    rw [if_neg (by simp), hkeys]
    exact h.ascending hseen
  | some seen =>
    rw [if_pos (by simp)]
    exact sortKeyed_pairwise (hkeys ▸ h.nodup)

/-- The rows at positions that are all different are taken as they stood. -/
lemma takeAll_eq {α : Type} {positions : List Nat} (rows : List (Option α))
    (h : positions.Nodup) :
    takeAll positions rows = positions.mapM (fun position => (rows[position]?).join) := by
  induction positions generalizing rows with
  | nil => rfl
  | cons position positions ih =>
    obtain ⟨hfresh, hnodup⟩ := List.nodup_cons.mp h
    have hrest : positions.mapM (fun other => ((rows.set position none)[other]?).join) =
        positions.mapM (fun other => (rows[other]?).join) := by
      apply mapM_congr_of_mem
      intro other hother
      rw [List.getElem?_set_ne (fun heq : position = other => hfresh (heq ▸ hother))]
    rw [takeAll, ih _ hnodup, hrest, List.mapM_cons]
    rfl

/-- The rows read in order. -/
def inOrder (keyed : KeyedRows T) : List (List UInt8 × T) :=
  keyed.order.filterMap (fun placed => keyed.rows[placed.2]?)

lemma mapM_order (hfits : keyed.rows.length ≤ 2 ^ 32) :
    keyed.order.mapM (fun placed => keyed.rows[placed.2]?) = some keyed.inOrder := by
  apply mapM_eq_filterMap
  intro placed hplaced
  obtain ⟨row, hrow⟩ := getElem?_of_mem_order hfits hplaced
  rw [hrow]
  rfl

lemma Valid.inOrder_spec (h : keyed.Valid) (hfits : keyed.rows.length ≤ 2 ^ 32) :
    keyed.inOrder.Perm keyed.rows ∧ (keyed.inOrder.map Prod.fst).Pairwise (· < ·) := by
  constructor
  · have hread := LazyOrder.filterMap_getElem?_perm (order_positions hfits)
    rwa [List.filterMap_map] at hread
  · have hkeys : keyed.inOrder.map Prod.fst = keyed.order.map Prod.fst := by
      rw [inOrder, List.map_filterMap, ← List.filterMap_eq_map]
      apply List.filterMap_congr
      intro placed hplaced
      obtain ⟨row, hrow⟩ := getElem?_of_mem_order hfits hplaced
      rw [hrow]
      rfl
    rw [hkeys]
    exact h.order_pairwise

/-- Rows have one order of ascending keys. -/
lemma eq_of_ascending {rows rows' : List (List UInt8 × T)} (hperm : rows.Perm rows')
    (h : (rows.map Prod.fst).Pairwise (· < ·)) (h' : (rows'.map Prod.fst).Pairwise (· < ·)) :
    rows = rows' := by
  rw [List.pairwise_map] at h h'
  exact hperm.eq_of_pairwise (fun a b _ _ hab hba => absurd hab (lt_asymm hba)) h h'

lemma Valid.inOrder_eq (h : keyed.Valid) (hfits : keyed.rows.length ≤ 2 ^ 32) :
    keyed.inOrder = keyed.intoSorted := by
  obtain ⟨hperm, hsorted⟩ := h.inOrder_spec hfits
  obtain ⟨hperm', hsorted'⟩ := h.intoSorted_spec
  exact eq_of_ascending (hperm.trans hperm'.symm) hsorted hsorted'

/-- Moving the rows out by position gives each of them, in key order. -/
lemma Valid.takeSorted_eq (h : keyed.Valid) (hfits : keyed.rows.length ≤ 2 ^ 32) :
    keyed.takeSorted = some keyed.intoSorted := by
  cases hseen : keyed.seen with
  | none =>
    rw [takeSorted, intoSorted, hseen]
    rfl
  | some seen =>
    have hnodup : (keyed.order.map Prod.snd).Nodup :=
      (order_positions hfits).nodup_iff.mpr List.nodup_range
    have htake : takeAll (keyed.order.map Prod.snd) (keyed.rows.map some) = some keyed.inOrder := by
      rw [takeAll_eq _ hnodup, List.mapM_map, ← mapM_order hfits]
      apply mapM_congr_of_mem
      intro placed _
      rw [Function.comp_apply, List.getElem?_map]
      cases keyed.rows[placed.2]? <;> rfl
    rw [takeSorted, hseen, if_neg (by simp), htake, h.inOrder_eq hfits]

lemma Valid.changes_eq {keyed : KeyedRows PlannedChange} (h : keyed.Valid)
    (hfits : keyed.rows.length ≤ 2 ^ 32) :
    keyed.changes = some (keyed.intoSorted.map (fun row => (row.1, row.2.row))) := by
  have hread : ∀ placed ∈ keyed.order,
      (keyed.rows[placed.2]?).map (fun row => (placed.1, row.2.row)) =
        (keyed.rows[placed.2]?).map (fun row => (row.1, row.2.row)) := by
    intro placed hplaced
    obtain ⟨row, hrow⟩ := getElem?_of_mem_order hfits hplaced
    rw [hrow]
    rfl
  have hsome : ∀ placed ∈ keyed.order,
      ((keyed.rows[placed.2]?).map (fun row => (row.1, row.2.row))).isSome := by
    intro placed hplaced
    obtain ⟨row, hrow⟩ := getElem?_of_mem_order hfits hplaced
    rw [hrow]
    rfl
  rw [changes, mapM_congr_of_mem hread, mapM_eq_filterMap hsome, ← List.map_filterMap,
    ← h.inOrder_eq hfits, inOrder]

end KeyedRows

/-- The keys of a statement's changes arrive in any order, each looked for before a row of it is
inserted. A key has a row from its first on, the rows are those of an ordered map, one for a key, and
both readers give each of them, in strictly ascending order of the keys. A statement's work limit keeps
its rows far below what a position can hold. -/
theorem keyed_rows_are_an_ordered_map :
    (∀ (T : Type) (arrivals : List (KeyedRows.Arrival T)),
      (KeyedRows.run arrivals).keys.Nodup ∧
      (∀ key, KeyedRows.found (KeyedRows.run arrivals) key = KeyedRows.held arrivals key ∧
        ((KeyedRows.found (KeyedRows.run arrivals) key).isSome ↔
          KeyedRows.Inserted arrivals key)) ∧
      ((KeyedRows.run arrivals).rows.length ≤ 2 ^ 32 →
        ∃ sorted, KeyedRows.takeSorted (KeyedRows.run arrivals) = some sorted ∧
          sorted.Perm (KeyedRows.run arrivals).rows ∧
          (sorted.map Prod.fst).Pairwise (· < ·) ∧
          ∀ key row, (key, row) ∈ sorted ↔ KeyedRows.held arrivals key = some row)) ∧
    ∀ arrivals : List (KeyedRows.Arrival PlannedChange),
      (KeyedRows.run arrivals).rows.length ≤ 2 ^ 32 →
        ∃ sorted : List (List UInt8 × PlannedChange), KeyedRows.changes (KeyedRows.run arrivals) =
            some (sorted.map (fun row => (row.1, row.2.row))) ∧
          sorted.Perm (KeyedRows.run arrivals).rows ∧
          (sorted.map Prod.fst).Pairwise (· < ·) := by
  constructor
  · intro T arrivals
    have holds := KeyedRows.holds_run arrivals
    refine ⟨holds.valid.nodup, fun key => ⟨holds.found_eq, ?_⟩, fun hfits => ?_⟩
    · rw [holds.found_eq, KeyedRows.isSome_held_iff]
    · obtain ⟨hperm, hsorted⟩ := holds.valid.intoSorted_spec
      refine ⟨_, holds.valid.takeSorted_eq hfits, hperm, hsorted, fun key row => ?_⟩
      rw [hperm.mem_iff, holds.rows]
  · intro arrivals hfits
    have holds := KeyedRows.holds_run arrivals
    obtain ⟨hperm, hsorted⟩ := holds.valid.intoSorted_spec
    exact ⟨_, holds.valid.changes_eq hfits, hperm, hsorted⟩

/-- Three arrivals of two keys, the second below the first. -/
def lateKey : List (KeyedRows.Arrival PlannedChange) :=
  let planned : PlannedChange := ⟨⟨none, some [1]⟩, true⟩
  [⟨[2], id, some planned⟩, ⟨[1], id, some planned⟩, ⟨[2], id, some planned⟩]

/-- The two keys come out in order. -/
theorem keyed_rows_are_an_ordered_map_late_key :
    (KeyedRows.run lateKey).rows.length ≤ 2 ^ 32 ∧
    (∃ sorted, KeyedRows.takeSorted (KeyedRows.run lateKey) = some sorted ∧
      (sorted.map Prod.fst).Pairwise (· < ·)) ∧
    ∃ sorted : List (List UInt8 × PlannedChange), KeyedRows.changes (KeyedRows.run lateKey) =
      some (sorted.map (fun row => (row.1, row.2.row))) := by
  have hfits : (KeyedRows.run lateKey).rows.length ≤ 2 ^ 32 := by decide
  obtain ⟨sorted, htake, -, hsorted, -⟩ :=
    (keyed_rows_are_an_ordered_map.1 PlannedChange lateKey).2.2 hfits
  obtain ⟨changed, hchanges, -, -⟩ := keyed_rows_are_an_ordered_map.2 lateKey hfits
  exact ⟨hfits, ⟨sorted, htake, hsorted⟩, changed, hchanges⟩

end TinyJoin
