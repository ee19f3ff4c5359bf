import Mathlib.Data.List.Induction
import Mathlib.Data.List.Perm.Basic
import Mathlib.Data.List.Sort
import Mathlib.Order.Basic

/-! The positions of a growing list in the order of their keys, brought up to date only when read:
a head already in key order, and a tail of later arrivals that a read sorts and merges in. -/
namespace LazyOrder
variable {κ : Type} [LinearOrder κ]

/-- The order once the position `position`, of key `key`, has joined it. -/
def push (keyOf : Nat → κ) (order : List Nat) (sorted position : Nat) (key : κ) :
    List Nat × Nat :=
  (order ++ [position],
    if sorted = position ∧ (∀ last ∈ order.getLast?, keyOf last < key) then sorted + 1 else sorted)

/-- Merges `tail` into `head`, both in key order: each position of the tail goes where a search of
what is left of the head places it. -/
def mergeInto (keyOf : Nat → κ) : List Nat → List Nat → List Nat
  | head, [] => head
  | head, position :: tail =>
    head.takeWhile (fun before => keyOf before < keyOf position) ++
      position :: mergeInto keyOf (head.dropWhile (fun before => keyOf before < keyOf position)) tail

def sortKeyed (keyOf : Nat → κ) (positions : List Nat) : List Nat :=
  positions.mergeSort (fun a b => keyOf a ≤ keyOf b)

def mergeTail (keyOf : Nat → κ) (order : List Nat) (sorted : Nat) : List Nat :=
  mergeInto keyOf (order.take sorted) (sortKeyed keyOf (order.drop sorted))

/-- Each position once, the first `sorted` of them in key order. -/
structure Ordered (keyOf : Nat → κ) (count : Nat) (order : List Nat) (sorted : Nat) : Prop where
  perm : order.Perm (List.range count)
  bound : sorted ≤ count
  head : (order.take sorted).Pairwise (fun a b => keyOf a < keyOf b)

lemma Ordered.length_eq {keyOf : Nat → κ} {count : Nat} {order : List Nat} {sorted : Nat}
    (h : Ordered keyOf count order sorted) : order.length = count := by
  rw [h.perm.length_eq, List.length_range]

lemma Ordered.mem_iff {keyOf : Nat → κ} {count : Nat} {order : List Nat} {sorted : Nat}
    (h : Ordered keyOf count order sorted) {position : Nat} :
    position ∈ order ↔ position < count := by
  rw [h.perm.mem_iff, List.mem_range]

lemma ordered_nil (keyOf : Nat → κ) : Ordered keyOf 0 [] 0 :=
  ⟨by simp, le_rfl, by simp⟩

/-- The order depends on the keys of its positions only. -/
lemma Ordered.congr {keyOf keyOf' : Nat → κ} {count : Nat} {order : List Nat} {sorted : Nat}
    (h : Ordered keyOf count order sorted) (hsame : ∀ p < count, keyOf' p = keyOf p) :
    Ordered keyOf' count order sorted := by
  refine ⟨h.perm, h.bound, h.head.imp_of_mem ?_⟩
  intro a b ha hb hlt
  have ha' : a < count := h.mem_iff.mp (List.mem_of_mem_take ha)
  have hb' : b < count := h.mem_iff.mp (List.mem_of_mem_take hb)
  rw [hsame a ha', hsame b hb']
  exact hlt

lemma Ordered.push {keyOf keyOf' : Nat → κ} {count : Nat} {order : List Nat} {sorted : Nat}
    (h : Ordered keyOf count order sorted) (hsame : ∀ p < count, keyOf' p = keyOf p) :
    Ordered keyOf' (count + 1) (push keyOf order sorted count (keyOf' count)).1
      (push keyOf order sorted count (keyOf' count)).2 := by
  have h' := h.congr hsame
  have hperm : (order ++ [count]).Perm (List.range (count + 1)) := by
    rw [List.range_succ]
    exact h.perm.append_right [count]
  simp only [LazyOrder.push]
  split_ifs with habove
  · obtain ⟨hall, hlast⟩ := habove
    have hwhole : order.take sorted = order :=
      List.take_of_length_le (by rw [h.length_eq]; exact hall.ge)
    refine ⟨hperm, by omega, ?_⟩
    rw [List.take_of_length_le (by rw [List.length_append, h.length_eq, hall]; simp),
      List.pairwise_append]
    refine ⟨hwhole ▸ h'.head, List.pairwise_singleton _ _, ?_⟩
    -- The last of a list in key order is the greatest, and the new key is above it.
    intro a ha b hb
    rw [List.mem_singleton.mp hb]
    have hne : order ≠ [] := List.ne_nil_of_mem ha
    have hlast' : keyOf (order.getLast hne) < keyOf' count :=
      hlast _ (by rw [List.getLast?_eq_some_getLast hne]; rfl)
    have hmem : order.getLast hne < count := h.mem_iff.mp (List.getLast_mem hne)
    have hle : keyOf' a ≤ keyOf' (order.getLast hne) := by
      have hsorted : order.Pairwise (fun a b => keyOf' a < keyOf' b) := hwhole ▸ h'.head
      rw [← List.dropLast_append_getLast hne, List.pairwise_append] at hsorted
      rw [← List.dropLast_append_getLast hne] at ha
      rcases List.mem_append.mp ha with ha | ha
      · exact (hsorted.2.2 a ha _ (List.mem_singleton.mpr rfl)).le
      · rw [List.mem_singleton.mp ha]
    rw [hsame _ hmem] at hle
    exact lt_of_le_of_lt hle hlast'
  · refine ⟨hperm, by have := h.bound; omega, ?_⟩
    rw [List.take_append_of_le_length (by rw [h.length_eq]; exact h.bound)]
    exact h'.head

lemma mergeInto_perm (keyOf : Nat → κ) (head tail : List Nat) :
    (mergeInto keyOf head tail).Perm (head ++ tail) := by
  induction tail generalizing head with
  | nil => rw [mergeInto, List.append_nil]
  | cons position tail ih =>
    set before := head.takeWhile (fun before => keyOf before < keyOf position) with hbefore
    set after := head.dropWhile (fun before => keyOf before < keyOf position) with hafter
    have hsplit : head = before ++ after := (List.takeWhile_append_dropWhile).symm
    calc mergeInto keyOf head (position :: tail)
        = before ++ position :: mergeInto keyOf after tail := rfl
      _ |>.Perm (before ++ position :: (after ++ tail)) :=
          ((ih after).cons position).append_left before
      _ |>.Perm (before ++ (after ++ position :: tail)) :=
          List.perm_middle.symm.append_left before
      _ = head ++ position :: tail := by rw [hsplit, List.append_assoc]

lemma le_of_mem_dropWhile {keyOf : Nat → κ} {head : List Nat} {key : κ}
    (hhead : head.Pairwise (fun a b => keyOf a < keyOf b)) {a : Nat}
    (ha : a ∈ head.dropWhile (fun before => keyOf before < key)) : key ≤ keyOf a := by
  induction head with
  | nil => simp at ha
  | cons b head ih =>
    rw [List.pairwise_cons] at hhead
    by_cases hlt : keyOf b < key
    · rw [List.dropWhile_cons_of_pos (by simpa using hlt)] at ha
      exact ih hhead.2 ha
    · rw [List.dropWhile_cons_of_neg (by simpa using hlt)] at ha
      rcases List.mem_cons.mp ha with rfl | ha
      · exact not_lt.mp hlt
      · exact (not_lt.mp hlt).trans (hhead.1 a ha).le

lemma mergeInto_pairwise {keyOf : Nat → κ} {head tail : List Nat}
    (hhead : head.Pairwise (fun a b => keyOf a < keyOf b))
    (htail : tail.Pairwise (fun a b => keyOf a < keyOf b))
    (hdistinct : ∀ a ∈ head, ∀ b ∈ tail, keyOf a ≠ keyOf b) :
    (mergeInto keyOf head tail).Pairwise (fun a b => keyOf a < keyOf b) := by
  induction tail generalizing head with
  | nil => exact hhead
  | cons position tail ih =>
    rw [List.pairwise_cons] at htail
    have hafter : ∀ a ∈ head.dropWhile (fun before => keyOf before < keyOf position),
        keyOf position < keyOf a := by
      intro a ha
      have hne := hdistinct a ((List.dropWhile_sublist _).subset ha) position List.mem_cons_self
      exact lt_of_le_of_ne (le_of_mem_dropWhile hhead ha) (Ne.symm hne)
    have hrest : (mergeInto keyOf
        (head.dropWhile (fun before => keyOf before < keyOf position)) tail).Pairwise
        (fun a b => keyOf a < keyOf b) :=
      ih (hhead.sublist (List.dropWhile_sublist _)) htail.2
        (fun a ha b hb => hdistinct a ((List.dropWhile_sublist _).subset ha) b
          (List.mem_cons_of_mem _ hb))
    have habove : ∀ a ∈ mergeInto keyOf
        (head.dropWhile (fun before => keyOf before < keyOf position)) tail,
        keyOf position < keyOf a := by
      intro a ha
      rw [(mergeInto_perm keyOf _ tail).mem_iff, List.mem_append] at ha
      rcases ha with ha | ha
      · exact hafter a ha
      · exact htail.1 a ha
    rw [mergeInto, List.pairwise_append]
    refine ⟨hhead.sublist (List.takeWhile_sublist _), List.pairwise_cons.mpr ⟨habove, hrest⟩, ?_⟩
    intro a ha b hb
    have hbelow : keyOf a < keyOf position := by
      simpa using List.all_eq_true.mp List.all_takeWhile a ha
    rcases List.mem_cons.mp hb with rfl | hb
    · exact hbelow
    · exact hbelow.trans (habove b hb)

lemma sortKeyed_perm (keyOf : Nat → κ) (positions : List Nat) :
    (sortKeyed keyOf positions).Perm positions :=
  List.mergeSort_perm positions _

lemma sortKeyed_pairwise {keyOf : Nat → κ} {positions : List Nat} (hnodup : positions.Nodup)
    (hinj : ∀ a ∈ positions, ∀ b ∈ positions, keyOf a = keyOf b → a = b) :
    (sortKeyed keyOf positions).Pairwise (fun a b => keyOf a < keyOf b) := by
  have hsorted : (sortKeyed keyOf positions).Pairwise (fun a b => keyOf a ≤ keyOf b) := by
    have := @List.pairwise_mergeSort _ (fun a b => decide (keyOf a ≤ keyOf b))
      (fun a b c hab hbc => by
        simp only [decide_eq_true_eq] at hab hbc ⊢
        exact hab.trans hbc)
      (fun a b => by simpa using le_total (keyOf a) (keyOf b)) positions
    exact this.imp (fun h => by simpa using h)
  have hdistinct : (sortKeyed keyOf positions).Nodup :=
    (sortKeyed_perm keyOf positions).nodup_iff.mpr hnodup
  refine (hsorted.and hdistinct).imp_of_mem ?_
  intro a b ha hb h
  rw [(sortKeyed_perm keyOf positions).mem_iff] at ha hb
  exact lt_of_le_of_ne h.1 (fun heq => h.2 (hinj a ha b hb heq))

/-- A read makes the order whole. -/
theorem Ordered.mergeTail {keyOf : Nat → κ} {count : Nat} {order : List Nat} {sorted : Nat}
    (h : Ordered keyOf count order sorted)
    (hinj : ∀ a < count, ∀ b < count, keyOf a = keyOf b → a = b) :
    Ordered keyOf count (mergeTail keyOf order sorted) count := by
  have hsplit : (order.take sorted ++ order.drop sorted) = order := List.take_append_drop _ _
  have hnodup : order.Nodup := h.perm.nodup_iff.mpr List.nodup_range
  have hperm : (LazyOrder.mergeTail keyOf order sorted).Perm order := by
    refine (mergeInto_perm keyOf _ _).trans ?_
    conv_rhs => rw [← hsplit]
    exact (sortKeyed_perm keyOf _).append_left _
  have htail : (sortKeyed keyOf (order.drop sorted)).Pairwise (fun a b => keyOf a < keyOf b) := by
    apply sortKeyed_pairwise (hnodup.sublist (List.drop_sublist _ _))
    intro a ha b hb heq
    exact hinj a (h.mem_iff.mp (List.mem_of_mem_drop ha)) b
      (h.mem_iff.mp (List.mem_of_mem_drop hb)) heq
  refine ⟨hperm.trans h.perm, le_rfl, ?_⟩
  rw [List.take_of_length_le (by rw [hperm.length_eq, h.length_eq])]
  apply mergeInto_pairwise h.head htail
  intro a ha b hb heq
  rw [(sortKeyed_perm keyOf _).mem_iff] at hb
  have hab : a = b := hinj a (h.mem_iff.mp (List.mem_of_mem_take ha)) b
    (h.mem_iff.mp (List.mem_of_mem_drop hb)) heq
  rw [← hsplit, List.nodup_append] at hnodup
  exact hnodup.2.2 a ha b hb hab

lemma filterMap_getElem?_range {α : Type} (rows : List α) :
    (List.range rows.length).filterMap (fun position => rows[position]?) = rows := by
  induction rows using List.reverseRecOn with
  | nil => rfl
  | append_singleton rows row ih =>
    rw [List.length_append, List.length_singleton, List.range_succ, List.filterMap_append]
    congr 1
    · refine (List.filterMap_congr (fun position hposition => ?_)).trans ih
      exact List.getElem?_append_left (List.mem_range.mp hposition)
    · simp

/-- What stands at the positions of a list, in any order, is what the list holds. -/
lemma filterMap_getElem?_perm {α : Type} {rows : List α} {positions : List Nat}
    (h : positions.Perm (List.range rows.length)) :
    (positions.filterMap (fun position => rows[position]?)).Perm rows := by
  refine (h.filterMap _).trans ?_
  rw [filterMap_getElem?_range]
end LazyOrder
