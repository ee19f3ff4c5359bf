import Mathlib.Data.List.Destutter
import Mathlib.Data.List.SplitBy
import Mathlib.Data.List.Sort
import Mathlib.Order.Defs.LinearOrder

/-! Lists sorted by a key: a sort that leaves the order of equal keys open, the first element of each
key, and the runs of elements of one group. -/
namespace Sorting
variable {α β γ : Type}

/-! ## Sorting -/

/-- A sort by a key. Which order it leaves elements of one key in is its own affair. -/
structure UnstableSort (α : Type) {β : Type} [LE β] (key : α → β) where
  sort : List α → List α
  perm : ∀ l, (sort l).Perm l
  sorted : ∀ l, (sort l).Pairwise (fun a b => key a ≤ key b)

/-- The merge sort is one. -/
def UnstableSort.merge [LinearOrder β] (key : α → β) : UnstableSort α key where
  sort l := l.mergeSort (fun a b => decide (key a ≤ key b))
  perm l := l.mergeSort_perm _
  sorted l := by
    have h := @List.pairwise_mergeSort _ (fun a b => decide (key a ≤ key b))
      (fun a b c hab hbc => by
        simp only [decide_eq_true_eq] at hab hbc ⊢
        exact hab.trans hbc)
      (fun a b => by simpa using le_total (key a) (key b)) l
    exact h.imp (fun hab => by simpa using hab)

/-! ## Where a sorted list is cut -/

section Cuts
variable {p : α → Bool} {l : List α}

/-- A list falls away from a predicate where nothing behind an element that fails it satisfies it. -/
def FallsAway (p : α → Bool) (l : List α) : Prop :=
  l.Pairwise (fun a b => p b = true → p a = true)

namespace FallsAway

lemma none_of_head {a : α} (h : FallsAway p (a :: l)) (ha : p a = false) :
    ∀ b ∈ a :: l, p b = false := by
  refine List.forall_mem_cons.mpr ⟨ha, fun b hb => ?_⟩
  cases hpb : p b with
  | false => rfl
  | true =>
    rw [(List.pairwise_cons.mp h).1 b hb hpb] at ha
    cases ha

/-- Elements are before the cut where they satisfy the predicate. -/
lemma lt_length_takeWhile_iff (h : FallsAway p l) {i : Nat} {a : α} (hat : l[i]? = some a) :
    i < (l.takeWhile p).length ↔ p a = true := by
  induction l generalizing i with
  | nil => cases hat
  | cons b l ih =>
    cases hb : p b with
    | true =>
      rw [List.takeWhile_cons_of_pos hb]
      cases i with
      | zero =>
        cases hat
        exact iff_of_true (Nat.zero_lt_succ _) hb
      | succ i =>
        rw [List.length_cons, Nat.succ_lt_succ_iff]
        exact ih (List.pairwise_cons.mp h).2 hat
    | false =>
      rw [List.takeWhile_cons_of_neg (by simp [hb])]
      refine iff_of_false (Nat.not_lt_zero i) ?_
      rw [h.none_of_head hb a (List.mem_of_getElem? hat)]
      exact Bool.false_ne_true

lemma take_eq (h : FallsAway p l) : l.take (l.takeWhile p).length = l.filter p := by
  induction l with
  | nil => rfl
  | cons a l ih =>
    cases ha : p a with
    | true =>
      rw [List.takeWhile_cons_of_pos ha, List.filter_cons_of_pos ha, List.length_cons, List.take_succ_cons,
        ih (List.pairwise_cons.mp h).2]
    | false =>
      rw [List.takeWhile_cons_of_neg (by simp [ha]), List.filter_eq_nil_iff.mpr]
      · rfl
      · intro b hb
        rw [h.none_of_head ha b hb]
        exact Bool.false_ne_true

lemma drop_eq (h : FallsAway p l) : l.drop (l.takeWhile p).length = l.filter (fun a => !p a) := by
  induction l with
  | nil => rfl
  | cons a l ih =>
    cases ha : p a with
    | true =>
      rw [List.takeWhile_cons_of_pos ha, List.filter_cons_of_neg (by simp [ha]), List.length_cons,
        List.drop_succ_cons, ih (List.pairwise_cons.mp h).2]
    | false =>
      rw [List.takeWhile_cons_of_neg (by simp [ha]), List.filter_eq_self.mpr]
      · rfl
      · intro b hb
        rw [h.none_of_head ha b hb]
        rfl

end FallsAway

end Cuts

/-! ## The first of each key -/

/-- The elements but those that have the key of the last one kept, as `dedup_by` keeps them. -/
def firsts [DecidableEq β] (key : α → β) (l : List α) : List α :=
  l.destutter (fun a b => key a ≠ key b)

section Firsts
variable [DecidableEq β]

lemma firsts_sublist (key : α → β) (l : List α) : (firsts key l).Sublist l := l.destutter_sublist _

variable [LinearOrder β] {key : α → β} {l : List α}

lemma map_firsts (h : l.Pairwise (fun a b => key a ≤ key b)) :
    (firsts key l).map key = (l.map key).dedup := by
  have hmap : (firsts key l).map key = (l.map key).destutter (· ≠ ·) :=
    List.map_destutter (fun a _ b _ => Iff.rfl)
  rw [hmap]
  exact (List.pairwise_map.mpr h).destutter_eq_dedup

lemma pairwise_firsts (h : l.Pairwise (fun a b => key a ≤ key b)) :
    (firsts key l).Pairwise (fun a b => key a < key b) := by
  have hle := h.sublist (firsts_sublist key l)
  have hne : ((firsts key l).map key).Nodup := by
    rw [map_firsts h]
    exact List.nodup_dedup _
  exact hle.imp₂ (fun a b hab hne => lt_of_le_of_ne hab hne) (List.pairwise_map.mp hne)

end Firsts

/-! ## Runs of one group -/

/-- The runs of elements of one group, as `chunk_by` cuts them. -/
def runs [DecidableEq γ] (group : α → γ) (l : List α) : List (List α) :=
  l.splitBy (fun a b => decide (group a = group b))

section Runs
variable [DecidableEq γ] {group : α → γ} {l run : List α}

lemma flatten_runs (group : α → γ) (l : List α) : (runs group l).flatten = l :=
  List.flatten_splitBy _ l

lemma ne_nil_of_mem_runs (h : run ∈ runs group l) : run ≠ [] := List.ne_nil_of_mem_splitBy h

lemma group_of_mem_runs (h : run ∈ runs group l) {a b : α} (ha : a ∈ run) (hb : b ∈ run) :
    group a = group b := by
  have hchain : run.IsChain (fun a b => group a = group b) :=
    (List.isChain_of_mem_splitBy h).imp (fun a b hab => by simpa using hab)
  obtain ⟨first, rest, rfl⟩ := List.exists_cons_of_ne_nil (ne_nil_of_mem_runs h)
  have hfirst : ∀ b ∈ first :: rest, group first = group b := by
    intro b hb
    rcases List.mem_cons.mp hb with rfl | hb
    · rfl
    · exact (List.pairwise_cons.mp hchain.pairwise).1 b hb
  exact (hfirst a ha).symm.trans (hfirst b hb)

/-- Each element is in a run. -/
lemma exists_run (group : α → γ) {a : α} (ha : a ∈ l) : ∃ run ∈ runs group l, a ∈ run := by
  rw [← flatten_runs group l] at ha
  exact List.mem_flatten.mp ha

variable [LinearOrder γ]

/-- The runs of a sorted list are of groups that ascend. -/
lemma pairwise_runs (h : l.Pairwise (fun a b => group a ≤ group b)) :
    (runs group l).Pairwise (fun r s => ∀ a ∈ r, ∀ b ∈ s, group a < group b) := by
  have hflat : (runs group l).flatten.Pairwise (fun a b => group a ≤ group b) := by
    rw [flatten_runs]
    exact h
  have hchain : (runs group l).IsChain (fun r s => ∃ hr hs,
      decide (group (r.getLast hr) = group (s.head hs)) = false) :=
    List.isChain_getLast_head_splitBy (fun a b => decide (group a = group b)) l
  have hruns : ∀ run ∈ runs group l, ∀ a ∈ run, ∀ b ∈ run, group a = group b :=
    fun run hrun a ha b hb => group_of_mem_runs hrun ha hb
  revert hflat hchain hruns
  induction runs group l with
  | nil => exact fun _ _ _ => .nil
  | cons r rest ih =>
    intro hflat hchain hruns
    rw [List.flatten_cons, List.pairwise_append] at hflat
    refine List.pairwise_cons.mpr ⟨?_, ih hflat.2.1 hchain.tail
      (fun run hrun => hruns run (List.mem_cons_of_mem r hrun))⟩
    intro s hs a ha b hb
    cases rest with
    | nil => exact absurd hs List.not_mem_nil
    | cons next rest =>
      obtain ⟨hr, hnext, hdiffer⟩ := (List.isChain_cons_cons.mp hchain).1
      have hlast : group a = group (r.getLast hr) :=
        hruns r List.mem_cons_self a ha _ (List.getLast_mem hr)
      have hhead : group (r.getLast hr) < group (next.head hnext) := by
        refine lt_of_le_of_ne ?_ (by simpa using hdiffer)
        exact hflat.2.2 _ (List.getLast_mem hr) _
          (List.mem_flatten.mpr ⟨next, List.mem_cons_self, List.head_mem hnext⟩)
      have hbehind : group (next.head hnext) ≤ group b := by
        rcases List.mem_cons.mp hs with rfl | hs
        · exact le_of_eq (hruns s (by simp) _ (List.head_mem hnext) b hb)
        · have hrest := hflat.2.1
          rw [List.flatten_cons, List.pairwise_append] at hrest
          exact hrest.2.2 _ (List.head_mem hnext) b (List.mem_flatten.mpr ⟨s, hs, hb⟩)
      rw [hlast]
      exact hhead.trans_le hbehind

/-- A run of a sorted list is all there is of its group. -/
lemma eq_filter_of_mem_runs (h : l.Pairwise (fun a b => group a ≤ group b))
    (hrun : run ∈ runs group l) {g : γ} (hg : ∀ a ∈ run, group a = g) :
    run = l.filter (fun a => decide (group a = g)) := by
  have hpair := pairwise_runs h
  obtain ⟨before, after, hsplit⟩ := List.append_of_mem hrun
  rw [hsplit, List.pairwise_append] at hpair
  obtain ⟨hbefore, hafter, hcross⟩ := hpair
  obtain ⟨a, ha⟩ := List.exists_mem_of_ne_nil run (ne_nil_of_mem_runs hrun)
  have hflat : l = before.flatten ++ (run ++ after.flatten) := by
    rw [← flatten_runs group l, hsplit, List.flatten_append, List.flatten_cons]
  rw [hflat, List.filter_append, List.filter_append]
  have hnone : before.flatten.filter (fun a => decide (group a = g)) = [] := by
    rw [List.filter_eq_nil_iff]
    intro b hb
    obtain ⟨r, hr, hb⟩ := List.mem_flatten.mp hb
    have hlt := hcross r hr run List.mem_cons_self b hb a ha
    rw [hg a ha] at hlt
    simpa using hlt.ne
  have hall : run.filter (fun a => decide (group a = g)) = run := by
    rw [List.filter_eq_self]
    intro b hb
    simpa using hg b hb
  have hrest : after.flatten.filter (fun a => decide (group a = g)) = [] := by
    rw [List.filter_eq_nil_iff]
    intro b hb
    obtain ⟨r, hr, hb⟩ := List.mem_flatten.mp hb
    have hlt := (List.pairwise_cons.mp hafter).1 r hr a ha b hb
    rw [hg a ha] at hlt
    simpa using hlt.ne'
  rw [hnone, hall, hrest, List.nil_append, List.append_nil]

end Runs

end Sorting
