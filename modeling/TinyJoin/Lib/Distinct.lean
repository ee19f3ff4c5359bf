import Mathlib.Data.List.Induction
import Mathlib.Data.List.Nodup

/-! The elements of a list, each once, in the order in which each first stands: what a script's `Set`
keeps of them. -/
namespace Distinct
variable {α : Type} [DecidableEq α]

def add (kept : List α) (a : α) : List α := if a ∈ kept then kept else kept ++ [a]

def distinct (l : List α) : List α := l.foldl add []

@[simp] lemma distinct_nil : distinct ([] : List α) = [] := rfl

lemma distinct_concat (l : List α) (a : α) : distinct (l ++ [a]) = add (distinct l) a := by
  rw [distinct, List.foldl_append, List.foldl_cons, List.foldl_nil, distinct]

lemma distinct_append (l l' : List α) : distinct (l ++ l') = l'.foldl add (distinct l) := by
  rw [distinct, List.foldl_append, distinct]

lemma mem_add {kept : List α} {a b : α} : b ∈ add kept a ↔ b ∈ kept ∨ b = a := by
  rw [add]
  split
  · next ha => exact ⟨.inl, fun h => h.elim id (fun h => h ▸ ha)⟩
  · rw [List.mem_append, List.mem_singleton]

lemma nodup_add {kept : List α} (h : kept.Nodup) (a : α) : (add kept a).Nodup := by
  rw [add]
  split
  · exact h
  · next ha => exact h.append (List.nodup_singleton a) (List.disjoint_singleton.mpr ha)

lemma length_add_le (kept : List α) (a : α) : (add kept a).length ≤ kept.length + 1 := by
  rw [add]
  split
  · exact Nat.le_succ _
  · exact Nat.le_of_eq List.length_append

lemma length_le_add (kept : List α) (a : α) : kept.length ≤ (add kept a).length := by
  rw [add]
  split
  · exact Nat.le_refl _
  · rw [List.length_append]
    exact Nat.le_add_right _ _

@[simp] theorem mem_distinct {l : List α} {a : α} : a ∈ distinct l ↔ a ∈ l := by
  induction l using List.reverseRecOn with
  | nil => rfl
  | append_singleton l b ih => rw [distinct_concat, mem_add, ih, List.mem_append, List.mem_singleton]

theorem nodup_distinct (l : List α) : (distinct l).Nodup := by
  induction l using List.reverseRecOn with
  | nil => exact List.nodup_nil
  | append_singleton l b ih =>
    rw [distinct_concat]
    exact nodup_add ih b

lemma length_distinct_le_append (l l' : List α) : (distinct l).length ≤ (distinct (l ++ l')).length := by
  induction l' using List.reverseRecOn with
  | nil => exact Nat.le_of_eq (by rw [List.append_nil])
  | append_singleton l' b ih =>
    rw [← List.append_assoc, distinct_concat]
    exact Nat.le_trans ih (length_le_add _ b)

end Distinct
