import Mathlib.Data.List.Infix

/-! Codes whose words can be told apart wherever reading starts: a letter that leads a word stands nowhere
else in one. What is spelt in such a code is found in a spelling only where it was spelt. -/
namespace Codewords
universe u v
variable {α : Type u} {β : Type v} {code : α → List β} {leads : β → Prop}

/-- Every word begins with a letter that leads one, which none of its others does, and no word begins
another. -/
structure SelfSynchronizing (code : α → List β) (leads : β → Prop) : Prop where
  starts : ∀ a, ∃ b rest, code a = b :: rest ∧ leads b ∧ ∀ x ∈ rest, ¬leads x
  prefixFree : ∀ a b, code a <+: code b → a = b

namespace SelfSynchronizing
variable (sync : SelfSynchronizing code leads)
include sync

lemma ne_nil (a : α) : code a ≠ [] := by
  obtain ⟨b, rest, hcode, -⟩ := sync.starts a
  rw [hcode]
  exact List.cons_ne_nil _ _

/-- What a spelling begins with, if it was spelt too. -/
lemma eq_append_of_prefix {l m : List α} {y : List β} (h : l.flatMap code = m.flatMap code ++ y) :
    ∃ rest, l = m ++ rest ∧ y = rest.flatMap code := by
  induction m generalizing l with
  | nil => exact ⟨l, rfl, h.symm⟩
  | cons a m ih =>
    rw [List.flatMap_cons, List.append_assoc] at h
    cases l with
    | nil => exact absurd (List.append_eq_nil_iff.mp h.symm).1 (sync.ne_nil a)
    | cons b l =>
      rw [List.flatMap_cons] at h
      have hsame : b = a := by
        rcases List.append_eq_append_iff.mp h with ⟨_, hword, -⟩ | ⟨_, hword, -⟩
        · exact sync.prefixFree b a ⟨_, hword.symm⟩
        · exact (sync.prefixFree a b ⟨_, hword.symm⟩).symm
      subst hsame
      obtain ⟨rest, rfl, hy⟩ := ih (List.append_cancel_left h)
      exact ⟨rest, rfl, hy⟩

lemma flatMap_injective {l m : List α} (h : l.flatMap code = m.flatMap code) : l = m := by
  obtain ⟨rest, rfl, hrest⟩ := sync.eq_append_of_prefix (h.trans (List.append_nil _).symm)
  cases rest with
  | nil => exact List.append_nil m
  | cons a rest => exact absurd (List.append_eq_nil_iff.mp hrest.symm).1 (sync.ne_nil a)

/-- What is spelt in a spelling stands there between two others. -/
theorem eq_append_of_infix {l m : List α} {x y : List β} (hm : m ≠ [])
    (h : l.flatMap code = x ++ (m.flatMap code ++ y)) :
    ∃ before rest, l = before ++ (m ++ rest) ∧ x = before.flatMap code ∧ y = rest.flatMap code := by
  induction l generalizing x with
  | nil =>
    obtain ⟨a, m, rfl⟩ := List.exists_cons_of_ne_nil hm
    have hnone := (List.append_eq_nil_iff.mp (List.append_eq_nil_iff.mp h.symm).2).1
    exact absurd (List.append_eq_nil_iff.mp hnone).1 (sync.ne_nil a)
  | cons a l ih =>
    have hbehind {x' : List β} (hrest : l.flatMap code = x' ++ (m.flatMap code ++ y)) :
        ∃ before rest, a :: l = before ++ (m ++ rest) ∧
          code a ++ x' = before.flatMap code ∧ y = rest.flatMap code := by
      obtain ⟨before, rest, rfl, rfl, hy⟩ := ih hrest
      exact ⟨a :: before, rest, rfl, rfl, hy⟩
    rcases List.append_eq_append_iff.mp ((List.flatMap_cons).symm.trans h) with
      ⟨x', rfl, hrest⟩ | ⟨z, hword, hrest⟩
    · exact hbehind hrest
    cases x with
    | nil =>
      obtain ⟨rest, hl, hy⟩ := sync.eq_append_of_prefix h
      exact ⟨[], rest, hl, rfl, hy⟩
    | cons b x =>
      cases z with
      | nil =>
        have hfound := @hbehind [] hrest.symm
        rwa [hword, List.append_nil, List.append_nil] at hfound
      | cons c z =>
        -- the letter behind the first of a word would lead another
        obtain ⟨first, later, hcode, -, hlater⟩ := sync.starts a
        obtain ⟨-, rfl⟩ := List.cons.inj (hcode.symm.trans hword)
        obtain ⟨d, m, rfl⟩ := List.exists_cons_of_ne_nil hm
        obtain ⟨e, letters, hd, hleads, -⟩ := sync.starts d
        rw [List.flatMap_cons, hd] at hrest
        obtain ⟨rfl, -⟩ := List.cons.inj hrest
        exact absurd hleads (hlater e (List.mem_append_right _ List.mem_cons_self))

/-- Of two parts that a text begins with, the longer spelling has the shorter part's. -/
lemma prefix_of_length_le {l m text : List α} (hl : l <+: text) (hm : m <+: text)
    (h : (l.flatMap code).length ≤ (m.flatMap code).length) : l <+: m := by
  rcases List.prefix_or_prefix_of_prefix hl hm with hlm | ⟨rest, rfl⟩
  · exact hlm
  · rw [List.flatMap_append, List.length_append] at h
    have hnone : rest.flatMap code = [] := List.length_eq_zero_iff.mp (by omega)
    cases rest with
    | nil => rw [List.append_nil]
    | cons a rest => exact absurd (List.append_eq_nil_iff.mp hnone).1 (sync.ne_nil a)

end SelfSynchronizing

lemma flatMap_map_of_comm {f : α → α} {g : β → β} (h : ∀ a, code (f a) = (code a).map g) (l : List α) :
    (l.map f).flatMap code = (l.flatMap code).map g := by
  rw [List.flatMap_map, List.map_flatMap]
  exact congrArg (List.flatMap · l) (funext h)

end Codewords
