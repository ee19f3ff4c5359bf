import Mathlib.Data.List.Infix
import Mathlib.Order.Bounds.Basic

/-! Cutting a list into consecutive groups that fit, and the greedy cut, which extends each group for as
long as it fits. -/
namespace Cutting
variable {α : Type} {fits : List α → Prop} {l group g : List α} {groups gs : List (List α)}

/-- `groups` are `l`, cut into groups that fit. -/
structure IsCut (fits : List α → Prop) (l : List α) (groups : List (List α)) : Prop where
  flatten : groups.flatten = l
  fits : ∀ g ∈ groups, fits g
  nonempty : groups ≠ []

/-- `n` is the fewest groups that `l` can be cut into. -/
def IsFewest (fits : List α → Prop) (l : List α) (n : Nat) : Prop :=
  IsLeast {n | ∃ groups, IsCut fits l groups ∧ groups.length = n} n

/-- Whether a part of what fits does. -/
def InfixClosed (fits : List α → Prop) : Prop := ∀ ⦃g g' : List α⦄, g <:+: g' → fits g' → fits g

section
variable (fits) [DecidablePred fits]

/-- The greedy cut, with the group that has been begun. -/
def cutFrom : List α → List α → List (List α)
  | group, [] => [group]
  | group, a :: rest =>
    if group ≠ [] ∧ ¬fits (group ++ [a]) then group :: cutFrom [a] rest
    else cutFrom (group ++ [a]) rest

end

section
variable [DecidablePred fits]

lemma cutFrom_ne_nil : cutFrom fits group l ≠ [] := by
  induction l generalizing group with
  | nil => exact List.cons_ne_nil _ _
  | cons a rest ih =>
    rw [cutFrom]
    split
    · exact List.cons_ne_nil _ _
    · exact ih

lemma flatten_cutFrom : (cutFrom fits group l).flatten = group ++ l := by
  induction l generalizing group with
  | nil => rfl
  | cons a rest ih =>
    rw [cutFrom]
    split
    · rw [List.flatten_cons, ih, List.singleton_append]
    · rw [ih, List.append_assoc, List.singleton_append]

/-- Every group of the greedy cut fits, where every single element does. -/
lemma fits_of_mem_cutFrom (single : ∀ a, fits [a]) (hgroup : fits group) :
    ∀ g ∈ cutFrom fits group l, fits g := by
  induction l generalizing group with
  | nil => exact List.forall_mem_singleton.mpr hgroup
  | cons a rest ih =>
    rw [cutFrom]
    split
    · exact List.forall_mem_cons.mpr ⟨hgroup, ih (single a)⟩
    · next hkept =>
      refine ih ?_
      by_cases hnil : group = []
      · rw [hnil]
        exact single a
      · by_contra hfits
        exact hkept ⟨hnil, hfits⟩

/-- But for the group that has been begun, no group of the greedy cut is empty. -/
lemma ne_nil_of_mem_cutFrom (h : group ≠ [] ∨ l ≠ []) : ∀ g ∈ cutFrom fits group l, g ≠ [] := by
  induction l generalizing group with
  | nil => exact List.forall_mem_singleton.mpr (h.resolve_right fun h => h rfl)
  | cons a rest ih =>
    rw [cutFrom]
    split
    · next hcut => exact List.forall_mem_cons.mpr ⟨hcut.1, ih (.inl (List.cons_ne_nil _ _))⟩
    · exact ih (.inl (List.append_ne_nil_of_right_ne_nil _ (List.cons_ne_nil _ _)))

/-- The greedy cut stays ahead: against any cut of the same elements it has no more groups where its own
first group takes in theirs, and at most one more elsewhere. -/
lemma length_cutFrom_le (closed : InfixClosed fits) (hl : l = g ++ gs.flatten) (hg : fits g)
    (hgs : ∀ g ∈ gs, fits g) :
    (fits (group ++ g) → (cutFrom fits group l).length ≤ gs.length + 1) ∧
      (cutFrom fits group l).length ≤ gs.length + 2 := by
  induction l generalizing group g gs with
  | nil => exact ⟨fun _ => Nat.le_add_left _ _, Nat.le_add_left _ _⟩
  | cons a rest ih =>
    -- both cuts take the same element
    have htakes (g : List α) (gs : List (List α)) (hrest : rest = g ++ gs.flatten)
        (hg : fits (a :: g)) (hgs : ∀ g ∈ gs, fits g) :
        (fits (group ++ a :: g) → (cutFrom fits group (a :: rest)).length ≤ gs.length + 1) ∧
          (cutFrom fits group (a :: rest)).length ≤ gs.length + 2 := by
      have hpart : fits g := closed (List.suffix_cons a g).isInfix hg
      have hmore : group ++ a :: g = group ++ [a] ++ g := by
        rw [List.append_assoc, List.singleton_append]
      constructor
      · intro htogether
        rw [hmore] at htogether
        have hnow : fits (group ++ [a]) := closed (List.prefix_append _ g).isInfix htogether
        rw [cutFrom, if_neg fun hcut => hcut.2 hnow]
        exact (ih hrest hpart hgs).1 htogether
      · rw [cutFrom]
        split
        · exact Nat.succ_le_succ ((ih hrest hpart hgs).1 hg)
        · exact (ih hrest hpart hgs).2
    induction gs generalizing g with
    | nil =>
      cases g with
      | nil => exact absurd hl (List.cons_ne_nil a rest)
      | cons b g =>
        obtain ⟨rfl, hrest⟩ := List.cons.inj hl
        exact htakes g [] hrest hg hgs
    | cons next gs ihgs =>
      cases g with
      | nil =>
        rw [List.forall_mem_cons] at hgs
        have hnext := ihgs hl hgs.1 hgs.2
        exact ⟨fun _ => hnext.2, hnext.2.trans (Nat.le_succ _)⟩
      | cons b g =>
        obtain ⟨rfl, hrest⟩ := List.cons.inj hl
        exact htakes g (next :: gs) hrest hg hgs

/-- The greedy cut is a cut into the fewest groups. -/
theorem isFewest_cutFrom (closed : InfixClosed fits) (empty : fits []) (single : ∀ a, fits [a]) :
    IsFewest fits l (cutFrom fits [] l).length := by
  refine ⟨⟨_, ⟨flatten_cutFrom, fits_of_mem_cutFrom single empty, cutFrom_ne_nil⟩, rfl⟩, ?_⟩
  rintro _ ⟨groups, ⟨hflatten, hfits, hne⟩, rfl⟩
  obtain ⟨g, gs, rfl⟩ := List.exists_cons_of_ne_nil hne
  rw [List.forall_mem_cons] at hfits
  exact (length_cutFrom_le closed hflatten.symm hfits.1 hfits.2).1 hfits.1

end
end Cutting
