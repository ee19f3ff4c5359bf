import Mathlib.Data.List.Lex
import Mathlib.Order.Compare
import Mathlib.Order.Lattice

/-! Codes that delimit themselves and keep an order. `Before` is the strict order of two words
that differ at some letter, so it survives whatever is written after them; a word that is a
proper prefix of another is not `Before` it. Concatenating codes of that kind gives the
lexicographic order of the coded tuples, whatever follows the last of them. -/
namespace OrderCode
universe u v
variable {α : Type u} {β : Type v}

inductive Before [LT β] : List β → List β → Prop where
  | here {a b : β} {s t : List β} : a < b → Before (a :: s) (b :: t)
  | there {a : β} {s t : List β} : Before s t → Before (a :: s) (a :: t)

section Words
variable [LinearOrder β]

lemma Before.append {x y : List β} (h : Before x y) (s t : List β) :
    Before (x ++ s) (y ++ t) := by
  induction h with
  | here hab => exact .here hab
  | there _ ih => exact .there ih

lemma Before.lt {x y : List β} (h : Before x y) : x < y := by
  induction h with
  | here hab => exact List.cons_lt_cons_iff.mpr (Or.inl hab)
  | there _ ih => exact List.cons_lt_cons_iff.mpr (Or.inr ⟨rfl, ih⟩)

lemma Before.prepend (p : List β) {x y : List β} (h : Before x y) :
    Before (p ++ x) (p ++ y) := by
  induction p with
  | nil => exact h
  | cons a p ih => exact .there ih

lemma Before.not_prefix {x y : List β} (h : Before x y) : ¬ x <+: y ∧ ¬ y <+: x := by
  induction h with
  | here hab =>
    constructor
    · intro hp
      have := (List.cons_prefix_cons.mp hp).1
      exact absurd this hab.ne
    · intro hp
      have := (List.cons_prefix_cons.mp hp).1
      exact absurd this hab.ne'
  | there _ ih =>
    exact ⟨fun hp => ih.1 (List.cons_prefix_cons.mp hp).2,
      fun hp => ih.2 (List.cons_prefix_cons.mp hp).2⟩

/-- Spelling each letter with a self-delimiting code keeps the lexicographic order of words. -/
lemma flatMap_lt [LinearOrder α] {f : α → List β} (hf : ∀ a b, a < b → Before (f a) (f b))
    (hne : ∀ a, f a ≠ []) {x y : List α} (h : x < y) : x.flatMap f < y.flatMap f := by
  induction x generalizing y with
  | nil =>
    cases y with
    | nil => exact absurd h (lt_irrefl _)
    | cons b t =>
      have hpos : (b :: t).flatMap f ≠ [] := by simp [hne b]
      obtain ⟨c, r, hcr⟩ := List.exists_cons_of_ne_nil hpos
      rw [hcr]
      exact List.nil_lt_cons _ _
  | cons a s ih =>
    cases y with
    | nil => exact absurd h (List.not_lt_nil _)
    | cons b t =>
      simp only [List.flatMap_cons]
      rcases List.cons_lt_cons_iff.mp h with hab | ⟨rfl, hst⟩
      · exact ((hf a b hab).append _ _).lt
      · have step := ih hst
        generalize f a = p
        induction p with
        | nil => exact step
        | cons c p ihp => exact List.cons_lt_cons_iff.mpr (Or.inr ⟨rfl, ihp⟩)

end Words

/-- How two code words stand when what they spell compares as `o`: apart, in that order, or
the same word. -/
def Spelled [LT β] (o : Ordering) (x y : List β) : Prop :=
  match o with
  | .lt => Before x y
  | .eq => x = y
  | .gt => Before y x

/-- Two words compare letter by letter exactly as `o` says. -/
def OrderedAs [LT β] (o : Ordering) (x y : List β) : Prop :=
  (o = .lt ↔ x < y) ∧ (o = .eq ↔ x = y) ∧ (o = .gt ↔ y < x)

/-- The comparison of tuples by their first difference; a shorter tuple precedes its extensions. -/
def lexCompare (compare : α → α → Ordering) : List α → List α → Ordering
  | [], [] => .eq
  | [], _ :: _ => .lt
  | _ :: _, [] => .gt
  | a :: s, b :: t => (compare a b).then (lexCompare compare s t)

section Tuples
variable [LinearOrder β]

lemma Spelled.swap {o : Ordering} {x y : List β} (h : Spelled o x y) : Spelled o.swap y x := by
  cases o with
  | lt => exact h
  | eq => exact Eq.symm h
  | gt => exact h

/-- Tuples of one shape, spelled component after component, stand as their first difference. -/
lemma lexCompare_spelled (compare : α → α → Ordering) (code : α → List β)
    {related : α → α → Prop}
    (follows : ∀ a b, related a b → Spelled (compare a b) (code a) (code b))
    {x y : List α} (h : List.Forall₂ related x y) :
    Spelled (lexCompare compare x y) (x.flatMap code) (y.flatMap code) := by
  induction h with
  | nil => rfl
  | @cons a b s t hab _ ih =>
    have first := follows a b hab
    simp only [lexCompare, List.flatMap_cons]
    cases hc : compare a b with
    | lt =>
      rw [hc] at first
      exact Before.append first _ _
    | gt =>
      rw [hc] at first
      exact Before.append first _ _
    | eq =>
      rw [hc] at first
      have same : code a = code b := first
      simp only [Ordering.eq_then, same]
      cases hl : lexCompare compare s t with
      | lt =>
        rw [hl] at ih
        exact Before.prepend _ ih
      | eq =>
        rw [hl] at ih
        exact congrArg (code b ++ ·) ih
      | gt =>
        rw [hl] at ih
        exact Before.prepend _ ih

lemma Spelled.orderedAs {o : Ordering} {x y : List β} (h : Spelled o x y) :
    OrderedAs o x y := by
  cases o with
  | lt =>
    have hlt : x < y := Before.lt h
    simp [OrderedAs, hlt, hlt.ne, hlt.not_gt]
  | eq =>
    have heq : x = y := h
    simp [OrderedAs, heq]
  | gt =>
    have hlt : y < x := Before.lt h
    simp [OrderedAs, hlt, hlt.ne', hlt.not_gt]

lemma Spelled.eq_of_prefix {o : Ordering} {x y : List β} (h : Spelled o x y) (hp : x <+: y) :
    x = y := by
  cases o with
  | lt => exact absurd hp (Before.not_prefix h).1
  | eq => exact h
  | gt => exact absurd hp (Before.not_prefix h).2

end Tuples
end OrderCode
