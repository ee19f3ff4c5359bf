import Mathlib.Data.List.Forall2
import TinyJoin.CloneGraph

/-! The JSON that a value of a graph unfolds to, if it does: a finite tree, which a value on a cycle
has not. -/
namespace TinyJoin.Clone

variable {ρ : Type}

inductive JsonTree where
  | null
  | bool (b : Bool)
  | number (f : F64)
  | string (text : List UInt16)
  | array (items : List JsonTree)
  | object (names : List (List UInt16)) (values : List JsonTree)

mutual
def JsonTree.size : JsonTree → Nat
  | .array trees | .object _ trees => JsonTree.sizes trees + 1
  | _ => 1

def JsonTree.sizes : List JsonTree → Nat
  | [] => 0
  | tree :: trees => tree.size + JsonTree.sizes trees
end

mutual
/-- How many containers the deepest value is within. -/
def JsonTree.depth : JsonTree → Nat
  | .array trees | .object _ trees => JsonTree.depths trees
  | _ => 0

def JsonTree.depths : List JsonTree → Nat
  | [] => 0
  | tree :: trees => max (tree.depth + 1) (JsonTree.depths trees)
end

/-- A value's unfolding as JSON: its numbers are finite, its objects plain and its arrays dense.
Properties of an array other than its items are no part of it. -/
inductive Unfolds (graph : Graph ρ) : Datum ρ → JsonTree → Prop
  | null : Unfolds graph .null .null
  | bool (b : Bool) : Unfolds graph (.bool b) (.bool b)
  | number (f : F64) (finite : f.isFinite = true) : Unfolds graph (.number f) (.number f)
  | string (text : List UInt16) : Unfolds graph (.string text) (.string text)
  | array (ref : ρ) (slots : Slots ρ) (named : Entries ρ)
      (distinct : (named.map Prod.fst).Nodup)
      (not_index : ∀ name ∈ named.map Prod.fst, ¬ IsIndex name)
      (items : List (Datum ρ)) (trees : List JsonTree)
      (is_array : graph ref = .array slots named distinct not_index)
      (dense : slots.items = items.map some) (each : List.Forall₂ (Unfolds graph) items trees) :
      Unfolds graph (.container ref) (.array trees)
  | object (ref : ρ) (entries : Entries ρ) (distinct : (entries.map Prod.fst).Nodup)
      (trees : List JsonTree) (is_plain : graph ref = .object true entries distinct)
      (each : List.Forall₂ (Unfolds graph) (entries.map Prod.snd) trees) :
      Unfolds graph (.container ref) (.object (entries.map Prod.fst) trees)

/-- The values in a container that JSON can hold. -/
def Container.children : Container ρ → Option (List (Option (Datum ρ)))
  | array slots _ _ _ => some slots.items
  | object plain entries _ => if plain then some (entries.map fun entry => some entry.2) else none

/-- The tree of a container, from those of its children. -/
def Container.tree : Container ρ → List JsonTree → JsonTree
  | array _ _ _ _, trees => .array trees
  | object _ entries _, trees => .object (entries.map Prod.fst) trees

lemma Container.size_tree (container : Container ρ) (trees : List JsonTree) :
    (container.tree trees).size = JsonTree.sizes trees + 1 := by
  cases container <;> rw [Container.tree, JsonTree.size]

lemma Container.depth_tree (container : Container ρ) (trees : List JsonTree) :
    (container.tree trees).depth = JsonTree.depths trees := by
  cases container <;> rw [Container.tree, JsonTree.depth]

namespace JsonTree

lemma one_le_size (tree : JsonTree) : 1 ≤ tree.size := by
  cases tree <;> simp [size]

lemma size_le_sizes {tree : JsonTree} {trees : List JsonTree} (h : tree ∈ trees) :
    tree.size ≤ sizes trees := by
  induction h with
  | head rest =>
    rw [sizes]
    omega
  | tail next _ ih =>
    rw [sizes]
    omega

lemma depths_le_iff {trees : List JsonTree} {levels : Nat} :
    depths trees ≤ levels ↔ ∀ tree ∈ trees, tree.depth < levels := by
  induction trees with
  | nil => simp [depths]
  | cons tree trees ih =>
    rw [depths, max_le_iff, ih, List.forall_mem_cons]
    rfl

end JsonTree

lemma unfolds_container {graph : Graph ρ} {ref : ρ} {tree : JsonTree} :
    Unfolds graph (.container ref) tree ↔ ∃ items trees,
      (graph ref).children = some (items.map some) ∧ List.Forall₂ (Unfolds graph) items trees ∧
        tree = (graph ref).tree trees := by
  constructor
  · intro h
    cases h with
    | array _ slots named distinct not_index items trees is_array dense each =>
      refine ⟨items, trees, ?_, each, ?_⟩
      · rw [is_array, Container.children, dense]
      · rw [is_array, Container.tree]
    | object _ entries distinct trees is_plain each =>
      refine ⟨entries.map Prod.snd, trees, ?_, each, ?_⟩
      · rw [is_plain, Container.children, if_pos rfl, List.map_map]
        rfl
      · rw [is_plain, Container.tree]
  · rintro ⟨items, trees, hchildren, each, rfl⟩
    cases hgraph : graph ref with
    | array slots named distinct not_index =>
      rw [hgraph, Container.children, Option.some.injEq] at hchildren
      exact .array ref slots named distinct not_index items trees hgraph hchildren each
    | object plain entries distinct =>
      rw [hgraph, Container.children] at hchildren
      obtain ⟨rfl, hvalues⟩ := Option.ite_none_right_eq_some.mp hchildren
      have hitems : entries.map Prod.snd = items := by
        refine List.map_injective_iff.mpr (Option.some_injective _) ?_
        rw [← Option.some.inj hvalues, List.map_map]
        rfl
      exact .object ref entries distinct trees hgraph (hitems ▸ each)

lemma depth_of_scalar {graph : Graph ρ} {value : Datum ρ} {tree : JsonTree}
    (hvalue : value.refs = []) (h : Unfolds graph value tree) : tree.depth = 0 := by
  cases h with
  | array => exact absurd hvalue (List.cons_ne_nil _ _)
  | object => exact absurd hvalue (List.cons_ne_nil _ _)
  | _ => rfl

lemma forall₂_unique {α β : Type} {R : α → β → Prop} {as : List α} {bs : List β}
    (h : List.Forall₂ R as bs) : ∀ {bs' : List β}, List.Forall₂ R as bs' →
      (∀ b ∈ bs, ∀ a b', R a b → R a b' → b = b') → bs = bs' := by
  induction h with
  | nil =>
    intro bs' h' _
    exact (List.forall₂_nil_left_iff.mp h').symm
  | cons hab _ ih =>
    intro bs' h' hunique
    obtain ⟨b', rest', hab', hrest', rfl⟩ := List.forall₂_cons_left_iff.mp h'
    rw [List.forall_mem_cons] at hunique
    rw [hunique.1 _ _ hab hab', ih hrest' hunique.2]

/-- A value unfolds to one tree at most. -/
lemma Unfolds.unique {graph : Graph ρ} {tree other : JsonTree} {value : Datum ρ}
    (h : Unfolds graph value tree) (h' : Unfolds graph value other) : tree = other := by
  induction hsize : tree.size using Nat.strong_induction_on generalizing tree other value with
  | _ size ih =>
    subst hsize
    cases value with
    | container ref =>
      obtain ⟨items, trees, hchildren, each, rfl⟩ := unfolds_container.mp h
      obtain ⟨items', trees', hchildren', each', rfl⟩ := unfolds_container.mp h'
      rw [hchildren, Option.some.injEq] at hchildren'
      obtain rfl := List.map_injective_iff.mpr (Option.some_injective _) hchildren'
      have heq : trees = trees' := by
        refine forall₂_unique each each' fun tree htree item other hitem hother => ?_
        refine ih tree.size ?_ hitem hother rfl
        have := JsonTree.size_le_sizes htree
        rw [Container.size_tree]
        omega
      rw [heq]
    | _ => cases h <;> cases h' <;> rfl

/-- Whether no ancestor is within a tree, as each that unfolds does so to a larger one. -/
def Outside (graph : Graph ρ) (tree : JsonTree) (ancestors : List ρ) : Prop :=
  ∀ ref ∈ ancestors, ∀ larger, Unfolds graph (.container ref) larger → tree.size < larger.size

/-- A container that unfolds is not within itself. -/
lemma Unfolds.outside_children {graph : Graph ρ} {ref : ρ} {trees : List JsonTree}
    (h : Unfolds graph (.container ref) ((graph ref).tree trees)) {ancestors : List ρ}
    (houtside : Outside graph ((graph ref).tree trees) ancestors) {tree : JsonTree}
    (htree : tree ∈ trees) : Outside graph tree (ref :: ancestors) := by
  have hsmaller : tree.size < ((graph ref).tree trees).size := by
    have := JsonTree.size_le_sizes htree
    rw [Container.size_tree]
    omega
  intro ancestor hancestor larger hlarger
  rcases List.mem_cons.mp hancestor with rfl | hancestor
  · rwa [← h.unique hlarger]
  · exact hsmaller.trans (houtside ancestor hancestor larger hlarger)

end TinyJoin.Clone
