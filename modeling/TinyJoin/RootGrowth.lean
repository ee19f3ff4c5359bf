import Mathlib.Logic.Relation
import TinyJoin.Division
import TinyJoin.Pager

/-! The levels a batch builds above the pieces it leaves: each pass writes the pages of one level, which
are fewer than the pieces beneath them, until one root holds them all. -/
namespace TinyJoin
open Cutting

/-- One page a batch wrote in place of a node it changed, with the first key beneath it when its parent
must record a new one. -/
structure Piece where
  firstKey : Option (List UInt8)
  pageId : Nat
  hash : UInt64

/-- A child of an internal node, as a batch rebuilds the node. The leftmost has no separator. -/
structure Child where
  separator : Option (List UInt8)
  pageId : Nat
  hash : UInt64

namespace Child

/-- What a child takes of a page. -/
def size (child : Child) : Nat :=
  match child.separator with
  | none => 0
  | some key => slotSize + internalCellHeaderSize + key.length

def entry (child : Child) : Result InternalEntry :=
  match child.separator with
  | some key => .ok ⟨key, child.pageId, child.hash⟩
  | none => .error (invalidBtree "A B-tree child has no separator")

end Child

def noChild : EngineError := ⟨"PANIC", "every division holds at least one child"⟩

def treeTooDeep : EngineError :=
  limitError s!"The B-tree exceeds the maximum depth of {maxTreeDepth}"

namespace BatchWriter
variable {D : Type} [PageDevice D]

def writeNode (pageId : Nat) (node : Node) : Op (PagerWriteTransaction D) UInt64 := do
  let (page, subtreeHash) ← Effect.ofExcept (node.encode pageId)
  PagerWriteTransaction.writeNewPage page
  return subtreeHash

/-- The page for the piece at `index` of a node: the node's own page for the first when the transaction
owns it, and otherwise a new one. -/
def pageFor (index : Nat) (replacing : Option (Nat × Bool)) : Op (PagerWriteTransaction D) Nat :=
  match replacing with
  | some (pageId, true) =>
    if index = 0 then pure pageId else PagerWriteTransaction.allocatePage
  | _ => PagerWriteTransaction.allocatePage

/-- Frees a committed page its new pieces replaced. -/
def releaseReplaced (replacing : Option (Nat × Bool)) : Op (PagerWriteTransaction D) Unit :=
  match replacing with
  | some (pageId, false) => PagerWriteTransaction.freeSharedPage pageId
  | _ => pure ()

/-- The first child of a page, and the others. -/
def splitLeftmost : List Child → Result (Child × List Child)
  | [] => .error noChild
  | leftmost :: rest => .ok (leftmost, rest)

/-- Writes the children of each page, from the page `index` on. -/
def writePages (treeId generation : Nat) (replacing : Option (Nat × Bool)) (level : Nat) :
    Nat → List (List Child) → Op (PagerWriteTransaction D) (List Piece)
  | _, [] => pure []
  | index, children :: pages => do
    let (leftmost, rest) ← Effect.ofExcept (splitLeftmost children)
    let entries ← Effect.ofExcept (rest.mapM Child.entry)
    let pageId ← pageFor index replacing
    let hash ← writeNode pageId ⟨treeId, generation, UInt8.ofNat level,
      .internal ⟨leftmost.pageId, leftmost.hash, entries⟩⟩
    let pieces ← writePages treeId generation replacing level (index + 1) pages
    return ⟨leftmost.separator, pageId, hash⟩ :: pieces

/-- Writes the children of an internal node at `level` into as many pages as they need, the first in
place of `replacing`. -/
def writeInternals (treeId generation : Nat) (replacing : Option (Nat × Bool)) (level : Nat)
    (children : List Child) : Op (PagerWriteTransaction D) (List Piece) := do
  let counts ← Effect.ofExcept (divide (children.map Child.size) false)
  let pieces ← writePages treeId generation replacing level 0 (counts.splitLengths children)
  releaseReplaced replacing
  return pieces

/-- The pieces of one level as children of the next. The first has no separator. -/
def asChildren : List Piece → List Child
  | [] => []
  | piece :: pieces => ⟨none, piece.pageId, piece.hash⟩ ::
      pieces.map (fun piece => ⟨piece.firstKey, piece.pageId, piece.hash⟩)

/-- Builds new levels above the pieces a batch left at `level` until one root holds them. -/
def root (treeId generation : Nat) (pieces : List Piece) (level : Nat) :
    Op (PagerWriteTransaction D) (Option Nat × UInt64) :=
  if pieces.length ≤ 1 then
    pure (match pieces.head? with
      | none => (none, emptyHash)
      | some piece => (some piece.pageId, piece.hash))
  else if level + 1 < maxTreeDepth then do
    let pieces ← writeInternals treeId generation none (level + 1) (asChildren pieces)
    root treeId generation pieces (level + 1)
  else Effect.fail treeTooDeep
termination_by maxTreeDepth - level

/-! ## The pages of one level -/

/-- The most that a child takes of a page. -/
def maxChildSize : Nat := slotSize + internalCellHeaderSize + maxBtreeKeyBytes

/-- Every separator is a key that a tree may hold. -/
def Bounded (children : List Child) : Prop :=
  ∀ child ∈ children, ∀ key ∈ child.separator, key.length ≤ maxBtreeKeyBytes

variable {children rest : List Child} {sizes counts : List Nat} {pieces : List Piece}

lemma size_le (h : Bounded children) : ∀ size ∈ children.map Child.size, size ≤ maxChildSize := by
  intro size hsize
  obtain ⟨child, hchild, rfl⟩ := List.mem_map.mp hsize
  have hkey := h child hchild
  rw [Child.size]
  cases hseparator : child.separator with
  | none => exact Nat.zero_le _
  | some key =>
    have hlength := hkey key hseparator
    simp only [maxChildSize]
    omega

lemma sum_le_mul {bound : Nat} (h : ∀ size ∈ sizes, size ≤ bound) :
    sizes.sum ≤ bound * sizes.length := by
  have hsum := List.sum_le_card_nsmul sizes bound h
  rwa [nsmul_eq_mul, Nat.cast_id, Nat.mul_comm] at hsum

/-- Separators are small beside a page: a level has little more than half the pages of the one below. -/
lemma divide_children (h : ∀ size ∈ sizes, size ≤ maxChildSize)
    (hsum : sizes.sum ≤ maxChildSize * (sizes.length - 1)) (hne : sizes ≠ []) :
    ∃ pages, divide sizes false = .ok (pages.map List.length) ∧ IsCut FitsPage sizes pages ∧
      (∀ page ∈ pages, page ≠ []) ∧ 1004 * (pages.length - 1) ≤ 523 * (sizes.length - 1) := by
  have hcells : ∀ size ∈ sizes, size ≤ nodeCapacity := fun size hsize =>
    (h size hsize).trans (by decide)
  rcases le_or_gt sizes.sum nodeCapacity with hone | hmore
  · refine ⟨[sizes], ?_, (isFewest_single hone).1, List.forall_mem_singleton.mpr hne, ?_⟩
    · rw [divide, dif_neg, if_pos hone]
      · rfl
      · rintro ⟨size, hsize, hover⟩
        exact not_lt.mpr (hcells size hsize) hover
    · simp
  · refine ⟨packed (averageTarget sizes) sizes, divide_eq hcells hmore,
      isCut_packed hcells (averageTarget_le sizes), ne_nil_of_mem_cutFrom (.inr hne), ?_⟩
    have hpages := length_packed_average hmore
    have hceil : ¬divCeil sizes.sum nodeCapacity ≤ divCeil sizes.sum nodeCapacity - 1 := by
      have hpos := Nat.zero_lt_of_lt hpages
      omega
    rw [divCeil_le_iff (by decide), not_le] at hceil
    have hcapacity : nodeCapacity = 4016 := by decide
    have hsize : maxChildSize = 1046 := by decide
    rw [hcapacity] at hceil hpages
    rw [hsize] at hsum
    generalize (packed (averageTarget sizes) sizes).length = pages at *
    generalize divCeil sizes.sum 4016 = fewest at *
    omega

lemma map_splitLengths (f : Child → Nat) (counts : List Nat) (children : List Child) :
    (counts.splitLengths children).map (List.map f) = counts.splitLengths (children.map f) := by
  induction counts generalizing children with
  | nil => rfl
  | cons count counts ih =>
    rw [List.splitLengths_cons, List.splitLengths_cons, List.map_cons, ih, List.map_take,
      List.map_drop]

variable {treeId generation level index : Nat} {replacing : Option (Nat × Bool)}
  {pages : List (List Child)} {t : PagerWriteTransaction D}

lemma ends_any {σ ε α : Type} (m : Effect σ ε α) (s : σ) :
    m.Ends s (fun _ _ => True) (fun _ _ => True) := Effect.ends_of_final trivial

/-- A pass leaves a piece for each page, with the separator of its leftmost child. -/
lemma writePages_ends : (writePages treeId generation replacing level index pages).Ends t
    (fun pieces _ => pieces.map Piece.firstKey =
      pages.map (fun page => page.head?.bind Child.separator)) (fun _ _ => True) := by
  induction pages generalizing index t with
  | nil => exact rfl
  | cons page pages ih =>
    rw [writePages, Effect.ends_bind, Effect.ends_ofExcept]
    refine ⟨?_, fun _ _ => trivial⟩
    rintro ⟨leftmost, rest⟩ hsplit
    have hpage : page = leftmost :: rest := by
      cases page with
      | nil => cases hsplit
      | cons child children =>
        obtain ⟨rfl, rfl⟩ := Prod.mk.inj (Except.ok.inj hsplit)
        rfl
    dsimp only
    rw [Effect.ends_bind, Effect.ends_ofExcept]
    refine ⟨fun entries _ => ?_, fun _ _ => trivial⟩
    rw [Effect.ends_bind]
    refine (ends_any _ _).mono (fun pageId t' _ => ?_) (fun _ _ _ => trivial)
    rw [Effect.ends_bind]
    refine (ends_any _ _).mono (fun hash t'' _ => ?_) (fun _ _ _ => trivial)
    rw [Effect.ends_bind]
    refine ih.mono (fun pieces u hpieces => ?_) (fun _ _ _ => trivial)
    rw [Effect.ends_pure, List.map_cons, List.map_cons, hpieces, hpage]
    rfl

/-- Every first key is a key that a tree may hold. -/
def KeysBounded (pieces : List Piece) : Prop :=
  ∀ piece ∈ pieces, ∀ key ∈ piece.firstKey, key.length ≤ maxBtreeKeyBytes

lemma length_asChildren (pieces : List Piece) : (asChildren pieces).length = pieces.length := by
  cases pieces with
  | nil => rfl
  | cons piece pieces => rw [asChildren, List.length_cons, List.length_map, List.length_cons]

lemma bounded_asChildren (h : KeysBounded pieces) : Bounded (asChildren pieces) := by
  cases pieces with
  | nil => exact fun _ hchild => (nomatch hchild)
  | cons piece pieces =>
    rw [asChildren, Bounded, List.forall_mem_cons]
    refine ⟨fun _ hkey => (nomatch hkey), fun child hchild => ?_⟩
    obtain ⟨other, hother, rfl⟩ := List.mem_map.mp hchild
    exact h other (List.mem_cons_of_mem _ hother)

/-- The first of the children takes nothing of a page. -/
lemma sum_asChildren (h : KeysBounded pieces) :
    ((asChildren pieces).map Child.size).sum ≤ maxChildSize * (pieces.length - 1) := by
  cases pieces with
  | nil => exact Nat.zero_le _
  | cons piece pieces =>
    have hsizes := size_le (bounded_asChildren h)
    rw [asChildren, List.map_cons, List.forall_mem_cons] at hsizes
    rw [asChildren, List.map_cons, List.sum_cons, List.length_cons, Nat.add_sub_cancel]
    have hsum := sum_le_mul hsizes.2
    rwa [List.length_map, List.length_map, ← Nat.zero_add (List.sum _)] at hsum

/-- The division of one level: no page is empty, none overflows, and they are few. -/
structure Divided (children : List Child) (pages : List (List Child)) : Prop where
  flatten : pages.flatten = children
  fits : ∀ page ∈ pages, FitsPage (page.map Child.size)
  nonempty : ∀ page ∈ pages, page ≠ []
  few : 1004 * (pages.length - 1) ≤ 523 * (children.length - 1)

lemma divide_asChildren (h : KeysBounded pieces) (hne : pieces ≠ []) :
    ∃ counts, divide ((asChildren pieces).map Child.size) false = .ok counts ∧
      Divided (asChildren pieces) (counts.splitLengths (asChildren pieces)) := by
  have hlength := length_asChildren pieces
  have hpos := List.length_pos_iff.mpr hne
  obtain ⟨groups, hdivide, hcut, hnonempty, hfew⟩ := divide_children
    (size_le (bounded_asChildren h))
    (by rw [List.length_map, hlength]; exact sum_asChildren h)
    (by rw [Ne, List.map_eq_nil_iff, ← List.length_eq_zero_iff]; omega)
  have hgroups := map_splitLengths Child.size (groups.map List.length) (asChildren pieces)
  rw [← hcut.flatten, splitLengths_lengths] at hgroups
  rw [List.length_map] at hfew
  have hmem : ∀ page ∈ (groups.map List.length).splitLengths (asChildren pieces),
      page.map Child.size ∈ groups := fun page hpage => by
    rw [← hgroups]
    exact List.mem_map_of_mem hpage
  refine ⟨_, hdivide, ?_, fun page hpage => hcut.fits _ (hmem page hpage), ?_, ?_⟩
  · apply List.flatten_splitLengths
    rw [← List.length_flatten, hcut.flatten, List.length_map]
  · intro page hpage hnil
    exact hnonempty _ (hmem page hpage) (by rw [hnil]; rfl)
  · rwa [List.length_splitLengths, List.length_map]

/-- What a pass leaves of the pieces it builds on: fewer of them, with bounded keys. -/
structure Fewer (pieces pieces' : List Piece) : Prop where
  nonempty : pieces' ≠ []
  few : 1004 * (pieces'.length - 1) ≤ 523 * (pieces.length - 1)
  bounded : KeysBounded pieces'

lemma writeInternals_ends (h : KeysBounded pieces) (hne : pieces ≠ []) :
    (writeInternals treeId generation none level (asChildren pieces)).Ends t
      (fun pieces' _ => Fewer pieces pieces') (fun _ _ => True) := by
  obtain ⟨counts, hdivide, hdivided⟩ := divide_asChildren h hne
  rw [writeInternals, hdivide, Effect.ofExcept_ok_bind, Effect.ends_bind]
  refine writePages_ends.mono (fun pieces' t' hkeys => ?_) (fun _ _ _ => trivial)
  have hrelease : (releaseReplaced none : Op (PagerWriteTransaction D) Unit) = pure () := rfl
  rw [hrelease, Effect.ends_bind, Effect.ends_pure, Effect.ends_pure]
  have hlength : pieces'.length = (counts.splitLengths (asChildren pieces)).length := by
    have hlengths := congrArg List.length hkeys
    rwa [List.length_map, List.length_map] at hlengths
  refine ⟨fun hnil => ?_, ?_, fun piece hpiece key hkey => ?_⟩
  · rw [hnil, List.length_nil] at hlength
    have hnone := hdivided.flatten
    rw [List.eq_nil_of_length_eq_zero hlength.symm, List.flatten_nil] at hnone
    have hzero := length_asChildren pieces
    rw [← hnone] at hzero
    exact hne (List.eq_nil_of_length_eq_zero hzero.symm)
  · rw [hlength, ← length_asChildren pieces]
    exact hdivided.few
  · have hmem := List.mem_map_of_mem (f := Piece.firstKey) hpiece
    rw [hkeys] at hmem
    obtain ⟨page, hpage, hfirst⟩ := List.mem_map.mp hmem
    rw [Option.mem_def] at hkey
    rw [hkey] at hfirst
    obtain ⟨child, hchild, hseparator⟩ := Option.bind_eq_some_iff.mp hfirst
    have hin : child ∈ asChildren pieces := by
      rw [← hdivided.flatten]
      exact List.mem_flatten.mpr ⟨page, hpage, List.mem_of_mem_head? hchild⟩
    exact bounded_asChildren h child hin key hseparator

/-! ## The loop -/

/-- Where the loop stands. -/
structure Growth (D : Type) where
  pieces : List Piece
  level : Nat
  transaction : PagerWriteTransaction D

/-- A pass over two pieces or more, which the loop goes on from. -/
def Pass (treeId generation : Nat) (g g' : Growth D) : Prop :=
  1 < g.pieces.length ∧ g.level + 1 < maxTreeDepth ∧ g'.level = g.level + 1 ∧
    writeInternals treeId generation none (g.level + 1) (asChildren g.pieces) g.transaction =
      (.ok g'.pieces, g'.transaction)

/-- The passes of a run so far. -/
abbrev Passes (treeId generation : Nat) : Growth D → Growth D → Prop :=
  Relation.ReflTransGen (Pass treeId generation)

variable {g g' : Growth D}

lemma Fewer.length_lt {pieces' : List Piece} (h : Fewer pieces pieces') (hmany : 1 < pieces.length) :
    pieces'.length < pieces.length := by
  have hfew := h.few
  omega

lemma Pass.fewer (h : KeysBounded g.pieces) (hpass : Pass treeId generation g g') :
    Fewer g.pieces g'.pieces := by
  obtain ⟨hmany, -, -, hrun⟩ := hpass
  exact (writeInternals_ends h (List.ne_nil_of_length_pos (by omega))).ok hrun

/-- What every run keeps: some pieces, fewer with each level. -/
structure Grown (g g' : Growth D) : Prop where
  nonempty : g'.pieces ≠ []
  bounded : KeysBounded g'.pieces
  above : g.level ≤ g'.level
  shorter : g'.level + g'.pieces.length ≤ g.level + g.pieces.length
  few : 1004 ^ (g'.level - g.level) * (g'.pieces.length - 1) ≤
    523 ^ (g'.level - g.level) * (g.pieces.length - 1)

lemma Grown.pass {g'' : Growth D} (h : Grown g g') (hpass : Pass treeId generation g' g'') :
    Grown g g'' := by
  have hfewer := hpass.fewer h.bounded
  obtain ⟨hmany, -, hlevel, -⟩ := hpass
  have hlength := hfewer.length_lt hmany
  have habove := h.above
  have hshorter := h.shorter
  refine ⟨hfewer.nonempty, hfewer.bounded, by omega, by omega, ?_⟩
  have hlevels : g''.level - g.level = g'.level - g.level + 1 := by omega
  rw [hlevels, pow_succ, pow_succ]
  calc 1004 ^ (g'.level - g.level) * 1004 * (g''.pieces.length - 1)
      = 1004 ^ (g'.level - g.level) * (1004 * (g''.pieces.length - 1)) := Nat.mul_assoc _ _ _
    _ ≤ 1004 ^ (g'.level - g.level) * (523 * (g'.pieces.length - 1)) :=
        Nat.mul_le_mul_left _ hfewer.few
    _ = 523 * (1004 ^ (g'.level - g.level) * (g'.pieces.length - 1)) := Nat.mul_left_comm _ _ _
    _ ≤ 523 * (523 ^ (g'.level - g.level) * (g.pieces.length - 1)) :=
        Nat.mul_le_mul_left _ h.few
    _ = 523 ^ (g'.level - g.level) * 523 * (g.pieces.length - 1) := by
        rw [Nat.mul_comm (523 ^ _) 523, Nat.mul_assoc]

lemma Grown.passes {g'' : Growth D} (h : Grown g g') (hpasses : Passes treeId generation g' g'') :
    Grown g g'' := by
  induction hpasses with
  | refl => exact h
  | tail _ hpass ih => exact ih.pass hpass

/-- How a run ends from where it stands: with a root, at the depth limit, or where a pass fails. -/
inductive Ended (treeId generation : Nat) (g : Growth D) :
    Result (Option Nat × UInt64) × PagerWriteTransaction D → Prop
  | root {piece : Piece} : g.pieces = [piece] →
      Ended treeId generation g (.ok (some piece.pageId, piece.hash), g.transaction)
  | tooDeep : 1 < g.pieces.length → maxTreeDepth ≤ g.level + 1 →
      Ended treeId generation g (.error treeTooDeep, g.transaction)
  | failed {e : EngineError} {t : PagerWriteTransaction D} : 1 < g.pieces.length →
      writeInternals treeId generation none (g.level + 1) (asChildren g.pieces) g.transaction =
        (.error e, t) →
      Ended treeId generation g (.error e, t)

end BatchWriter

end TinyJoin
