import Mathlib.Algebra.Order.BigOperators.Group.List
import Mathlib.Data.List.SplitLengths
import TinyJoin.Lib.Cutting
import TinyJoin.Lib.Loop
import TinyJoin.NodeFormat

/-! How a batch divides cells into pages: a greedy cut, at the capacity of a page or at the average of
the pages that the cells' total asks for. -/
namespace TinyJoin
open Cutting

def nodeCapacity : Nat := maxPagePayloadSize - nodeHeaderSize

/-- `div_ceil` -/
def divCeil (a b : Nat) : Nat := if 0 < a % b then a / b + 1 else a / b

/-- The counts of cells of pages packed up to `target`, and what the cells of the last total. The page
that has been begun holds `count` cells of `size`. -/
def pack (target : Nat) : Nat → Nat → List Nat → List Nat × Nat
  | count, size, [] => ([count], size)
  | count, size, cell :: sizes =>
    if 0 < count ∧ target < size + cell then
      let (counts, last) := pack target 1 cell sizes
      (count :: counts, last)
    else pack target (count + 1) (size + cell) sizes

/-- What every page is packed up to, where the cells are to take `pages`. -/
def divisionTarget (sizes : List Nat) (fill : Bool) (pages : Nat) : Nat :=
  if fill then nodeCapacity else divCeil sizes.sum pages

/-- One round of the division, which ends it or goes on to more pages. -/
def divideRound (sizes : List Nat) (fill : Bool) (pages : Nat) : Result (List Nat ⊕ Nat) :=
  let (counts, size) := pack (divisionTarget sizes fill pages) 0 0 sizes
  if size ≤ nodeCapacity then .ok (.inl counts) else .ok (.inr (pages + 1))

/-! ## The pages that are packed -/

/-- Whether a page of these cells is packed up to a target, which only a single cell may exceed. -/
def Within (target : Nat) (page : List Nat) : Prop := page.length ≤ 1 ∨ page.sum ≤ target

instance (target : Nat) : DecidablePred (Within target) := fun page =>
  inferInstanceAs (Decidable (page.length ≤ 1 ∨ page.sum ≤ target))

variable {sizes page counts : List Nat} {target pages : Nat} {fill : Bool}

lemma infixClosed_within : InfixClosed (Within target) := by
  intro part page hpart hpage
  refine hpage.imp (fun hlength => hpart.length_le.trans hlength) fun hsum => ?_
  exact (hpart.sublist.sum_le_sum fun _ _ => Nat.zero_le _).trans hsum

lemma within_single (cell : Nat) : Within target [cell] := .inl le_rfl

/-- The pages that the greedy cut packs. -/
def packed (target : Nat) (sizes : List Nat) : List (List Nat) := cutFrom (Within target) [] sizes

lemma pack_from (page : List Nat) :
    (pack target page.length page.sum sizes).1 = (cutFrom (Within target) page sizes).map List.length ∧
      ∃ last ∈ cutFrom (Within target) page sizes,
        (pack target page.length page.sum sizes).2 = last.sum := by
  induction sizes generalizing page with
  | nil => exact ⟨rfl, page, List.mem_singleton.mpr rfl, rfl⟩
  | cons cell sizes ih =>
    have hcut : (0 < page.length ∧ target < page.sum + cell) ↔
        page ≠ [] ∧ ¬Within target (page ++ [cell]) := by
      rw [List.length_pos_iff, Within, List.sum_append, List.sum_singleton, List.length_append,
        List.length_singleton]
      refine and_congr_right fun hpage => ?_
      have hpos := List.length_pos_iff.mpr hpage
      omega
    rw [pack, cutFrom]
    by_cases hnow : page ≠ [] ∧ ¬Within target (page ++ [cell])
    · rw [if_pos hnow, if_pos (hcut.mpr hnow)]
      obtain ⟨hcounts, last, hmem, hlast⟩ := ih [cell]
      rw [List.length_singleton, List.sum_singleton] at hcounts hlast
      exact ⟨congrArg (page.length :: ·) hcounts, last, List.mem_cons_of_mem _ hmem, hlast⟩
    · rw [if_neg hnow, if_neg fun h => hnow (hcut.mp h)]
      have hnext := ih (page ++ [cell])
      rwa [List.length_append, List.length_singleton, List.sum_append, List.sum_singleton] at hnext

/-- A page packed up to a target within its capacity fits. -/
lemma Within.fits (hpage : Within target page) (cells : ∀ size ∈ page, size ≤ nodeCapacity)
    (htarget : target ≤ nodeCapacity) : page.sum ≤ nodeCapacity := by
  rcases hpage with hlength | hsum
  · match page, hlength with
    | [], _ => exact Nat.zero_le _
    | [cell], _ => exact cells cell (List.mem_singleton.mpr rfl)
  · exact hsum.trans htarget

lemma mem_of_mem_packed {size : Nat} (hpage : page ∈ packed target sizes) (hsize : size ∈ page) :
    size ∈ sizes := by
  have hflatten : (packed target sizes).flatten = sizes := flatten_cutFrom
  rw [← hflatten]
  exact List.mem_flatten.mpr ⟨page, hpage, hsize⟩

lemma divCeil_le_iff {a b c : Nat} (hb : 0 < b) : divCeil a b ≤ c ↔ a ≤ b * c := by
  have hsplit := Nat.div_add_mod a b
  have hmod := Nat.mod_lt a hb
  constructor
  · intro h
    have hceil : a ≤ b * divCeil a b := by
      rw [divCeil]
      split
      · rw [Nat.mul_succ]
        omega
      · omega
    exact hceil.trans (Nat.mul_le_mul_left b h)
  · intro h
    have hfloor : a / b ≤ c := Nat.div_le_of_le_mul h
    rw [divCeil]
    split
    · next hrest =>
      refine lt_of_le_of_ne hfloor fun heq => ?_
      rw [← heq] at h
      omega
    · exact hfloor

/-- What the pages of a target are, in the counts and the last page's size. -/
lemma pack_eq (target : Nat) (sizes : List Nat) :
    (pack target 0 0 sizes).1 = (packed target sizes).map List.length ∧
      ∃ last ∈ packed target sizes, (pack target 0 0 sizes).2 = last.sum := pack_from []

lemma within_of_mem_packed : ∀ page ∈ packed target sizes, Within target page :=
  fits_of_mem_cutFrom within_single (.inl (Nat.zero_le _))

lemma divideRound_eq (sizes : List Nat) (fill : Bool) (pages : Nat) :
    divideRound sizes fill pages =
      if (pack (divisionTarget sizes fill pages) 0 0 sizes).2 ≤ nodeCapacity then
        .ok (.inl (pack (divisionTarget sizes fill pages) 0 0 sizes).1)
      else .ok (.inr (pages + 1)) := rfl

/-- A round that goes on had fewer pages than the cells total. -/
lemma divideRound_shrinks (cells : ∀ size ∈ sizes, size ≤ nodeCapacity) :
    Loop.Shrinks (fun pages => sizes.sum - pages) (divideRound sizes fill) := by
  intro pages next hround
  obtain ⟨last, hmem, hlast⟩ := (pack_eq (divisionTarget sizes fill pages) sizes).2
  have hbeyond : nodeCapacity < divisionTarget sizes fill pages := by
    by_contra htarget
    have hfits := (within_of_mem_packed last hmem).fits
      (fun size hsize => cells size (mem_of_mem_packed hmem hsize)) (not_lt.mp htarget)
    rw [divideRound_eq, if_pos (by rw [hlast]; exact hfits)] at hround
    exact nomatch Except.ok.inj hround
  have hnext : pages + 1 = next := by
    rw [divideRound_eq] at hround
    split at hround
    · exact nomatch Except.ok.inj hround
    · exact Sum.inr.inj (Except.ok.inj hround)
  have hpages : pages < sizes.sum := by
    by_contra hmany
    rw [not_lt] at hmany
    rw [divisionTarget] at hbeyond
    split at hbeyond
    · exact absurd hbeyond (lt_irrefl _)
    · refine absurd hbeyond (not_lt.mpr ((?_ : divCeil sizes.sum pages ≤ 1).trans (by decide)))
      rcases Nat.eq_zero_or_pos pages with rfl | hpos
      · rw [Nat.le_zero.mp hmany]
        decide
      · rwa [divCeil_le_iff hpos, Nat.mul_one]
  rw [← hnext]
  exact Nat.sub_lt_sub_left hpages (Nat.lt_succ_self pages)

/-- How many cells each page takes. -/
def divide (sizes : List Nat) (fill : Bool) : Result (List Nat) :=
  if oversized : ∃ size ∈ sizes, nodeCapacity < size then
    .error (limitError "A single B-tree cell cannot fit in a page")
  else if sizes.sum ≤ nodeCapacity then .ok [sizes.length]
  else
    Loop.run (fun pages => sizes.sum - pages) (divideRound sizes fill)
      (divideRound_shrinks fun size hsize => not_lt.mp fun h => oversized ⟨size, hsize, h⟩)
      (divCeil sizes.sum nodeCapacity)

/-! ## What the division comes to -/

/-- The average of the fewest pages that the cells' total could take. -/
def averageTarget (sizes : List Nat) : Nat := divCeil sizes.sum (divCeil sizes.sum nodeCapacity)

lemma averageTarget_le (sizes : List Nat) : averageTarget sizes ≤ nodeCapacity := by
  have hcapacity : 0 < nodeCapacity := by decide
  rcases Nat.eq_zero_or_pos (divCeil sizes.sum nodeCapacity) with hzero | hpos
  · have hnone : sizes.sum = 0 := by
      have hle := (divCeil_le_iff (a := sizes.sum) (c := 0) hcapacity).mp hzero.le
      omega
    rw [averageTarget, hnone]
    decide
  · rw [averageTarget, divCeil_le_iff hpos, Nat.mul_comm]
    exact (divCeil_le_iff hcapacity).mp le_rfl

lemma divisionTarget_le (sizes : List Nat) (fill : Bool) :
    divisionTarget sizes fill (divCeil sizes.sum nodeCapacity) ≤ nodeCapacity := by
  rw [divisionTarget]
  split
  · exact le_rfl
  · exact averageTarget_le sizes

/-- The first round ends the division. -/
lemma divide_eq (cells : ∀ size ∈ sizes, size ≤ nodeCapacity) (more : nodeCapacity < sizes.sum) :
    divide sizes fill = .ok ((packed
      (divisionTarget sizes fill (divCeil sizes.sum nodeCapacity)) sizes).map List.length) := by
  obtain ⟨hcounts, last, hmem, hlast⟩ :=
    pack_eq (divisionTarget sizes fill (divCeil sizes.sum nodeCapacity)) sizes
  have hfits : last.sum ≤ nodeCapacity := (within_of_mem_packed last hmem).fits
    (fun size hsize => cells size (mem_of_mem_packed hmem hsize)) (divisionTarget_le sizes fill)
  rw [divide, dif_neg fun ⟨size, hsize, h⟩ => not_lt.mpr (cells size hsize) h,
    if_neg (not_le.mpr more)]
  refine Loop.run_of_stop ?_
  rw [divideRound_eq, ← hcounts, if_pos (by rw [hlast]; exact hfits)]

/-- Of two pages after one another, the cells of the first and the first cell of the second exceed the
target, so each two of the pages do. -/
lemma pairs_cutFrom (page : List Nat) :
    (cutFrom (Within target) page sizes).length / 2 * (target + 1) ≤ page.sum + sizes.sum ∧
      ∀ before, target < before + page.sum →
        ((cutFrom (Within target) page sizes).length + 1) / 2 * (target + 1) ≤
          before + page.sum + sizes.sum := by
  induction sizes generalizing page with
  | nil =>
    rw [cutFrom, List.length_singleton, List.sum_nil]
    exact ⟨by omega, fun before hpair => by omega⟩
  | cons cell sizes ih =>
    rw [cutFrom, List.sum_cons]
    by_cases hcut : page ≠ [] ∧ ¬Within target (page ++ [cell])
    · rw [if_pos hcut, List.length_cons]
      obtain ⟨hfirst, hsecond⟩ := ih [cell]
      rw [List.sum_singleton] at hfirst hsecond
      have hover : target < page.sum + cell := by
        have hnot := hcut.2
        rw [Within, not_or, List.sum_append, List.sum_singleton] at hnot
        omega
      constructor
      · exact (hsecond page.sum hover).trans (by omega)
      · intro before hpair
        rw [show (cutFrom (Within target) [cell] sizes).length + 1 + 1 =
          (cutFrom (Within target) [cell] sizes).length + 2 from rfl,
          Nat.add_div_right _ Nat.two_pos, Nat.succ_mul]
        omega
    · rw [if_neg hcut]
      obtain ⟨hfirst, hsecond⟩ := ih (page ++ [cell])
      rw [List.sum_append, List.sum_singleton] at hfirst hsecond
      exact ⟨hfirst.trans (by omega), fun before hpair =>
        (hsecond before (by omega)).trans (by omega)⟩

/-- Spread evenly, cells take fewer than twice the fewest pages that their total could. -/
lemma length_packed_average (more : nodeCapacity < sizes.sum) :
    (packed (averageTarget sizes) sizes).length < 2 * divCeil sizes.sum nodeCapacity := by
  have hcapacity : 0 < nodeCapacity := by decide
  have hpages : 0 < divCeil sizes.sum nodeCapacity := by
    by_contra hzero
    have hle := (divCeil_le_iff (a := sizes.sum) (c := 0) hcapacity).mp (not_lt.mp hzero)
    omega
  have htotal : sizes.sum ≤ divCeil sizes.sum nodeCapacity * averageTarget sizes :=
    (divCeil_le_iff hpages).mp le_rfl
  have hpairs : (packed (averageTarget sizes) sizes).length / 2 * (averageTarget sizes + 1) ≤
      sizes.sum := by
    have hcut := (@pairs_cutFrom sizes (averageTarget sizes) []).1
    rwa [List.sum_nil, Nat.zero_add] at hcut
  by_contra hmany
  have hhalf : divCeil sizes.sum nodeCapacity ≤ (packed (averageTarget sizes) sizes).length / 2 := by
    omega
  have hmore := Nat.mul_le_mul_right (averageTarget sizes + 1) hhalf
  rw [Nat.mul_succ] at hmore
  omega

/-- Whether the cells of a page fit it. -/
def FitsPage (page : List Nat) : Prop := page.sum ≤ nodeCapacity

/-- What a division is to be: of every cell, into pages that none of them overflows, and the fewest such
pages. Only where there is no cell may a page be empty. -/
structure Divides (sizes counts : List Nat) : Prop where
  positive : sizes ≠ [] → ∀ count ∈ counts, 0 < count
  total : counts.sum = sizes.length
  fits : ∀ page ∈ counts.splitLengths sizes, FitsPage page
  fewest : IsFewest FitsPage sizes counts.length

/-- Whether the cells can be cut into the fewest pages so that none of several cells exceeds the average
of the pages that their total asks for. -/
def CutsEvenly (sizes : List Nat) : Prop :=
  ∃ groups, IsCut FitsPage sizes groups ∧ IsFewest FitsPage sizes groups.length ∧
    ∀ page ∈ groups, Within (averageTarget sizes) page

lemma splitLengths_lengths (groups : List (List Nat)) :
    (groups.map List.length).splitLengths groups.flatten = groups := by
  induction groups with
  | nil => rfl
  | cons page groups ih =>
    rw [List.map_cons, List.flatten_cons, List.splitLengths_cons, List.take_left, List.drop_left, ih]

lemma divides_of_cut {groups : List (List Nat)} (cut : IsCut FitsPage sizes groups)
    (nonempty : sizes ≠ [] → ∀ page ∈ groups, page ≠ [])
    (fewest : IsFewest FitsPage sizes groups.length) : Divides sizes (groups.map List.length) := by
  refine ⟨fun hsizes count hcount => ?_, ?_, ?_, ?_⟩
  · obtain ⟨page, hpage, rfl⟩ := List.mem_map.mp hcount
    exact List.length_pos_iff.mpr (nonempty hsizes page hpage)
  · rw [← cut.flatten, List.length_flatten]
  · rw [← cut.flatten, splitLengths_lengths]
    exact cut.fits
  · rwa [List.length_map]

/-- Cells that fit one page stay together, which no cut betters. -/
lemma isFewest_single (h : FitsPage sizes) :
    IsCut FitsPage sizes [sizes] ∧ IsFewest FitsPage sizes [sizes].length := by
  have hcut : IsCut FitsPage sizes [sizes] :=
    ⟨List.append_nil sizes, List.forall_mem_singleton.mpr h, List.cons_ne_nil _ _⟩
  refine ⟨hcut, ⟨_, hcut, rfl⟩, ?_⟩
  rintro _ ⟨groups, other, rfl⟩
  exact List.length_pos_iff.mpr other.nonempty

lemma sum_le_averageTarget (h : FitsPage sizes) : sizes.sum ≤ averageTarget sizes := by
  have hcapacity : 0 < nodeCapacity := by decide
  have hpages : divCeil sizes.sum nodeCapacity ≤ 1 :=
    (divCeil_le_iff hcapacity).mpr (h.trans_eq (Nat.mul_one _).symm)
  rcases Nat.eq_zero_or_pos (divCeil sizes.sum nodeCapacity) with hzero | hpos
  · have hnone := (divCeil_le_iff (a := sizes.sum) (c := 0) hcapacity).mp hzero.le
    rw [Nat.mul_zero] at hnone
    exact hnone.trans (Nat.zero_le _)
  · have htotal := (divCeil_le_iff (a := sizes.sum) hpos).mp (le_refl (averageTarget sizes))
    exact htotal.trans ((Nat.mul_le_mul_right _ hpages).trans_eq (Nat.one_mul _))

section
variable (cells : ∀ size ∈ sizes, size ≤ nodeCapacity)
include cells

lemma isCut_packed (htarget : target ≤ nodeCapacity) : IsCut FitsPage sizes (packed target sizes) :=
  ⟨flatten_cutFrom, fun page hpage => (within_of_mem_packed page hpage).fits
    (fun size hsize => cells size (mem_of_mem_packed hpage hsize)) htarget, cutFrom_ne_nil⟩

/-- Packed pages are the fewest where some fewest pages keep to the target. -/
lemma isFewest_packed_iff (htarget : target ≤ nodeCapacity) :
    IsFewest FitsPage sizes (packed target sizes).length ↔
      ∃ groups, IsCut FitsPage sizes groups ∧ IsFewest FitsPage sizes groups.length ∧
        ∀ page ∈ groups, Within target page := by
  have hcut := isCut_packed cells htarget
  constructor
  · intro hfewest
    exact ⟨packed target sizes, hcut, hfewest, within_of_mem_packed⟩
  · rintro ⟨groups, hgroups, hfewest, hwithin⟩
    have hleast : IsFewest (Within target) sizes (packed target sizes).length :=
      isFewest_cutFrom infixClosed_within (.inl (Nat.zero_le _)) within_single
    have hsame : (packed target sizes).length = groups.length :=
      le_antisymm (hleast.2 ⟨groups, ⟨hgroups.flatten, hwithin, hgroups.nonempty⟩, rfl⟩)
        (hfewest.2 ⟨packed target sizes, hcut, rfl⟩)
    rwa [hsame]

/-- Pages packed to the full are the fewest. -/
lemma isFewest_packed_full : IsFewest FitsPage sizes (packed nodeCapacity sizes).length := by
  have hleast : IsFewest (Within nodeCapacity) sizes (packed nodeCapacity sizes).length :=
    isFewest_cutFrom infixClosed_within (.inl (Nat.zero_le _)) within_single
  refine ⟨⟨_, isCut_packed cells le_rfl, rfl⟩, ?_⟩
  rintro _ ⟨groups, ⟨hflatten, hfits, hne⟩, rfl⟩
  exact hleast.2 ⟨groups, ⟨hflatten, fun page hpage => .inr (hfits page hpage), hne⟩, rfl⟩

/-- Cells are divided into the fewest pages exactly where each page is filled before the next, or where
some fewest pages are even. -/
theorem divides_fewest_iff :
    (∃ counts, divide sizes fill = .ok counts ∧ Divides sizes counts) ↔
      fill = true ∨ CutsEvenly sizes := by
  rcases le_or_gt sizes.sum nodeCapacity with hone | hmore
  · obtain ⟨hcut, hfewest⟩ := isFewest_single hone
    refine iff_of_true ⟨_, ?_, divides_of_cut hcut (fun h => List.forall_mem_singleton.mpr h) hfewest⟩
      (.inr ⟨_, hcut, hfewest, List.forall_mem_singleton.mpr (.inr (sum_le_averageTarget hone))⟩)
    rw [divide, dif_neg fun ⟨size, hsize, h⟩ => not_lt.mpr (cells size hsize) h, if_pos hone]
    rfl
  · rw [divide_eq cells hmore]
    have htarget := divisionTarget_le sizes fill
    have hdivides (counts : List Nat) (hcounts : (packed (divisionTarget sizes fill
          (divCeil sizes.sum nodeCapacity)) sizes).map List.length = counts) :
        Divides sizes counts ↔ IsFewest FitsPage sizes (packed (divisionTarget sizes fill
          (divCeil sizes.sum nodeCapacity)) sizes).length := by
      rw [← hcounts]
      constructor
      · intro h
        have hfewest := h.fewest
        rwa [List.length_map] at hfewest
      · exact divides_of_cut (isCut_packed cells htarget) fun h => ne_nil_of_mem_cutFrom (.inr h)
    have hresult : (∃ counts, (Except.ok ((packed (divisionTarget sizes fill
          (divCeil sizes.sum nodeCapacity)) sizes).map List.length) : Result (List Nat)) = .ok counts ∧
          Divides sizes counts) ↔ IsFewest FitsPage sizes (packed (divisionTarget sizes fill
          (divCeil sizes.sum nodeCapacity)) sizes).length := by
      constructor
      · rintro ⟨counts, hcounts, h⟩
        exact (hdivides counts (Except.ok.inj hcounts)).mp h
      · exact fun h => ⟨_, rfl, (hdivides _ rfl).mpr h⟩
    rw [hresult]
    cases fill with
    | true => exact iff_of_true (isFewest_packed_full cells) (.inl rfl)
    | false =>
      refine (isFewest_packed_iff cells htarget).trans ⟨.inr, fun h => ?_⟩
      exact h.resolve_left Bool.false_ne_true

end

/-- Three cells, of which two fit a page, with each page filled before the next. -/
theorem divides_fewest_iff_thirds :
    (∀ size ∈ [1500, 1500, 1500], size ≤ nodeCapacity) ∧
      ∃ counts, divide [1500, 1500, 1500] true = .ok counts ∧ Divides [1500, 1500, 1500] counts :=
  ⟨by decide, (@divides_fewest_iff _ true (by decide)).mpr (.inl rfl)⟩

/-- Spread evenly, the same cells take a page each, though two pages would hold them. -/
theorem divide_thirds_evenly :
    divide [1500, 1500, 1500] false = .ok [1, 1, 1] ∧
      IsCut FitsPage [1500, 1500, 1500] [[1500, 1500], [1500]] ∧
      ¬∃ counts, divide [1500, 1500, 1500] false = .ok counts ∧ Divides [1500, 1500, 1500] counts := by
  have hdivide : divide [1500, 1500, 1500] false = .ok [1, 1, 1] :=
    (divide_eq (by decide) (by decide)).trans rfl
  have hcut : IsCut FitsPage [1500, 1500, 1500] [[1500, 1500], [1500]] := by
    refine ⟨rfl, ?_, List.cons_ne_nil _ _⟩
    simp only [List.forall_mem_cons, FitsPage]
    decide
  refine ⟨hdivide, hcut, ?_⟩
  rintro ⟨counts, hcounts, h⟩
  rw [hdivide] at hcounts
  obtain rfl := Except.ok.inj hcounts
  exact absurd (h.fewest.2 ⟨_, hcut, rfl⟩) (by decide)

end TinyJoin
