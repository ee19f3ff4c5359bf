import Mathlib.Data.List.Basic
import Mathlib.Data.Nat.Bitwise

/-! A list stored as the elements that matter, in order, and a bitmap of the places they stand in. The
rest of the list is filled in, so the elements and the bitmap tell the list. -/
namespace Presence
universe u
variable {α : Type u}

/-- The places, from `index` on, of the elements that matter. -/
def bitmap (matters : α → Bool) (index : Nat) : List α → Nat
  | [] => 0
  | a :: list => (if matters a then 1 <<< index else 0) ||| bitmap matters (index + 1) list

variable {matters : α → Bool}

lemma testBit_bitmap (index place : Nat) (list : List α) :
    (bitmap matters index list).testBit place
      = (decide (index ≤ place) && (list[place - index]?).any matters) := by
  induction list generalizing index with
  | nil => simp [bitmap]
  | cons a list ih =>
    have hhead : (if matters a then 1 <<< index else 0).testBit place
        = (decide (place = index) && matters a) := by
      split
      · next h => simp [h, Nat.shiftLeft_eq, Nat.testBit_two_pow, eq_comm]
      · next h => simp [h]
    rw [bitmap, Nat.testBit_or, hhead, ih]
    rcases Nat.lt_trichotomy place index with hlt | rfl | hgt
    · simp [hlt.ne, Nat.not_le.mpr hlt, Nat.not_le.mpr (Nat.lt_succ_of_lt hlt)]
    · simp
    · obtain ⟨k, rfl⟩ : ∃ k, place = index + 1 + k := ⟨place - (index + 1), by omega⟩
      have hplace : index + 1 + k - index = k + 1 := by omega
      rw [hplace, Nat.add_sub_cancel_left, List.getElem?_cons_succ]
      simp [show index + 1 + k ≠ index by omega, show index ≤ index + 1 + k by omega]

lemma bitmap_lt {list : List α} {width : Nat} (h : list.length ≤ width) :
    bitmap matters 0 list < 2 ^ width := by
  apply Nat.lt_pow_two_of_testBit
  intro place hplace
  rw [testBit_bitmap, Nat.sub_zero, List.getElem?_eq_none (h.trans hplace)]
  simp

/-- Equal bitmaps of lists of one length mark the same places. -/
lemma map_eq_of_bitmap_eq {list other : List α} (hlength : list.length = other.length)
    (h : bitmap matters 0 list = bitmap matters 0 other) : list.map matters = other.map matters := by
  apply List.ext_getElem (by rw [List.length_map, List.length_map, hlength])
  intro place hlist hother
  rw [List.length_map] at hlist hother
  have hbit := congrArg (Nat.testBit · place) h
  simp only [testBit_bitmap, Nat.sub_zero, List.getElem?_eq_getElem hlist,
    List.getElem?_eq_getElem hother] at hbit
  simpa using hbit

/-- The elements that matter, and their places, tell a list whose other elements are all alike. -/
theorem eq_of_filter_eq {list other : List α} (hmap : list.map matters = other.map matters)
    (hfilter : list.filter matters = other.filter matters)
    (hrest : ∀ a ∈ list, ∀ b ∈ other, matters a = false → matters b = false → a = b) :
    list = other := by
  induction list generalizing other with
  | nil => simpa [eq_comm] using hmap
  | cons a list ih =>
    cases other with
    | nil => cases hmap
    | cons b other =>
      rw [List.map_cons, List.map_cons, List.cons.injEq] at hmap
      obtain ⟨hhead, htail⟩ := hmap
      have hothers : ∀ a ∈ list, ∀ b ∈ other, matters a = false → matters b = false → a = b :=
        fun x hx y hy => hrest x (List.mem_cons_of_mem _ hx) y (List.mem_cons_of_mem _ hy)
      cases ha : matters a with
      | true =>
        have hb : matters b = true := hhead.symm.trans ha
        rw [List.filter_cons_of_pos ha, List.filter_cons_of_pos hb, List.cons.injEq] at hfilter
        rw [hfilter.1, ih htail hfilter.2 hothers]
      | false =>
        have hb : matters b = false := hhead.symm.trans ha
        rw [List.filter_cons_of_neg (by simp [ha]), List.filter_cons_of_neg (by simp [hb])] at hfilter
        rw [hrest a List.mem_cons_self b List.mem_cons_self ha hb, ih htail hfilter hothers]

/-! ### Pieces of one length -/

/-- Pieces of one length are told by what they come to together. -/
theorem eq_of_flatten_append {width : Nat} {pieces others : List (List α)} {rest tail : List α}
    (hpieces : ∀ piece ∈ pieces, piece.length = width) (hothers : ∀ piece ∈ others, piece.length = width)
    (hcount : pieces.length = others.length)
    (h : pieces.flatten ++ rest = others.flatten ++ tail) : pieces = others ∧ rest = tail := by
  induction pieces generalizing others with
  | nil =>
    obtain rfl := List.eq_nil_of_length_eq_zero hcount.symm
    exact ⟨rfl, h⟩
  | cons piece pieces ih =>
    cases others with
    | nil => cases hcount
    | cons other others =>
      rw [List.flatten_cons, List.flatten_cons, List.append_assoc, List.append_assoc] at h
      have hsame : piece.length = other.length :=
        (hpieces piece List.mem_cons_self).trans (hothers other List.mem_cons_self).symm
      obtain ⟨rfl, hrest⟩ := List.append_inj h hsame
      obtain ⟨rfl, rfl⟩ := ih (fun p hp => hpieces p (List.mem_cons_of_mem _ hp))
        (fun p hp => hothers p (List.mem_cons_of_mem _ hp)) (Nat.succ.inj hcount) hrest
      exact ⟨rfl, rfl⟩

end Presence
