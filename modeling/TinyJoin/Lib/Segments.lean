import Mathlib.Data.List.Forall2
import Mathlib.Data.List.Infix

/-! Patterns of segments, each of which fits as many characters as it has elements, with any characters
between two of them. To take the first place where a segment fits loses no match. -/
namespace Segments
universe u v
variable {ε : Type u} {α : Type v} {admits : ε → α → Prop}

/-- Whether a text is segments, each behind any characters. -/
def Follows (admits : ε → α → Prop) : List (List ε) → List α → Prop
  | [], text => text = []
  | segment :: rest, text => ∃ gap part after, text = gap ++ (part ++ after) ∧
      List.Forall₂ admits segment part ∧ Follows admits rest after

/-- A segment's first place in a text. -/
structure Leftmost (admits : ε → α → Prop) (segment : List ε) (text gap part after : List α) : Prop where
  split : text = gap ++ (part ++ after)
  fits : List.Forall₂ admits segment part
  least : ∀ gap' part' after', text = gap' ++ (part' ++ after') →
    List.Forall₂ admits segment part' → gap.length ≤ gap'.length

variable {segment next : List ε} {rest : List (List ε)} {text gap part after : List α}

lemma Follows.behind (h : Follows admits (next :: rest) text) (gap : List α) :
    Follows admits (next :: rest) (gap ++ text) := by
  obtain ⟨gap', part, after, rfl, hfits, hrest⟩ := h
  exact ⟨gap ++ gap', part, after, (List.append_assoc ..).symm, hfits, hrest⟩

/-- The first place serves as well as any. -/
theorem Leftmost.follows_iff (first : Leftmost admits segment text gap part after) :
    Follows admits (segment :: next :: rest) text ↔ Follows admits (next :: rest) after := by
  constructor
  · rintro ⟨gap', part', after', hsplit, hfits, hrest⟩
    have hgap := first.least gap' part' after' hsplit hfits
    have hpart : part.length = part'.length := first.fits.length_eq.symm.trans hfits.length_eq
    have htext : (gap ++ part) ++ after = (gap' ++ part') ++ after' := by
      rw [List.append_assoc, List.append_assoc, ← first.split, hsplit]
    rcases List.append_eq_append_iff.mp htext with ⟨more, -, rfl⟩ | ⟨more, hfirst, rfl⟩
    · exact hrest.behind more
    · have hlength := congrArg List.length hfirst
      rw [List.length_append, List.length_append, List.length_append] at hlength
      obtain rfl := List.length_eq_zero_iff.mp (by omega : more.length = 0)
      exact hrest
  · exact fun h => ⟨gap, part, after, first.split, first.fits, h⟩

/-- A segment of no elements fits anywhere. -/
lemma follows_nil_cons : Follows admits ([] :: next :: rest) text ↔ Follows admits (next :: rest) text :=
  (⟨rfl, .nil, fun _ _ _ _ _ => Nat.zero_le _⟩ : Leftmost admits [] text [] [] text).follows_iff

end Segments
