import TinyJoin.Lib.Bytes

/-! Lists that are changed within a range: nothing before it or after it is, and no element is lost. -/
namespace Bytes
universe u
variable {α : Type u}

lemma slice_congr {l l' : List α} {start stop : Nat}
    (h : ∀ i, start ≤ i → i < stop → l'[i]? = l[i]?) : slice l' start stop = slice l start stop := by
  apply List.ext_getElem?
  intro i
  rw [slice, slice, List.getElem?_take, List.getElem?_take, List.getElem?_drop, List.getElem?_drop]
  by_cases hi : i < stop - start
  · rw [if_pos hi, if_pos hi]
    exact h _ (by omega) (by omega)
  · rw [if_neg hi, if_neg hi]

/-- From `l` to `l'`, nothing is changed but from `start` up to `stop`. -/
structure ChangedIn (start stop : Nat) (l l' : List α) : Prop where
  length_le : l.length ≤ l'.length
  outside : ∀ i, (i < start ∨ stop ≤ i) → l'[i]? = l[i]?

namespace ChangedIn
variable {start stop start' stop' : Nat} {l l' l'' : List α}

lemma refl (start stop : Nat) (l : List α) : ChangedIn start stop l l := ⟨Nat.le_refl _, fun _ _ => rfl⟩

lemma trans (h : ChangedIn start stop l l') (h' : ChangedIn start stop l' l'') :
    ChangedIn start stop l l'' :=
  ⟨h.length_le.trans h'.length_le, fun i hi => (h'.outside i hi).trans (h.outside i hi)⟩

lemma mono (h : ChangedIn start stop l l') (hstart : start' ≤ start) (hstop : stop ≤ stop') :
    ChangedIn start' stop' l l' :=
  ⟨h.length_le, fun i hi => h.outside i (by omega)⟩

lemma put {source : List α} (h : start ≤ l.length) :
    ChangedIn start (start + source.length) l (Bytes.put l start source) :=
  ⟨length_put_le h, fun _ hi => getElem?_put h hi⟩

/-- A range within a list is changed in place. -/
lemma length_eq (h : ChangedIn start stop l l') (hstop : stop ≤ l.length) : l'.length = l.length := by
  refine Nat.le_antisymm ?_ h.length_le
  have hend := h.outside l.length (.inr hstop)
  rw [List.getElem?_eq_none (Nat.le_refl _)] at hend
  exact List.getElem?_eq_none_iff.mp hend

lemma slice_eq {first last : Nat} (h : ChangedIn start stop l l') (hout : last ≤ start ∨ stop ≤ first) :
    slice l' first last = slice l first last :=
  slice_congr (fun i _ _ => h.outside i (by omega))

lemma take_eq {n : Nat} (h : ChangedIn start stop l l') (hn : n ≤ start) : l'.take n = l.take n := by
  have hslice := @slice_eq _ _ _ _ _ 0 n h (.inl hn)
  rwa [slice, slice, List.drop_zero, List.drop_zero, Nat.sub_zero] at hslice

end ChangedIn

/-- A write and the one that goes on from its end are one. -/
lemma put_put_append {l x y : List α} {offset : Nat} (h : offset ≤ l.length) :
    put (put l offset x) (offset + x.length) y = put l offset (x ++ y) := by
  have htake : (put l offset x).take (offset + x.length) = l.take offset ++ x := by
    have hlength : (l.take offset ++ x).length = offset + x.length := by
      rw [List.length_append, List.length_take]
      omega
    rw [put, List.take_append_of_le_length (by omega), List.take_of_length_le (by omega)]
  have hdrop : (put l offset x).drop (offset + x.length + y.length) =
      l.drop (offset + (x ++ y).length) := by
    have hlength : (l.take offset ++ x).length = offset + x.length := by
      rw [List.length_append, List.length_take]
      omega
    rw [put, List.drop_append, List.drop_of_length_le (by omega), hlength, List.nil_append,
      List.drop_drop, List.length_append]
    congr 1
    omega
  rw [put, htake, hdrop, put, List.append_assoc (l.take offset)]

end Bytes
