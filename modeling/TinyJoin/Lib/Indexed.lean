import Mathlib.Data.List.AList
import Mathlib.Data.List.Basic

/-! A list of entries and a map from the key of each entry to its position. -/
namespace Indexed
variable {E K V : Type} [DecidableEq K]

/-- The entries of a map that `keep` accepts. -/
def retain (m : AList (fun _ : K => V)) (keep : K → V → Bool) : AList (fun _ : K => V) where
  entries := m.entries.filter (fun entry => keep entry.1 entry.2)
  nodupKeys := m.nodupKeys.sublist List.filter_sublist

lemma lookup_retain (m : AList (fun _ : K => V)) (keep : K → V → Bool) (a : K) :
    (retain m keep).lookup a = (m.lookup a).filter (keep a) := by
  apply Option.ext
  intro b
  have hmem : b ∈ (retain m keep).lookup a ↔ b ∈ m.lookup a ∧ keep a b = true := by
    rw [AList.mem_lookup_iff, AList.mem_lookup_iff, retain, List.mem_filter]
  simpa [Option.mem_def, Option.filter_eq_some_iff] using hmem

/-- The list without its element at `index`, whose place the last one takes. -/
def swapRemove (l : List E) (index : Nat) : List E :=
  match l.getLast? with
  | some last => (l.set index last).dropLast
  | none => l

/-- Each key stands at the position of the one entry that has it. -/
def Holds (key : E → K) (entries : List E) (lookup : AList (fun _ : K => Nat)) : Prop :=
  ∀ k index, lookup.lookup k = some index ↔ ∃ e, entries[index]? = some e ∧ key e = k

variable {key : E → K} {entries : List E} {lookup : AList (fun _ : K => Nat)}

lemma holds_nil : Holds key [] ∅ := by
  intro k index
  simp

lemma Holds.lookup_key (h : Holds key entries lookup) {index : Nat} {e : E}
    (he : entries[index]? = some e) : lookup.lookup (key e) = some index :=
  (h _ _).mpr ⟨e, he, rfl⟩

lemma Holds.getElem? (h : Holds key entries lookup) {k : K} {index : Nat}
    (hk : lookup.lookup k = some index) : ∃ e, entries[index]? = some e ∧ key e = k :=
  (h _ _).mp hk

lemma Holds.index_unique (h : Holds key entries lookup) {i j : Nat} {e f : E}
    (he : entries[i]? = some e) (hf : entries[j]? = some f) (hkey : key e = key f) : i = j := by
  have hi := h.lookup_key he
  rw [hkey, h.lookup_key hf] at hi
  exact (Option.some.inj hi).symm

lemma Holds.mem_of_lookup (h : Holds key entries lookup) {k : K} {index : Nat}
    (hk : lookup.lookup k = some index) : ∃ e ∈ entries, key e = k := by
  obtain ⟨e, he, hkey⟩ := h.getElem? hk
  exact ⟨e, List.mem_of_getElem? he, hkey⟩

lemma Holds.lookup_eq_none_iff (h : Holds key entries lookup) {k : K} :
    lookup.lookup k = none ↔ ∀ e ∈ entries, key e ≠ k := by
  constructor
  · intro hnone e he hkey
    obtain ⟨index, hindex⟩ := List.mem_iff_getElem?.mp he
    have := h.lookup_key hindex
    rw [hkey, hnone] at this
    cases this
  · intro hall
    cases hk : lookup.lookup k with
    | none => rfl
    | some index =>
      obtain ⟨e, he, hkey⟩ := h.mem_of_lookup hk
      exact absurd hkey (hall e he)

/-- Changing an entry but not its key leaves every position as it was. -/
lemma Holds.set (h : Holds key entries lookup) {index : Nat} {e e' : E}
    (he : entries[index]? = some e) (hkey : key e' = key e) :
    Holds key (entries.set index e') lookup := by
  intro k j
  rw [h k j, List.getElem?_set]
  by_cases hj : index = j
  · subst hj
    have hlt : index < entries.length := (List.getElem?_eq_some_iff.mp he).1
    rw [if_pos rfl, if_pos hlt, he]
    simp [hkey]
  · rw [if_neg hj]

lemma Holds.push (h : Holds key entries lookup) {e : E} (hnew : lookup.lookup (key e) = none) :
    Holds key (entries ++ [e]) (lookup.insert (key e) entries.length) := by
  intro k j
  by_cases hk : k = key e
  · subst hk
    rw [AList.lookup_insert, Option.some.injEq]
    constructor
    · rintro rfl
      exact ⟨e, by simp, rfl⟩
    · rintro ⟨f, hf, hkey⟩
      rcases Nat.lt_trichotomy j entries.length with hlt | heq | hgt
      · rw [List.getElem?_append_left hlt] at hf
        exact absurd hkey (h.lookup_eq_none_iff.mp hnew f (List.mem_of_getElem? hf))
      · exact heq.symm
      · rw [List.getElem?_append_right (by omega), List.getElem?_eq_none (by simp; omega)] at hf
        cases hf
  · rw [AList.lookup_insert_ne hk, h k j]
    constructor
    · rintro ⟨f, hf, hkey⟩
      have hlt := (List.getElem?_eq_some_iff.mp hf).1
      exact ⟨f, by rw [List.getElem?_append_left hlt]; exact hf, hkey⟩
    · rintro ⟨f, hf, hkey⟩
      rcases Nat.lt_or_ge j entries.length with hlt | hge
      · rw [List.getElem?_append_left hlt] at hf
        exact ⟨f, hf, hkey⟩
      · rw [List.getElem?_append_right hge] at hf
        have hfe : f = e := by simpa using List.mem_of_getElem? hf
        exact absurd (hfe ▸ hkey).symm hk

/-- Putting an entry with a new key in the place of another. -/
lemma Holds.replace (h : Holds key entries lookup) {index : Nat} {previous e : E}
    (hprev : entries[index]? = some previous)
    (hnew : key e = key previous ∨ lookup.lookup (key e) = none) :
    Holds key (entries.set index e) ((lookup.erase (key previous)).insert (key e) index) := by
  have hlt := (List.getElem?_eq_some_iff.mp hprev).1
  have hother : ∀ j f, j ≠ index → entries[j]? = some f → key f ≠ key e := by
    intro j f hj hf hkey
    rcases hnew with hsame | hnone
    · exact hj (h.index_unique hf hprev (hkey.trans hsame))
    · exact h.lookup_eq_none_iff.mp hnone f (List.mem_of_getElem? hf) hkey
  intro k j
  by_cases hk : k = key e
  · subst hk
    rw [AList.lookup_insert, Option.some.injEq, List.getElem?_set]
    constructor
    · rintro rfl
      exact ⟨e, by simp [hlt], rfl⟩
    · rintro ⟨f, hf, hkey⟩
      by_contra hne
      rw [if_neg hne] at hf
      exact hother j f (Ne.symm hne) hf hkey
  · rw [AList.lookup_insert_ne hk]
    by_cases hkp : k = key previous
    · subst hkp
      rw [AList.lookup_erase]
      refine ⟨fun hn => (nomatch hn), ?_⟩
      rintro ⟨f, hf, hkey⟩
      rw [List.getElem?_set] at hf
      split at hf
      · next hj =>
        subst hj
        rw [Option.some.injEq] at hf
        exact absurd (hf ▸ hkey).symm hk
      · next hj => exact absurd (h.index_unique hprev hf hkey.symm) hj
    · rw [AList.lookup_erase_ne hkp, h k j, List.getElem?_set]
      by_cases hj : index = j
      · subst hj
        simp only [if_true, hlt, hprev, Option.some.injEq]
        constructor
        · rintro ⟨f, rfl, hkey⟩
          exact absurd hkey.symm hkp
        · rintro ⟨f, rfl, hkey⟩
          exact absurd hkey.symm hk
      · simp [hj]

lemma getElem?_swapRemove {l : List E} {index : Nat} (h : index < l.length) (j : Nat) :
    (swapRemove l index)[j]? =
      if j < l.length - 1 then if j = index then l[l.length - 1]? else l[j]? else none := by
  have hlast : l.getLast? = some (l[l.length - 1]) := by
    rw [List.getLast?_eq_getElem?, List.getElem?_eq_getElem (by omega)]
  rw [swapRemove, hlast]
  simp only [List.getElem?_dropLast, List.length_set]
  by_cases hj : j < l.length - 1
  · simp only [hj, if_true, List.getElem?_set, h]
    by_cases hi : j = index
    · rw [if_pos hi.symm, if_pos hi, List.getElem?_eq_getElem (by omega)]
    · rw [if_neg (Ne.symm hi), if_neg hi]
  · simp [hj]

lemma length_swapRemove {l : List E} {index : Nat} (h : index < l.length) :
    (swapRemove l index).length = l.length - 1 := by
  have hlast : l.getLast? = some (l[l.length - 1]) := by
    rw [List.getLast?_eq_getElem?, List.getElem?_eq_getElem (by omega)]
  rw [swapRemove, hlast]
  simp

/-- The map once the entry at `index` is gone and the last has moved into its place. -/
def forget (key : E → K) (entries : List E) (lookup : AList (fun _ : K => Nat)) (k : K)
    (index : Nat) : AList (fun _ : K => Nat) :=
  match (swapRemove entries index)[index]? with
  | some moved => (lookup.erase k).insert (key moved) index
  | none => lookup.erase k

/-- What is left when an entry is removed, as a list: the others, each once. -/
lemma mem_swapRemove (h : Holds key entries lookup) {k : K} {index : Nat}
    (hk : lookup.lookup k = some index) {e : E} :
    e ∈ swapRemove entries index ↔ e ∈ entries ∧ key e ≠ k := by
  obtain ⟨gone, hgone, hkey⟩ := h.getElem? hk
  have hlt := (List.getElem?_eq_some_iff.mp hgone).1
  simp only [List.mem_iff_getElem?, getElem?_swapRemove hlt]
  constructor
  · rintro ⟨j, hj⟩
    split at hj
    · split at hj
      · refine ⟨⟨_, hj⟩, ?_⟩
        intro hsame
        have := h.index_unique hj hgone (hsame.trans hkey.symm)
        omega
      · next hne =>
        refine ⟨⟨_, hj⟩, ?_⟩
        intro hsame
        exact hne (h.index_unique hj hgone (hsame.trans hkey.symm))
    · cases hj
  · rintro ⟨⟨j, hj⟩, hne⟩
    have hjlt := (List.getElem?_eq_some_iff.mp hj).1
    have hji : j ≠ index := by
      rintro rfl
      rw [hgone, Option.some.injEq] at hj
      exact hne (hj ▸ hkey)
    by_cases hlast : j = entries.length - 1
    · refine ⟨index, ?_⟩
      rw [if_pos (by omega), if_pos rfl, ← hlast]
      exact hj
    · refine ⟨j, ?_⟩
      rw [if_pos (by omega), if_neg hji]
      exact hj

lemma Holds.remove (h : Holds key entries lookup) {k : K} {index : Nat}
    (hk : lookup.lookup k = some index) :
    Holds key (swapRemove entries index) (forget key entries lookup k index) := by
  obtain ⟨gone, hgone, hkey⟩ := h.getElem? hk
  have hlt := (List.getElem?_eq_some_iff.mp hgone).1
  have hget := @getElem?_swapRemove _ entries index hlt
  have hsame : ∀ j f, entries[j]? = some f → (key f = k ↔ j = index) := by
    intro j f hf
    constructor
    · intro hfk
      exact h.index_unique hf hgone (hfk.trans hkey.symm)
    · rintro rfl
      rw [hgone, Option.some.injEq] at hf
      exact hf ▸ hkey
  intro k' j
  rw [forget]
  by_cases hend : index = entries.length - 1
  · -- the removed entry was the last: nothing moves
    have hnone : (swapRemove entries index)[index]? = none := by
      rw [hget, if_neg (by omega)]
    rw [hnone, hget]
    by_cases hk' : k' = k
    · subst hk'
      rw [AList.lookup_erase]
      refine ⟨fun hn => (nomatch hn), ?_⟩
      rintro ⟨f, hf, hfk⟩
      split at hf
      · rw [if_neg (by omega)] at hf
        have := (hsame j f hf).mp hfk
        omega
      · cases hf
    · rw [AList.lookup_erase_ne hk', h k' j]
      constructor
      · rintro ⟨f, hf, hfk⟩
        have hjlt := (List.getElem?_eq_some_iff.mp hf).1
        have hne : j ≠ index := fun heq => hk' (hfk.symm.trans ((hsame j f hf).mpr heq))
        exact ⟨f, by rw [if_pos (by omega), if_neg hne]; exact hf, hfk⟩
      · rintro ⟨f, hf, hfk⟩
        split at hf
        · rw [if_neg (by omega)] at hf
          exact ⟨f, hf, hfk⟩
        · cases hf
  · -- the last entry takes the place of the removed one
    have hlast : entries[entries.length - 1]? = some (entries[entries.length - 1]) :=
      List.getElem?_eq_getElem (by omega)
    generalize entries[entries.length - 1] = moved at hlast
    have hmoved : (swapRemove entries index)[index]? = some moved := by
      rw [hget, if_pos (by omega), if_pos rfl]
      exact hlast
    have hmk : key moved ≠ k := by
      intro heq
      have := (hsame _ moved hlast).mp heq
      omega
    rw [hmoved, hget]
    by_cases hkm : k' = key moved
    · subst hkm
      rw [AList.lookup_insert, Option.some.injEq]
      constructor
      · rintro rfl
        exact ⟨moved, by rw [if_pos (by omega), if_pos rfl]; exact hlast, rfl⟩
      · rintro ⟨f, hf, hfk⟩
        split at hf
        · split at hf
          · next hji => exact hji.symm
          · have := h.index_unique hf hlast hfk
            omega
        · cases hf
    · rw [AList.lookup_insert_ne hkm]
      by_cases hk' : k' = k
      · subst hk'
        rw [AList.lookup_erase]
        refine ⟨fun hn => (nomatch hn), ?_⟩
        rintro ⟨f, hf, hfk⟩
        split at hf
        · split at hf
          · rw [hlast, Option.some.injEq] at hf
            exact absurd (hf ▸ hfk) hmk
          · next hji => exact absurd ((hsame j f hf).mp hfk) hji
        · cases hf
      · rw [AList.lookup_erase_ne hk', h k' j]
        constructor
        · rintro ⟨f, hf, hfk⟩
          have hjlt := (List.getElem?_eq_some_iff.mp hf).1
          have hne : j ≠ index := fun heq => hk' (hfk.symm.trans ((hsame j f hf).mpr heq))
          have hnl : j ≠ entries.length - 1 := by
            rintro rfl
            rw [hlast, Option.some.injEq] at hf
            exact hkm (hf ▸ hfk.symm)
          exact ⟨f, by rw [if_pos (by omega), if_neg hne]; exact hf, hfk⟩
        · rintro ⟨f, hf, hfk⟩
          split at hf
          · split at hf
            · rw [hlast, Option.some.injEq] at hf
              exact absurd (hf ▸ hfk).symm hkm
            · exact ⟨f, hf, hfk⟩
          · cases hf

end Indexed
