import Mathlib.Data.List.Nodup

/-! Maps that keep their keys in the order in which each was first set, as a script's `Map` does. -/

structure InsertionMap (κ β : Type) where
  entries : List (κ × β)
  nodup : (entries.map Prod.fst).Nodup

namespace InsertionMap
variable {κ β : Type}

def empty : InsertionMap κ β := ⟨[], List.nodup_nil⟩

variable [DecidableEq κ]

def get (map : InsertionMap κ β) (key : κ) : Option β := map.entries.lookup key

def has (map : InsertionMap κ β) (key : κ) : Bool := (map.get key).isSome

/-- The entries with one key's value replaced, or behind them the key's first. -/
def put (key : κ) (value : β) : List (κ × β) → List (κ × β)
  | [] => [(key, value)]
  | entry :: rest =>
    if entry.1 = key then (key, value) :: rest else entry :: put key value rest

lemma keys_put (key : κ) (value : β) (entries : List (κ × β)) :
    (put key value entries).map Prod.fst =
      if key ∈ entries.map Prod.fst then entries.map Prod.fst
      else entries.map Prod.fst ++ [key] := by
  induction entries with
  | nil => rfl
  | cons entry rest ih =>
    rw [put]
    by_cases hkey : entry.1 = key
    · rw [if_pos hkey, if_pos (by rw [List.map_cons, hkey]; exact List.mem_cons_self), List.map_cons,
        List.map_cons, hkey]
    · rw [if_neg hkey, List.map_cons, ih]
      simp only [List.map_cons, List.mem_cons, Ne.symm hkey, false_or]
      split
      · rfl
      · rfl

def set (map : InsertionMap κ β) (key : κ) (value : β) : InsertionMap κ β where
  entries := put key value map.entries
  nodup := by
    rw [keys_put]
    split
    · exact map.nodup
    · next hnew =>
      exact map.nodup.append (List.nodup_singleton key)
        (List.disjoint_singleton.mpr hnew)

def delete (map : InsertionMap κ β) (key : κ) : InsertionMap κ β where
  entries := map.entries.filter (fun entry => !decide (entry.1 = key))
  nodup := map.nodup.sublist (List.filter_sublist.map Prod.fst)

/-! ## Reading -/

@[simp] lemma get_empty (key : κ) : (empty : InsertionMap κ β).get key = none := rfl

lemma lookup_put (key other : κ) (value : β) (entries : List (κ × β)) :
    (put key value entries).lookup other = if other = key then some value else
      entries.lookup other := by
  induction entries with
  | nil =>
    rw [put, List.lookup_cons, List.lookup_nil]
    by_cases h : other = key
    · rw [if_pos h, beq_iff_eq.mpr h]
    · rw [if_neg h, beq_eq_false_iff_ne.mpr h]
  | cons entry rest ih =>
    rw [put]
    by_cases hkey : entry.1 = key
    · rw [if_pos hkey, List.lookup_cons, List.lookup_cons]
      by_cases h : other = key
      · rw [if_pos h, beq_iff_eq.mpr h]
      · rw [if_neg h, beq_eq_false_iff_ne.mpr h, beq_eq_false_iff_ne.mpr (by rw [hkey]; exact h)]
    · rw [if_neg hkey, List.lookup_cons, List.lookup_cons, ih]
      by_cases h : other = key
      · subst h
        simp only [if_true, beq_eq_false_iff_ne.mpr (Ne.symm hkey)]
      · simp only [if_neg h]

lemma get_set (map : InsertionMap κ β) (key other : κ) (value : β) :
    (map.set key value).get other = if other = key then some value else map.get other :=
  lookup_put key other value map.entries

@[simp] lemma get_set_self (map : InsertionMap κ β) (key : κ) (value : β) :
    (map.set key value).get key = some value := by
  rw [get_set, if_pos rfl]

lemma get_set_of_ne (map : InsertionMap κ β) {key other : κ} (value : β) (h : other ≠ key) :
    (map.set key value).get other = map.get other := by
  rw [get_set, if_neg h]

lemma mem_entries_iff (map : InsertionMap κ β) (key : κ) (value : β) :
    (key, value) ∈ map.entries ↔ map.get key = some value := by
  obtain ⟨entries, nodup⟩ := map
  rw [get]
  induction entries with
  | nil => exact ⟨fun h => (nomatch h), fun h => (nomatch h)⟩
  | cons entry rest ih =>
    rw [List.map_cons, List.nodup_cons] at nodup
    obtain ⟨name, first⟩ := entry
    simp only [List.mem_cons, List.lookup_cons, Prod.mk.injEq] at ih ⊢
    rw [ih nodup.2]
    by_cases h : key = name
    · subst h
      rw [beq_self_eq_true]
      constructor
      · rintro (⟨-, rfl⟩ | hrest)
        · rfl
        · have hmem := (ih nodup.2).mpr hrest
          exact absurd (List.mem_map_of_mem (f := Prod.fst) hmem) nodup.1
      · exact fun h => .inl ⟨rfl, (Option.some.inj h).symm⟩
    · rw [beq_eq_false_iff_ne.mpr h]
      exact ⟨fun hor => hor.resolve_left (fun hand => h hand.1), .inr⟩

lemma get_delete (map : InsertionMap κ β) (key other : κ) :
    (map.delete key).get other = if other = key then none else map.get other := by
  by_cases h : other = key
  · subst h
    rw [if_pos rfl, ← Option.not_isSome_iff_eq_none, Option.isSome_iff_exists]
    rintro ⟨value, hvalue⟩
    have hmem := (List.mem_filter.mp ((mem_entries_iff _ _ _).mpr hvalue)).2
    rw [Bool.not_eq_true', decide_eq_false_iff_not] at hmem
    exact hmem rfl
  · rw [if_neg h]
    ext value
    rw [← mem_entries_iff, ← mem_entries_iff, delete, List.mem_filter]
    exact ⟨fun hmem => hmem.1, fun hmem => ⟨hmem, by simpa using h⟩⟩

/-! ## Counting -/

lemma countP_put (p : κ × β → Bool) (key : κ) (value : β) (entries : List (κ × β)) :
    (put key value entries).countP p ≤ entries.countP p + if p (key, value) then 1 else 0 := by
  induction entries with
  | nil => simp [put, List.countP_cons]
  | cons entry rest ih =>
    rw [put]
    split
    · rw [List.countP_cons, List.countP_cons]
      omega
    · rw [List.countP_cons, List.countP_cons]
      omega

/-- What replacing a value comes to. -/
lemma countP_put_of_mem (p : κ × β → Bool) {key : κ} {old : β} (value : β) {entries : List (κ × β)}
    (nodup : (entries.map Prod.fst).Nodup) (h : (key, old) ∈ entries) :
    (put key value entries).countP p + (if p (key, old) then 1 else 0) =
      entries.countP p + if p (key, value) then 1 else 0 := by
  induction entries with
  | nil => cases h
  | cons entry rest ih =>
    rw [List.map_cons, List.nodup_cons] at nodup
    rw [put]
    rcases List.mem_cons.mp h with rfl | hrest
    · rw [if_pos rfl, List.countP_cons, List.countP_cons]
      omega
    · have hne : entry.1 ≠ key := fun heq => nodup.1 (heq ▸ List.mem_map_of_mem (f := Prod.fst) hrest)
      rw [if_neg hne, List.countP_cons, List.countP_cons]
      have := ih nodup.2 hrest
      omega

end InsertionMap
