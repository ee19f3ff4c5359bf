import Mathlib.Data.List.Basic
import Mathlib.Data.Nat.Bitwise
import Mathlib.Data.Nat.Find

/-! An index of a growing list of distinct keys by open addressing: a power of two of slots, each
free or holding a position of the list, probed one after another from the slot a key hashes to.
Nothing is ever taken out, so a key's probe passes only filled slots before it. -/
namespace Probing

/-- Where a key was found, or else the free slot its probe ended at. -/
abbrev Probe : Type := Except Nat Nat

section Definitions
variable {α : Type} [DecidableEq α]

/-- Probes at most `steps` slots from `slot` for the position of `key` among `keys`. -/
def findFrom (slots : List (Option Nat)) (keys : List α) (key : α) : Nat → Nat → Probe
  | 0, slot => .error slot
  | steps + 1, slot =>
    match slots[slot]? with
    | some (some position) =>
      if keys[position]? = some key then .ok position
      else findFrom slots keys key steps ((slot + 1) &&& (slots.length - 1))
    | _ => .error slot

def find (home : Nat → α → Nat) (slots : List (Option Nat)) (keys : List α) (key : α) : Probe :=
  if slots.isEmpty then .error 0
  else findFrom slots keys key slots.length (home slots.length key)

/-- The first free slot of the `steps` from `slot`. -/
def freeFrom (slots : List (Option Nat)) : Nat → Nat → Nat
  | 0, slot => slot
  | steps + 1, slot =>
    match slots[slot]? with
    | some (some _) => freeFrom slots steps ((slot + 1) &&& (slots.length - 1))
    | _ => slot

def place (home : Nat → α → Nat) (slots : List (Option Nat)) (key : α) (position : Nat) :
    List (Option Nat) :=
  slots.set (freeFrom slots slots.length (home slots.length key)) (some position)

/-- Places every key, from `position` on. -/
def placeAll (home : Nat → α → Nat) : List (Option Nat) → Nat → List α → List (Option Nat)
  | slots, _, [] => slots
  | slots, position, key :: keys => placeAll home (place home slots key position) (position + 1) keys

def grow (home : Nat → α → Nat) (slots : List (Option Nat)) (keys : List α) : List (Option Nat) :=
  placeAll home (List.replicate (max (slots.length * 2) 16) none) 0 keys

/-- Adds the last of `keys`, whose probe ended at `slot`. -/
def insert (home : Nat → α → Nat) (slots : List (Option Nat)) (keys : List α)
    (position slot : Nat) : List (Option Nat) :=
  if keys.length * 2 > slots.length then grow home slots keys
  else slots.set slot (some position)
end Definitions

section Slots
variable {slots : List (Option Nat)} {start distance position : Nat}

/-- The slot `distance` steps from `start`. -/
def around (slots : List (Option Nat)) (start distance : Nat) : Nat :=
  (start + distance) % slots.length

/-- Every slot before the one `distance` steps from `start` is filled. -/
def FilledBefore (slots : List (Option Nat)) (start distance : Nat) : Prop :=
  ∀ d < distance, ∃ q, slots[around slots start d]? = some (some q)

/-- The probe from `start` meets `position`, past filled slots only. -/
def Reaches (slots : List (Option Nat)) (start position : Nat) : Prop :=
  ∃ distance < slots.length, slots[around slots start distance]? = some (some position) ∧
    FilledBefore slots start distance

lemma around_lt (hne : 0 < slots.length) : around slots start distance < slots.length :=
  Nat.mod_lt _ hne

lemma around_zero (h : start < slots.length) : around slots start 0 = start :=
  Nat.mod_eq_of_lt h

/-- The mask of a power of two of slots steps around their end. -/
lemma around_succ (hpower : ∃ bits, slots.length = 2 ^ bits) :
    (around slots start distance + 1) &&& (slots.length - 1) =
      around slots start (distance + 1) := by
  obtain ⟨bits, hbits⟩ := hpower
  rw [around, around, hbits, Nat.and_two_pow_sub_one_eq_mod, Nat.mod_add_mod, Nat.add_assoc]

/-- A slot that is not the free one of a probe is around it at another distance. -/
lemma exists_around_eq {slot : Nat} (hslot : slot < slots.length) (hstart : start < slots.length) :
    ∃ d < slots.length, around slots start d = slot := by
  by_cases hle : start ≤ slot
  · refine ⟨slot - start, by omega, ?_⟩
    rw [around, Nat.add_sub_cancel' hle, Nat.mod_eq_of_lt hslot]
  · refine ⟨slot + slots.length - start, by omega, ?_⟩
    have hsum : start + (slot + slots.length - start) = slot + slots.length := by omega
    rw [around, hsum, Nat.add_mod_right, Nat.mod_eq_of_lt hslot]

/-- With a slot to spare, a probe from anywhere comes to a free one, past filled slots only. -/
lemma exists_free (hfull : slots.countP Option.isSome < slots.length)
    (hstart : start < slots.length) :
    ∃ d < slots.length, slots[around slots start d]? = some none ∧ FilledBefore slots start d := by
  have hfree : ∃ slot : Nat, slots[slot]? = some none := by
    by_contra hnone
    have hall : ∀ o ∈ slots, o.isSome = true := by
      intro o ho
      obtain ⟨i, hi⟩ := List.mem_iff_getElem?.mp ho
      cases o with
      | none => exact absurd ⟨i, hi⟩ hnone
      | some q => rfl
    rw [List.countP_eq_length.mpr hall] at hfull
    exact lt_irrefl _ hfull
  obtain ⟨slot, hslot⟩ := hfree
  have hlt : slot < slots.length := (List.getElem?_eq_some_iff.mp hslot).1
  obtain ⟨d, hd, haround⟩ := exists_around_eq hlt hstart
  have hex : ∃ d, d < slots.length ∧ slots[around slots start d]? = some none :=
    ⟨d, hd, haround ▸ hslot⟩
  -- The first such distance: every slot before it is filled.
  refine ⟨Nat.find hex, (Nat.find_spec hex).1, (Nat.find_spec hex).2, ?_⟩
  intro e he
  have hnot := Nat.find_min hex he
  have helt : e < slots.length := he.trans (Nat.find_spec hex).1
  have hin : around slots start e < slots.length := around_lt (Nat.zero_lt_of_lt hstart)
  rw [List.getElem?_eq_getElem hin] at hnot ⊢
  cases hvalue : slots[around slots start e] with
  | none => exact absurd ⟨helt, by rw [hvalue]⟩ hnot
  | some q => exact ⟨q, rfl⟩
end Slots

section Keys
variable {α : Type} {home : Nat → α → Nat} {slots : List (Option Nat)} {keys : List α} {key : α}

/-- A filled index of `keys`: each key's probe reaches its position, and a slot is free. -/
structure Indexed (home : Nat → α → Nat) (slots : List (Option Nat)) (keys : List α) : Prop where
  power : ∃ bits, slots.length = 2 ^ bits
  filled : slots.countP Option.isSome = keys.length
  half : keys.length * 2 ≤ slots.length
  held : ∀ slot position : Nat, slots[slot]? = some (some position) → position < keys.length
  reached : ∀ (position : Nat) (key : α), keys[position]? = some key →
    Reaches slots (home slots.length key) position

/-- An index before its first key, or a filled one. -/
def Fits (home : Nat → α → Nat) (slots : List (Option Nat)) (keys : List α) : Prop :=
  slots = [] ∧ keys = [] ∨ Indexed home slots keys

/-- A hash that takes its slot among however many there are. -/
def InBounds (home : Nat → α → Nat) : Prop := ∀ bits key, home (2 ^ bits) key < 2 ^ bits

lemma InBounds.home_lt (hhome : InBounds home) (hpower : ∃ bits, slots.length = 2 ^ bits) :
    home slots.length key < slots.length := by
  obtain ⟨bits, hbits⟩ := hpower
  rw [hbits]
  exact hhome bits key

lemma Indexed.length_pos (h : Indexed home slots keys) : 0 < slots.length := by
  obtain ⟨bits, hbits⟩ := h.power
  rw [hbits]
  exact Nat.two_pow_pos bits

lemma Indexed.spare (h : Indexed home slots keys) :
    slots.countP Option.isSome < slots.length := by
  have := h.length_pos
  have := h.half
  rw [h.filled]
  omega

lemma freeFrom_eq (hpower : ∃ bits, slots.length = 2 ^ bits) {start : Nat} :
    ∀ (steps d : Nat), slots[around slots start (d + steps)]? = some none →
      (∀ e < steps, ∃ q, slots[around slots start (d + e)]? = some (some q)) →
      ∀ more, freeFrom slots (steps + more + 1) (around slots start d) =
        around slots start (d + steps)
  | 0, d, hfree, _, more => by
    rw [Nat.add_zero] at hfree ⊢
    simp only [freeFrom, hfree, Nat.add_zero]
  | steps + 1, d, hfree, hfilled, more => by
    obtain ⟨q, hq⟩ := hfilled 0 (Nat.succ_pos steps)
    have ih := freeFrom_eq hpower steps (d + 1)
      (by rw [Nat.add_assoc, Nat.add_comm 1 steps]; exact hfree)
      (fun e he => by
        rw [Nat.add_assoc, Nat.add_comm 1 e]
        exact hfilled (e + 1) (by omega)) more
    rw [show steps + 1 + more + 1 = (steps + more + 1) + 1 from by omega, freeFrom]
    rw [Nat.add_zero] at hq
    rw [hq]
    simp only
    rw [around_succ hpower, ih]
    congr 1
    omega

lemma place_eq (hpower : ∃ bits, slots.length = 2 ^ bits) (hhome : InBounds home) {d : Nat}
    (hd : d < slots.length)
    (hfree : slots[around slots (home slots.length key) d]? = some none)
    (hfilled : FilledBefore slots (home slots.length key) d) (position : Nat) :
    place home slots key position =
      slots.set (around slots (home slots.length key) d) (some position) := by
  have h := freeFrom_eq hpower d 0 (by rw [Nat.zero_add]; exact hfree)
    (fun e he => by rw [Nat.zero_add]; exact hfilled e he) (slots.length - d - 1)
  rw [around_zero (hhome.home_lt hpower), Nat.zero_add] at h
  rw [place, show slots.length = d + (slots.length - d - 1) + 1 by omega]
  rw [show d + (slots.length - d - 1) + 1 = slots.length by omega] at h ⊢
  rw [h]

/-- Filling the free slot a key's probe comes to keeps every probe, and adds the key's. -/
lemma Indexed.fill (h : Indexed home slots keys) (hroom : (keys.length + 1) * 2 ≤ slots.length)
    {d : Nat} (hd : d < slots.length)
    (hfree : slots[around slots (home slots.length key) d]? = some none)
    (hfilled : FilledBefore slots (home slots.length key) d) :
    Indexed home (slots.set (around slots (home slots.length key) d) (some keys.length))
      (keys ++ [key]) := by
  set slot := around slots (home slots.length key) d with hslot
  have hlt : slot < slots.length := (List.getElem?_eq_some_iff.mp hfree).1
  have hother : ∀ (other q : Nat), slots[other]? = some (some q) →
      (slots.set slot (some keys.length))[other]? = some (some q) := by
    intro other q hq
    rw [List.getElem?_set_ne ?_]
    · exact hq
    · rintro rfl
      rw [hfree] at hq
      cases hq
  have haround : ∀ start e,
      around (slots.set slot (some keys.length)) start e = around slots start e := by
    intro start e
    rw [around, around, List.length_set]
  refine ⟨by rw [List.length_set]; exact h.power, ?_, ?_, ?_, ?_⟩
  · have hcount := List.countP_set (p := Option.isSome) (l := slots) (a := some keys.length) hlt
    have hnone : slots[slot] = none := by
      rw [List.getElem?_eq_getElem hlt] at hfree
      exact Option.some.inj hfree
    rw [hcount, hnone, h.filled]
    simp
  · rw [List.length_append, List.length_set]
    exact hroom
  · intro other q hq
    rw [List.length_append]
    rw [List.getElem?_set] at hq
    split at hq
    · cases hq
      exact Nat.lt_succ_self _
    · exact (h.held other q hq).trans (Nat.lt_succ_self _)
  · intro position k hk
    rw [List.length_set]
    by_cases hold : position < keys.length
    · rw [List.getElem?_append_left hold] at hk
      obtain ⟨e, he, hat, hbefore⟩ := h.reached position k hk
      refine ⟨e, by rw [List.length_set]; exact he, ?_, ?_⟩
      · rw [haround]
        exact hother _ _ hat
      · intro e' he'
        obtain ⟨q, hq⟩ := hbefore e' he'
        rw [haround]
        exact ⟨q, hother _ _ hq⟩
    · rw [List.getElem?_append_right (by omega)] at hk
      obtain ⟨hpos, hkey⟩ : position = keys.length ∧ k = key := by
        have := (List.getElem?_eq_some_iff.mp hk).1
        simp only [List.length_singleton] at this
        have hpos : position = keys.length := by omega
        subst hpos
        simpa using hk.symm
      subst hpos hkey
      refine ⟨d, by rw [List.length_set]; exact hd, ?_, ?_⟩
      · rw [haround, ← hslot, List.getElem?_set_self hlt]
      · intro e he
        obtain ⟨q, hq⟩ := hfilled e he
        rw [haround]
        exact ⟨q, hother _ _ hq⟩

lemma Indexed.place (hhome : InBounds home) (h : Indexed home slots keys)
    (hroom : (keys.length + 1) * 2 ≤ slots.length) :
    Indexed home (place home slots key keys.length) (keys ++ [key]) := by
  obtain ⟨d, hd, hfree, hfilled⟩ := exists_free h.spare (hhome.home_lt h.power)
  rw [place_eq h.power hhome hd hfree hfilled]
  exact h.fill hroom hd hfree hfilled

lemma length_place (position : Nat) : (place home slots key position).length = slots.length := by
  rw [Probing.place, List.length_set]

lemma Indexed.placeAll (hhome : InBounds home) (more : List α) (h : Indexed home slots keys)
    (hroom : (keys.length + more.length) * 2 ≤ slots.length) :
    Indexed home (placeAll home slots keys.length more) (keys ++ more) := by
  induction more generalizing slots keys with
  | nil =>
    rw [List.append_nil]
    exact h
  | cons key more ih =>
    rw [List.length_cons] at hroom
    have hplaced : Indexed home (Probing.place home slots key keys.length) (keys ++ [key]) :=
      h.place hhome (by omega)
    have := ih hplaced (by rw [List.length_append, List.length_singleton, length_place]; omega)
    rw [List.length_append, List.length_singleton, List.append_assoc] at this
    exact this

/-- Growing places every key afresh. -/
lemma indexed_grow (hhome : InBounds home) (hpower : slots = [] ∨ ∃ bits, slots.length = 2 ^ bits)
    (hroom : keys.length * 2 ≤ max (slots.length * 2) 16) :
    Indexed home (grow home slots keys) keys := by
  have hempty : Indexed home (List.replicate (max (slots.length * 2) 16) none) ([] : List α) := by
    refine ⟨?_, ?_, ?_, ?_, ?_⟩
    · rw [List.length_replicate]
      rcases hpower with rfl | ⟨bits, hbits⟩
      · exact ⟨4, by simp⟩
      · rw [hbits, ← pow_succ]
        rcases le_total (bits + 1) 4 with hle | hle
        · exact ⟨4, max_eq_right (Nat.pow_le_pow_right Nat.two_pos hle)⟩
        · exact ⟨bits + 1, max_eq_left (Nat.pow_le_pow_right Nat.two_pos hle)⟩
    · simp [List.countP_replicate]
    · simp
    · intro slot position hslot
      simp [List.getElem?_replicate] at hslot
    · intro position key hkey
      simp at hkey
  have h := hempty.placeAll hhome keys (by
    rw [List.length_nil, Nat.zero_add, List.length_replicate]
    exact hroom)
  rw [List.nil_append] at h
  exact h

section Find
variable [DecidableEq α]

/-- A probe passes over filled slots of other keys, up to a free slot or the key's own. -/
lemma findFrom_eq (hpower : ∃ bits, slots.length = 2 ^ bits) {start : Nat} :
    ∀ (steps d : Nat),
      (∀ e < steps, ∃ q, slots[around slots start (d + e)]? = some (some q) ∧
        keys[q]? ≠ some key) →
      ∀ more, findFrom slots keys key (steps + more) (around slots start d) =
        findFrom slots keys key more (around slots start (d + steps))
  | 0, d, _, more => by rw [Nat.add_zero, Nat.zero_add]
  | steps + 1, d, hfilled, more => by
    obtain ⟨q, hq, hkey⟩ := hfilled 0 (Nat.succ_pos steps)
    have ih := findFrom_eq hpower steps (d + 1)
      (fun e he => by
        rw [Nat.add_assoc, Nat.add_comm 1 e]
        exact hfilled (e + 1) (by omega)) more
    rw [Nat.add_zero] at hq
    rw [show steps + 1 + more = (steps + more) + 1 by omega, findFrom, hq]
    simp only
    rw [if_neg hkey, around_succ hpower, ih, Nat.add_right_comm, Nat.add_assoc d steps 1]

lemma Indexed.find_of_mem (hhome : InBounds home) (h : Indexed home slots keys)
    (hnodup : keys.Nodup) {position : Nat} (hkey : keys[position]? = some key) :
    find home slots keys key = .ok position := by
  obtain ⟨d, hd, hat, hfilled⟩ := h.reached position key hkey
  have hne : slots.isEmpty = false := by
    rw [List.isEmpty_eq_false_iff, ← List.length_pos_iff]
    exact h.length_pos
  -- The least distance at which the key's position stands.
  have hex : ∃ e, e ≤ d ∧ slots[around slots (home slots.length key) e]? = some (some position) :=
    ⟨d, le_rfl, hat⟩
  set e := Nat.find hex with he
  obtain ⟨hle, hate⟩ := Nat.find_spec hex
  have hbefore : ∀ e' < e, ∃ q,
      slots[around slots (home slots.length key) (0 + e')]? = some (some q) ∧
        keys[q]? ≠ some key := by
    intro e' he'
    obtain ⟨q, hq⟩ := hfilled e' (lt_of_lt_of_le he' hle)
    rw [Nat.zero_add]
    refine ⟨q, hq, fun hk => ?_⟩
    have hsame : q = position := by
      have hlt : q < keys.length := (List.getElem?_eq_some_iff.mp hk).1
      exact (List.getElem?_inj hlt hnodup).mp (hk.trans hkey.symm)
    exact Nat.find_min hex he' ⟨(le_of_lt he').trans hle, hsame ▸ hq⟩
  have hstep := findFrom_eq h.power e 0 hbefore (slots.length - e - 1 + 1)
  rw [around_zero (hhome.home_lt h.power), Nat.zero_add] at hstep
  rw [find, if_neg (by rw [hne]; exact Bool.false_ne_true),
    show slots.length = e + (slots.length - e - 1 + 1) by omega]
  rw [show e + (slots.length - e - 1 + 1) = slots.length by omega] at hstep ⊢
  rw [hstep, findFrom, hate]
  simp only
  rw [if_pos hkey]

/-- The probe of a key not there ends at the free slot it would fill. -/
lemma Indexed.find_of_not_mem (hhome : InBounds home) (h : Indexed home slots keys)
    (hkey : key ∉ keys) :
    ∃ d < slots.length, slots[around slots (home slots.length key) d]? = some none ∧
      FilledBefore slots (home slots.length key) d ∧
      find home slots keys key = .error (around slots (home slots.length key) d) := by
  obtain ⟨d, hd, hfree, hfilled⟩ := exists_free h.spare (hhome.home_lt h.power)
  refine ⟨d, hd, hfree, hfilled, ?_⟩
  have hne : slots.isEmpty = false := by
    rw [List.isEmpty_eq_false_iff, ← List.length_pos_iff]
    exact h.length_pos
  have hstep := findFrom_eq h.power d 0
    (fun e he => by
      obtain ⟨q, hq⟩ := hfilled e he
      rw [Nat.zero_add]
      exact ⟨q, hq, fun hk => hkey (List.mem_of_getElem? hk)⟩) (slots.length - d - 1 + 1)
  rw [around_zero (hhome.home_lt h.power), Nat.zero_add] at hstep
  rw [find, if_neg (by rw [hne]; exact Bool.false_ne_true),
    show slots.length = d + (slots.length - d - 1 + 1) by omega]
  rw [show d + (slots.length - d - 1 + 1) = slots.length by omega] at hstep ⊢
  rw [hstep]
  simp only [findFrom, hfree]

/-- A key is found exactly at its position. -/
theorem Fits.find_eq_ok_iff (hhome : InBounds home) (h : Fits home slots keys)
    (hnodup : keys.Nodup) {position : Nat} :
    find home slots keys key = .ok position ↔ keys[position]? = some key := by
  rcases h with ⟨rfl, rfl⟩ | h
  · simp [find]
  · constructor
    · intro hfound
      by_cases hmem : key ∈ keys
      · obtain ⟨p, hp⟩ := List.mem_iff_getElem?.mp hmem
        rw [h.find_of_mem hhome hnodup hp] at hfound
        cases hfound
        exact hp
      · obtain ⟨d, -, -, -, hmiss⟩ := h.find_of_not_mem hhome hmem
        rw [hmiss] at hfound
        cases hfound
    · exact h.find_of_mem hhome hnodup

/-- Adding a key the probe missed, at the slot where the probe ended, indexes it too. -/
theorem Fits.insert (hhome : InBounds home) (h : Fits home slots keys) {slot : Nat}
    (hmiss : find home slots keys key = .error slot) (hkey : key ∉ keys) :
    Fits home (insert home slots (keys ++ [key]) keys.length slot) (keys ++ [key]) := by
  rw [Probing.insert, List.length_append, List.length_singleton]
  right
  rcases h with ⟨rfl, rfl⟩ | h
  · rw [if_pos (by simp)]
    exact indexed_grow hhome (.inl rfl) (by simp)
  · obtain ⟨d, hd, hfree, hfilled, hfind⟩ := h.find_of_not_mem hhome hkey
    rw [hfind] at hmiss
    cases hmiss
    split
    · refine indexed_grow hhome (.inr h.power) ?_
      have := h.half
      have := h.length_pos
      rw [List.length_append, List.length_singleton]
      omega
    · exact h.fill (by omega) hd hfree hfilled
end Find
end Keys
end Probing
