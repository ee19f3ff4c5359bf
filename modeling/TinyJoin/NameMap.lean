import Mathlib.Data.List.Basic
import Mathlib.Data.String.Basic
import Mathlib.Order.Basic

/-! Values by name, in name order, as the catalog holds its tables and a transaction its overlays. -/
namespace TinyJoin

structure NameMap (V : Type) where
  entries : List (String × V)

namespace NameMap
variable {V : Type}

def new : NameMap V := ⟨[]⟩

/-- Where `name` is among the names, or else where it would go. -/
def position (map : NameMap V) (name : String) : Except Nat Nat :=
  let place := (map.entries.takeWhile (fun entry => entry.1 < name)).length
  if (map.entries[place]?).map Prod.fst = some name then .ok place else .error place

def atPosition (map : NameMap V) (position : Nat) : Option V := (map.entries[position]?).map Prod.snd

def get (map : NameMap V) (name : String) : Option V :=
  match map.position name with
  | .ok place => map.atPosition place
  | .error _ => none

def setAt (map : NameMap V) (position : Nat) (value : V) : NameMap V :=
  ⟨map.entries.modify position (fun entry => (entry.1, value))⟩

def insertAt (map : NameMap V) (position : Nat) (name : String) (value : V) : NameMap V :=
  ⟨map.entries.insertIdx position (name, value)⟩

def values (map : NameMap V) : List V := map.entries.map Prod.snd

/-- The names in order, each once. -/
def InOrder (map : NameMap V) : Prop := map.entries.Pairwise (fun a b => a.1 < b.1)

/-- The value at the place a search found for `name`, or a new one there. -/
def put (map : NameMap V) (place : Except Nat Nat) (name : String) (value : V) : NameMap V :=
  match place with
  | .ok place => map.setAt place value
  | .error place => map.insertAt place name value

variable {map : NameMap V} {name other : String} {value : V}

lemma modify_length_append {α : Type} (f : α → α) (before : List α) (a : α) (after : List α) :
    (before ++ a :: after).modify before.length f = before ++ f a :: after := by
  induction before with
  | nil => rfl
  | cons b before ih => simpa using ih

lemma insertIdx_length_append {α : Type} (a : α) (before after : List α) :
    (before ++ after).insertIdx before.length a = before ++ a :: after := by
  induction before with
  | nil => rfl
  | cons b before ih => simpa using ih

lemma takeWhile_lt_append {before : List (String × V)} (after : List (String × V))
    (hbefore : ∀ e ∈ before, e.1 < name)
    (hafter : ∀ e ∈ after.head?, ¬ e.1 < name) :
    (before ++ after).takeWhile (fun entry => entry.1 < name) = before := by
  rw [List.takeWhile_append_of_pos (by simpa using hbefore)]
  cases after with
  | nil => simp
  | cons entry after =>
    have hnot : ¬ entry.1 < name := hafter entry rfl
    rw [List.takeWhile_cons_of_neg (by simpa using hnot), List.append_nil]

lemma position_of_mid {before after : List (String × V)}
    (hentries : map.entries = before ++ (name, value) :: after)
    (hbefore : ∀ e ∈ before, e.1 < name) : map.position name = .ok before.length := by
  have htake := takeWhile_lt_append ((name, value) :: after) hbefore
    (by rintro e ⟨⟩; exact lt_irrefl _)
  simp only [position, hentries, htake]
  simp

lemma position_of_gap {before after : List (String × V)} (hentries : map.entries = before ++ after)
    (hbefore : ∀ e ∈ before, e.1 < name) (hafter : ∀ e ∈ after, name < e.1) :
    map.position name = .error before.length := by
  have htake := takeWhile_lt_append after hbefore
    (fun e he => not_lt.mpr (hafter e (List.mem_of_mem_head? he)).le)
  simp only [position, hentries, htake]
  rw [if_neg]
  rw [List.getElem?_append_right le_rfl, Nat.sub_self]
  cases after with
  | nil => simp
  | cons entry after =>
    have := hafter entry List.mem_cons_self
    simpa using this.ne'

/-- A map in order is the entries before a name, perhaps the name's own, and the entries after. -/
lemma InOrder.split (h : map.InOrder) (name : String) :
    ∃ before after, (∀ e ∈ before, e.1 < name) ∧ (∀ e ∈ after, name < e.1) ∧
      (map.entries = before ++ after ∨ ∃ value, map.entries = before ++ (name, value) :: after) := by
  have hsplit : map.entries.takeWhile (fun entry => entry.1 < name) ++
      map.entries.dropWhile (fun entry => entry.1 < name) = map.entries :=
    List.takeWhile_append_dropWhile
  have hlt : ∀ e ∈ map.entries.takeWhile (fun entry => entry.1 < name), e.1 < name := fun e he => by
    simpa using List.all_eq_true.mp List.all_takeWhile e he
  have hpair := h
  rw [InOrder, ← hsplit, List.pairwise_append] at hpair
  cases hdrop : map.entries.dropWhile (fun entry => entry.1 < name) with
  | nil => exact ⟨_, [], hlt, by simp, .inl (by rw [← hdrop]; exact hsplit.symm)⟩
  | cons entry after =>
    rw [hdrop] at hpair hsplit
    have habove := (List.pairwise_cons.mp hpair.2.1).1
    have hentry : ¬ entry.1 < name := by
      have := List.head_dropWhile_not (fun entry : String × V => decide (entry.1 < name))
        (l := map.entries) (by rw [hdrop]; simp)
      simpa only [hdrop, List.head_cons, decide_eq_false_iff_not] using this
    by_cases heq : entry.1 = name
    · refine ⟨_, after, hlt, fun e he => heq ▸ habove e he, .inr ⟨entry.2, ?_⟩⟩
      have hpair : (name, entry.2) = entry := by rw [← heq]
      rw [hpair]
      exact hsplit.symm
    · have hgt : name < entry.1 := lt_of_le_of_ne (not_lt.mp hentry) (Ne.symm heq)
      refine ⟨_, entry :: after, hlt, ?_, .inl hsplit.symm⟩
      intro e he
      rcases List.mem_cons.mp he with rfl | he
      · exact hgt
      · exact hgt.trans (habove e he)

/-- A name's value, as the entry that has the name holds it. -/
lemma InOrder.get_eq_some_iff (h : map.InOrder) :
    map.get name = some value ↔ (name, value) ∈ map.entries := by
  obtain ⟨before, after, hbefore, hafter, hentries | ⟨value', hentries⟩⟩ := h.split name
  · rw [get, position_of_gap hentries hbefore hafter, hentries]
    constructor
    · intro hnone
      cases hnone
    · intro hmem
      rcases List.mem_append.mp hmem with hmem | hmem
      · exact absurd (hbefore _ hmem) (lt_irrefl _)
      · exact absurd (hafter _ hmem) (lt_irrefl _)
  · have hget : map.get name = some value' := by
      simp [get, position_of_mid hentries hbefore, atPosition, hentries]
    rw [hget, hentries]
    constructor
    · rintro ⟨⟩
      simp
    · intro hmem
      rcases List.mem_append.mp hmem with hmem | hmem
      · exact absurd (hbefore _ hmem) (lt_irrefl _)
      · rcases List.mem_cons.mp hmem with heq | hmem
        · rw [(Prod.mk.inj heq).2]
        · exact absurd (hafter _ hmem) (lt_irrefl _)

lemma inOrder_mid {before after : List (String × V)} (hbefore : ∀ e ∈ before, e.1 < name)
    (hafter : ∀ e ∈ after, name < e.1) (hpair : (before ++ after).Pairwise (fun a b => a.1 < b.1)) :
    (before ++ (name, value) :: after).Pairwise (fun a b => a.1 < b.1) := by
  rw [List.pairwise_append] at hpair ⊢
  refine ⟨hpair.1, List.pairwise_cons.mpr ⟨hafter, hpair.2.1⟩, ?_⟩
  intro a ha b hb
  rcases List.mem_cons.mp hb with rfl | hb
  · exact hbefore a ha
  · exact hpair.2.2 a ha b hb

/-- What a put leaves: the name's own entry between those before it and those after. -/
lemma InOrder.put_split (h : map.InOrder) (name : String) (value : V) :
    ∃ before after, (∀ e ∈ before, e.1 < name) ∧ (∀ e ∈ after, name < e.1) ∧
      (map.put (map.position name) name value).entries = before ++ (name, value) :: after ∧
      (∀ e, e.1 ≠ name → (e ∈ map.entries ↔ e ∈ before ++ after)) ∧
      (before ++ after).Pairwise (fun a b => a.1 < b.1) := by
  obtain ⟨before, after, hbefore, hafter, hentries | ⟨value', hentries⟩⟩ := h.split name
  · refine ⟨before, after, hbefore, hafter, ?_, fun e _ => by rw [hentries], hentries ▸ h⟩
    rw [position_of_gap hentries hbefore hafter, put, insertAt, hentries]
    exact insertIdx_length_append _ before after
  · refine ⟨before, after, hbefore, hafter, ?_, ?_, ?_⟩
    · rw [position_of_mid hentries hbefore, put, setAt, hentries]
      exact modify_length_append _ before _ after
    · intro e hne
      rw [hentries]
      simp only [List.mem_append, List.mem_cons]
      constructor
      · rintro (he | rfl | he)
        · exact .inl he
        · exact absurd rfl hne
        · exact .inr he
      · rintro (he | he)
        · exact .inl he
        · exact .inr (.inr he)
    · rw [InOrder, hentries] at h
      exact h.sublist ((List.sublist_cons_self _ _).append_left _)

lemma InOrder.put (h : map.InOrder) : (map.put (map.position name) name value).InOrder := by
  obtain ⟨before, after, hbefore, hafter, hentries, -, hpair⟩ := h.put_split name value
  rw [InOrder, hentries]
  exact inOrder_mid hbefore hafter hpair

lemma InOrder.get_put (h : map.InOrder) :
    (map.put (map.position name) name value).get other =
      if other = name then some value else map.get other := by
  obtain ⟨before, after, hbefore, hafter, hentries, hothers, -⟩ := h.put_split name value
  apply Option.ext
  intro v
  rw [h.put.get_eq_some_iff, hentries]
  split_ifs with hother
  · subst hother
    rw [Option.some.injEq, List.mem_append, List.mem_cons]
    constructor
    · rintro (hmem | heq | hmem)
      · exact absurd (hbefore _ hmem) (lt_irrefl _)
      · exact (Prod.mk.inj heq).2.symm
      · exact absurd (hafter _ hmem) (lt_irrefl _)
    · rintro rfl
      exact .inr (.inl rfl)
  · rw [h.get_eq_some_iff, hothers (other, v) hother, List.mem_append, List.mem_append,
      List.mem_cons]
    constructor
    · rintro (hmem | heq | hmem)
      · exact .inl hmem
      · exact absurd (Prod.mk.inj heq).1 hother
      · exact .inr hmem
    · rintro (hmem | hmem)
      · exact .inl hmem
      · exact .inr (.inr hmem)

lemma position_append {before after : List (String × V)} (hafter : ∀ e ∈ after.head?, name < e.1) :
    position ⟨before ++ after⟩ name = position ⟨before⟩ name := by
  have hnone : after.takeWhile (fun entry => entry.1 < name) = [] := by
    cases after with
    | nil => rfl
    | cons entry after =>
      have := hafter entry rfl
      exact List.takeWhile_cons_of_neg (by rw [decide_eq_true_eq]; exact not_lt.mpr this.le)
  have htake : (before ++ after).takeWhile (fun entry => entry.1 < name) =
      before.takeWhile (fun entry => entry.1 < name) := by
    rw [List.takeWhile_append, hnone, List.append_nil]
    split_ifs with hall
    · exact ((List.takeWhile_prefix _).eq_of_length hall).symm
    · rfl
  simp only [position, htake]
  rcases Nat.lt_or_ge (before.takeWhile (fun entry => entry.1 < name)).length before.length
    with hlt | hge
  · rw [List.getElem?_append_left hlt]
  · rw [List.getElem?_append_right hge, List.getElem?_eq_none hge,
      Nat.sub_eq_zero_of_le (List.takeWhile_prefix _).length_le, ← List.head?_eq_getElem?]
    cases after with
    | nil => rfl
    | cons entry after =>
      have := (hafter entry rfl).ne'
      simp [this]

/-- A put leaves the place of every name before it where it was. -/
lemma InOrder.position_put (h : map.InOrder) (hlt : other < name) :
    (map.put (map.position name) name value).position other = map.position other := by
  obtain ⟨before, after, hbefore, hafter, hentries | ⟨value', hentries⟩⟩ := h.split name
  · rw [position_of_gap hentries hbefore hafter, NameMap.put, insertAt, hentries,
      insertIdx_length_append, position_append (by rintro e ⟨⟩; exact hlt)]
    rw [show map = ⟨before ++ after⟩ from by cases map; simpa using hentries, position_append]
    exact fun e he => hlt.trans (hafter e (List.mem_of_mem_head? he))
  · rw [position_of_mid hentries hbefore, NameMap.put, setAt, hentries,
      modify_length_append, position_append (by rintro e ⟨⟩; exact hlt)]
    rw [show map = ⟨before ++ (name, value') :: after⟩ from by cases map; simpa using hentries,
      position_append (by rintro e ⟨⟩; exact hlt)]
end NameMap
end TinyJoin
