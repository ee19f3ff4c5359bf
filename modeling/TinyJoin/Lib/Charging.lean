import Mathlib.Algebra.BigOperators.Group.Finset.Basic
import Mathlib.Algebra.GroupWithZero.Nat
import Mathlib.Data.Fintype.Basic
import Mathlib.Logic.Relation

/-! A count of charges that stops just above a limit, and the charges of what a finite graph reaches,
each once. A walk that has seen what it met owes the charges of what it has not. -/
namespace Charging

/-- A count with an amount more, or just above the limit. -/
def add (limit amount count : Nat) : Nat :=
  if limit < count + amount then limit + 1 else count + amount

/-- Whether a count leaves `due` of the charge `full`, or is above the limit, as `full` is. -/
def Charged (limit full due count : Nat) : Prop :=
  count + due = full ∧ count ≤ limit ∨ count = limit + 1 ∧ limit < full

namespace Charged
variable {limit full due count : Nat}

lemma start (h : due = full) : Charged limit full due 0 := .inl ⟨by omega, Nat.zero_le _⟩

lemma add {amount : Nat} (h : Charged limit full (amount + due) count) :
    Charged limit full due (add limit amount count) := by
  rw [Charging.add]
  rcases h with ⟨hdue, hle⟩ | ⟨rfl, hfull⟩
  · split
    · exact .inr ⟨rfl, by omega⟩
    · exact .inl ⟨by omega, by omega⟩
  · rw [if_pos (by omega)]
    exact .inr ⟨rfl, hfull⟩

/-- An amount above the limit leaves nothing to count. -/
lemma exceed {amount : Nat} (h : Charged limit full (amount + due) count) (hamount : limit < amount) :
    Charged limit full due (limit + 1) := by
  rcases h with ⟨hdue, _⟩ | ⟨_, hfull⟩
  · exact .inr ⟨rfl, by omega⟩
  · exact .inr ⟨rfl, hfull⟩

lemma stopped {other : Nat} (h : Charged limit full due count) (hover : limit < count) :
    Charged limit full other count := by
  rcases h with ⟨_, hle⟩ | hend
  · omega
  · exact .inr hend

lemma done (h : Charged limit full due count) (hdue : count ≤ limit → due = 0) :
    count = min full (limit + 1) := by
  rcases h with ⟨hdue', hle⟩ | ⟨rfl, hfull⟩
  · have := hdue hle
    omega
  · omega

end Charged

variable {α β : Type}

/-- Whether steps of `next` lead from one of `roots` to `a`. -/
def Reached (next : α → List α) (roots : List α) (a : α) : Prop :=
  ∃ root ∈ roots, Relation.ReflTransGen (fun a b => b ∈ next a) root a

namespace Reached
variable {next : α → List α} {roots : List α} {a b : α}

lemma of_root (h : a ∈ roots) : Reached next roots a := ⟨a, h, .refl⟩

lemma step (h : Reached next roots a) (hb : b ∈ next a) : Reached next roots b := by
  obtain ⟨root, hroot, hsteps⟩ := h
  exact ⟨root, hroot, hsteps.tail hb⟩

lemma mem_of_closed {seen : List α} (hroots : roots ⊆ seen) (hclosed : ∀ a ∈ seen, next a ⊆ seen)
    (h : Reached next roots a) : a ∈ seen := by
  obtain ⟨root, hroot, hsteps⟩ := h
  induction hsteps with
  | refl => exact hroots hroot
  | tail _ hstep ih => exact hclosed _ ih hstep

lemma singleton_iff : Reached next [a] b ↔ b = a ∨ Reached next (next a) b := by
  constructor
  · rintro ⟨root, hroot, hsteps⟩
    obtain rfl := List.mem_singleton.mp hroot
    rcases hsteps.cases_head with rfl | ⟨child, hchild, hrest⟩
    · exact .inl rfl
    · exact .inr ⟨child, hchild, hrest⟩
  · rintro (rfl | ⟨child, hchild, hsteps⟩)
    · exact of_root (List.mem_singleton_self _)
    · exact ⟨a, List.mem_singleton_self _, hsteps.head hchild⟩

/-- What is reached in a graph whose part has the names `f` gives, from that part. -/
lemma map_iff {f : α → β} {next' : β → List β} (h : ∀ a, next' (f a) = (next a).map f) {b : β} :
    Reached next' (roots.map f) b ↔ ∃ a, Reached next roots a ∧ f a = b := by
  constructor
  · rintro ⟨root, hroot, hsteps⟩
    obtain ⟨a, ha, rfl⟩ := List.mem_map.mp hroot
    induction hsteps with
    | refl => exact ⟨a, of_root ha, rfl⟩
    | tail _ hstep ih =>
      obtain ⟨parent, hparent, rfl⟩ := ih
      rw [h] at hstep
      obtain ⟨child, hchild, rfl⟩ := List.mem_map.mp hstep
      exact ⟨child, hparent.step hchild, rfl⟩
  · rintro ⟨a, ⟨root, hroot, hsteps⟩, rfl⟩
    refine ⟨f root, List.mem_map_of_mem hroot, ?_⟩
    induction hsteps with
    | refl => exact .refl
    | @tail parent child _ hstep ih =>
      refine ih.tail ?_
      rw [h]
      exact List.mem_map_of_mem hstep

end Reached

open scoped Classical in
/-- The charges of what is reached, but for what was seen. -/
noncomputable def unseen [Fintype α] (next : α → List α) (charge : α → Nat) (roots seen : List α) :
    Nat :=
  ∑ a with Reached next roots a ∧ a ∉ seen, charge a

/-- The charges of what is reached, each once. -/
noncomputable def total [Fintype α] (next : α → List α) (charge : α → Nat) (roots : List α) : Nat :=
  unseen next charge roots []

section Totals
variable [Fintype α] {next : α → List α} {charge : α → Nat} {roots seen : List α} {a : α}

lemma unseen_cons (hreached : Reached next roots a) (hseen : a ∉ seen) :
    unseen next charge roots seen = charge a + unseen next charge roots (a :: seen) := by
  classical
  have hinsert : (Finset.univ.filter fun b => Reached next roots b ∧ b ∉ seen) =
      insert a (Finset.univ.filter fun b => Reached next roots b ∧ b ∉ a :: seen) := by
    ext b
    by_cases hb : b = a
    · simp [hb, hreached, hseen]
    · simp [hb]
  rw [unseen, unseen, hinsert, Finset.sum_insert (by simp)]

lemma unseen_eq_zero (hroots : roots ⊆ seen) (hclosed : ∀ a ∈ seen, next a ⊆ seen) :
    unseen next charge roots seen = 0 := by
  classical
  refine Finset.sum_eq_zero fun a ha => ?_
  obtain ⟨hreached, hseen⟩ := (Finset.mem_filter.mp ha).2
  exact absurd (hreached.mem_of_closed hroots hclosed) hseen

lemma total_nil : total next charge [] = 0 :=
  unseen_eq_zero (List.Subset.refl _) fun _ h => absurd h List.not_mem_nil

/-- The charges from a root that is not within itself. -/
lemma total_singleton (h : ¬ Reached next (next a) a) :
    total next charge [a] = charge a + total next charge (next a) := by
  classical
  have hinsert : (Finset.univ.filter fun b => Reached next [a] b ∧ b ∉ ([] : List α)) =
      insert a (Finset.univ.filter fun b => Reached next (next a) b ∧ b ∉ ([] : List α)) := by
    ext b
    simp [Reached.singleton_iff]
  rw [total, total, unseen, unseen, hinsert, Finset.sum_insert (by simpa using h)]

lemma total_map [Fintype β] {f : α → β} (hf : f.Injective) {next' : β → List β} {charge' : β → Nat}
    (hnext : ∀ a, next' (f a) = (next a).map f) (hcharge : ∀ a, charge' (f a) = charge a) :
    total next' charge' (roots.map f) = total next charge roots := by
  classical
  have himage : (Finset.univ.filter fun b => Reached next' (roots.map f) b ∧ b ∉ ([] : List β)) =
      (Finset.univ.filter fun a => Reached next roots a ∧ a ∉ ([] : List α)).map ⟨f, hf⟩ := by
    ext b
    simp [Reached.map_iff hnext]
  rw [total, total, unseen, unseen, himage, Finset.sum_map]
  exact Finset.sum_congr rfl fun a _ => hcharge a

end Totals

/-! ## Walks -/

/-- What a walk owes that has seen `seen`, of which it has not entered `pending`. It has charged
`entry` for each it has seen and `held` for each it has entered, but for `rest` of the last, of which it
has `later` to visit. Once the count is above the limit, nothing more is asked. -/
structure Owes [Fintype α] (next : α → List α) (entry : Nat) (held : α → Nat) (limit full : Nat)
    (roots seen pending later : List α) (rest count : Nat) : Prop where
  reached : ∀ a ∈ seen, Reached next roots a
  later_reached : ∀ a ∈ later, Reached next roots a
  pending_subset : pending ⊆ seen
  charged : Charged limit full
    (unseen next (fun a => entry + held a) roots seen + (pending.map held).sum + rest) count
  roots_subset : count ≤ limit → roots ⊆ seen ++ later
  closed : count ≤ limit → ∀ a ∈ seen, a ∈ pending ∨ next a ⊆ seen ++ later

namespace Owes

section Lists
variable {seen later : List α} {a : α}

lemma subset_of_mem (ha : a ∈ seen) : seen ++ a :: later ⊆ seen ++ later := by
  intro b hb
  rcases List.mem_append.mp hb with hb | hb
  · exact List.mem_append_left _ hb
  rcases List.mem_cons.mp hb with rfl | hb
  · exact List.mem_append_left _ ha
  · exact List.mem_append_right _ hb

lemma append_cons_subset : seen ++ a :: later ⊆ a :: seen ++ later := by
  intro b hb
  simp only [List.mem_append, List.mem_cons] at hb ⊢
  tauto

lemma append_append_subset {new : List α} : seen ++ later ⊆ seen ++ (new ++ later) := by
  intro b hb
  simp only [List.mem_append] at hb ⊢
  tauto

end Lists

lemma le_of_add_le {limit amount count : Nat} (h : add limit amount count ≤ limit) :
    count ≤ limit := by
  rw [add] at h
  split at h <;> omega

variable [Fintype α] {next : α → List α} {entry : Nat} {held : α → Nat} {limit full : Nat}
  {roots seen pending later : List α} {rest count amount : Nat} {a : α}

lemma start (h : total next (fun a => entry + held a) roots + rest = full) :
    Owes next entry held limit full roots [] [] roots rest 0 where
  reached := fun _ h => absurd h List.not_mem_nil
  later_reached := fun _ h => .of_root h
  pending_subset := List.nil_subset _
  charged := .start h
  roots_subset := fun _ => List.Subset.refl _
  closed := fun _ _ h => absurd h List.not_mem_nil

lemma pay (h : Owes next entry held limit full roots seen pending later (amount + rest) count) :
    Owes next entry held limit full roots seen pending later rest (add limit amount count) where
  reached := h.reached
  later_reached := h.later_reached
  pending_subset := h.pending_subset
  charged := by
    refine Charged.add ?_
    rw [Nat.add_left_comm]
    exact h.charged
  roots_subset := fun hle => h.roots_subset (le_of_add_le hle)
  closed := fun hle => h.closed (le_of_add_le hle)

/-- Nothing more is asked above the limit. -/
lemma stopped {pending' later' : List α} {rest' : Nat}
    (h : Owes next entry held limit full roots seen pending later rest count) (hover : limit < count)
    (hpending : pending' ⊆ seen) (hlater : later' ⊆ later) :
    Owes next entry held limit full roots seen pending' later' rest' count where
  reached := h.reached
  later_reached := fun a ha => h.later_reached a (hlater ha)
  pending_subset := hpending
  charged := h.charged.stopped hover
  roots_subset := fun hle => absurd hle (not_le.mpr hover)
  closed := fun hle => absurd hle (not_le.mpr hover)

lemma exceed (h : Owes next entry held limit full roots seen pending later (amount + rest) count)
    (hamount : limit < amount) :
    Owes next entry held limit full roots seen pending later rest (limit + 1) where
  reached := h.reached
  later_reached := h.later_reached
  pending_subset := h.pending_subset
  charged := by
    have := h.charged
    rw [Nat.add_left_comm] at this
    exact this.exceed hamount
  roots_subset := fun hle => absurd hle (Nat.not_succ_le_self _)
  closed := fun hle => absurd hle (Nat.not_succ_le_self _)

/-- What was seen before is not charged again. -/
lemma skip (h : Owes next entry held limit full roots seen pending (a :: later) rest count)
    (ha : a ∈ seen) : Owes next entry held limit full roots seen pending later rest count where
  reached := h.reached
  later_reached := fun b hb => h.later_reached b (List.mem_cons_of_mem _ hb)
  pending_subset := h.pending_subset
  charged := h.charged
  roots_subset := fun hle => List.Subset.trans (h.roots_subset hle) (subset_of_mem ha)
  closed := fun hle b hb => (h.closed hle b hb).imp_right (List.Subset.trans · (subset_of_mem ha))

/-- What is new is charged its entry, and is to be entered. -/
lemma push (h : Owes next entry held limit full roots seen pending (a :: later) rest count)
    (ha : a ∉ seen) :
    Owes next entry held limit full roots (a :: seen) (a :: pending) later rest
      (add limit entry count) where
  reached := List.forall_mem_cons.mpr ⟨h.later_reached a List.mem_cons_self, h.reached⟩
  later_reached := fun b hb => h.later_reached b (List.mem_cons_of_mem _ hb)
  pending_subset := List.cons_subset_cons a h.pending_subset
  charged := by
    have hcharged := h.charged
    rw [unseen_cons (h.later_reached a List.mem_cons_self) ha] at hcharged
    refine Charged.add ?_
    rw [List.map_cons, List.sum_cons]
    convert hcharged using 1
    omega
  roots_subset := fun hle =>
    List.Subset.trans (h.roots_subset (le_of_add_le hle)) append_cons_subset
  closed := by
    intro hle b hb
    rcases List.mem_cons.mp hb with rfl | hb
    · exact .inl List.mem_cons_self
    · exact (h.closed (le_of_add_le hle) b hb).imp (List.mem_cons_of_mem _)
        (List.Subset.trans · append_cons_subset)

/-- What is entered is charged for what it holds. -/
lemma pop (h : Owes next entry held limit full roots seen (a :: pending) later rest count) :
    Owes next entry held limit full roots seen pending (next a ++ later) (held a + rest) count where
  reached := h.reached
  later_reached := by
    intro b hb
    rcases List.mem_append.mp hb with hb | hb
    · exact (h.reached a (h.pending_subset List.mem_cons_self)).step hb
    · exact h.later_reached b hb
  pending_subset := (List.cons_subset.mp h.pending_subset).2
  charged := by
    convert h.charged using 1
    rw [List.map_cons, List.sum_cons]
    omega
  roots_subset := fun hle => List.Subset.trans (h.roots_subset hle) append_append_subset
  closed := by
    intro hle b hb
    rcases h.closed hle b hb with hpending | hnext
    · rcases List.mem_cons.mp hpending with rfl | hpending
      · exact .inr (List.Subset.trans (List.subset_append_left _ _) (List.subset_append_right _ _))
      · exact .inl hpending
    · exact .inr (List.Subset.trans hnext append_append_subset)

/-- A walk that has nothing left, or stopped, has counted all, or more than the limit. -/
lemma done (h : Owes next entry held limit full roots seen pending later rest count)
    (hend : count ≤ limit → pending = [] ∧ later = [] ∧ rest = 0) : count = min full (limit + 1) := by
  refine h.charged.done fun hle => ?_
  obtain ⟨rfl, rfl, rfl⟩ := hend hle
  have hroots := h.roots_subset hle
  have hclosed : ∀ a ∈ seen, next a ⊆ seen := by
    intro a ha
    have := (h.closed hle a ha).resolve_left List.not_mem_nil
    rwa [List.append_nil] at this
  rw [List.append_nil] at hroots
  rw [unseen_eq_zero hroots hclosed]
  rfl

end Owes
end Charging
