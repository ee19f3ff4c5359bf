import Mathlib.Data.Set.List
import TinyJoin.RequestSize

/-! Both walks count the same: each container that a value reaches once, or just above the limit. -/
namespace TinyJoin.Clone
open Charging

variable {ρ : Type}

/-- The charge of a value but for what its container holds. What no request may hold exceeds any
limit, as `beyond` does. -/
def Datum.cost (beyond : Nat) : Datum ρ → Nat
  | .undefined | .null | .bool _ | .number _ => 8
  | .string text => 16 + text.length * 2
  | .container _ => 0
  | .other => beyond

/-- The charge of a container's properties. -/
def ownCost (beyond : Nat) (container : Container ρ) (entries : Entries ρ) : Nat :=
  (entries.map fun entry =>
    (if isArraySlot container entry.1 then 0 else nameCharge entry.1) + entry.2.cost beyond).sum

namespace Container

def held (beyond : Nat) (container : Container ρ) : Nat :=
  slotCharge container + ownCost beyond container container.own

def next (container : Container ρ) : List ρ := container.own.flatMap fun entry => entry.2.refs

end Container

/-- The charges of a value and all it reaches, a container's once. -/
noncomputable def totalBytes [Fintype ρ] (graph : Graph ρ) (beyond : Nat) (value : Datum ρ) : Nat :=
  total (fun ref => (graph ref).next) (fun ref => 32 + (graph ref).held beyond) value.refs +
    value.cost beyond

/-! ## Items and named properties -/

namespace Slots
variable {slots : Slots ρ} {named : Entries ρ} {distinct : (named.map Prod.fst).Nodup}
  {not_index : ∀ name ∈ named.map Prod.fst, ¬ IsIndex name}

lemma isArraySlot_present {entry : List UInt16 × Datum ρ} (h : entry ∈ slots.present) :
    isArraySlot (.array slots named distinct not_index) entry.1 = true := by
  obtain ⟨⟨slot, index⟩, hslot, hentry⟩ := List.mem_filterMap.mp h
  obtain ⟨value, rfl, rfl⟩ := Option.map_eq_some_iff.mp hentry
  have hindex : index < slots.items.length := (List.mem_zipIdx' hslot).1
  rw [isArraySlot, List.any_eq_true]
  exact ⟨index, List.mem_range.mpr hindex, beq_self_eq_true _⟩

lemma isArraySlot_named {entry : List UInt16 × Datum ρ} (h : entry ∈ named) :
    isArraySlot (.array slots named distinct not_index) entry.1 = false := by
  have hname := not_index entry.1 (List.mem_map_of_mem h)
  have hlength := slots.length_lt
  rw [isArraySlot, List.any_eq_false]
  intro index hindex heq
  rw [List.mem_range] at hindex
  exact hname ⟨index, by omega, (beq_iff_eq.mp heq).symm⟩

lemma snd_present {items : List (Datum ρ)} (h : slots.items = items.map some) :
    slots.present.map Prod.snd = items := by
  have hfrom : ∀ (items : List (Datum ρ)) (start : Nat),
      (((items.map some).zipIdx start).filterMap fun slot : Option (Datum ρ) × Nat =>
        slot.1.map (Prod.mk (indexText slot.2))).map Prod.snd = items := by
    intro items
    induction items with
    | nil => exact fun _ => rfl
    | cons item items ih => exact fun start => congrArg (item :: ·) (ih (start + 1))
  rw [present, h]
  exact hfrom items 0

/-- An array is dense where the key of its last item stands where it would, as no named property
has such a key. -/
lemma dense_of_keys (h : ¬ (0 < slots.items.length ∧
    (Container.array slots named distinct not_index).keys[slots.items.length - 1]? ≠
      some (indexText (slots.items.length - 1)))) :
    ∃ items : List (Datum ρ), slots.items = items.map some := by
  suffices hsome : ∀ slot ∈ slots.items, slot ∈ Set.range (some : Datum ρ → Option (Datum ρ)) by
    have hmem : slots.items ∈ Set.range (List.map (some : Datum ρ → Option (Datum ρ))) := by
      rwa [Set.range_list_map]
    obtain ⟨items, hitems⟩ := hmem
    exact ⟨items, hitems.symm⟩
  intro slot hslot
  cases slot with
  | some item => exact ⟨item, rfl⟩
  | none =>
    obtain ⟨index, hindex⟩ := List.mem_iff_getElem?.mp hslot
    have hshort : slots.present.length < slots.items.zipIdx.length :=
      List.length_filterMap_lt_length_iff_exists.mpr
        ⟨(none, index), List.mem_zipIdx_iff_getElem?.mpr hindex, rfl⟩
    rw [List.length_zipIdx] at hshort
    have hlength := slots.length_lt
    have hlast := not_not.mp (not_and.mp h (by omega))
    rw [Container.keys, Container.own, List.map_append,
      List.getElem?_append_right (by rw [List.length_map]; omega)] at hlast
    exact absurd ⟨slots.items.length - 1, by omega, rfl⟩
      (not_index _ (List.mem_of_getElem? hlast))

/-- What a dense array holds: its items, and its named properties. -/
lemma own_of_dense {items : List (Datum ρ)} (h : slots.items = items.map some) (beyond : Nat) :
    let container := Container.array slots named distinct not_index
    container.own.drop slots.items.length = named ∧
      container.next = items.flatMap Datum.refs ++ named.flatMap (fun entry => entry.2.refs) ∧
      ownCost beyond container container.own = (items.map (Datum.cost beyond)).sum +
        (named.map fun entry => nameCharge entry.1 + entry.2.cost beyond).sum := by
  have hsnd := snd_present h
  have hlength : slots.present.length = slots.items.length := by
    rw [h, List.length_map, ← hsnd, List.length_map]
  have hpresent : (slots.present.map fun entry =>
      (if isArraySlot (.array slots named distinct not_index) entry.1 then 0
        else nameCharge entry.1) + entry.2.cost beyond) = items.map (Datum.cost beyond) := by
    rw [← hsnd, List.map_map]
    refine List.map_congr_left fun entry hentry => ?_
    rw [isArraySlot_present hentry, if_pos rfl, Nat.zero_add]
    rfl
  have hnamed : (named.map fun entry =>
      (if isArraySlot (.array slots named distinct not_index) entry.1 then 0
        else nameCharge entry.1) + entry.2.cost beyond) =
      named.map fun entry => nameCharge entry.1 + entry.2.cost beyond := by
    refine List.map_congr_left fun entry hentry => ?_
    rw [isArraySlot_named hentry, if_neg Bool.false_ne_true]
  refine ⟨?_, ?_, ?_⟩
  · rw [Container.own, ← hlength, List.drop_left]
  · rw [Container.next, Container.own, List.flatMap_append, ← hsnd, List.flatMap_map]
  · rw [ownCost, Container.own, List.map_append, List.sum_append, hpresent, hnamed]

end Slots

section Walks
variable [Fintype ρ] [DecidableEq ρ]

/-- What a walk of a graph owes. -/
abbrev Owing (graph : Graph ρ) (beyond limit full : Nat) (roots : List ρ) :
    List ρ → List ρ → List ρ → Nat → Nat → Prop :=
  Owes (fun ref => (graph ref).next) 32 (fun ref => (graph ref).held beyond) limit full roots

omit [DecidableEq ρ] in
lemma owing_start (graph : Graph ρ) (beyond limit : Nat) (value : Datum ρ) :
    Owing graph beyond limit (totalBytes graph beyond value) value.refs [] [] (value.refs ++ [])
      (value.cost beyond + 0) 0 := by
  rw [List.append_nil, Nat.add_zero]
  exact .start rfl

variable {graph : Graph ρ} {beyond limit full : Nat} {roots : List ρ}

namespace RequestBytes

lemma visit_owes (hbeyond : limit < beyond) {value : Datum ρ} {walk : Walk ρ} {later : List ρ}
    {rest : Nat} (h : Owing graph beyond limit full roots walk.seen walk.pending
      (value.refs ++ later) (value.cost beyond + rest) walk.bytes) :
    Owing graph beyond limit full roots (visit limit value walk).seen
      (visit limit value walk).pending later rest (visit limit value walk).bytes := by
  rcases lt_or_ge limit walk.bytes with hstopped | hbytes
  · rw [visit_of_stopped value hstopped]
    exact h.stopped hstopped h.pending_subset (List.subset_append_right _ _)
  cases value with
  | container ref =>
    rw [visit_container ref hbytes]
    rw [Datum.cost, Nat.zero_add] at h
    by_cases hseen : ref ∈ walk.seen
    · rw [if_pos hseen]
      exact h.skip hseen
    · rw [if_neg hseen]
      have hpush := h.push hseen
      dsimp only
      split
      · exact hpush
      · next hover =>
        exact hpush.stopped (not_le.mp hover) (List.subset_cons_of_subset _ h.pending_subset)
          (List.Subset.refl _)
  | other =>
    unfold visit
    rw [if_neg (not_lt.mpr hbytes)]
    exact h.exceed hbeyond
  | _ =>
    unfold visit
    rw [if_neg (not_lt.mpr hbytes)]
    exact h.pay

omit [DecidableEq ρ] in
lemma name_owes {current : Container ρ} {key : List UInt16} {walk : Walk ρ} {later : List ρ}
    {rest : Nat} (h : Owing graph beyond limit full roots walk.seen walk.pending later
      ((if isArraySlot current key then 0 else nameCharge key) + rest) walk.bytes) :
    Owing graph beyond limit full roots (walk.name limit current key).seen
      (walk.name limit current key).pending later rest (walk.name limit current key).bytes := by
  rw [Walk.name]
  split at h
  · next hslot =>
    rw [if_pos hslot]
    rwa [Nat.zero_add] at h
  · next hslot =>
    rw [if_neg hslot]
    exact h.pay

lemma visitOwn_owes (hbeyond : limit < beyond) {current : Container ρ} {entries : Entries ρ}
    {walk : Walk ρ} {later : List ρ} {rest : Nat}
    (h : Owing graph beyond limit full roots walk.seen walk.pending
      ((entries.flatMap fun entry => entry.2.refs) ++ later)
      (ownCost beyond current entries + rest) walk.bytes) :
    Owing graph beyond limit full roots (visitOwn limit current entries walk).seen
      (visitOwn limit current entries walk).pending later rest
      (visitOwn limit current entries walk).bytes := by
  induction entries generalizing walk with
  | nil =>
    rw [ownCost, List.map_nil, List.sum_nil, Nat.zero_add] at h
    exact h
  | cons entry entries ih =>
    rw [ownCost, List.map_cons, List.sum_cons, Nat.add_assoc, Nat.add_assoc] at h
    have hnamed := name_owes h
    rw [visitOwn]
    dsimp only
    split
    · next hover => exact hnamed.stopped hover hnamed.pending_subset (List.subset_append_right _ _)
    rw [List.flatMap_cons, List.append_assoc] at hnamed
    have hvisited := visit_owes hbeyond hnamed
    split
    · next hover => exact hvisited.stopped hover hvisited.pending_subset (List.subset_append_right _ _)
    · exact ih hvisited

omit [DecidableEq ρ] in
/-- A container that is taken from the stack is charged its slots, and has its properties left. -/
lemma pop_owes {walk : Walk ρ} {current : ρ} {pending : List ρ}
    (h : Owing graph beyond limit full roots walk.seen (current :: pending) [] 0 walk.bytes) :
    Owing graph beyond limit full roots walk.seen pending
      (((graph current).own.flatMap fun entry => entry.2.refs) ++ [])
      (ownCost beyond (graph current) (graph current).own + 0)
      (Charging.add limit (slotCharge (graph current)) walk.bytes) := by
  have hpop := h.pop
  rw [Container.held, Nat.add_assoc] at hpop
  exact hpop.pay

lemma drain_bytes (hbeyond : limit < beyond) {walk : Walk ρ}
    (h : Owing graph beyond limit full roots walk.seen walk.pending [] 0 walk.bytes) :
    (drain graph limit walk).bytes = min full (limit + 1) := by
  fun_induction drain graph limit walk with
  | case1 walk hpending =>
    rw [hpending] at h
    exact h.done fun _ => ⟨rfl, rfl, rfl⟩
  | case2 walk current pending hpending hover => exact h.done fun hle => absurd hle (not_le.mpr hover)
  | case3 walk current pending hpending hbytes charged hover =>
    rw [hpending] at h
    exact (pop_owes h).done fun hle => absurd hle (not_le.mpr hover)
  | case4 walk current pending hpending hbytes charged hcontinue ih =>
    rw [hpending] at h
    exact ih (visitOwn_owes hbeyond (pop_owes h))

lemma requestBytes_eq (hbeyond : limit < beyond) (hlimit : limit < maxSafeInteger)
    (value : Datum ρ) :
    requestBytes graph limit value =
      .ok (min (totalBytes graph beyond value) (limit + 1)) := by
  rw [requestBytes, if_neg (not_le.mpr hlimit),
    drain_bytes hbeyond (visit_owes hbeyond (owing_start graph beyond limit value))]

end RequestBytes

namespace CheckedBytes

/-- Whether a visit that leaves nothing unchecked pays for its value. -/
def Pays (graph : Graph ρ) (beyond limit full : Nat) (roots : List ρ)
    (visit : Datum ρ → Walk ρ → Walk ρ) : Prop :=
  ∀ value walk later rest,
    Owing graph beyond limit full roots walk.seen [] (value.refs ++ later)
      (value.cost beyond + rest) walk.bytes →
    (visit value walk).unchecked = false →
    Owing graph beyond limit full roots (visit value walk).seen [] later rest
      (visit value walk).bytes

section Loops
omit [Fintype ρ] [DecidableEq ρ]
variable {visit : Datum ρ → Walk ρ → Walk ρ} {walk : Walk ρ}

lemma visitItems_of_unchecked (slots : List (Option (Datum ρ))) (h : walk.unchecked = true) :
    visitItems limit visit slots walk = walk := by
  cases slots with
  | nil => rfl
  | cons slot rest => rw [visitItems, Walk.stopped, h, Bool.or_true, if_pos rfl]

lemma visitNamed_of_unchecked (entries : Entries ρ) (h : walk.unchecked = true) :
    visitNamed limit visit entries walk = walk := by
  cases entries with
  | nil => rfl
  | cons entry rest => rw [visitNamed, Walk.stopped, h, Bool.or_true, if_pos rfl]

lemma lt_of_stopped (h : walk.stopped limit = true) (hchecked : walk.unchecked = false) :
    limit < walk.bytes := by
  rw [Walk.stopped, hchecked, Bool.or_false] at h
  exact of_decide_eq_true h

end Loops

omit [DecidableEq ρ] in
lemma visitItems_owes {visit : Datum ρ → Walk ρ → Walk ρ}
    (hvisit : Pays graph beyond limit full roots visit) {items : List (Datum ρ)} {walk : Walk ρ}
    {later : List ρ} {rest : Nat}
    (h : Owing graph beyond limit full roots walk.seen [] (items.flatMap Datum.refs ++ later)
      ((items.map (Datum.cost beyond)).sum + rest) walk.bytes)
    (hchecked : (visitItems limit visit (items.map some) walk).unchecked = false) :
    Owing graph beyond limit full roots (visitItems limit visit (items.map some) walk).seen [] later
      rest (visitItems limit visit (items.map some) walk).bytes := by
  induction items generalizing walk with
  | nil =>
    rw [List.map_nil, List.sum_nil, Nat.zero_add] at h
    exact h
  | cons item items ih =>
    rw [List.map_cons, visitItems] at hchecked ⊢
    split at hchecked
    · next hstopped =>
      rw [if_pos hstopped]
      exact h.stopped (lt_of_stopped hstopped hchecked) h.pending_subset
        (List.subset_append_right _ _)
    · next hstopped =>
      rw [if_neg hstopped]
      rw [List.flatMap_cons, List.append_assoc, List.map_cons, List.sum_cons, Nat.add_assoc] at h
      refine ih (hvisit item walk _ _ h ?_) hchecked
      by_contra hunchecked
      rw [Option.getD_some, visitItems_of_unchecked _ (Bool.eq_true_of_not_eq_false hunchecked)] at hchecked
      exact hunchecked hchecked

omit [DecidableEq ρ] in
lemma visitNamed_owes {visit : Datum ρ → Walk ρ → Walk ρ}
    (hvisit : Pays graph beyond limit full roots visit) {entries : Entries ρ} {walk : Walk ρ}
    {later : List ρ} {rest : Nat}
    (h : Owing graph beyond limit full roots walk.seen []
      ((entries.flatMap fun entry => entry.2.refs) ++ later)
      ((entries.map fun entry => nameCharge entry.1 + entry.2.cost beyond).sum + rest) walk.bytes)
    (hchecked : (visitNamed limit visit entries walk).unchecked = false) :
    Owing graph beyond limit full roots (visitNamed limit visit entries walk).seen [] later
      rest (visitNamed limit visit entries walk).bytes := by
  induction entries generalizing walk with
  | nil =>
    rw [List.map_nil, List.sum_nil, Nat.zero_add] at h
    exact h
  | cons entry entries ih =>
    rw [visitNamed] at hchecked ⊢
    split at hchecked
    · next hstopped =>
      rw [if_pos hstopped]
      exact h.stopped (lt_of_stopped hstopped hchecked) h.pending_subset
        (List.subset_append_right _ _)
    · next hstopped =>
      rw [if_neg hstopped]
      rw [List.flatMap_cons, List.append_assoc, List.map_cons, List.sum_cons, Nat.add_assoc,
        Nat.add_assoc] at h
      refine ih (hvisit entry.2 (walk.add limit (nameCharge entry.1)) _ _ h.pay ?_) hchecked
      by_contra hunchecked
      rw [visitNamed_of_unchecked _ (Bool.eq_true_of_not_eq_false hunchecked)] at hchecked
      exact hunchecked hchecked

omit [DecidableEq ρ] in
lemma visitOwn_owes {visit : Datum ρ → Walk ρ → Walk ρ}
    (hvisit : Pays graph beyond limit full roots visit) {container : Container ρ} {walk : Walk ρ}
    {later : List ρ} {rest : Nat}
    (h : Owing graph beyond limit full roots walk.seen [] (container.next ++ later)
      (container.held beyond + rest) walk.bytes)
    (hchecked : (visitOwn limit visit container walk).unchecked = false) :
    Owing graph beyond limit full roots (visitOwn limit visit container walk).seen [] later rest
      (visitOwn limit visit container walk).bytes := by
  rw [Container.held, Nat.add_assoc] at h
  cases container with
  | array slots named distinct not_index =>
    rw [visitOwn] at hchecked ⊢
    split at hchecked
    · exact absurd hchecked.symm Bool.false_ne_true
    next hkeys =>
    rw [if_neg hkeys]
    obtain ⟨items, hitems⟩ := Slots.dense_of_keys hkeys
    obtain ⟨hdrop, hnext, hcost⟩ :=
      @Slots.own_of_dense ρ slots named distinct not_index items hitems beyond
    rw [hnext, hcost, List.append_assoc, Nat.add_assoc, slotCharge, hitems] at h
    rw [hdrop, hitems] at hchecked ⊢
    refine visitNamed_owes hvisit (visitItems_owes hvisit h.pay ?_) hchecked
    by_contra hunchecked
    rw [visitNamed_of_unchecked _ (Bool.eq_true_of_not_eq_false hunchecked)] at hchecked
    exact hunchecked hchecked
  | object plain entries distinct =>
    rw [visitOwn] at hchecked ⊢
    rw [slotCharge, Nat.zero_add] at h
    exact visitNamed_owes hvisit h hchecked

lemma visit_pays (room : Nat) : Pays graph beyond limit full roots (visit graph limit room) := by
  induction room with
  | zero => exact fun _ _ _ _ _ hchecked => absurd hchecked.symm Bool.false_ne_true
  | succ room ih =>
    intro value walk later rest h hchecked
    by_cases hstopped : walk.stopped limit = true
    · unfold visit at hchecked ⊢
      rw [if_pos hstopped] at hchecked ⊢
      exact h.stopped (lt_of_stopped hstopped hchecked) h.pending_subset
        (List.subset_append_right _ _)
    · unfold visit at hchecked ⊢
      rw [if_neg hstopped] at hchecked ⊢
      cases value with
      | container ref =>
        dsimp only at hchecked ⊢
        rw [Datum.cost, Nat.zero_add] at h
        split at hchecked
        · exact absurd hchecked.symm Bool.false_ne_true
        next hfull =>
        rw [if_neg hfull]
        by_cases hseen : ref ∈ walk.seen
        · rw [if_pos hseen]
          exact h.skip hseen
        · rw [if_neg hseen] at hchecked ⊢
          exact visitOwn_owes ih (h.push hseen).pop hchecked
      | other => exact absurd hchecked.symm Bool.false_ne_true
      | _ => exact h.pay

end CheckedBytes

/-- The walk of a few containers counts what the other does, or leaves it to it. -/
lemma checkedRequestBytes_eq (graph : Graph ρ) (limit : Nat) (value : Datum ρ) :
    checkedRequestBytes graph limit value = requestBytes graph limit value := by
  by_cases hlimit : maxSafeInteger ≤ limit
  · rw [checkedRequestBytes, requestBytes, if_pos hlimit, if_pos hlimit]
  rw [checkedRequestBytes, if_neg hlimit]
  dsimp only
  split
  · rfl
  next hchecked =>
  have hbytes := CheckedBytes.visit_pays (CheckedBytes.maxSeen + 1) value ⟨[], 0, false⟩ [] 0
    (owing_start graph (limit + 1) limit value) (Bool.eq_false_of_not_eq_true hchecked)
  rw [hbytes.done fun _ => ⟨rfl, rfl, rfl⟩,
    RequestBytes.requestBytes_eq limit.lt_succ_self (not_le.mp hlimit)]

end Walks
end TinyJoin.Clone
