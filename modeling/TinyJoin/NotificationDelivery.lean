import TinyJoin.NotificationRuns

/-! The loop that delivers an event, over subscriptions that its listeners may change. -/
namespace TinyJoin
namespace Changes

section
variable {ν : Type}

/-- Subscriptions stand in the order of their numbers, all below the next one's. -/
structure Numbered (page : Page ν) : Prop where
  sorted : page.subscriptions.Pairwise (fun a b => a.id < b.id)
  lt_next : ∀ subscription ∈ page.subscriptions, subscription.id < page.nextSubscription

/-- What at most `n` reactions of listeners may do to a page. -/
structure Reacted (n : Nat) (page page' : Page ν) : Prop where
  numbered : Numbered page → Numbered page'
  kept : ∀ subscription ∈ page'.subscriptions,
    subscription ∈ page.subscriptions ∨ page.nextSubscription ≤ subscription.id
  next_le : page.nextSubscription ≤ page'.nextSubscription
  le_next : page'.nextSubscription ≤ page.nextSubscription + n
  notification : page'.pendingNotification = page.pendingNotification
  keys : page'.pendingKeys = page.pendingKeys

namespace Reacted

lemma refl (page : Page ν) : Reacted 0 page page :=
  ⟨id, fun _ h => .inl h, Nat.le_refl _, Nat.le_refl _, rfl, rfl⟩

lemma trans {n m : Nat} {page page' page'' : Page ν} (h : Reacted n page page')
    (h' : Reacted m page' page'') : Reacted (n + m) page page'' := by
  refine ⟨fun hnumbered => h'.numbered (h.numbered hnumbered), ?_, Nat.le_trans h.next_le h'.next_le,
    ?_, h'.notification.trans h.notification, h'.keys.trans h.keys⟩
  · intro subscription hmem
    rcases h'.kept subscription hmem with hold | hnew
    · exact h.kept subscription hold
    · exact .inr (Nat.le_trans h.next_le hnew)
  · have hle := h.le_next
    have hle' := h'.le_next
    omega

lemma mono {n m : Nat} {page page' : Page ν} (h : Reacted n page page') (hle : n ≤ m) :
    Reacted m page page' :=
  ⟨h.numbered, h.kept, h.next_le, Nat.le_trans h.le_next (Nat.add_le_add_left hle _),
    h.notification, h.keys⟩

end Reacted

lemma reacted_react (page : Page ν) (reaction : Reaction) : Reacted 1 page (page.react reaction) := by
  cases reaction with
  | subscribe tables =>
    refine ⟨fun h => ⟨?_, ?_⟩, ?_, Nat.le_succ _, Nat.le_refl _, rfl, rfl⟩
    · refine List.pairwise_append.mpr ⟨h.sorted, List.pairwise_singleton _ _, ?_⟩
      intro a ha b hb
      rw [List.mem_singleton.mp hb]
      exact h.lt_next a ha
    · intro subscription hmem
      rcases List.mem_append.mp hmem with hold | hnew
      · exact Nat.lt_succ_of_lt (h.lt_next subscription hold)
      · rw [List.mem_singleton.mp hnew]
        exact Nat.lt_succ_self _
    · intro subscription hmem
      refine (List.mem_append.mp hmem).imp id (fun hnew => ?_)
      rw [List.mem_singleton.mp hnew]
  | unsubscribe id =>
    have hsub : (page.react (.unsubscribe id)).subscriptions.Sublist page.subscriptions :=
      List.filter_sublist
    exact ⟨fun h => ⟨h.sorted.sublist hsub, fun s hs => h.lt_next s (hsub.subset hs)⟩,
      fun s hs => .inl (hsub.subset hs), Nat.le_refl _, Nat.le_succ _, rfl, rfl⟩
  | close =>
    exact ⟨fun h => ⟨h.sorted, h.lt_next⟩, fun _ hs => .inl hs, Nat.le_refl _, Nat.le_succ _, rfl, rfl⟩

lemma reacted_foldl (reactions : List Reaction) (page : Page ν) :
    Reacted reactions.length page (reactions.foldl Page.react page) := by
  induction reactions generalizing page with
  | nil => exact .refl page
  | cons reaction reactions ih =>
    have h := (reacted_react page reaction).trans (ih (page.react reaction))
    rw [Nat.add_comm] at h
    exact h

/-- What a delivery from the number `least` on comes to. -/
structure Delivers (event : TablesChangedEvent ν) (least : Nat) (heard : List Subscription)
    (page' : Page ν) : Prop where
  le_id : ∀ subscription ∈ heard, least ≤ subscription.id
  concerned : ∀ subscription ∈ heard, Page.covers event subscription = true
  once : heard.Nodup
  complete : ∀ subscription ∈ page'.subscriptions, least ≤ subscription.id →
    Page.covers event subscription = true → subscription ∈ heard

/-- In a numbered page, the subscription that the loop comes to next is the first that is left. -/
lemma find_least {page : Page ν} (h : Numbered page) {least : Nat} {found : Subscription}
    (hfind : page.subscriptions.find? (fun s => decide (least ≤ s.id)) = some found) :
    found ∈ page.subscriptions ∧ least ≤ found.id ∧
      ∀ s ∈ page.subscriptions, least ≤ s.id → s.id ≤ found.id → s = found := by
  obtain ⟨hleast, before, after, hsplit, hbefore⟩ := List.find?_eq_some_iff_append.mp hfind
  have hsorted := h.sorted
  rw [hsplit] at hsorted ⊢
  refine ⟨List.mem_append_right _ List.mem_cons_self, of_decide_eq_true hleast, ?_⟩
  intro s hs hle hle'
  rcases List.mem_append.mp hs with hmem | hmem
  · have hnot := hbefore s hmem
    rw [Bool.not_eq_true', decide_eq_false_iff_not] at hnot
    exact absurd hle hnot
  · rcases List.mem_cons.mp hmem with rfl | hmem
    · rfl
    · have hlt := (List.pairwise_cons.mp (List.pairwise_append.mp hsorted).2.1).1 s hmem
      omega

lemma length_flatten_tail (reactions : List (List Reaction)) :
    (reactions.headD []).length + reactions.tail.flatten.length = reactions.flatten.length := by
  cases reactions with
  | nil => rfl
  | cons first rest =>
    rw [List.flatten_cons, List.length_append, List.headD_cons, List.tail_cons]

theorem deliver_spec (event : TablesChangedEvent ν) (fuel least : Nat)
    (reactions : List (List Reaction)) (page : Page ν) (hnumbered : Numbered page)
    (hfuel : page.nextSubscription + reactions.flatten.length < least + fuel) :
    let (heard, page') := Page.deliver event fuel least reactions page
    Delivers event least heard page' ∧ Reacted reactions.flatten.length page page' := by
  induction fuel generalizing least reactions page with
  | zero =>
    refine ⟨⟨fun _ h => (nomatch h), fun _ h => (nomatch h), List.nodup_nil, ?_⟩,
      (Reacted.refl page).mono (Nat.zero_le _)⟩
    intro subscription hmem hle
    have hlt := hnumbered.lt_next subscription hmem
    omega
  | succ fuel ih =>
    rw [Page.deliver]
    cases hfind : page.subscriptions.find? (fun s => decide (least ≤ s.id)) with
    | none =>
      refine ⟨⟨fun _ h => (nomatch h), fun _ h => (nomatch h), List.nodup_nil, ?_⟩,
        (Reacted.refl page).mono (Nat.zero_le _)⟩
      intro subscription hmem hle
      exact absurd (decide_eq_true hle) (List.find?_eq_none.mp hfind subscription hmem)
    | some found =>
      obtain ⟨hfound, hleast, honly⟩ := find_least hnumbered hfind
      have hlt := hnumbered.lt_next found hfound
      dsimp only
      split
      · next hcovers =>
        have hreacted := reacted_foldl (reactions.headD []) page
        have hlength := length_flatten_tail reactions
        have hnext := hreacted.le_next
        obtain ⟨hdelivers, hafter⟩ := ih (found.id + 1) reactions.tail
          ((reactions.headD []).foldl Page.react page) (hreacted.numbered hnumbered) (by omega)
        have hall := hreacted.trans hafter
        rw [hlength] at hall
        refine ⟨⟨?_, ?_, ?_, ?_⟩, hall⟩
        · intro s hs
          rcases List.mem_cons.mp hs with rfl | hs
          · exact hleast
          · exact Nat.le_trans hleast (Nat.le_of_succ_le (hdelivers.le_id s hs))
        · intro s hs
          rcases List.mem_cons.mp hs with rfl | hs
          · exact hcovers
          · exact hdelivers.concerned s hs
        · refine List.nodup_cons.mpr ⟨fun hmem => ?_, hdelivers.once⟩
          exact absurd (hdelivers.le_id found hmem) (Nat.not_succ_le_self _)
        · intro s hs hle hcov
          by_cases hpast : found.id + 1 ≤ s.id
          · exact List.mem_cons_of_mem _ (hdelivers.complete s hs hpast hcov)
          · rcases hall.kept s hs with hold | hnew
            · rw [honly s hold hle (by omega)]
              exact List.mem_cons_self
            · omega
      · next hcovers =>
        obtain ⟨hdelivers, hall⟩ := ih (found.id + 1) reactions page hnumbered (by omega)
        refine ⟨⟨?_, hdelivers.concerned, hdelivers.once, ?_⟩, hall⟩
        · intro s hs
          exact Nat.le_trans hleast (Nat.le_of_succ_le (hdelivers.le_id s hs))
        · intro s hs hle hcov
          by_cases hpast : found.id + 1 ≤ s.id
          · exact hdelivers.complete s hs hpast hcov
          · rcases hall.kept s hs with hold | hnew
            · rw [honly s hold hle (by omega)] at hcov
              exact absurd hcov hcovers
            · omega

end

end Changes
end TinyJoin
