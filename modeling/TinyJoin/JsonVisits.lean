import Mathlib.Data.List.Induction
import TinyJoin.CloneCheck

/-! How many visits the check of a value needs, and that within its budget it accepts exactly what
unfolds. One validation may check several values, which share its budget and its cache. -/
namespace TinyJoin.Clone
open Protocol

variable {ρ : Type} [DecidableEq ρ]

/-- The visits of each item, and the cache after them. -/
def walkAll (walk : Datum ρ → List (ρ × Nat) → Option (Nat × List (ρ × Nat))) :
    List (Option (Datum ρ)) → List (ρ × Nat) → Option (Nat × List (ρ × Nat))
  | [], validatedDepths => some (0, validatedDepths)
  | none :: _, _ => none
  | some item :: rest, validatedDepths => do
    let (visits, validatedDepths) ← walk item validatedDepths
    let (more, validatedDepths) ← walkAll walk rest validatedDepths
    some (visits + more, validatedDepths)

/-- The visits of a check that meets a container of the cache only once, but has no budget and looks
for no cycles, and the cache after it. -/
def walk (graph : Graph ρ) : Nat → Datum ρ → List (ρ × Nat) → Option (Nat × List (ρ × Nat))
  | 0, _, _ => none
  | levels + 1, value, validatedDepths =>
    match value with
    | .null | .bool _ | .string _ => some (1, validatedDepths)
    | .number f => if f.isFinite then some (1, validatedDepths) else none
    | .container ref =>
      let depth := Protocol.maxJsonDepth - levels
      if isValidated validatedDepths ref depth then some (1, validatedDepths)
      else do
        let children ← (graph ref).children
        let (visits, validatedDepths) ← walkAll (walk graph levels) children validatedDepths
        some (visits + 1, (ref, depth) :: validatedDepths)
    | .undefined | .other => none

/-- How many visits the check of a value makes if its budget lasts, from a cache on. -/
def visits (graph : Graph ρ) (validatedDepths : List (ρ × Nat)) (value : Datum ρ) : Nat :=
  ((walk graph (Protocol.maxJsonDepth + 1) value validatedDepths).map Prod.fst).getD 0

/-- Whether the result of a check is that of `visits` visits, where its budget allows as many. -/
def Outcome (validation : Validation ρ) (visits : Nat) (validatedDepths : List (ρ × Nat))
    (result : Bool × Validation ρ) : Prop :=
  if visits ≤ validation.remaining then
    result = (true, ⟨validation.remaining - visits, validation.ancestors, validatedDepths⟩)
  else result.1 = false

/-- Whether checks `levels` above the first depth too deep visit as many values as the walk counts. -/
def Counts (graph : Graph ρ) (levels : Nat) : Prop :=
  ∀ value tree, ∀ validation : Validation ρ, Unfolds graph value tree → tree.depth < levels →
    Outside graph tree validation.ancestors → validation.remaining ≤ maxArrayItems →
    ∃ visits validatedDepths,
      walk graph levels value validation.validatedDepths = some (visits, validatedDepths) ∧
        1 ≤ visits ∧ visits ≤ tree.size ∧
        Outcome validation visits validatedDepths (visit graph levels value validation)

omit [DecidableEq ρ] in
/-- The outcome of a check of two parts, the second only if the first accepts. -/
lemma Outcome.and_then {validation : Validation ρ} {first more : Nat} {cache cache' : List (ρ × Nat)}
    {result : Bool × Validation ρ} {rest : Validation ρ → Bool × Validation ρ}
    (hfirst : Outcome validation first cache result)
    (hrest : first ≤ validation.remaining →
      Outcome ⟨validation.remaining - first, validation.ancestors, cache⟩ more cache'
        (rest ⟨validation.remaining - first, validation.ancestors, cache⟩)) :
    Outcome validation (first + more) cache'
      (if result.1 = true then rest result.2 else (false, result.2)) := by
  rw [Outcome] at hfirst ⊢
  by_cases hbudget : (first : Int) ≤ validation.remaining
  · rw [if_pos hbudget] at hfirst
    have hmore := hrest hbudget
    rw [Outcome] at hmore
    rw [hfirst, if_pos rfl]
    by_cases hboth : (more : Int) ≤ validation.remaining - first
    · rw [if_pos hboth] at hmore
      rw [if_pos (by omega), hmore, Nat.cast_add, sub_sub]
    · rw [if_neg hboth] at hmore
      rw [if_neg (by omega), hmore]
  · rw [if_neg hbudget] at hfirst
    rw [if_neg (by omega), hfirst, if_neg Bool.false_ne_true]

lemma every_counts {graph : Graph ρ} {levels : Nat} (h : Counts graph levels)
    {items : List (Datum ρ)} {trees : List JsonTree} (each : List.Forall₂ (Unfolds graph) items trees)
    (hdepth : ∀ tree ∈ trees, tree.depth < levels) (validation : Validation ρ)
    (houtside : ∀ tree ∈ trees, Outside graph tree validation.ancestors)
    (hleft : 0 ≤ validation.remaining) (hremaining : validation.remaining ≤ maxArrayItems) :
    ∃ visits validatedDepths,
      walkAll (walk graph levels) (items.map some) validation.validatedDepths =
          some (visits, validatedDepths) ∧
        items.length ≤ visits ∧ visits ≤ JsonTree.sizes trees ∧
        Outcome validation visits validatedDepths
          (every (visit graph levels) (items.map some) validation) := by
  induction each generalizing validation with
  | nil =>
    refine ⟨0, validation.validatedDepths, rfl, le_refl _, le_refl _, ?_⟩
    rw [Outcome, Nat.cast_zero, if_pos hleft, sub_zero]
    rfl
  | @cons item tree items trees hitem each ih =>
    rw [List.forall_mem_cons] at hdepth houtside
    obtain ⟨first, cache, hwalk, hone, hsize, hfirst⟩ :=
      h item tree validation hitem hdepth.1 houtside.1 hremaining
    -- the walk of the rest is counted also where the budget ends before it
    obtain ⟨more, cache', hrest, hlength, hsizes, hmore⟩ :=
      ih hdepth.2 ⟨max (validation.remaining - first) 0, validation.ancestors, cache⟩ houtside.2
        (le_max_right _ _) (by dsimp only; omega)
    refine ⟨first + more, cache', ?_, ?_, ?_, ?_⟩
    · rw [List.map_cons, walkAll, hwalk]
      dsimp only [bind, Option.bind]
      rw [hrest]
    · rw [List.length_cons]
      omega
    · rw [JsonTree.sizes]
      omega
    · refine hfirst.and_then fun hbudget => ?_
      rwa [max_eq_left (by omega)] at hmore

omit [DecidableEq ρ] in
/-- What a container holds is checked but for an array longer than any budget. -/
lemma isContainer_eq {isItem : Datum ρ → Validation ρ → Bool × Validation ρ}
    {container : Container ρ} {children : List (Option (Datum ρ))}
    (h : container.children = some children) (validation : Validation ρ) :
    isContainer isItem container validation = every isItem children validation ∨
      maxArrayItems < children.length ∧
        isContainer isItem container validation = (false, validation) := by
  cases container with
  | array slots named distinct not_index =>
    obtain rfl := Option.some.inj h
    rw [isContainer, isDenseArray]
    split
    · next hlong => exact .inr ⟨hlong, rfl⟩
    · exact .inl rfl
  | object plain entries distinct =>
    obtain ⟨rfl, hvalues⟩ := Option.ite_none_right_eq_some.mp h
    obtain rfl := Option.some.inj hvalues
    exact .inl rfl

lemma isContainer_counts {graph : Graph ρ} {levels : Nat} (h : Counts graph levels)
    {container : Container ρ} {items : List (Datum ρ)} {trees : List JsonTree}
    (hchildren : container.children = some (items.map some))
    (each : List.Forall₂ (Unfolds graph) items trees)
    (hdepth : ∀ tree ∈ trees, tree.depth < levels) (validation : Validation ρ)
    (houtside : ∀ tree ∈ trees, Outside graph tree validation.ancestors)
    (hleft : 0 ≤ validation.remaining) (hremaining : validation.remaining ≤ maxArrayItems) :
    ∃ visits validatedDepths,
      walkAll (walk graph levels) (items.map some) validation.validatedDepths =
          some (visits, validatedDepths) ∧
        visits ≤ JsonTree.sizes trees ∧
        Outcome validation visits validatedDepths
          (isContainer (visit graph levels) container validation) := by
  obtain ⟨visits, validatedDepths, hwalk, hlength, hsizes, houtcome⟩ :=
    every_counts h each hdepth validation houtside hleft hremaining
  refine ⟨visits, validatedDepths, hwalk, hsizes, ?_⟩
  rcases isContainer_eq hchildren validation with heq | ⟨hlong, heq⟩
  · rwa [heq]
  · rw [List.length_map] at hlong
    rw [heq, Outcome, if_neg (by omega)]

lemma walk_scalar {graph : Graph ρ} {levels : Nat} {value : Datum ρ} {tree : JsonTree}
    (hvalue : value.refs = []) (h : Unfolds graph value tree) (validatedDepths : List (ρ × Nat)) :
    walk graph (levels + 1) value validatedDepths = some (1, validatedDepths) := by
  cases h with
  | number f hfinite => rw [walk, if_pos hfinite]
  | array => exact absurd hvalue (List.cons_ne_nil _ _)
  | object => exact absurd hvalue (List.cons_ne_nil _ _)
  | _ => rfl

lemma outcome_visit {graph : Graph ρ} {levels visits : Nat} {value : Datum ρ}
    {validation : Validation ρ} {validatedDepths : List (ρ × Nat)} (hone : 1 ≤ visits)
    (h : 0 < validation.remaining →
      Outcome validation visits validatedDepths (visit graph levels value validation)) :
    Outcome validation visits validatedDepths (visit graph levels value validation) := by
  rcases le_or_gt validation.remaining 0 with hend | hsteps
  · rw [Outcome, if_neg (by omega), visit_spent graph levels value hend]
  · exact h hsteps

/-- A check of what unfolds ends in time visits as many values as the walk counts, or as its budget
allows. No container of a finite tree is within itself, so the check meets no ancestor. -/
lemma visit_counts (graph : Graph ρ) (levels : Nat) : Counts graph levels := by
  induction levels with
  | zero => exact fun _ tree _ _ hdepth => absurd hdepth tree.depth.not_lt_zero
  | succ levels ih =>
    intro value tree validation h hdepth houtside hremaining
    have hone := tree.one_le_size
    rcases value.scalar_or_container with hvalue | ⟨ref, rfl⟩
    · refine ⟨1, validation.validatedDepths, walk_scalar hvalue h _, le_refl _, hone,
        outcome_visit (le_refl _) fun hsteps => ?_⟩
      obtain ⟨hafter, haccepts⟩ := visit_scalar graph levels hvalue hsteps
      rw [Outcome, if_pos (by omega)]
      exact Prod.ext (haccepts.mpr ⟨tree, h⟩) hafter
    obtain ⟨items, trees, hchildren, each, rfl⟩ := unfolds_container.mp h
    have hnot : ref ∉ validation.ancestors := fun hmem => (houtside ref hmem _ h).false
    rw [walk]
    dsimp only
    split
    · next hvalidated =>
      refine ⟨1, validation.validatedDepths, rfl, le_refl _, hone,
        outcome_visit (le_refl _) fun hsteps => ?_⟩
      rw [visit_container graph levels ref hsteps, if_neg hnot, if_pos hvalidated, Outcome,
        if_pos (by omega)]
      rfl
    · next hvalidated =>
      rw [Container.depth_tree, Nat.lt_succ_iff, JsonTree.depths_le_iff] at hdepth
      obtain ⟨inside, cache, hwalk, hsizes, houtcome⟩ := isContainer_counts ih hchildren each hdepth
        ⟨max (validation.remaining - 1) 0, ref :: validation.ancestors, validation.validatedDepths⟩
        (fun tree htree => h.outside_children houtside htree) (le_max_right _ _)
        (by dsimp only; omega)
      refine ⟨inside + 1, (ref, Protocol.maxJsonDepth - levels) :: cache, ?_, Nat.le_add_left _ _, ?_,
        outcome_visit (Nat.le_add_left _ _) fun hsteps => ?_⟩
      · rw [hchildren]
        dsimp only [bind, Option.bind] at hwalk ⊢
        rw [hwalk]
      · rw [Container.size_tree]
        omega
      · rw [max_eq_left (by omega)] at houtcome
        rw [visit_container graph levels ref hsteps, if_neg hnot, if_neg hvalidated]
        dsimp only [Validation.step]
        rw [Outcome] at houtcome ⊢
        by_cases hbudget : (inside : Int) ≤ validation.remaining - 1
        · rw [if_pos hbudget] at houtcome
          rw [if_pos (by omega), houtcome, Nat.cast_add, Nat.cast_one, add_comm, ← sub_sub]
          dsimp only
          rw [List.erase_cons_head, if_pos rfl]
        · rw [if_neg hbudget] at houtcome
          rw [if_neg (by omega), houtcome]

/-! ## Validations that check several values -/

/-- A validation after a call of its `step`, or of its `isJson` for a value. -/
def Validation.after (graph : Graph ρ) (validation : Validation ρ) :
    Option (Datum ρ) → Validation ρ
  | none => validation.step.2
  | some value => (isJson graph value validation).2

def validationAfter (graph : Graph ρ) (calls : List (Option (Datum ρ))) : Validation ρ :=
  calls.foldl (Validation.after graph) createJsonValidation

lemma validationAfter_leaves (graph : Graph ρ) (calls : List (Option (Datum ρ))) :
    (validationAfter graph calls).ancestors = [] ∧
      Sound graph (validationAfter graph calls).validatedDepths ∧
      (validationAfter graph calls).remaining ≤ maxJsonVisits := by
  induction calls using List.reverseRecOn with
  | nil => exact ⟨rfl, fun _ _ h => absurd h Bool.false_ne_true, le_refl _⟩
  | append_singleton calls call ih =>
    obtain ⟨hancestors, hsound, hremaining⟩ := ih
    have hleaves : Leaves graph (validationAfter graph calls)
        (validationAfter graph (calls ++ [call])) := by
      rw [show validationAfter graph (calls ++ [call]) = (validationAfter graph calls).after graph call
        from List.foldl_concat _ _ _ _]
      cases call with
      | none => exact leaves_step hsound
      | some value => exact (visit_checks graph (le_refl _) value _ hsound).1
    exact ⟨hleaves.ancestors_eq.trans hancestors, hleaves.sound,
      hleaves.remaining_le.trans hremaining⟩

/-- Within the budget that is left, a check accepts exactly what unfolds. -/
lemma isJson_iff (graph : Graph ρ) (calls : List (Option (Datum ρ))) (value : Datum ρ) :
    (isJson graph value (validationAfter graph calls)).1 = true ↔
      (∃ tree, Unfolds graph value tree ∧ tree.depth ≤ Protocol.maxJsonDepth) ∧
        visits graph (validationAfter graph calls).validatedDepths value ≤
          (validationAfter graph calls).remaining := by
  obtain ⟨hancestors, hsound, hremaining⟩ := validationAfter_leaves graph calls
  have hcounts : ∀ tree, Unfolds graph value tree → tree.depth ≤ Protocol.maxJsonDepth →
      ((isJson graph value (validationAfter graph calls)).1 = true ↔
        visits graph (validationAfter graph calls).validatedDepths value ≤
          (validationAfter graph calls).remaining) := by
    intro tree htree hdepth
    obtain ⟨count, cache, hwalk, -, -, houtcome⟩ := visit_counts graph (Protocol.maxJsonDepth + 1) value tree
      (validationAfter graph calls) htree (Nat.lt_succ_of_le hdepth)
      (fun ref hmem => by simp [hancestors] at hmem) hremaining
    rw [visits, hwalk]
    dsimp only [Option.map, Option.getD]
    rw [Outcome] at houtcome
    split at houtcome
    · next hbudget => exact iff_of_true (congrArg Prod.fst houtcome) hbudget
    · next hbudget =>
      exact iff_of_false (fun htrue => Bool.false_ne_true (houtcome.symm.trans htrue)) hbudget
  constructor
  · intro htrue
    obtain ⟨-, tree, htree, hdepth⟩ :=
      (visit_checks graph (le_refl _) value (validationAfter graph calls) hsound).2 htrue
    have hle := Nat.le_of_lt_succ hdepth
    exact ⟨⟨tree, htree, hle⟩, (hcounts tree htree hle).mp htrue⟩
  · rintro ⟨⟨tree, htree, hdepth⟩, hbudget⟩
    exact (hcounts tree htree hdepth).mpr hbudget

/-- A check visits each value of a tree once at most. -/
lemma visits_le_size {graph : Graph ρ} {value : Datum ρ} {tree : JsonTree}
    (h : Unfolds graph value tree) (hdepth : tree.depth ≤ Protocol.maxJsonDepth)
    (validatedDepths : List (ρ × Nat)) :
    visits graph validatedDepths value ≤ tree.size := by
  obtain ⟨count, cache, hwalk, -, hsize, -⟩ := visit_counts graph (Protocol.maxJsonDepth + 1) value tree
    ⟨0, [], validatedDepths⟩ h (Nat.lt_succ_of_le hdepth)
    (fun _ hmem => absurd hmem List.not_mem_nil) (Int.natCast_nonneg _)
  rw [visits, hwalk]
  exact hsize

end TinyJoin.Clone
