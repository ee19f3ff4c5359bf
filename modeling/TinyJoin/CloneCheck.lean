import TinyJoin.JsonUnfolding

/-! The check of JSON values, on the graph a structured clone holds. It accepts what unfolds to a
finite tree, as far as its budget of visits goes, and it always ends. -/
namespace TinyJoin.Clone
open Protocol

variable {ρ : Type} [DecidableEq ρ]

/-- A work budget and graph cache. -/
structure Validation (ρ : Type) where
  remaining : Int
  ancestors : List ρ
  validatedDepths : List (ρ × Nat)

def createJsonValidation : Validation ρ := ⟨maxJsonVisits, [], []⟩

def Validation.step (validation : Validation ρ) : Bool × Validation ρ :=
  (decide (0 < validation.remaining), { validation with remaining := validation.remaining - 1 })

/-- Whether a container was valid at a depth or deeper. -/
def isValidated (validatedDepths : List (ρ × Nat)) (ref : ρ) (depth : Nat) : Bool :=
  (validatedDepths.lookup ref).any fun deepest => decide (depth ≤ deepest)

/-- A check of each item, up to the first that fails it or is a hole. -/
def every (isItem : Datum ρ → Validation ρ → Bool × Validation ρ) :
    List (Option (Datum ρ)) → Validation ρ → Bool × Validation ρ
  | [], validation => (true, validation)
  | none :: _, validation => (false, validation)
  | some item :: rest, validation =>
    let (valid, validation) := isItem item validation
    if valid then every isItem rest validation else (false, validation)

def isDenseArray (isItem : Datum ρ → Validation ρ → Bool × Validation ρ) (slots : Slots ρ)
    (validation : Validation ρ) : Bool × Validation ρ :=
  if maxArrayItems < slots.items.length then (false, validation)
  else every isItem slots.items validation

/-- The check of what a container holds. -/
def isContainer (isItem : Datum ρ → Validation ρ → Bool × Validation ρ) :
    Container ρ → Validation ρ → Bool × Validation ρ
  | .array slots _ _ _, validation => isDenseArray isItem slots validation
  | .object plain entries _, validation =>
    if plain then every isItem (entries.map fun entry => some entry.2) validation
    else (false, validation)

/-- Visits a value `levels` above the first depth that is too deep. -/
def visit (graph : Graph ρ) : Nat → Datum ρ → Validation ρ → Bool × Validation ρ
  | 0, _, validation => (false, validation.step.2)
  | levels + 1, value, validation =>
    let (stepped, validation) := validation.step
    if !stepped then (false, validation)
    else
      match value with
      | .null | .bool _ | .string _ => (true, validation)
      | .number f => (f.isFinite, validation)
      | .container ref =>
        let depth := maxJsonDepth - levels
        if ref ∈ validation.ancestors then (false, validation)
        else if isValidated validation.validatedDepths ref depth then (true, validation)
        else
          let (valid, visited) := isContainer (visit graph levels) (graph ref)
            { validation with ancestors := ref :: validation.ancestors }
          let left := { visited with ancestors := visited.ancestors.erase ref }
          (valid,
            if valid then { left with validatedDepths := (ref, depth) :: left.validatedDepths }
            else left)
      | .undefined | .other => (false, validation)

def isJson (graph : Graph ρ) (value : Datum ρ) (validation : Validation ρ) :
    Bool × Validation ρ :=
  visit graph (maxJsonDepth + 1) value validation

/-! ## What it accepts unfolds -/

/-- Whether each container of a cache unfolds to a tree that ends above the first depth too deep. -/
def Sound (graph : Graph ρ) (validatedDepths : List (ρ × Nat)) : Prop :=
  ∀ ref depth, isValidated validatedDepths ref depth = true →
    ∃ tree, Unfolds graph (.container ref) tree ∧ depth + tree.depth ≤ maxJsonDepth

lemma isValidated_cons {validatedDepths : List (ρ × Nat)} {ref other : ρ} {deepest depth : Nat} :
    isValidated ((ref, deepest) :: validatedDepths) other depth =
      if other = ref then decide (depth ≤ deepest) else isValidated validatedDepths other depth := by
  rw [isValidated, isValidated, List.lookup_cons]
  by_cases h : other = ref
  · rw [if_pos h, beq_iff_eq.mpr h]
    rfl
  · rw [if_neg h, beq_eq_false_iff_ne.mpr h]

lemma Sound.cons {graph : Graph ρ} {validatedDepths : List (ρ × Nat)} {ref : ρ} {depth : Nat}
    {tree : JsonTree} (h : Sound graph validatedDepths) (htree : Unfolds graph (.container ref) tree)
    (hdepth : depth + tree.depth ≤ maxJsonDepth) :
    Sound graph ((ref, depth) :: validatedDepths) := by
  intro other at_most hvalidated
  rw [isValidated_cons] at hvalidated
  split at hvalidated
  · next heq =>
    subst heq
    have := of_decide_eq_true hvalidated
    exact ⟨tree, htree, by omega⟩
  · exact h other at_most hvalidated

/-- What a check leaves as it was: it gives back the ancestors it adds, keeps the cache sound, and
takes one step at most after its last. -/
structure Leaves (graph : Graph ρ) (before after : Validation ρ) : Prop where
  ancestors_eq : after.ancestors = before.ancestors
  sound : Sound graph after.validatedDepths
  remaining_le : after.remaining ≤ before.remaining
  ends : min before.remaining 0 - 1 ≤ after.remaining

lemma Leaves.refl {graph : Graph ρ} {validation : Validation ρ}
    (hsound : Sound graph validation.validatedDepths) (hremaining : 0 ≤ validation.remaining) :
    Leaves graph validation validation :=
  ⟨rfl, hsound, le_refl _, by omega⟩

lemma leaves_step {graph : Graph ρ} {validation : Validation ρ}
    (hsound : Sound graph validation.validatedDepths) : Leaves graph validation validation.step.2 :=
  ⟨rfl, hsound, sub_le_self _ Int.one_nonneg, sub_le_sub_right (min_le_left _ _) 1⟩

/-- Whether a check accepts only values whose trees have less than `levels` levels below the root. -/
def Checks (graph : Graph ρ) (levels : Nat)
    (isItem : Datum ρ → Validation ρ → Bool × Validation ρ) : Prop :=
  ∀ value validation, Sound graph validation.validatedDepths →
    Leaves graph validation (isItem value validation).2 ∧
      ((isItem value validation).1 = true → 0 ≤ (isItem value validation).2.remaining ∧
        ∃ tree, Unfolds graph value tree ∧ tree.depth < levels)

lemma every_leaves {graph : Graph ρ} {levels : Nat}
    {isItem : Datum ρ → Validation ρ → Bool × Validation ρ} (h : Checks graph levels isItem)
    (slots : List (Option (Datum ρ))) (validation : Validation ρ)
    (hsound : Sound graph validation.validatedDepths) (hremaining : 0 ≤ validation.remaining) :
    Leaves graph validation (every isItem slots validation).2 ∧
      ((every isItem slots validation).1 = true →
        0 ≤ (every isItem slots validation).2.remaining ∧
          ∃ items trees, slots = items.map some ∧ List.Forall₂ (Unfolds graph) items trees ∧
            ∀ tree ∈ trees, tree.depth < levels) := by
  induction slots generalizing validation with
  | nil =>
    refine ⟨.refl hsound hremaining, fun _ => ⟨hremaining, [], [], rfl, .nil, ?_⟩⟩
    exact fun _ htree => absurd htree List.not_mem_nil
  | cons slot rest ih =>
    cases slot with
    | none => exact ⟨.refl hsound hremaining, fun htrue => absurd htrue Bool.false_ne_true⟩
    | some item =>
      obtain ⟨hleaves, haccepts⟩ := h item validation hsound
      rw [every]
      dsimp only
      split
      · next hvalid =>
        obtain ⟨hleft, tree, htree, hlevels⟩ := haccepts hvalid
        obtain ⟨hrest, htrees⟩ := ih (isItem item validation).2 hleaves.sound hleft
        refine ⟨⟨hrest.ancestors_eq.trans hleaves.ancestors_eq, hrest.sound,
          hrest.remaining_le.trans hleaves.remaining_le, ?_⟩, fun htrue => ?_⟩
        · have := hrest.ends
          omega
        · obtain ⟨hend, items, trees, rfl, each, hdepth⟩ := htrees htrue
          exact ⟨hend, item :: items, tree :: trees, rfl, .cons htree each,
            List.forall_mem_cons.mpr ⟨hlevels, hdepth⟩⟩
      · exact ⟨hleaves, fun htrue => absurd htrue Bool.false_ne_true⟩

lemma isContainer_leaves {graph : Graph ρ} {levels : Nat}
    {isItem : Datum ρ → Validation ρ → Bool × Validation ρ} (h : Checks graph levels isItem)
    (container : Container ρ) (validation : Validation ρ)
    (hsound : Sound graph validation.validatedDepths) (hremaining : 0 ≤ validation.remaining) :
    Leaves graph validation (isContainer isItem container validation).2 ∧
      ((isContainer isItem container validation).1 = true →
        0 ≤ (isContainer isItem container validation).2.remaining ∧
          ∃ items trees, container.children = some (items.map some) ∧
            List.Forall₂ (Unfolds graph) items trees ∧ ∀ tree ∈ trees, tree.depth < levels) := by
  have hrefused := Leaves.refl hsound hremaining
  cases container with
  | array slots named distinct not_index =>
    rw [isContainer, isDenseArray, Container.children]
    split
    · exact ⟨hrefused, fun htrue => absurd htrue Bool.false_ne_true⟩
    · obtain ⟨hleaves, htrees⟩ := every_leaves h slots.items validation hsound hremaining
      refine ⟨hleaves, fun htrue => ?_⟩
      obtain ⟨hend, items, trees, hitems, each, hdepth⟩ := htrees htrue
      exact ⟨hend, items, trees, congrArg some hitems, each, hdepth⟩
  | object plain entries distinct =>
    rw [isContainer, Container.children]
    cases plain with
    | false => exact ⟨hrefused, fun htrue => absurd htrue Bool.false_ne_true⟩
    | true =>
      obtain ⟨hleaves, htrees⟩ :=
        every_leaves h (entries.map fun entry => some entry.2) validation hsound hremaining
      refine ⟨hleaves, fun htrue => ?_⟩
      obtain ⟨hend, items, trees, hitems, each, hdepth⟩ := htrees htrue
      exact ⟨hend, items, trees, congrArg some hitems, each, hdepth⟩

lemma visit_spent (graph : Graph ρ) (levels : Nat) (value : Datum ρ) {validation : Validation ρ}
    (h : validation.remaining ≤ 0) :
    visit graph levels value validation = (false, validation.step.2) := by
  cases levels with
  | zero => rfl
  | succ levels =>
    rw [visit]
    dsimp only [Validation.step]
    rw [decide_eq_false (not_lt.mpr h)]
    rfl

/-- The visit of a container while the budget lasts. -/
lemma visit_container (graph : Graph ρ) (levels : Nat) (ref : ρ) {validation : Validation ρ}
    (h : 0 < validation.remaining) :
    visit graph (levels + 1) (.container ref) validation =
      if ref ∈ validation.ancestors then (false, validation.step.2)
      else if isValidated validation.validatedDepths ref (maxJsonDepth - levels) then
        (true, validation.step.2)
      else
        let (valid, visited) := isContainer (visit graph levels) (graph ref)
          { validation.step.2 with ancestors := ref :: validation.ancestors }
        let left := { visited with ancestors := visited.ancestors.erase ref }
        (valid,
          if valid then
            { left with validatedDepths := (ref, maxJsonDepth - levels) :: left.validatedDepths }
          else left) := by
  rw [visit]
  dsimp only [Validation.step]
  rw [decide_eq_true h]
  rfl

/-- The visit of a scalar while the budget lasts. -/
lemma visit_scalar (graph : Graph ρ) (levels : Nat) {value : Datum ρ} {validation : Validation ρ}
    (hvalue : value.refs = []) (h : 0 < validation.remaining) :
    (visit graph (levels + 1) value validation).2 = validation.step.2 ∧
      ((visit graph (levels + 1) value validation).1 = true ↔ ∃ tree, Unfolds graph value tree) := by
  rw [visit]
  dsimp only [Validation.step]
  rw [decide_eq_true h]
  cases value with
  | null => exact ⟨rfl, iff_of_true rfl ⟨_, .null⟩⟩
  | bool b => exact ⟨rfl, iff_of_true rfl ⟨_, .bool b⟩⟩
  | string text => exact ⟨rfl, iff_of_true rfl ⟨_, .string text⟩⟩
  | number f =>
    refine ⟨rfl, fun hfinite => ⟨_, .number f hfinite⟩, fun ⟨tree, htree⟩ => ?_⟩
    cases htree with
    | number _ hfinite => exact hfinite
  | container ref => exact absurd hvalue (List.cons_ne_nil _ _)
  | undefined => exact ⟨rfl, iff_of_false Bool.false_ne_true fun ⟨_, htree⟩ => nomatch htree⟩
  | other => exact ⟨rfl, iff_of_false Bool.false_ne_true fun ⟨_, htree⟩ => nomatch htree⟩

/-- A check of a value, at any depth, accepts what unfolds to a tree that ends in time, and leaves
all but its budget and cache as it was. -/
lemma visit_checks (graph : Graph ρ) {levels : Nat} (hlevels : levels ≤ maxJsonDepth + 1) :
    Checks graph levels (visit graph levels) := by
  induction levels with
  | zero =>
    intro value validation hsound
    exact ⟨leaves_step hsound, fun htrue => absurd htrue Bool.false_ne_true⟩
  | succ levels ih =>
    intro value validation hsound
    have hstep := leaves_step hsound
    rcases le_or_gt validation.remaining 0 with hend | hsteps
    · rw [visit_spent graph _ value hend]
      exact ⟨hstep, fun htrue => absurd htrue Bool.false_ne_true⟩
    have hleft : 0 ≤ validation.step.2.remaining := Int.le_sub_one_of_lt hsteps
    rcases value.scalar_or_container with hvalue | ⟨ref, rfl⟩
    · obtain ⟨hafter, haccepts⟩ := visit_scalar graph levels hvalue hsteps
      rw [hafter, haccepts]
      refine ⟨hstep, fun ⟨tree, htree⟩ => ⟨hleft, tree, htree, ?_⟩⟩
      rw [depth_of_scalar hvalue htree]
      exact levels.succ_pos
    rw [visit_container graph levels ref hsteps]
    split
    · exact ⟨hstep, fun htrue => absurd htrue Bool.false_ne_true⟩
    split
    · next hvalidated =>
      obtain ⟨tree, htree, hdepth⟩ := hsound ref _ hvalidated
      exact ⟨hstep, fun _ => ⟨hleft, tree, htree, by omega⟩⟩
    obtain ⟨hinside, htrees⟩ := isContainer_leaves (ih (by omega)) (graph ref)
      { validation.step.2 with ancestors := ref :: validation.ancestors } hstep.sound hleft
    generalize isContainer (visit graph levels) (graph ref)
      { validation.step.2 with ancestors := ref :: validation.ancestors } = result at hinside htrees ⊢
    obtain ⟨valid, visited⟩ := result
    have hancestors : visited.ancestors.erase ref = validation.ancestors := by
      rw [hinside.ancestors_eq, List.erase_cons_head]
    have hends : min validation.remaining 0 - 1 ≤ visited.remaining := by
      have := hinside.ends
      dsimp only at this
      omega
    cases valid with
    | false =>
      exact ⟨⟨hancestors, hinside.sound, hinside.remaining_le.trans hstep.remaining_le, hends⟩,
        fun htrue => absurd htrue Bool.false_ne_true⟩
    | true =>
      obtain ⟨hend, items, trees, hchildren, each, hdepth⟩ := htrees rfl
      have htree := unfolds_container.mpr ⟨items, trees, hchildren, each, rfl⟩
      have hlevels' : ((graph ref).tree trees).depth ≤ levels := by
        rw [Container.depth_tree]
        exact JsonTree.depths_le_iff.mpr hdepth
      have hsound' : Sound graph ((ref, maxJsonDepth - levels) :: visited.validatedDepths) :=
        hinside.sound.cons htree (by omega)
      exact ⟨⟨hancestors, hsound', hinside.remaining_le.trans hstep.remaining_le, hends⟩,
        fun _ => ⟨hend, _, htree, Nat.lt_succ_of_le hlevels'⟩⟩

/-! ## Graphs within others -/

section Renaming
variable {σ : Type} [DecidableEq σ]

/-- A validation with its containers renamed. -/
def Validation.map (f : ρ → σ) (validation : Validation ρ) : Validation σ :=
  ⟨validation.remaining, validation.ancestors.map f, validation.validatedDepths.map (Prod.map f id)⟩

/-- A result with its containers renamed. -/
def renamedResult (f : ρ → σ) : Bool × Validation ρ → Bool × Validation σ :=
  Prod.map id (Validation.map f)

lemma isValidated_map {f : ρ → σ} (hf : f.Injective) (validatedDepths : List (ρ × Nat)) (ref : ρ)
    (depth : Nat) :
    isValidated (validatedDepths.map (Prod.map f id)) (f ref) depth =
      isValidated validatedDepths ref depth := by
  induction validatedDepths with
  | nil => rfl
  | cons entry rest ih =>
    rw [List.map_cons, Prod.map, isValidated_cons, isValidated_cons, ih]
    exact if_congr hf.eq_iff rfl rfl

omit [DecidableEq ρ] [DecidableEq σ] in
lemma every_map {f : ρ → σ} {isItem : Datum ρ → Validation ρ → Bool × Validation ρ}
    {isItem' : Datum σ → Validation σ → Bool × Validation σ}
    (h : ∀ item validation,
      isItem' (item.map f) (validation.map f) = renamedResult f (isItem item validation))
    (slots : List (Option (Datum ρ))) (validation : Validation ρ) :
    every isItem' (slots.map (Option.map (Datum.map f))) (validation.map f) =
      renamedResult f (every isItem slots validation) := by
  induction slots generalizing validation with
  | nil => rfl
  | cons slot rest ih =>
    cases slot with
    | none => rfl
    | some item =>
      rw [List.map_cons, Option.map_some, every, every, h]
      obtain ⟨valid, checked⟩ := isItem item validation
      cases valid with
      | false => rfl
      | true => exact ih checked

omit [DecidableEq ρ] [DecidableEq σ] in
lemma isContainer_map {f : ρ → σ} {isItem : Datum ρ → Validation ρ → Bool × Validation ρ}
    {isItem' : Datum σ → Validation σ → Bool × Validation σ}
    (h : ∀ item validation,
      isItem' (item.map f) (validation.map f) = renamedResult f (isItem item validation))
    (container : Container ρ) (validation : Validation ρ) :
    isContainer isItem' (container.map f) (validation.map f) =
      renamedResult f (isContainer isItem container validation) := by
  cases container with
  | array slots named distinct not_index =>
    rw [Container.map, isContainer, isContainer, isDenseArray, isDenseArray, Slots.map,
      List.length_map, every_map h]
    split <;> rfl
  | object plain entries distinct =>
    rw [Container.map, isContainer, isContainer, renamed, List.map_map]
    have hvalues := every_map h (entries.map fun entry => some entry.2) validation
    rw [List.map_map] at hvalues
    cases plain with
    | false => rfl
    | true => exact hvalues

/-- A value is checked as it is in a graph of which its own is a part. -/
lemma visit_map {f : ρ → σ} (hf : f.Injective) {graph : Graph ρ} {extended : Graph σ}
    (h : Embeds f graph extended) (levels : Nat) (value : Datum ρ) (validation : Validation ρ) :
    visit extended levels (value.map f) (validation.map f) =
      renamedResult f (visit graph levels value validation) := by
  induction levels generalizing value validation with
  | zero => rfl
  | succ levels ih =>
    rcases le_or_gt validation.remaining 0 with hend | hsteps
    · rw [visit_spent graph _ value hend, visit_spent extended _ (value.map f) hend]
      rfl
    cases value with
    | container ref =>
      rw [Datum.map, visit_container graph levels ref hsteps,
        visit_container extended levels (f ref) hsteps, h ref]
      have hancestor : f ref ∈ (validation.map f).ancestors ↔ ref ∈ validation.ancestors :=
        List.mem_map_of_injective hf
      have hvalidated : isValidated (validation.map f).validatedDepths (f ref) (maxJsonDepth - levels) =
          isValidated validation.validatedDepths ref (maxJsonDepth - levels) :=
        isValidated_map hf validation.validatedDepths ref _
      rw [hvalidated, if_congr hancestor rfl rfl]
      split
      · rfl
      split
      · rfl
      have hinside : isContainer (visit extended levels) ((graph ref).map f)
          { (validation.map f).step.2 with ancestors := f ref :: (validation.map f).ancestors } =
          renamedResult f (isContainer (visit graph levels) (graph ref)
            { validation.step.2 with ancestors := ref :: validation.ancestors }) :=
        isContainer_map ih (graph ref)
          { validation.step.2 with ancestors := ref :: validation.ancestors }
      rw [hinside]
      obtain ⟨valid, visited⟩ := isContainer (visit graph levels) (graph ref)
        { validation.step.2 with ancestors := ref :: validation.ancestors }
      have herase := List.map_erase hf (a := ref) visited.ancestors
      cases valid with
      | false => simp [renamedResult, Validation.map, herase]
      | true => simp [renamedResult, Validation.map, herase]
    | _ =>
      rw [visit, visit]
      dsimp only [Validation.step, Validation.map, Datum.map]
      rw [decide_eq_true hsteps]
      rfl

end Renaming

end TinyJoin.Clone
