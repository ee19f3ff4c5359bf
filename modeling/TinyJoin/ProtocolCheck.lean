import TinyJoin.Protocol

/-! What a request that passed the check holds: JSON values, finite and nested to the limit, whatever
aliases let the check pass over. -/
namespace TinyJoin

mutual
/-- Each array or object within a value is what its identity denotes. -/
def JsValue.OnHeap (heap : Nat → JsValue) : JsValue → Prop
  | .array ref items => heap ref = .array ref items ∧ OnHeapItems heap items
  | .object ref plain entries => heap ref = .object ref plain entries ∧ OnHeapEntries heap entries
  | .undefined | .hole | .null | .bool _ | .number _ | .string _ | .other => True

def JsValue.OnHeapItems (heap : Nat → JsValue) : List JsValue → Prop
  | [] => True
  | item :: rest => OnHeap heap item ∧ OnHeapItems heap rest

def JsValue.OnHeapEntries (heap : Nat → JsValue) : List (List UInt16 × JsValue) → Prop
  | [] => True
  | (_, item) :: rest => OnHeap heap item ∧ OnHeapEntries heap rest
end

namespace Protocol

mutual
/-- A JSON value, at `depth` within another. -/
def Nested (depth : Nat) : JsValue → Prop
  | .null | .bool _ | .string _ => depth ≤ maxJsonDepth
  | .number f => depth ≤ maxJsonDepth ∧ f.isFinite = true
  | .array _ items => depth ≤ maxJsonDepth ∧ NestedItems (depth + 1) items
  | .object _ _ entries => depth ≤ maxJsonDepth ∧ NestedEntries (depth + 1) entries
  | .undefined | .hole | .other => False

def NestedItems (depth : Nat) : List JsValue → Prop
  | [] => True
  | item :: rest => Nested depth item ∧ NestedItems depth rest

def NestedEntries (depth : Nat) : List (List UInt16 × JsValue) → Prop
  | [] => True
  | (_, item) :: rest => Nested depth item ∧ NestedEntries depth rest
end

lemma nestedItems_iff {depth : Nat} {items : List JsValue} :
    NestedItems depth items ↔ ∀ item ∈ items, Nested depth item := by
  induction items with
  | nil => exact ⟨fun _ _ h => (nomatch h), fun _ => trivial⟩
  | cons item rest ih => rw [NestedItems, ih, List.forall_mem_cons]

mutual
/-- A value that may stand at a depth may stand above it. -/
theorem Nested.mono {depth deepest : Nat} (hdepth : depth ≤ deepest) :
    ∀ {value : JsValue}, Nested deepest value → Nested depth value
  | .null, h | .bool _, h | .string _, h => Nat.le_trans hdepth h
  | .number _, h => ⟨Nat.le_trans hdepth h.1, h.2⟩
  | .array _ _, h => ⟨Nat.le_trans hdepth h.1, NestedItems.mono (Nat.succ_le_succ hdepth) h.2⟩
  | .object _ _ _, h => ⟨Nat.le_trans hdepth h.1, NestedEntries.mono (Nat.succ_le_succ hdepth) h.2⟩

theorem NestedItems.mono {depth deepest : Nat} (hdepth : depth ≤ deepest) :
    ∀ {items : List JsValue}, NestedItems deepest items → NestedItems depth items
  | [], _ => trivial
  | _ :: _, h => ⟨Nested.mono hdepth h.1, NestedItems.mono hdepth h.2⟩

theorem NestedEntries.mono {depth deepest : Nat} (hdepth : depth ≤ deepest) :
    ∀ {entries : List (List UInt16 × JsValue)}, NestedEntries deepest entries →
      NestedEntries depth entries
  | [], _ => trivial
  | _ :: _, h => ⟨Nested.mono hdepth h.1, NestedEntries.mono hdepth h.2⟩
end

section Check
variable {heap : Nat → JsValue} {validation : JsonValidation}

/-- What the cache holds was found valid as deep as it says. -/
def Cached (heap : Nat → JsValue) (validation : JsonValidation) : Prop :=
  ∀ ref depth, validation.validatedDepths.lookup ref = some depth → Nested depth (heap ref)

lemma cached_createJsonValidation : Cached heap createJsonValidation :=
  fun _ _ h => (nomatch h)

/-- A check of a value at `depth` leaves the cache right, and accepts nothing else. -/
def Sound (heap : Nat → JsValue) (P : Prop) (outcome : Bool × JsonValidation) : Prop :=
  Cached heap outcome.2 ∧ (outcome.1 = true → P)

lemma enter_sound (ref depth : Nat) (visit : JsonValidation → Bool × JsonValidation)
    (hcached : Cached heap validation)
    (hvisit : ∀ validation, Cached heap validation →
      Sound heap (Nested depth (heap ref)) (visit validation)) :
    Sound heap (Nested depth (heap ref)) (validation.enter ref depth visit) := by
  rw [JsonValidation.enter]
  split
  · exact ⟨hcached, fun h => (nomatch h)⟩
  split
  · next hlookup =>
    cases hdeepest : validation.validatedDepths.lookup ref with
    | none =>
      rw [hdeepest] at hlookup
      cases hlookup
    | some deepest =>
      rw [hdeepest, Option.any_some, decide_eq_true_iff] at hlookup
      exact ⟨hcached, fun _ => (hcached ref deepest hdeepest).mono hlookup⟩
  · have hbody := hvisit { validation with ancestors := ref :: validation.ancestors } hcached
    revert hbody
    generalize visit { validation with ancestors := ref :: validation.ancestors } = outcome
    rcases outcome with ⟨valid, visited⟩
    rintro ⟨hvisited, hvalid⟩
    cases valid with
    | false => exact ⟨hvisited, fun h => (nomatch h)⟩
    | true =>
      refine ⟨?_, fun _ => hvalid rfl⟩
      intro other deepest hlookup
      simp only [if_pos, List.lookup_cons] at hlookup
      split at hlookup
      · next hother =>
        rw [eq_of_beq hother]
        cases hlookup
        exact hvalid rfl
      · exact hvisited other deepest hlookup

mutual
theorem visit_sound (depth : Nat) : ∀ (value : JsValue) (validation : JsonValidation),
    value.OnHeap heap → Cached heap validation →
      Sound heap (Nested depth value) (visit depth value validation) := by
  intro value validation hheap hcached
  have hstep : Cached heap validation.step.2 := hcached
  rw [visit.eq_def]
  revert hstep
  generalize validation.step = outcome
  rcases outcome with ⟨stepped, validation⟩
  intro hstep
  dsimp only
  split
  · exact ⟨hstep, fun h => (nomatch h)⟩
  · next hgo =>
    rw [Bool.or_eq_true, not_or, decide_eq_true_iff] at hgo
    have hdepth : depth ≤ maxJsonDepth := Nat.le_of_not_lt hgo.2
    cases value with
    | null => exact ⟨hstep, fun _ => hdepth⟩
    | bool b => exact ⟨hstep, fun _ => hdepth⟩
    | string text => exact ⟨hstep, fun _ => hdepth⟩
    | number f => exact ⟨hstep, fun h => ⟨hdepth, h⟩⟩
    | array ref items =>
      have henter := enter_sound ref depth (fun validation =>
        if maxArrayItems < items.length then (false, validation)
        else visitItems (depth + 1) items validation) hstep ?_
      · rw [hheap.1] at henter
        exact henter
      · intro validation hcached
        split
        · exact ⟨hcached, fun h => (nomatch h)⟩
        · obtain ⟨hcached', hitems⟩ := visitItems_sound (depth + 1) items validation hheap.2 hcached
          refine ⟨hcached', fun h => ?_⟩
          rw [hheap.1]
          exact ⟨hdepth, hitems h⟩
    | object ref plain entries =>
      have henter := enter_sound ref depth (fun validation =>
        if plain then visitEntries (depth + 1) entries validation
        else (false, validation)) hstep ?_
      · rw [hheap.1] at henter
        exact henter
      · intro validation hcached
        split
        · obtain ⟨hcached', hitems⟩ :=
            visitEntries_sound (depth + 1) entries validation hheap.2 hcached
          refine ⟨hcached', fun h => ?_⟩
          rw [hheap.1]
          exact ⟨hdepth, hitems h⟩
        · exact ⟨hcached, fun h => (nomatch h)⟩
    | undefined => exact ⟨hstep, fun h => (nomatch h)⟩
    | hole => exact ⟨hstep, fun h => (nomatch h)⟩
    | other => exact ⟨hstep, fun h => (nomatch h)⟩

theorem visitItems_sound (depth : Nat) : ∀ (items : List JsValue) (validation : JsonValidation),
    JsValue.OnHeapItems heap items → Cached heap validation →
      Sound heap (NestedItems depth items) (visitItems depth items validation) := by
  intro items validation hheap hcached
  cases items with
  | nil => exact ⟨hcached, fun _ => trivial⟩
  | cons item rest =>
    have hitem := visit_sound depth item validation hheap.1 hcached
    rw [visitItems.eq_def]
    split
    · contradiction
    · exact ⟨hcached, fun h => (nomatch h)⟩
    · next hcons =>
      cases hcons
      revert hitem
      generalize visit depth item validation = outcome
      rcases outcome with ⟨valid, visited⟩
      rintro ⟨hvisited, hvalid⟩
      cases valid with
      | false => exact ⟨hvisited, fun h => (nomatch h)⟩
      | true =>
        have hrest := visitItems_sound depth rest visited hheap.2 hvisited
        exact ⟨hrest.1, fun h => ⟨hvalid rfl, hrest.2 h⟩⟩

theorem visitEntries_sound (depth : Nat) :
    ∀ (entries : List (List UInt16 × JsValue)) (validation : JsonValidation),
    JsValue.OnHeapEntries heap entries → Cached heap validation →
      Sound heap (NestedEntries depth entries) (visitEntries depth entries validation) := by
  intro entries validation hheap hcached
  cases entries with
  | nil => exact ⟨hcached, fun _ => trivial⟩
  | cons entry rest =>
    rcases entry with ⟨key, item⟩
    have hitem := visit_sound depth item validation hheap.1 hcached
    rw [visitEntries]
    revert hitem
    generalize visit depth item validation = outcome
    rcases outcome with ⟨valid, visited⟩
    rintro ⟨hvisited, hvalid⟩
    cases valid with
    | false => exact ⟨hvisited, fun h => (nomatch h)⟩
    | true =>
      have hrest := visitEntries_sound depth rest visited hheap.2 hvisited
      exact ⟨hrest.1, fun h => ⟨hvalid rfl, hrest.2 h⟩⟩
end

lemma areJson_nested {items : List JsValue} (hheap : JsValue.OnHeapItems heap items)
    (h : areJson items = true) : NestedItems 0 items :=
  (visitItems_sound 0 items createJsonValidation hheap cached_createJsonValidation).2 h

lemma isJson_nested {value : JsValue} (hheap : value.OnHeap heap) (h : isJson value = true) :
    Nested 0 value :=
  (visit_sound 0 value createJsonValidation hheap cached_createJsonValidation).2 h

/-- Either scan accepts JSON values alone: it meets scalars, up to a check of all the values. -/
lemma scan_nested {all : List JsValue} (scan : List JsValue → Bool)
    (hscan : ∀ item rest, scan (item :: rest) = true →
      (Nested 0 item ∧ scan rest = true) ∨ areJson all = true)
    (hheap : JsValue.OnHeapItems heap all) {items : List JsValue} (hsub : ∀ item ∈ items, item ∈ all)
    (h : scan items = true) : ∀ item ∈ items, Nested 0 item := by
  induction items with
  | nil => exact fun _ hmem => (nomatch hmem)
  | cons item rest ih =>
    rw [List.forall_mem_cons] at hsub ⊢
    rcases hscan item rest h with ⟨hitem, hrest⟩ | hall
    · exact ⟨hitem, ih hsub.2 hrest⟩
    · have hnested := nestedItems_iff.mp (areJson_nested hheap hall)
      exact ⟨hnested item hsub.1, fun it hmem => hnested it (hsub.2 it hmem)⟩

lemma scanJsonValues_nested {items : List JsValue} (hheap : JsValue.OnHeapItems heap items)
    (h : scanJsonValues items items = true) : NestedItems 0 items := by
  refine nestedItems_iff.mpr (scan_nested (scanJsonValues items) ?_ hheap
    (fun _ hmem => hmem) h)
  intro item rest hscan
  cases item with
  | null => exact .inl ⟨Nat.zero_le _, hscan⟩
  | bool b => exact .inl ⟨Nat.zero_le _, hscan⟩
  | string text => exact .inl ⟨Nat.zero_le _, hscan⟩
  | number f =>
    rw [scanJsonValues, Bool.and_eq_true] at hscan
    exact .inl ⟨⟨Nat.zero_le _, hscan.1⟩, hscan.2⟩
  | hole => cases hscan
  | undefined => exact .inr (Bool.and_eq_true_iff.mp hscan).2
  | array ref items => exact .inr (Bool.and_eq_true_iff.mp hscan).2
  | object ref plain entries => exact .inr (Bool.and_eq_true_iff.mp hscan).2
  | other => exact .inr (Bool.and_eq_true_iff.mp hscan).2

lemma scanStatementParams_nested {params : List JsValue} (hheap : JsValue.OnHeapItems heap params)
    (h : scanStatementParams params params = true) : NestedItems 0 params := by
  refine nestedItems_iff.mpr (scan_nested (scanStatementParams params) ?_ hheap
    (fun _ hmem => hmem) h)
  intro item rest hscan
  cases item with
  | null => exact .inl ⟨Nat.zero_le _, hscan⟩
  | bool b => exact .inl ⟨Nat.zero_le _, hscan⟩
  | string text => exact .inl ⟨Nat.zero_le _, hscan⟩
  | number f =>
    rw [scanStatementParams, Bool.and_eq_true] at hscan
    exact .inl ⟨⟨Nat.zero_le _, hscan.1⟩, hscan.2⟩
  | hole => exact .inr hscan
  | undefined => exact .inr hscan
  | array ref items => exact .inr hscan
  | object ref plain entries => exact .inr hscan
  | other => exact .inr hscan

lemma isJsonValues_nested {params : JsValue} (hheap : params.OnHeap heap)
    (h : isJsonValues params = true) :
    ∃ ref items, params = .array ref items ∧ items.length ≤ maxArrayItems ∧ NestedItems 0 items := by
  cases params with
  | array ref items =>
    rw [isJsonValues, Bool.and_eq_true, decide_eq_true_iff] at h
    exact ⟨ref, items, rfl, h.1, scanJsonValues_nested hheap.2 h.2⟩
  | _ => cases h

end Check

lemma isString_eq_true {value : JsValue} (h : isString value = true) :
    ∃ text, value = .string text := by
  cases value with
  | string text => exact ⟨text, rfl⟩
  | _ => cases h

lemma isBoolean_eq_true {value : JsValue} (h : isBoolean value = true) : ∃ b, value = .bool b := by
  cases value with
  | bool b => exact ⟨b, rfl⟩
  | _ => cases h

lemma isPreparedStatementId_eq_true {value : JsValue} (h : isPreparedStatementId value = true) :
    ∃ f : F64, value = .number f ∧ f.isSafeInteger = true ∧ 1 ≤ f.toInt ∧ f.toInt ≤ maxU32 := by
  cases value with
  | number f =>
    rw [isPreparedStatementId, isCountWithin, Bool.and_eq_true, decide_eq_true_iff] at h
    exact ⟨f, rfl, h.1, h.2.1, h.2.2⟩
  | _ => cases h

end Protocol
end TinyJoin
