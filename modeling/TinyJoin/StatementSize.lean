import Mathlib.Data.Fintype.Sum
import TinyJoin.RequestCharges
import TinyJoin.StatementRequests

/-! The size of a statement request, which is that of the request it stands for, from fixed sums. -/
namespace TinyJoin.Clone
open Protocol Charging

variable {ρ : Type} [Fintype ρ] [DecidableEq ρ]

instance : Fintype Part := ⟨{.request, .params, .values}, by intro part; cases part <;> decide⟩

/-- The array of a statement request's parameters. -/
def paramsArray (slots : Slots ρ) : Container ρ :=
  .array (slots.slice statementParams) [] nodup_no_names none_is_index

/-- The graph with the array that `request.slice(STATEMENT_PARAMS)` makes, `.inr ()`. -/
def paramsSlice (graph : Graph ρ) (slots : Slots ρ) : Graph (ρ ⊕ Unit)
  | .inl ref => (graph ref).map .inl
  | .inr () => (paramsArray slots).map .inl

/-- What a statement request is charged for all but its parameters. -/
def fixedBytes (slots : Slots ρ) : Nat :=
  (match slots.get 3 with
    | .string text => 324 + text.length * 2
    | _ => 342) +
  (if isNumber 0 (slots.get 4).scalar then 0
    else
      match slots.get 4 with
      | .string transaction => 66 + transaction.length * 2
      | _ => 66) +
  if isNumber 1 (slots.get 5).scalar then 64 else 0

/-- The charge that walks the parameters' array. -/
def walkedBytes (graph : Graph ρ) (slots : Slots ρ) (limit : Nat) : Except String Nat :=
  if limit < fixedBytes slots then .ok (limit + 1)
  else do
    let bytes ← checkedRequestBytes (paramsSlice graph slots) (limit - fixedBytes slots)
      (.container (.inr ()))
    .ok (fixedBytes slots + bytes)

/-- The loop over the parameters, up to the first that is no scalar. -/
def scanBytes (graph : Graph ρ) (slots : Slots ρ) (limit : Nat) :
    List (Option (Datum ρ)) → Nat → Except String Nat
  | [], bytes => .ok (if limit < bytes then limit + 1 else bytes)
  | slot :: rest, bytes =>
    match slot.getD .undefined with
    | .string text => scanBytes graph slots limit rest (bytes + (16 + text.length * 2))
    | .null | .bool _ | .number _ => scanBytes graph slots limit rest (bytes + 8)
    | .undefined | .container _ | .other => walkedBytes graph slots limit

def statementBytes (graph : Graph ρ) (slots : Slots ρ) (limit : Nat) : Except String Nat :=
  scanBytes graph slots limit (slots.items.drop statementParams)
    (fixedBytes slots + 32 + (slots.items.length - statementParams) * 8)

section Renaming
omit [Fintype ρ] [DecidableEq ρ]
variable {σ : Type} (f : ρ → σ)

lemma own_map (container : Container ρ) : (container.map f).own = renamed f container.own := by
  cases container with
  | object plain entries distinct => rfl
  | array slots named distinct not_index =>
    have hpresent : (slots.map f).present = renamed f slots.present := by
      rw [Slots.present, Slots.present, Slots.map, renamed, List.zipIdx_map, List.filterMap_map,
        List.map_filterMap]
      refine List.filterMap_congr fun slot _ => ?_
      obtain ⟨item, index⟩ := slot
      cases item <;> rfl
    rw [Container.map, Container.own, Container.own, hpresent, renamed, renamed, renamed,
      List.map_append]

lemma isArraySlot_map (container : Container ρ) (name : List UInt16) :
    isArraySlot (container.map f) name = isArraySlot container name := by
  cases container with
  | object => rfl
  | array => rw [Container.map, isArraySlot, isArraySlot, Slots.map, List.length_map]

lemma slotCharge_map (container : Container ρ) :
    slotCharge (container.map f) = slotCharge container := by
  cases container with
  | object => rfl
  | array => rw [Container.map, slotCharge, slotCharge, Slots.map, List.length_map]

lemma cost_map (beyond : Nat) (value : Datum ρ) : (value.map f).cost beyond = value.cost beyond := by
  cases value <;> rfl

lemma held_map (beyond : Nat) (container : Container ρ) :
    (container.map f).held beyond = container.held beyond := by
  rw [Container.held, Container.held, own_map, slotCharge_map, ownCost, ownCost, renamed,
    List.map_map]
  congr 2
  refine List.map_congr_left fun entry _ => ?_
  rw [Function.comp_apply, isArraySlot_map]
  exact congrArg _ (cost_map f beyond entry.2)

lemma next_map (container : Container ρ) : (container.map f).next = container.next.map f := by
  rw [Container.next, Container.next, own_map, renamed, List.flatMap_map, List.map_flatMap]
  exact List.flatMap_congr fun entry _ => Datum.refs_map f entry.2

end Renaming

/-! ## What the request is charged -/

/-- The charges of a new container and of what it reaches in a graph. -/
noncomputable def containerBytes (graph : Graph ρ) (beyond : Nat) (container : Container ρ) : Nat :=
  32 + container.held beyond +
    total (fun ref => (graph ref).next) (fun ref => 32 + (graph ref).held beyond) container.next

section Extended
variable {σ : Type} [Fintype σ] {f : ρ → σ} {graph : Graph ρ} {extended : Graph σ}

omit [DecidableEq ρ] in
lemma total_new (hf : f.Injective) (h : Embeds f graph extended) {ref : σ} {container : Container ρ}
    (href : extended ref = container.map f) (hnew : ∀ old, f old ≠ ref) (beyond : Nat) :
    total (fun ref => (extended ref).next) (fun ref => 32 + (extended ref).held beyond) [ref] =
      containerBytes graph beyond container := by
  have hnext : ∀ old, (extended (f old)).next = (graph old).next.map f := fun old => by
    rw [h old, next_map]
  have hheld : ∀ old, 32 + (extended (f old)).held beyond = 32 + (graph old).held beyond :=
    fun old => by rw [h old, held_map]
  have hroots : (extended ref).next = container.next.map f := by rw [href, next_map]
  rw [total_singleton]
  · rw [hroots, total_map hf hnext hheld, href, held_map, containerBytes]
  · rw [hroots, Reached.map_iff hnext]
    rintro ⟨old, -, heq⟩
    exact hnew old heq

end Extended

omit [DecidableEq ρ] in
lemma totalBytes_paramsSlice (graph : Graph ρ) (slots : Slots ρ) (beyond : Nat) :
    totalBytes (paramsSlice graph slots) beyond (.container (.inr ())) =
      containerBytes graph beyond (paramsArray slots) :=
  total_new Sum.inl_injective (fun _ => rfl) rfl (fun _ => Sum.inl_ne_inr) beyond

/-- What the array of a statement request that is accepted has in its slots. -/
structure AcceptedSlots (slots : Slots ρ) : Prop where
  id : ∃ f, slots.get 1 = .number f
  target : if isPrepared slots then ∃ f, slots.get 3 = .number f else ∃ text, slots.get 3 = .string text
  transaction : isInTransaction slots = true → ∃ text, slots.get 4 = .string text

omit [Fintype ρ] [DecidableEq ρ] in
lemma number_of_isCountWithin {minimum maximum : Nat} {value : Datum ρ}
    (h : isCountWithin minimum maximum value.scalar = true) : ∃ f, value = .number f := by
  cases value with
  | number f => exact ⟨f, rfl⟩
  | _ => exact absurd h Bool.false_ne_true

omit [Fintype ρ] [DecidableEq ρ] in
lemma string_of_isString {value : Datum ρ} (h : isString value.scalar = true) :
    ∃ text, value = .string text := by
  cases value with
  | string text => exact ⟨text, rfl⟩
  | _ => exact absurd h Bool.false_ne_true

omit [Fintype ρ] [DecidableEq ρ] in
lemma string_of_isTransactionId {value : Datum ρ} (h : isTransactionId value.scalar = true) :
    ∃ text, value = .string text := by
  cases value with
  | string text => exact ⟨text, rfl⟩
  | _ => exact absurd h Bool.false_ne_true

omit [Fintype ρ] in
lemma accepted_slots {graph : Graph ρ} {value : Datum ρ} {slots : Slots ρ}
    (harray : arrayOf graph value = some slots) (h : isStatementRequest graph value = true) :
    AcceptedSlots slots := by
  rw [isStatementRequest, harray, Option.any_some] at h
  simp only [Bool.and_eq_true] at h
  obtain ⟨⟨⟨⟨⟨⟨⟨-, -⟩, hid⟩, htarget⟩, htransaction⟩, -⟩, -⟩, -⟩ := h
  refine ⟨number_of_isCountWithin hid, ?_, fun hinside => ?_⟩
  · rw [isPrepared]
    split at htarget
    · next hprepared =>
      rw [if_pos hprepared]
      exact number_of_isCountWithin htarget
    · next hprepared =>
      rw [if_neg hprepared]
      exact string_of_isString (Bool.and_eq_true _ _ ▸ htarget).2
  · rw [isInTransaction, Bool.not_eq_true'] at hinside
    rw [hinside, Bool.false_or] at htransaction
    exact string_of_isTransactionId htransaction

section RequestObject
omit [Fintype ρ] [DecidableEq ρ]
variable (prepared inTransaction arrayRows : Bool) {target values transaction : Datum ρ}

lemma refs_paramEntries (htarget : target.refs = [])
    (htransaction : inTransaction = true → transaction.refs = []) :
    ((paramEntries prepared inTransaction arrayRows target values transaction).flatMap
      fun entry => entry.2.refs) = values.refs := by
  have htext : (text "array" : Datum ρ).refs = [] := rfl
  cases inTransaction with
  | false => cases prepared <;> cases arrayRows <;> simp [paramEntries, entry, htarget, htext]
  | true =>
    have hrefs := htransaction rfl
    cases prepared <;> cases arrayRows <;> simp [paramEntries, entry, htarget, hrefs, htext]

/-- The sum of a request's parameters, whose names and texts are known. -/
lemma cost_paramEntries (beyond : Nat) :
    ((paramEntries prepared inTransaction arrayRows target values transaction).map
      fun entry => nameCharge entry.1 + entry.2.cost beyond).sum =
    (if prepared then 46 else 30) + target.cost beyond + (36 + values.cost beyond) +
      (if inTransaction then 50 + transaction.cost beyond else 0) + if arrayRows then 64 else 0 := by
  have hnames : nameCharge (Utf16.ofString "statementId") = 46 ∧
      nameCharge (Utf16.ofString "sql") = 30 ∧ nameCharge (Utf16.ofString "params") = 36 ∧
      nameCharge (Utf16.ofString "transactionId") = 50 ∧
      nameCharge (Utf16.ofString "rowMode") = 38 := by decide
  have htext : (text "array" : Datum ρ).cost beyond = 26 := rfl
  obtain ⟨hid, hsql, hparams, htransaction, hrowMode⟩ := hnames
  cases prepared <;> cases inTransaction <;> cases arrayRows <;>
    simp [paramEntries, entry, hid, hsql, hparams, htransaction, hrowMode, htext] <;> omega

lemma cost_requestEntries (beyond : Nat) {id params : Datum ρ} :
    ((requestEntries prepared id params).map
      fun entry => nameCharge entry.1 + entry.2.cost beyond).sum =
    34 + (28 + id.cost beyond) + (if prepared then 82 else 72) + (36 + params.cost beyond) := by
  have hnames : nameCharge (Utf16.ofString "v") = 26 ∧ nameCharge (Utf16.ofString "id") = 28 ∧
      nameCharge (Utf16.ofString "method") = 36 ∧ nameCharge (Utf16.ofString "params") = 36 := by
    decide
  obtain ⟨hv, hid, hmethod, hparams⟩ := hnames
  have htext : (text (if prepared then "executePrepared" else "executeSql") : Datum ρ).cost beyond =
      if prepared then 46 else 36 := by
    cases prepared <;> rfl
  have hversion : (Datum.number (F64.ofNat protocolVersion) : Datum ρ).cost beyond = 8 := rfl
  simp only [requestEntries, entry, List.map_cons, List.map_nil, List.sum_cons, List.sum_nil, hv, hid,
    hmethod, hparams, htext, hversion]
  split <;> omega

end RequestObject

omit [Fintype ρ] [DecidableEq ρ] in
/-- The parameters reach nothing of the request object. -/
lemma not_reached_part (graph : Graph ρ) (slots : Slots ρ) (part : Part) :
    ¬ Reached (fun ref => (statementRequest graph slots ref).next)
      (statementRequest graph slots (.inr .values)).next (.inr part) := by
  have hvalues : (statementRequest graph slots (.inr .values)).next =
      (paramsArray slots).next.map Sum.inl := next_map Sum.inl (paramsArray slots)
  rw [hvalues, Reached.map_iff fun ref => next_map Sum.inl (graph ref)]
  rintro ⟨_, -, heq⟩
  exact Sum.inl_ne_inr heq

omit [Fintype ρ] [DecidableEq ρ] in
/-- The charges of the two objects that a request adds are those known beforehand. -/
lemma held_statementRequest (graph : Graph ρ) {slots : Slots ρ} (h : AcceptedSlots slots)
    (beyond : Nat) :
    (32 + (statementRequest graph slots (.inr .request)).held beyond) +
      (32 + (statementRequest graph slots (.inr .params)).held beyond) = fixedBytes slots := by
  obtain ⟨f, hid⟩ := h.id
  have htarget := h.target
  have htransaction := h.transaction
  have hrequest : (statementRequest graph slots (.inr .request)).held beyond =
      0 + ((requestEntries (isPrepared slots) ((slots.get 1).map Sum.inl)
        (.container (.inr Part.params))).map
          fun entry => nameCharge entry.1 + entry.2.cost beyond).sum := rfl
  have hparams : (statementRequest graph slots (.inr .params)).held beyond =
      0 + ((paramEntries (isPrepared slots) (isInTransaction slots) (hasArrayRows slots)
        ((slots.get 3).map Sum.inl) (.container (.inr Part.values))
        ((slots.get 4).map Sum.inl)).map
          fun entry => nameCharge entry.1 + entry.2.cost beyond).sum := rfl
  have hprepared : 206 + (if isPrepared slots then 82 else 72) +
      ((if isPrepared slots then 46 else 30) + (slots.get 3).cost beyond) =
      match slots.get 3 with
      | .string text => 324 + text.length * 2
      | _ => 342 := by
    split at htarget
    · next hprepared =>
      obtain ⟨_, heq⟩ := htarget
      rw [heq, if_pos hprepared, if_pos hprepared]
      rfl
    · next hprepared =>
      obtain ⟨text, heq⟩ := htarget
      rw [heq, if_neg hprepared, if_neg hprepared]
      show 206 + 72 + (30 + (16 + text.length * 2)) = 324 + text.length * 2
      omega
  have hinside : (if isInTransaction slots then 50 + (slots.get 4).cost beyond else 0) =
      if isNumber 0 (slots.get 4).scalar then 0
      else
        match slots.get 4 with
        | .string transaction => 66 + transaction.length * 2
        | _ => 66 := by
    rw [isInTransaction] at htransaction ⊢
    cases hzero : isNumber 0 (slots.get 4).scalar with
    | true => rfl
    | false =>
      rw [hzero] at htransaction
      obtain ⟨text, heq⟩ := htransaction rfl
      rw [heq]
      show 50 + (16 + text.length * 2) = 66 + text.length * 2
      omega
  have hnumber : (Datum.number f : Datum ρ).cost beyond = 8 := rfl
  have hcontainer : ∀ part, (Datum.container (.inr part) : Datum (ρ ⊕ Part)).cost beyond = 0 :=
    fun _ => rfl
  rw [hrequest, hparams, cost_requestEntries, cost_paramEntries, cost_map, cost_map, cost_map, hid,
    hinside, hnumber, hcontainer, hcontainer, fixedBytes, hasArrayRows, ← hprepared]
  omega

omit [DecidableEq ρ] in
/-- What the request object is charged: fixed sums, and what its parameters' array would be. -/
lemma totalBytes_statementRequest (graph : Graph ρ) {slots : Slots ρ} (h : AcceptedSlots slots)
    (beyond : Nat) :
    totalBytes (statementRequest graph slots) beyond (.container (.inr .request)) =
      fixedBytes slots + containerBytes graph beyond (paramsArray slots) := by
  have hvalues : total (fun ref => (statementRequest graph slots ref).next)
      (fun ref => 32 + (statementRequest graph slots ref).held beyond) [.inr .values] =
      containerBytes graph beyond (paramsArray slots) :=
    total_new Sum.inl_injective (statementRequest_embeds graph slots) rfl
      (fun _ => Sum.inl_ne_inr) beyond
  have hparams : (statementRequest graph slots (.inr .params)).next = [.inr .values] := by
    refine refs_paramEntries _ _ _ ?_ fun hinside => ?_
    · have htarget := h.target
      rw [Datum.refs_map]
      split at htarget <;> obtain ⟨_, heq⟩ := htarget <;> rw [heq] <;> rfl
    · obtain ⟨_, heq⟩ := h.transaction hinside
      rw [heq]
      rfl
  have hrequest : (statementRequest graph slots (.inr .request)).next = [.inr .params] := by
    obtain ⟨_, heq⟩ := h.id
    show List.flatMap _ (requestEntries _ ((slots.get 1).map Sum.inl) _) = _
    rw [heq]
    rfl
  rw [totalBytes, Datum.refs, Datum.cost, Nat.add_zero, total_singleton, hrequest, total_singleton,
    hparams, hvalues, ← held_statementRequest graph h beyond]
  · omega
  · rw [hparams, Reached.singleton_iff]
    rintro (heq | hreached)
    · cases heq
    · exact not_reached_part graph slots _ hreached
  · rw [hrequest, Reached.singleton_iff, hparams, Reached.singleton_iff]
    rintro (heq | heq | hreached)
    · cases heq
    · cases heq
    · exact not_reached_part graph slots _ hreached

/-! ## The sums and the walk agree -/

lemma walkedBytes_eq (graph : Graph ρ) (slots : Slots ρ) {limit : Nat}
    (hlimit : limit < maxSafeInteger) :
    walkedBytes graph slots limit =
      .ok (min (fixedBytes slots + containerBytes graph (limit + 1) (paramsArray slots))
        (limit + 1)) := by
  rw [walkedBytes]
  split
  · rw [min_eq_right (by omega)]
  · have hbeyond : limit - fixedBytes slots < limit + 1 := by omega
    rw [checkedRequestBytes_eq, RequestBytes.requestBytes_eq hbeyond (by omega),
      totalBytes_paramsSlice]
    show Except.ok _ = _
    congr 1
    omega

/-- Whether parameters are all scalars, of which the loop adds the charges. -/
def Sums (graph : Graph ρ) (slots : Slots ρ) (limit beyond : Nat) (rest : List (Option (Datum ρ)))
    (bytes : Nat) : Prop :=
  ∃ items : List (Datum ρ), rest = items.map some ∧ items.flatMap Datum.refs = [] ∧
    scanBytes graph slots limit rest bytes =
      .ok (min (bytes + (items.map (Datum.cost beyond)).sum) (limit + 1))

lemma Sums.cons {graph : Graph ρ} {slots : Slots ρ} {limit beyond bytes : Nat}
    {rest : List (Option (Datum ρ))} {item : Datum ρ}
    (h : Sums graph slots limit beyond rest (bytes + item.cost beyond)) (hitem : item.refs = [])
    (hstep : scanBytes graph slots limit (some item :: rest) bytes =
      scanBytes graph slots limit rest (bytes + item.cost beyond)) :
    Sums graph slots limit beyond (some item :: rest) bytes := by
  obtain ⟨items, rfl, hitems, hbytes⟩ := h
  refine ⟨item :: items, rfl, ?_, ?_⟩
  · rw [List.flatMap_cons, hitem, hitems, List.append_nil]
  · rw [hstep, hbytes, List.map_cons, List.sum_cons, Nat.add_assoc]

/-- The loop adds the charges of scalars, or leaves all to the walk. -/
lemma scanBytes_eq (graph : Graph ρ) (slots : Slots ρ) (limit beyond : Nat)
    (rest : List (Option (Datum ρ))) (bytes : Nat) :
    Sums graph slots limit beyond rest bytes ∨
      scanBytes graph slots limit rest bytes = walkedBytes graph slots limit := by
  induction rest generalizing bytes with
  | nil =>
    refine .inl ⟨[], rfl, rfl, ?_⟩
    rw [scanBytes, List.map_nil, List.sum_nil]
    congr 1
    split <;> omega
  | cons slot rest ih =>
    cases slot with
    | none => exact .inr rfl
    | some item =>
      have hsums := fun hitem hstep =>
        (ih (bytes + item.cost beyond)).imp (Sums.cons · hitem hstep) hstep.trans
      cases item with
      | undefined => exact .inr rfl
      | container ref => exact .inr rfl
      | other => exact .inr rfl
      | _ => exact hsums rfl rfl

omit [Fintype ρ] [DecidableEq ρ] in
lemma paramsArray_of_dense {slots : Slots ρ} {items : List (Datum ρ)}
    (h : slots.items.drop statementParams = items.map some) (beyond : Nat) :
    (paramsArray slots).next = items.flatMap Datum.refs ∧
      (paramsArray slots).held beyond =
        (slots.items.length - statementParams) * 8 + (items.map (Datum.cost beyond)).sum := by
  obtain ⟨-, hnext, hcost⟩ := @Slots.own_of_dense ρ (slots.slice statementParams) [] List.nodup_nil
    (fun _ h => absurd h List.not_mem_nil) items h beyond
  constructor
  · rw [paramsArray, hnext, List.flatMap_nil, List.append_nil]
  · rw [Container.held, paramsArray, hcost, slotCharge, Slots.slice, List.length_drop]
    rfl

/-- A statement request is charged as the request object it stands for. -/
lemma statementBytes_eq {graph : Graph ρ} {value : Datum ρ} {slots : Slots ρ} {limit : Nat}
    (harray : arrayOf graph value = some slots) (h : isStatementRequest graph value = true)
    (hlimit : limit < maxSafeInteger) :
    statementBytes graph slots limit =
      checkedRequestBytes (statementRequest graph slots) limit (.container (.inr .request)) := by
  rw [checkedRequestBytes_eq, RequestBytes.requestBytes_eq limit.lt_succ_self hlimit,
    totalBytes_statementRequest graph (accepted_slots harray h), statementBytes]
  rcases scanBytes_eq graph slots limit (limit + 1) (slots.items.drop statementParams)
    (fixedBytes slots + 32 + (slots.items.length - statementParams) * 8) with
    ⟨items, hitems, hrefs, hbytes⟩ | hwalked
  · obtain ⟨hnext, hheld⟩ := paramsArray_of_dense hitems (limit + 1)
    rw [hbytes, containerBytes, hnext, hheld, hrefs, total_nil]
    congr 2
    omega
  · rw [hwalked, walkedBytes_eq graph slots hlimit]

/-- The two walks of a request count the same, which is what its value reaches, each container once,
or just above the limit. A statement request that is accepted is charged, without a walk where its
parameters are scalars, what the request object it stands for would be. -/
theorem request_sizes_agree (graph : Graph ρ) (limit : Nat) :
    (∀ value, checkedRequestBytes graph limit value = requestBytes graph limit value) ∧
    (limit < maxSafeInteger → ∀ beyond value, limit < beyond →
      requestBytes graph limit value =
        .ok (min (totalBytes graph beyond value) (limit + 1))) ∧
    (limit < maxSafeInteger → ∀ value slots, arrayOf graph value = some slots →
      isStatementRequest graph value = true →
      statementBytes graph slots limit =
        checkedRequestBytes (statementRequest graph slots) limit (.container (.inr .request))) :=
  ⟨checkedRequestBytes_eq graph limit,
    fun hlimit _ value hbeyond => RequestBytes.requestBytes_eq hbeyond hlimit value,
    fun hlimit _ _ harray h => statementBytes_eq harray h hlimit⟩

theorem request_sizes_agree_shared_array :
    checkedRequestBytes (statementRequest sharedArray sharedSlots) 1000 (.container (.inr .request)) =
      .ok 436 := by
  obtain ⟨-, -, hstatement⟩ := request_sizes_agree sharedArray 1000
  rw [← hstatement (by decide) (.container 1) sharedSlots rfl (by decide +kernel)]
  decide +kernel

end TinyJoin.Clone
