import TinyJoin.JsonVisits

/-! A statement request is an array with fixed slots before its parameters. The Worker accepts it as it
accepts the request object it stands for. -/
namespace TinyJoin.Clone
open Protocol

variable {ρ : Type} [DecidableEq ρ]

/-! ## The checks of a request -/

/-- The array that a value is, if `Array.isArray` says so. -/
def arrayOf (graph : Graph ρ) : Datum ρ → Option (Slots ρ)
  | .container ref =>
    match graph ref with
    | .array slots _ _ _ => some slots
    | .object _ _ _ => none
  | _ => none

/-- The keys of an object that is no array, if a value is one. -/
def recordKeys (graph : Graph ρ) : Datum ρ → Option (List (List UInt16))
  | .container ref =>
    match graph ref with
    | .array _ _ _ _ => none
    | .object plain entries distinct => some (Container.object plain entries distinct).keys
  | _ => none

def isRecord (graph : Graph ρ) (value : Datum ρ) : Bool := (recordKeys graph value).isSome

/-- `value[name]`. -/
def read (graph : Graph ρ) (value : Datum ρ) (name : String) : Datum ρ :=
  match value with
  | .container ref => (graph ref).get name
  | _ => .undefined

def areKeysWithin (keys allowedKeys : List (List UInt16)) : Bool :=
  keys.zipIdx.all fun key => decide (allowedKeys[key.2]? = some key.1) || allowedKeys.contains key.1

def hasParams (graph : Graph ρ) (value : Datum ρ) (allowedKeys : List String) : Bool :=
  (recordKeys graph value).any fun keys => areKeysWithin keys (allowedKeys.map Utf16.ofString)

def hasExactParams (graph : Graph ρ) (value : Datum ρ) (expectedKeys : List String) : Bool :=
  (recordKeys graph value).any fun keys =>
    decide (keys.length = expectedKeys.length) &&
      areKeysWithin keys (expectedKeys.map Utf16.ofString)

def isEnvelope (graph : Graph ρ) (value : Datum ρ) : Bool :=
  isRecord graph value && isNumber protocolVersion (read graph value "v").scalar

def isStorageOptions (graph : Graph ρ) (value : Datum ρ) : Bool :=
  isRecord graph value &&
    if isText "memory" (read graph value "kind").scalar then hasExactParams graph value ["kind"]
    else
      isText "opfs" (read graph value "kind").scalar &&
        hasExactParams graph value ["kind", "name"] && isString (read graph value "name").scalar

/-- The scan of `isJsonValues`, at the items not yet met of `all`. -/
def scanJsonValues (graph : Graph ρ) (all : Slots ρ) : List (Option (Datum ρ)) → Bool
  | [] => true
  | none :: _ => false
  | some item :: rest =>
    match item with
    | .number f => f.isFinite && scanJsonValues graph all rest
    | .null | .bool _ | .string _ => scanJsonValues graph all rest
    | .undefined | .container _ | .other =>
      (isDenseArray (isJson graph) all createJsonValidation).1

def isJsonValues (graph : Graph ρ) (value : Datum ρ) : Bool :=
  (arrayOf graph value).any fun slots =>
    decide (slots.items.length ≤ maxArrayItems) && scanJsonValues graph slots slots.items

def isWorkerRequest (graph : Graph ρ) (value : Datum ρ) : Bool :=
  let params := read graph value "params"
  let isMethod := fun text => isText text (read graph value "method").scalar
  let param := fun name => (read graph params name).scalar
  if !isEnvelope graph value || !isRequestId (read graph value "id").scalar then false
  else if !hasExactParams graph value ["v", "id", "method", "params"] then false
  else if isMethod "init" then
    hasExactParams graph params ["storage"] && isStorageOptions graph (read graph params "storage")
  else if isMethod "executeSql" then
    hasParams graph params ["sql", "params", "transactionId", "rowMode"] &&
      isString (param "sql") && isJsonValues graph (read graph params "params") &&
      isOptionalTransactionId (param "transactionId") && isOptionalRowMode (param "rowMode")
  else if isMethod "prepareSql" then
    hasExactParams graph params ["sql"] && isString (param "sql")
  else if isMethod "executePrepared" then
    hasParams graph params ["statementId", "params", "transactionId", "rowMode"] &&
      isPreparedStatementId (param "statementId") && isJsonValues graph (read graph params "params") &&
      isOptionalTransactionId (param "transactionId") && isOptionalRowMode (param "rowMode")
  else if isMethod "closePrepared" then
    hasExactParams graph params ["statementId"] && isPreparedStatementId (param "statementId")
  else if isMethod "execSql" then
    hasParams graph params ["sql", "transactionId", "rowMode"] && isString (param "sql") &&
      isOptionalTransactionId (param "transactionId") && isOptionalRowMode (param "rowMode")
  else if isMethod "commitTransaction" || isMethod "rollbackTransaction" then
    hasParams graph params ["transactionId"] && isTransactionId (param "transactionId")
  else if isMethod "beginTransaction" || isMethod "check" || isMethod "schema" ||
      isMethod "close" then
    isUndefined params.scalar
  else if isMethod "setSchema" then
    hasParams graph params ["schema", "drop"] &&
      (isJson graph (read graph params "schema") createJsonValidation).1 && isBoolean (param "drop")
  else false

/-- The scan of a statement request's parameters, at those not yet met of `all`. -/
def scanStatementParams (graph : Graph ρ) (all : List (Option (Datum ρ))) :
    List (Option (Datum ρ)) → Bool
  | [] => true
  | slot :: rest =>
    match slot.getD .undefined with
    | .number f => f.isFinite && scanStatementParams graph all rest
    | .null | .bool _ | .string _ => scanStatementParams graph all rest
    | .undefined | .container _ | .other => (every (isJson graph) all createJsonValidation).1

def isStatementRequest (graph : Graph ρ) (value : Datum ρ) : Bool :=
  (arrayOf graph value).any fun slots =>
    let operation := (slots.get 2).scalar
    let target := (slots.get 3).scalar
    let transaction := (slots.get 4).scalar
    let arrayRows := (slots.get 5).scalar
    let params := slots.items.drop statementParams
    decide (statementParams ≤ slots.items.length) &&
    isNumber protocolVersion (slots.get 0).scalar && isRequestId (slots.get 1).scalar &&
    (if isNumber statementPrepared operation then isPreparedStatementId target
      else isNumber statementSql operation && isString target) &&
    (isNumber 0 transaction || isTransactionId transaction) &&
    (isNumber 0 arrayRows || isNumber 1 arrayRows) &&
    decide (slots.items.length - statementParams ≤ maxArrayItems) &&
    scanStatementParams graph params params

/-! ## The request it stands for -/

/-- The containers that a request object has beside those of the statement request. -/
inductive Part where
  | request
  | params
  | values
deriving DecidableEq

/-- A property of the name `name`. -/
def entry (name : String) (value : Datum ρ) : List UInt16 × Datum ρ := (Utf16.ofString name, value)

def text (s : String) : Datum ρ := .string (Utf16.ofString s)

/-- The parameters of a request, `transactionId` only inside a transaction, and `rowMode` only for
array rows. -/
def paramEntries (prepared inTransaction arrayRows : Bool) (target values transaction : Datum ρ) :
    Entries ρ :=
  (if prepared then [entry "statementId" target, entry "params" values]
    else [entry "sql" target, entry "params" values]) ++
  (if inTransaction then [entry "transactionId" transaction] else []) ++
  (if arrayRows then [entry "rowMode" (text "array")] else [])

def requestEntries (prepared : Bool) (id params : Datum ρ) : Entries ρ :=
  [entry "v" (.number (F64.ofNat protocolVersion)), entry "id" id,
    entry "method" (text (if prepared then "executePrepared" else "executeSql")),
    entry "params" params]

def isPrepared (slots : Slots ρ) : Bool := isNumber statementPrepared (slots.get 2).scalar

def isInTransaction (slots : Slots ρ) : Bool := !isNumber 0 (slots.get 4).scalar

def hasArrayRows (slots : Slots ρ) : Bool := isNumber 1 (slots.get 5).scalar

def paramNames (prepared inTransaction arrayRows : Bool) : List String :=
  [if prepared then "statementId" else "sql", "params"] ++
    (if inTransaction then ["transactionId"] else []) ++ if arrayRows then ["rowMode"] else []

omit [DecidableEq ρ] in
lemma names_paramEntries (prepared inTransaction arrayRows : Bool)
    (target values transaction : Datum ρ) :
    (paramEntries prepared inTransaction arrayRows target values transaction).map Prod.fst =
      (paramNames prepared inTransaction arrayRows).map Utf16.ofString := by
  cases prepared <;> cases inTransaction <;> cases arrayRows <;> rfl

omit [DecidableEq ρ] in
lemma paramEntries_distinct (prepared inTransaction arrayRows : Bool)
    (target values transaction : Datum ρ) :
    ((paramEntries prepared inTransaction arrayRows target values transaction).map
      Prod.fst).Nodup := by
  have hnames : ∀ prepared inTransaction arrayRows,
      ((paramNames prepared inTransaction arrayRows).map Utf16.ofString).Nodup := by
    decide
  rw [names_paramEntries]
  exact hnames prepared inTransaction arrayRows

/-- The graph with the request that a statement request stands for, `.inr .request`. -/
def statementRequest (graph : Graph ρ) (slots : Slots ρ) : Graph (ρ ⊕ Part)
  | .inl ref => (graph ref).map .inl
  | .inr .request =>
    .object true
      (requestEntries (isPrepared slots) ((slots.get 1).map .inl) (.container (.inr .params)))
      (by
        show (["v", "id", "method", "params"].map Utf16.ofString).Nodup
        decide)
  | .inr .params =>
    .object true
      (paramEntries (isPrepared slots) (isInTransaction slots) (hasArrayRows slots)
        ((slots.get 3).map .inl) (.container (.inr .values)) ((slots.get 4).map .inl))
      (paramEntries_distinct _ _ _ _ _ _)
  | .inr .values =>
    .array ((slots.slice statementParams).map .inl) [] nodup_no_names none_is_index

/-! ## Both are accepted alike -/

/-- What the fixed slots of a statement request hold, but for what is checked of an id, a target and
a transaction's length. -/
structure FixedSlots (slots : Slots ρ) : Prop where
  length_le : statementParams ≤ slots.items.length
  version : isNumber protocolVersion (slots.get 0).scalar = true
  operation : isNumber statementPrepared (slots.get 2).scalar = true ∨
    isNumber statementSql (slots.get 2).scalar = true
  transaction : isNumber 0 (slots.get 4).scalar = true ∨ isString (slots.get 4).scalar = true
  arrayRows : isNumber 0 (slots.get 5).scalar = true ∨ isNumber 1 (slots.get 5).scalar = true

omit [DecidableEq ρ] in
lemma statementRequest_embeds (graph : Graph ρ) (slots : Slots ρ) :
    Embeds Sum.inl graph (statementRequest graph slots) :=
  fun _ => rfl

omit [DecidableEq ρ] in
lemma every_of_hole {isItem : Datum ρ → Validation ρ → Bool × Validation ρ}
    {slots : List (Option (Datum ρ))} (h : none ∈ slots) (validation : Validation ρ) :
    (every isItem slots validation).1 = false := by
  induction slots generalizing validation with
  | nil => exact absurd h List.not_mem_nil
  | cons slot rest ih =>
    cases slot with
    | none => rfl
    | some item =>
      rw [every]
      dsimp only
      split
      · exact ih ((List.mem_cons.mp h).resolve_left (Option.some_ne_none item).symm) _
      · rfl

/-- The scans of parameters in an array of their own and in place agree, holes included. -/
lemma scan_eq {σ : Type} [DecidableEq σ] {f : ρ → σ} (hf : f.Injective) {graph : Graph ρ}
    {extended : Graph σ} (h : Embeds f graph extended) (slots : Slots ρ)
    (hlength : slots.items.length ≤ maxArrayItems) {rest : List (Option (Datum ρ))}
    (hrest : rest ⊆ slots.items) :
    scanJsonValues extended (slots.map f) (rest.map (Option.map (Datum.map f))) =
      scanStatementParams graph slots.items rest := by
  have hall : (isDenseArray (isJson extended) (slots.map f) createJsonValidation).1 =
      (every (isJson graph) slots.items createJsonValidation).1 := by
    rw [isDenseArray, Slots.map, List.length_map, if_neg (by omega)]
    exact congrArg Prod.fst (every_map (visit_map hf h _) slots.items createJsonValidation)
  induction rest with
  | nil => rfl
  | cons slot rest ih =>
    obtain ⟨hslot, hmore⟩ := List.cons_subset.mp hrest
    cases slot with
    | none =>
      rw [scanStatementParams]
      exact (every_of_hole hslot _).symm
    | some item =>
      cases item with
      | number x => exact congrArg (x.isFinite && ·) (ih hmore)
      | null => exact ih hmore
      | bool b => exact ih hmore
      | string text => exact ih hmore
      | undefined => exact hall
      | container ref => exact hall
      | other => exact hall

omit [DecidableEq ρ] in
lemma lookup_paramEntries (prepared inTransaction arrayRows : Bool)
    (target values transaction : Datum ρ) :
    let entries := paramEntries prepared inTransaction arrayRows target values transaction
    entries.lookup (Utf16.ofString (if prepared then "statementId" else "sql")) = some target ∧
      entries.lookup (Utf16.ofString "params") = some values ∧
      entries.lookup (Utf16.ofString "transactionId") =
        (if inTransaction then some transaction else none) ∧
      entries.lookup (Utf16.ofString "rowMode") = (if arrayRows then some (text "array") else none) := by
  cases prepared <;> cases inTransaction <;> cases arrayRows <;> exact ⟨rfl, rfl, rfl, rfl⟩

omit [DecidableEq ρ] in
/-- What the checks of a request's parameters read. -/
lemma read_params (graph : Graph ρ) (slots : Slots ρ) :
    let param := read (statementRequest graph slots) (.container (.inr .params))
    (param (if isPrepared slots then "statementId" else "sql")).scalar = (slots.get 3).scalar ∧
      param "params" = .container (.inr .values) ∧
      isOptionalTransactionId (param "transactionId").scalar =
        (!isInTransaction slots || isOptionalTransactionId (slots.get 4).scalar) ∧
      isOptionalRowMode (param "rowMode").scalar = true := by
  obtain ⟨htarget, hvalues, htransaction, hmode⟩ := lookup_paramEntries (isPrepared slots)
    (isInTransaction slots) (hasArrayRows slots) ((slots.get 3).map (Sum.inl : ρ → ρ ⊕ Part))
    (.container (.inr .values)) ((slots.get 4).map .inl)
  have hread : ∀ name, read (statementRequest graph slots) (.container (.inr .params)) name =
      ((paramEntries (isPrepared slots) (isInTransaction slots) (hasArrayRows slots)
        ((slots.get 3).map Sum.inl) (.container (.inr .values))
        ((slots.get 4).map .inl)).lookup (Utf16.ofString name)).getD .undefined := fun _ => rfl
  dsimp only
  rw [hread, hread, hread, hread, htarget, hvalues, htransaction, hmode]
  refine ⟨Datum.scalar_map _ _, rfl, ?_, ?_⟩
  · cases isInTransaction slots with
    | false => rfl
    | true => exact congrArg isOptionalTransactionId (Datum.scalar_map _ _)
  · cases hasArrayRows slots with
    | false => rfl
    | true =>
      show isOptionalRowMode (.string (Utf16.ofString "array")) = true
      decide

omit [DecidableEq ρ] in
lemma hasParams_paramEntries (graph : Graph ρ) (slots : Slots ρ) :
    hasParams (statementRequest graph slots) (.container (.inr .params))
      [if isPrepared slots then "statementId" else "sql", "params", "transactionId", "rowMode"] =
        true := by
  have hwithin : ∀ prepared inTransaction arrayRows,
      areKeysWithin ((paramNames prepared inTransaction arrayRows).map Utf16.ofString)
        ([if prepared then "statementId" else "sql", "params", "transactionId", "rowMode"].map
          Utf16.ofString) = true := by
    decide
  rw [hasParams, show recordKeys (statementRequest graph slots) (.container (.inr .params)) =
    some ((paramEntries _ _ _ _ _ _).map Prod.fst) from rfl, names_paramEntries]
  exact hwithin (isPrepared slots) (isInTransaction slots) (hasArrayRows slots)

lemma isNumber_protocolVersion :
    isNumber protocolVersion (.number (F64.ofNat protocolVersion)) = true := by
  decide +kernel

lemma isWorkerRequest_statementRequest (graph : Graph ρ) (slots : Slots ρ) :
    isWorkerRequest (statementRequest graph slots) (.container (.inr .request)) =
      (isRequestId (slots.get 1).scalar &&
        ((if isPrepared slots then isPreparedStatementId (slots.get 3).scalar
          else isString (slots.get 3).scalar) &&
        isJsonValues (statementRequest graph slots) (.container (.inr .values)) &&
        (!isInTransaction slots || isOptionalTransactionId (slots.get 4).scalar))) := by
  have henvelope : isEnvelope (statementRequest graph slots) (.container (.inr .request)) = true := by
    rw [isEnvelope, Bool.and_eq_true]
    exact ⟨rfl, isNumber_protocolVersion⟩
  have hkeys : hasExactParams (statementRequest graph slots) (.container (.inr .request))
      ["v", "id", "method", "params"] = true := by
    show areKeysWithin (["v", "id", "method", "params"].map Utf16.ofString)
      (["v", "id", "method", "params"].map Utf16.ofString) = true
    decide
  have hmethod : (read (statementRequest graph slots) (.container (.inr .request)) "method").scalar =
      .string (Utf16.ofString (if isPrepared slots then "executePrepared" else "executeSql")) := rfl
  have hparams : read (statementRequest graph slots) (.container (.inr .request)) "params" =
      .container (.inr .params) := rfl
  have hid : (read (statementRequest graph slots) (.container (.inr .request)) "id").scalar =
      (slots.get 1).scalar := Datum.scalar_map Sum.inl _
  have hnames := hasParams_paramEntries graph slots
  obtain ⟨htarget, hvalues, htransaction, hrowMode⟩ := read_params graph slots
  rw [isWorkerRequest]
  dsimp only
  rw [hparams, henvelope, hkeys, hmethod, hid, hvalues, htransaction, hrowMode]
  cases hprepared : isPrepared slots with
  | false =>
    rw [hprepared] at hnames htarget
    have hinit : isText "init" (.string (Utf16.ofString "executeSql")) = false := by decide
    have hexecute : isText "executeSql" (.string (Utf16.ofString "executeSql")) = true := by decide
    simp only [Bool.false_eq_true, if_false] at hnames htarget
    simp [hinit, hexecute, hnames, htarget]
  | true =>
    rw [hprepared] at hnames htarget
    have hinit : isText "init" (.string (Utf16.ofString "executePrepared")) = false := by decide
    have hsql : isText "executeSql" (.string (Utf16.ofString "executePrepared")) = false := by decide
    have hprepare : isText "prepareSql" (.string (Utf16.ofString "executePrepared")) = false := by
      decide
    have hexecute : isText "executePrepared" (.string (Utf16.ofString "executePrepared")) = true := by
      decide
    simp only [if_true] at hnames htarget
    simp [hinit, hsql, hprepare, hexecute, hnames, htarget]

/-- The array of a request's values is checked as the parameters are in place. -/
lemma isJsonValues_values (graph : Graph ρ) (slots : Slots ρ) :
    isJsonValues (statementRequest graph slots) (.container (.inr .values)) =
      (decide (slots.items.length - statementParams ≤ maxArrayItems) &&
        scanStatementParams graph (slots.items.drop statementParams)
          (slots.items.drop statementParams)) := by
  have hslice : isJsonValues (statementRequest graph slots) (.container (.inr .values)) =
      (decide (((slots.slice statementParams).map Sum.inl).items.length ≤ maxArrayItems) &&
        scanJsonValues (statementRequest graph slots)
          ((slots.slice statementParams).map Sum.inl)
          ((slots.slice statementParams).map Sum.inl).items) := rfl
  have hlength : ((slots.slice statementParams).map (Sum.inl : ρ → ρ ⊕ Part)).items.length =
      slots.items.length - statementParams := by
    rw [Slots.map, List.length_map, Slots.slice, List.length_drop]
  rw [hslice, hlength]
  by_cases hshort : slots.items.length - statementParams ≤ maxArrayItems
  · congr 1
    refine scan_eq Sum.inl_injective (statementRequest_embeds graph slots)
      (slots.slice statementParams) ?_ (List.Subset.refl _)
    rwa [Slots.slice, List.length_drop]
  · rw [decide_eq_false hshort, Bool.false_and, Bool.false_and]

/-- A statement request is accepted as the request object it stands for. -/
lemma isStatementRequest_eq {graph : Graph ρ} {value : Datum ρ} {slots : Slots ρ}
    (harray : arrayOf graph value = some slots) (h : FixedSlots slots) :
    isStatementRequest graph value =
      isWorkerRequest (statementRequest graph slots) (.container (.inr .request)) := by
  have htarget : (if isNumber statementPrepared (slots.get 2).scalar then
      isPreparedStatementId (slots.get 3).scalar
      else isNumber statementSql (slots.get 2).scalar && isString (slots.get 3).scalar) =
      if isPrepared slots then isPreparedStatementId (slots.get 3).scalar
      else isString (slots.get 3).scalar := by
    rw [isPrepared]
    rcases h.operation with hprepared | hsql
    · rw [hprepared, if_pos rfl, if_pos rfl]
    · rw [hsql, Bool.true_and]
  have htransaction : (isNumber 0 (slots.get 4).scalar || isTransactionId (slots.get 4).scalar) =
      (!isInTransaction slots || isOptionalTransactionId (slots.get 4).scalar) := by
    rw [isInTransaction, Bool.not_not, isOptionalTransactionId]
    rcases h.transaction with hzero | hstring
    · rw [hzero, Bool.true_or, Bool.true_or]
    · generalize (slots.get 4).scalar = transaction at hstring ⊢
      cases transaction with
      | string units => rfl
      | _ => exact absurd hstring Bool.false_ne_true
  have harrayRows : (isNumber 0 (slots.get 5).scalar || isNumber 1 (slots.get 5).scalar) = true :=
    Bool.or_eq_true_iff.mpr h.arrayRows
  rw [isWorkerRequest_statementRequest, isJsonValues_values, isStatementRequest, harray,
    Option.any_some]
  dsimp only
  rw [decide_eq_true h.length_le, h.version, htarget, htransaction, harrayRows]
  simp only [Bool.true_and, Bool.and_true]
  ac_rfl

/-- A validation accepts exactly the values that unfold to JSON no deeper than it goes and take no
more visits than it has left, where a tree takes one for each of its values at most. It ends: once the
budget is spent, it takes one step more. A statement request is accepted exactly where the request
it stands for is. -/
theorem json_graphs_are_checked_exactly (graph : Graph ρ) :
    (∀ calls value,
      ((isJson graph value (validationAfter graph calls)).1 = true ↔
        (∃ tree, Unfolds graph value tree ∧ tree.depth ≤ Protocol.maxJsonDepth) ∧
          visits graph (validationAfter graph calls).validatedDepths value ≤
            (validationAfter graph calls).remaining) ∧
      (∀ tree, Unfolds graph value tree → tree.depth ≤ Protocol.maxJsonDepth →
        visits graph (validationAfter graph calls).validatedDepths value ≤ tree.size) ∧
      min (validationAfter graph calls).remaining 0 - 1 ≤
        (isJson graph value (validationAfter graph calls)).2.remaining) ∧
    ∀ value slots, arrayOf graph value = some slots → FixedSlots slots →
      isStatementRequest graph value =
        isWorkerRequest (statementRequest graph slots) (.container (.inr .request)) := by
  refine ⟨fun calls value => ⟨isJson_iff graph calls value, ?_, ?_⟩,
    fun value slots harray h => isStatementRequest_eq harray h⟩
  · exact fun tree htree hdepth => visits_le_size htree hdepth _
  · obtain ⟨-, hsound, -⟩ := validationAfter_leaves graph calls
    exact (visit_checks graph (le_refl _) value _ hsound).1.ends

/-- A statement request two of whose parameters are one array. -/
def sharedSlots : Slots (Fin 2) :=
  ⟨[some (.number (.ofNat protocolVersion)), some (.number (.ofNat 7)),
    some (.number (.ofNat statementSql)), some (text "SELECT 1"), some (.number .zero),
    some (.number .zero), some (.container 0), some (.container 0)], by decide⟩

def sharedArray : Graph (Fin 2)
  | 0 => .array ⟨[some .null], by decide⟩ [] nodup_no_names none_is_index
  | 1 => .array sharedSlots [] nodup_no_names none_is_index

theorem json_graphs_are_checked_exactly_shared_array :
    (∃ tree, Unfolds sharedArray (.container 0) tree ∧ tree.depth ≤ Protocol.maxJsonDepth) ∧
      isWorkerRequest (statementRequest sharedArray sharedSlots) (.container (.inr .request)) =
        true := by
  obtain ⟨hjson, hstatement⟩ := json_graphs_are_checked_exactly sharedArray
  constructor
  · exact ((hjson [] (.container 0)).1.mp (by decide +kernel)).1
  · rw [← hstatement (.container 1) sharedSlots rfl ⟨by decide, by decide +kernel, by decide +kernel,
      by decide +kernel, by decide +kernel⟩]
    decide +kernel

end TinyJoin.Clone
