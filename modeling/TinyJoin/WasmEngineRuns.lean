import TinyJoin.WasmEngine

/-! What an engine does once the outcome of a call may be one that it does not know, over all that the
raw engine may answer and do. -/
namespace TinyJoin
namespace WasmEngine
open JsonText (Units)
open WasmBridge (ReadNumber CallError Disposition)

/-! ## What a response says -/

section Outcomes
variable (readNumber : ReadNumber) (headerAt : Option Nat)

/-- The disposition of a statement's response: what a header answers has published nothing. -/
def statementDisposition (response : Response) : Option Disposition :=
  match headerAt, response.memory with
  | some _, none => none
  | _, memory =>
    if (headerAt.filter fun at' => decide (WasmBridge.byteAt (memory.getD []) at' ≠ 0)).isSome then
      some .safe
    else WasmBridge.readDisposition readNumber response.value

/-- The disposition of a response, where it has one that can be read. -/
def disposition (operation : Operation) (response : Response) : Option Disposition :=
  match operation with
  | .executeSql _ _ _ _ | .executePrepared _ _ _ _ =>
    statementDisposition readNumber headerAt response
  | _ => WasmBridge.readDisposition readNumber response.value

/-- A response is a failure that the engine reports by this code. -/
def Fails (operation : Operation) (response : Response) (code : Units) : Prop :=
  ∃ message retryable, operation.decode readNumber headerAt response =
    .error (.call (.bridge code message retryable))

/-- A response is neither a result nor a failure that the engine reports. -/
def Unreadable (operation : Operation) (response : Response) : Prop :=
  (∀ answer, operation.decode readNumber headerAt response ≠ .ok answer) ∧
    ∀ code, ¬Fails readNumber headerAt operation response code

/-- What leaves it open whether the database was changed, or what of it is intact. -/
inductive Uncertain (operation : Operation) : Except Failure Response → Prop
  | threw (error : Failure) : operation.mayPublish = true → Uncertain operation (.error error)
  | unread (response : Response) : operation.mayPublish = true →
      disposition readNumber headerAt operation response = none → Uncertain operation (.ok response)
  | durable (response : Response) : Unreadable readNumber headerAt operation response →
      disposition readNumber headerAt operation response = some .durable →
      Uncertain operation (.ok response)
  | fatal (response : Response) (code : Units) : Fails readNumber headerAt operation response code →
      code ∈ WasmBridge.fatalRemoteCodes → Uncertain operation (.ok response)

/-- What fails an operation, and is known to have changed nothing. -/
inductive Ordinary (operation : Operation) : Except Failure Response → Prop
  | threw (error : Failure) : operation.mayPublish = false → Ordinary operation (.error error)
  | safe (response : Response) : Unreadable readNumber headerAt operation response →
      disposition readNumber headerAt operation response = some .safe →
      Ordinary operation (.ok response)
  | failure (response : Response) (code : Units) : Fails readNumber headerAt operation response code →
      code ∉ WasmBridge.fatalRemoteCodes → Ordinary operation (.ok response)

/-- What an operation may make of a response: it has read the disposition of all but what it cannot
read. -/
inductive Says (disposition : Option Disposition) : Except Failure Answer → Prop
  | result (answer : Answer) : disposition.isSome → Says disposition (.ok answer)
  | failure (code message : Units) (retryable : Option Bool) : disposition = some .safe →
      Says disposition (.error (.call (.bridge code message retryable)))
  | unreadable (message : String) : Says disposition (.error (.call (.decode message disposition)))
  | unviewed (message : Units) : disposition = none → Says disposition (.error (.other message))

variable {readNumber headerAt}

lemma Says.map {disposition : Option Disposition} {result : Except Failure Answer}
    (h : Says disposition result) (f : Answer → Answer) : Says disposition (result.map f) := by
  cases h with
  | result answer hsome => exact .result (f answer) hsome
  | failure code message retryable hsafe => exact .failure code message retryable hsafe
  | unreadable message => exact .unreadable message
  | unviewed message hnone => exact .unviewed message hnone

lemma says_of_reads {α : Type} {disposition : Option Disposition} {result : Except CallError α}
    (h : WasmBridge.Reads disposition result) (f : α → Answer) :
    Says disposition ((result.mapError Failure.call).map f) := by
  cases h with
  | result result hsome => exact .result (f result) hsome
  | failure code message retryable hsafe => exact .failure code message retryable hsafe
  | unreadable message => exact .unreadable message

lemma decodeStatement_reads (bytes : List UInt8) (response : JsValue) :
    WasmBridge.Reads (if (headerAt.filter fun at' => decide (WasmBridge.byteAt bytes at' ≠ 0)).isSome then
        some .safe else WasmBridge.readDisposition readNumber response)
      (WasmBridge.decodeStatement bytes readNumber headerAt response) := by
  unfold WasmBridge.decodeStatement
  cases headerAt.filter fun at' => decide (WasmBridge.byteAt bytes at' ≠ 0) with
  | none =>
    rw [Option.isSome_none, if_neg Bool.false_ne_true]
    exact (WasmBridge.decoder_reads readNumber WasmBridge.sqlResult _ response).map Sum.inl
  | some at' =>
    dsimp only
    cases WasmBridge.readHeader bytes at' response with
    | some slots => exact .result _ rfl
    | none => exact .unreadable _

lemma decodeStatement_says (response : Response) :
    Says (statementDisposition readNumber headerAt response)
      (Operation.decodeStatement readNumber headerAt response) := by
  unfold statementDisposition Operation.decodeStatement
  cases headerAt with
  | none => exact says_of_reads (decodeStatement_reads _ response.value) _
  | some at' =>
    cases hmemory : response.memory with
    | none => exact .unviewed [] rfl
    | some bytes => exact says_of_reads (decodeStatement_reads bytes response.value) _

variable (readNumber headerAt) in
/-- An operation's reading of a response goes as far as the response's disposition does. -/
theorem decode_says (operation : Operation) (response : Response) :
    Says (disposition readNumber headerAt operation response)
      (operation.decode readNumber headerAt response) := by
  cases operation with
  | executeSql _ _ _ _ => exact decodeStatement_says response
  | executePrepared _ _ _ _ => exact decodeStatement_says response
  | closePrepared _ => exact (says_of_reads (WasmBridge.decoder_reads _ _ _ _) _).map _
  | beginTransaction => exact (says_of_reads (WasmBridge.decoder_reads _ _ _ _) _).map _
  | rollbackTransaction => exact (says_of_reads (WasmBridge.decoder_reads _ _ _ _) _).map _
  | check => exact (says_of_reads (WasmBridge.decoder_reads _ _ _ _) _).map _
  | close => exact (says_of_reads (WasmBridge.decoder_reads _ _ _ _) _).map _
  | _ => exact says_of_reads (WasmBridge.decoder_reads _ _ _ _) _

/-- What fails a response as no more than ordinary leaves nothing uncertain. -/
lemma Ordinary.not_uncertain {operation : Operation} {outcome : Except Failure Response}
    (h : Ordinary readNumber headerAt operation outcome) :
    ¬Uncertain readNumber headerAt operation outcome := by
  intro huncertain
  cases h with
  | threw error hkeeps =>
    cases huncertain with
    | threw _ hpublishes =>
      rw [hkeeps] at hpublishes
      cases hpublishes
  | safe response hunreadable hsafe =>
    cases huncertain with
    | unread _ _ hnone =>
      rw [hsafe] at hnone
      cases hnone
    | durable _ _ hdurable =>
      rw [hsafe] at hdurable
      cases hdurable
    | fatal _ code hfails _ => exact hunreadable.2 code hfails
  | failure response code hfails hcode =>
    have hsafe : disposition readNumber headerAt operation response = some .safe := by
      obtain ⟨message, retryable, hdecode⟩ := hfails
      have hsays := decode_says readNumber headerAt operation response
      rw [hdecode] at hsays
      cases hsays with
      | failure _ _ _ hsafe => exact hsafe
    cases huncertain with
    | unread _ _ hnone =>
      rw [hsafe] at hnone
      cases hnone
    | durable _ hunreadable _ => exact hunreadable.2 code hfails
    | fatal _ other hother hfatal =>
      obtain ⟨_, _, hdecode⟩ := hfails
      obtain ⟨_, _, hdecode'⟩ := hother
      rw [hdecode] at hdecode'
      cases hdecode'
      exact hcode hfatal

end Outcomes

/-! ## Inside a page-device callback -/

/-- An engine at which some more has happened. -/
def Engine.logged (engine : Engine) (events : List Event) : Engine :=
  { engine with trace := engine.trace ++ events }

@[simp] lemma Engine.logged_nil (engine : Engine) : engine.logged [] = engine := by
  rw [logged, List.append_nil]

@[simp] lemma Engine.logged_logged (engine : Engine) (events events' : List Event) :
    (engine.logged events).logged events' = engine.logged (events ++ events') := by
  rw [logged, logged, logged, List.append_assoc]

@[simp] lemma Engine.logged_inside (engine : Engine) (events : List Event) :
    (engine.logged events).insidePageDeviceCallback = engine.insidePageDeviceCallback := rfl
@[simp] lemma Engine.logged_state (engine : Engine) (events : List Event) :
    (engine.logged events).state = engine.state := rfl
@[simp] lemma Engine.logged_rawReleased (engine : Engine) (events : List Event) :
    (engine.logged events).rawReleased = engine.rawReleased := rfl

/-- Operations called inside page-device callbacks, each refused at once. -/
inductive Refusals : List Event → Prop
  | nil : Refusals []
  | cons (operation : Operation) (inside : Nat) (rest : List Event) : inside ≠ 0 → Refusals rest →
      Refusals (.called operation inside :: .settled operation (.error reentrantCall) :: rest)

lemma Refusals.append {events events' : List Event} (h : Refusals events) (h' : Refusals events') :
    Refusals (events ++ events') := by
  induction h with
  | nil => exact h'
  | cons operation inside rest hinside _ ih => exact .cons operation inside _ hinside ih

section Callbacks
variable {readNumber : ReadNumber} {headerAt : Option Nat}

@[simp] lemma runSteps_nil (engine : Engine) : runSteps readNumber headerAt [] engine = engine := rfl

lemma runSteps_cons (step : Step) (rest : List Step) (engine : Engine) :
    runSteps readNumber headerAt (step :: rest) engine =
      runSteps readNumber headerAt rest (step.run readNumber headerAt engine) := rfl

lemma RawCall.play_callback (inside : List Step) (rest : RawCall) (engine : Engine) :
    (RawCall.callback inside rest).play readNumber headerAt engine = rest.play readNumber headerAt
      (inPageDeviceCallback (runSteps readNumber headerAt inside) engine) := rfl

variable (readNumber headerAt) in
lemma perform_inside (operation : Operation) (asked closing free : Raw) {engine : Engine}
    (h : engine.insidePageDeviceCallback ≠ 0) :
    perform readNumber headerAt operation asked closing free engine = (.error reentrantCall, engine) := by
  have hassert : assertNotInPageDeviceCallback engine = (.error reentrantCall, engine) := by
    rw [assertNotInPageDeviceCallback, Effect.get_bind, if_pos h]
    rfl
  have hcallable : assertCallable engine = (.error reentrantCall, engine) := by
    rw [assertCallable, Effect.get_bind, if_pos (Or.inl h)]
    exact Effect.bind_of_error hassert
  cases operation with
  | close => exact Effect.bind_of_error hassert
  | _ => exact Effect.bind_of_error hcallable

lemma operate_inside (operation : Operation) (asked closing free : Raw) {engine : Engine}
    (h : engine.insidePageDeviceCallback ≠ 0) :
    operate readNumber headerAt operation asked closing free engine =
      engine.logged [.called operation engine.insidePageDeviceCallback,
        .settled operation (.error reentrantCall)] := by
  have hcalled : (engine.logged [.called operation engine.insidePageDeviceCallback]
    ).insidePageDeviceCallback ≠ 0 := h
  have hperform :=
    perform_inside readNumber headerAt operation asked closing free hcalled
  exact (congrArg (fun settled : Except Failure Answer × Engine =>
    settled.2.logged [.settled operation settled.1]) hperform).trans
      (Engine.logged_logged engine _ _)

/-- Leaving a callback leaves what has happened inside of it. -/
lemma inPageDeviceCallback_eq {callback : Engine → Engine} {engine : Engine} {events : List Event}
    (h : callback { engine with
        insidePageDeviceCallback := engine.insidePageDeviceCallback + 1 } =
      ({ engine with
        insidePageDeviceCallback := engine.insidePageDeviceCallback + 1 } : Engine).logged events) :
    inPageDeviceCallback callback engine = engine.logged events := by
  rw [inPageDeviceCallback, h]
  rfl

mutual
theorem Step.run_inside : ∀ (step : Step) (engine : Engine), engine.insidePageDeviceCallback ≠ 0 →
    ∃ events, Refusals events ∧ step.run readNumber headerAt engine = engine.logged events
  | .operation operation asked closing free, engine, h =>
    ⟨_, .cons operation _ [] h .nil, operate_inside operation _ _ _ h⟩
  | .callback inside, engine, _ => by
    obtain ⟨events, hrefusals, hrun⟩ := runSteps_inside inside { engine with
      insidePageDeviceCallback := engine.insidePageDeviceCallback + 1 } (Nat.succ_ne_zero _)
    exact ⟨events, hrefusals, inPageDeviceCallback_eq hrun⟩

/-- Whatever is done inside of a callback, the engine refuses. -/
theorem runSteps_inside : ∀ (steps : List Step) (engine : Engine),
    engine.insidePageDeviceCallback ≠ 0 →
    ∃ events, Refusals events ∧ runSteps readNumber headerAt steps engine = engine.logged events
  | [], engine, _ => ⟨[], .nil, (Engine.logged_nil engine).symm⟩
  | step :: rest, engine, h => by
    obtain ⟨events, hrefusals, hstep⟩ := Step.run_inside step engine h
    obtain ⟨events', hrefusals', hrest⟩ := runSteps_inside rest (engine.logged events) h
    refine ⟨events ++ events', hrefusals.append hrefusals', ?_⟩
    rw [runSteps_cons, hstep, hrest, Engine.logged_logged]
end

variable (readNumber headerAt) in
/-- A callback, wherever it is made, leaves no more than refusals. -/
lemma callback_eq (inside : List Step) (engine : Engine) : ∃ events, Refusals events ∧
    inPageDeviceCallback (runSteps readNumber headerAt inside) engine = engine.logged events := by
  obtain ⟨events, hrefusals, hrun⟩ := runSteps_inside inside { engine with
    insidePageDeviceCallback := engine.insidePageDeviceCallback + 1 } (Nat.succ_ne_zero _)
  exact ⟨events, hrefusals, inPageDeviceCallback_eq hrun⟩

/-- How a call of the raw engine ends. -/
def RawCall.outcome : RawCall → Except Failure Response
  | .ends outcome => outcome
  | .callback _ rest => rest.outcome

/-- A call of the raw engine that ends so, and leaves no more than refusals. -/
def Plays (raw : Raw) (outcome : Except Failure Response) : Prop :=
  ∀ engine, ∃ events, Refusals events ∧ raw engine = (outcome, engine.logged events)

theorem RawCall.play_plays : ∀ raw : RawCall, Plays (raw.play readNumber headerAt) raw.outcome
  | .ends outcome, engine => ⟨[], .nil, by rw [Engine.logged_nil]; rfl⟩
  | .callback inside rest, engine => by
    obtain ⟨events, hrefusals, hcallback⟩ :=
      callback_eq readNumber headerAt inside engine
    obtain ⟨events', hrefusals', hrest⟩ := RawCall.play_plays rest (engine.logged events)
    refine ⟨events ++ events', hrefusals.append hrefusals', ?_⟩
    rw [RawCall.play_callback, hcallback, hrest, Engine.logged_logged, RawCall.outcome]

end Callbacks

/-! ## Outside of any -/

section Calls
variable {engine : Engine} {asked closing free : Raw} {outcome : Except Failure Response}

variable (engine) in
lemma call_eq (operation : Operation) (h : Plays asked outcome)
    (houtside : engine.insidePageDeviceCallback = 0) : ∃ events, Refusals events ∧
    call operation asked engine = (outcome, engine.logged
      (.reached operation 0 :: (events ++ [.answered operation outcome]))) := by
  obtain ⟨events, hrefusals, hraw⟩ := h (engine.logged [.reached operation 0])
  refine ⟨events, hrefusals, ?_⟩
  have hlogged : engine.logged (.reached operation 0 :: (events ++ [.answered operation outcome])) =
      ((engine.logged [.reached operation 0]).logged events).logged [.answered operation outcome] := by
    rw [Engine.logged_logged, Engine.logged_logged]
    rfl
  rw [hlogged, call, Effect.get_bind, houtside, log, Effect.modify_bind]
  cases outcome with
  | ok response => exact Effect.bind_of_ok (Effect.orElse_of_ok hraw)
  | error error => exact Effect.bind_of_error (Effect.orElse_of_error hraw)

variable (engine) in
lemma releaseRaw_eq {outcome : Except Failure Response} (h : Plays free outcome)
    (hfresh : engine.rawReleased = false) : ∃ events, Refusals events ∧
      releaseRaw free engine =
        (.ok (), ({ engine with rawReleased := true } : Engine).logged (.freed :: events)) := by
  obtain ⟨events, hrefusals, hraw⟩ :=
    h (({ engine with rawReleased := true } : Engine).logged [.freed])
  refine ⟨events, hrefusals, ?_⟩
  have hlogged : ({ engine with rawReleased := true } : Engine).logged (.freed :: events) =
      (({ engine with rawReleased := true } : Engine).logged [.freed]).logged events := by
    rw [Engine.logged_logged]
    rfl
  rw [hlogged, releaseRaw, Effect.get_bind, hfresh, if_neg Bool.false_ne_true]
  cases outcome with
  | ok response => exact Effect.orElse_of_ok (Effect.bind_of_ok hraw)
  | error error => exact Effect.orElse_of_error (Effect.bind_of_error hraw)

variable (engine) in
lemma releaseRaw_released (free : Raw) (h : engine.rawReleased = true) :
    releaseRaw free engine = (.ok (), engine) := by
  rw [releaseRaw, Effect.get_bind, h, if_pos rfl]
  rfl

/-- The close and the free of a raw engine whose last answer left things uncertain. -/
inductive Poisoning : List Event → Prop
  | intro (events events' : List Event) (outcome : Except Failure Response) :
      Refusals events → Refusals events' →
      Poisoning (.reached .close 0 :: (events ++ .answered .close outcome :: .freed :: events'))

variable (engine) in
lemma closeRaw_eq {outcome' : Except Failure Response} (hclosing : Plays closing outcome)
    (hfree : Plays free outcome') (hopen : engine.state = .open) (hfresh : engine.rawReleased = false)
    (houtside : engine.insidePageDeviceCallback = 0) : ∃ events, Poisoning events ∧
      closeRaw closing free engine = (.ok (), ({ engine with
        state := .poisoned, rawReleased := true } : Engine).logged events) := by
  obtain ⟨events, hrefusals, hcall⟩ :=
    call_eq { engine with state := .poisoned } .close hclosing houtside
  obtain ⟨events', hrefusals', hrelease⟩ :=
    releaseRaw_eq (({ engine with state := .poisoned } : Engine).logged
      (.reached .close 0 :: (events ++ [.answered .close outcome]))) hfree hfresh
  refine ⟨_, .intro events events' outcome hrefusals hrefusals', ?_⟩
  have hclosed : ((call .close closing >>= fun _ => pure ()).orElse fun _ => pure ())
      ({ engine with state := .poisoned } : Engine) = (.ok (), ({ engine with
        state := .poisoned } : Engine).logged
          (.reached .close 0 :: (events ++ [.answered .close outcome]))) := by
    cases outcome with
    | ok response => exact Effect.orElse_of_ok (Effect.bind_of_ok hcall)
    | error error => exact Effect.orElse_of_error (Effect.bind_of_error hcall)
  rw [closeRaw, Effect.get_bind, if_neg (not_not_intro hopen), setState, Effect.modify_bind,
    Effect.bind_of_ok hclosed, hrelease]
  simp only [Engine.logged, List.append_assoc, List.cons_append, List.nil_append]

section Decisions
variable {readNumber : ReadNumber} {headerAt : Option Nat} {operation : Operation}
  {response : Response}

lemma not_uncertain_of_ok {answer : Answer}
    (hdecode : operation.decode readNumber headerAt response = .ok answer) :
    ¬Uncertain readNumber headerAt operation (.ok response) := by
  intro h
  have hsays := decode_says readNumber headerAt operation response
  rw [hdecode] at hsays
  cases hsays with
  | result _ hsome =>
    cases h with
    | unread _ _ hnone =>
      rw [hnone] at hsome
      cases hsome
    | durable _ hunreadable _ => exact hunreadable.1 answer hdecode
    | fatal _ code hfails _ =>
      obtain ⟨_, _, hdecode'⟩ := hfails
      rw [hdecode] at hdecode'
      cases hdecode'

lemma uncertain_failure_iff {code message : Units} {retryable : Option Bool}
    (hdecode : operation.decode readNumber headerAt response =
      .error (.call (.bridge code message retryable))) :
    Uncertain readNumber headerAt operation (.ok response) ↔
      WasmBridge.fatalRemoteCodes.contains code = true := by
  have hfails : Fails readNumber headerAt operation response code := ⟨message, retryable, hdecode⟩
  rw [List.contains_iff_mem]
  constructor
  · intro h
    by_contra hcode
    exact (Ordinary.failure response code hfails hcode).not_uncertain h
  · exact .fatal response code hfails

lemma uncertain_unreadable_iff
    (hdecode : Unreadable readNumber headerAt operation response) :
    Uncertain readNumber headerAt operation (.ok response) ↔
      disposition readNumber headerAt operation response = some .durable ∨
        (disposition readNumber headerAt operation response = none ∧ operation.mayPublish = true) := by
  constructor
  · intro h
    cases h with
    | unread _ hpublishes hnone => exact .inr ⟨hnone, hpublishes⟩
    | durable _ _ hdurable => exact .inl hdurable
    | fatal _ code hfails _ => exact absurd hfails (hdecode.2 code)
  · rintro (hdurable | ⟨hnone, hpublishes⟩)
    · exact .durable response hdecode hdurable
    · exact .unread response hpublishes hnone

end Decisions

variable (readNumber headerAt closing free) in
/-- What an operation makes of an answer: it closes the raw engine where that leaves things uncertain. -/
lemma invoke_decides (operation : Operation) {after : Engine}
    (hcall : call operation asked engine = (outcome, after)) :
    (¬Uncertain readNumber headerAt operation outcome ∧ ∃ result,
      invoke readNumber headerAt operation asked closing free engine = (result, after)) ∨
    (Uncertain readNumber headerAt operation outcome ∧ ∃ error,
      invoke readNumber headerAt operation asked closing free engine =
        (closeRaw closing free >>= fun _ => Effect.fail error) after) := by
  cases outcome with
  | error error =>
    have hasked : (call operation asked).orElse (fun error =>
        if operation.mayPublish then poisonUnknown error closing free else Effect.fail error) engine =
        (if operation.mayPublish then poisonUnknown error closing free else Effect.fail error) after :=
      Effect.orElse_of_error hcall
    by_cases hpublishes : operation.mayPublish = true
    · refine .inr ⟨.threw error hpublishes, outcomeUnknown error, ?_⟩
      rw [if_pos hpublishes] at hasked
      exact (Effect.bind_congr_run hasked).trans Effect.bind_fail_bind
    · refine .inl ⟨fun h => ?_, .error error, ?_⟩
      · cases h with
        | threw _ h => exact hpublishes h
      · rw [if_neg hpublishes] at hasked
        exact Effect.bind_of_error hasked
  | ok response =>
    rw [invoke, Effect.bind_of_ok (Effect.orElse_of_ok hcall)]
    have hsays := decode_says readNumber headerAt operation response
    cases hdecode : operation.decode readNumber headerAt response with
    | ok answer => exact .inl ⟨not_uncertain_of_ok hdecode, .ok answer, rfl⟩
    | error error =>
      rw [hdecode] at hsays
      have hunreadable (h : ∀ code message retryable, error ≠ .call (.bridge code message retryable)) :
          Unreadable readNumber headerAt operation response := by
        constructor
        · intro answer hanswer
          rw [hdecode] at hanswer
          cases hanswer
        · rintro code ⟨message, retryable, hfails⟩
          rw [hdecode] at hfails
          exact h code message retryable (Except.error.inj hfails)
      cases hsays with
      | failure code message retryable _ =>
        rw [uncertain_failure_iff hdecode]
        by_cases hfatal : WasmBridge.fatalRemoteCodes.contains code = true
        · exact .inr ⟨hfatal, _, congrFun (if_pos hfatal) after⟩
        · exact .inl ⟨hfatal, _, congrFun (if_neg hfatal) after⟩
      | unreadable message =>
        rw [uncertain_unreadable_iff (hunreadable (by rintro _ _ _ ⟨⟩))]
        by_cases hpoisons : disposition readNumber headerAt operation response = some .durable ∨
            (disposition readNumber headerAt operation response = none ∧ operation.mayPublish = true)
        · exact .inr ⟨hpoisons, _, congrFun (if_pos hpoisons) after⟩
        · exact .inl ⟨hpoisons, _, congrFun (if_neg hpoisons) after⟩
      | unviewed message hnone =>
        rw [uncertain_unreadable_iff (hunreadable (by rintro _ _ _ ⟨⟩)), hnone]
        by_cases hpoisons : (none : Option Disposition) = some .durable ∨
            ((none : Option Disposition) = none ∧ operation.mayPublish = true)
        · exact .inr ⟨hpoisons, _, congrFun (if_pos hpoisons) after⟩
        · exact .inl ⟨hpoisons, _, congrFun (if_neg hpoisons) after⟩


end Calls

/-! ## Steps -/

/-- An engine between operations, outside of any callback: the raw engine is freed once it is not open. -/
structure Resting (engine : Engine) : Prop where
  outside : engine.insidePageDeviceCallback = 0
  released : engine.rawReleased = decide (engine.state ≠ .open)

section Steps
variable (readNumber : ReadNumber) (headerAt : Option Nat)

/-- What a step comes to, from the state before it to the state behind it. -/
inductive Episode : State → List Event → State → Prop
  | callback (state : State) (events : List Event) : Refusals events → Episode state events state
  | refused (state : State) (operation : Operation) : state ≠ .open → operation ≠ .close →
      Episode state [.called operation 0, .settled operation
        (.error (if state = .poisoned then enginePoisoned else engineClosed))] state
  | closedAgain (state : State) : state ≠ .open →
      Episode state [.called .close 0, .settled .close (.ok .unit)] .closed
  | unwritten (operation : Operation) (error : Failure) : operation ≠ .close →
      Episode .open [.called operation 0, .settled operation (.error error)] .open
  | certain (operation : Operation) (outcome : Except Failure Response) (events : List Event)
      (result : Except Failure Answer) : operation ≠ .close →
      ¬Uncertain readNumber headerAt operation outcome → Refusals events →
      Episode .open (.called operation 0 :: .reached operation 0 :: (events ++
        [.answered operation outcome, .settled operation result])) .open
  | uncertain (operation : Operation) (outcome : Except Failure Response)
      (events poisoning : List Event) (error : Failure) : operation ≠ .close →
      Uncertain readNumber headerAt operation outcome → Refusals events → Poisoning poisoning →
      Episode .open (.called operation 0 :: .reached operation 0 :: (events ++
        .answered operation outcome :: (poisoning ++ [.settled operation (.error error)]))) .poisoned
  | closed (outcome : Except Failure Response) (events events' : List Event)
      (result : Except Failure Answer) : Refusals events → Refusals events' →
      Episode .open (.called .close 0 :: .reached .close 0 :: (events ++
        .answered .close outcome :: .freed :: (events' ++ [.settled .close result]))) .closed

variable {readNumber headerAt} {engine : Engine} {asked closing free : Raw}

lemma assertNotInPageDeviceCallback_outside (h : engine.insidePageDeviceCallback = 0) :
    assertNotInPageDeviceCallback engine = (.ok (), engine) := by
  rw [assertNotInPageDeviceCallback, Effect.get_bind, if_neg (not_not_intro h)]
  rfl

variable (engine) in
lemma assertCallable_eq (h : engine.insidePageDeviceCallback = 0) :
    assertCallable engine =
      if engine.state = .open then (.ok (), engine)
      else (.error (if engine.state = .poisoned then enginePoisoned else engineClosed), engine) := by
  rw [assertCallable, Effect.get_bind]
  by_cases hopen : engine.state = .open
  · rw [if_neg (by rintro (h' | h'); exacts [h' h, h' hopen]), if_pos hopen]
    rfl
  · rw [if_pos (Or.inr hopen), if_neg hopen,
      Effect.bind_of_ok (assertNotInPageDeviceCallback_outside h)]
    split
    · rfl
    · rfl

lemma perform_eq {operation : Operation} (h : operation ≠ .close) :
    perform readNumber headerAt operation asked closing free =
      (assertCallable >>= fun _ => request operation >>= fun _ =>
        invoke readNumber headerAt operation asked closing free) := by
  cases operation with
  | close => exact absurd rfl h
  | _ => rfl

/-- What has happened from one engine to another, outside of any callback. -/
structure Went (before : Engine) (events : List Event) (state : State) (after : Engine) : Prop where
  reaches : after.state = state
  outside : after.insidePageDeviceCallback = before.insidePageDeviceCallback
  released : after.rawReleased = decide (state ≠ .open)
  trace : after.trace = before.trace ++ events

variable (readNumber headerAt) in
/-- What an operation that an open engine takes on comes to, but for its own beginning and end. -/
inductive Taken (operation : Operation) (outcome : Except Failure Response) (engine : Engine) :
    Except Failure Answer × Engine → Prop
  | unwritten (error : Failure) (after : Engine) : (request operation engine).1 = .error error →
      Went engine [] .open after → Taken operation outcome engine (.error error, after)
  | certain (events : List Event) (result : Except Failure Answer) (after : Engine) :
      ¬Uncertain readNumber headerAt operation outcome → Refusals events →
      Went engine (.reached operation 0 :: (events ++ [.answered operation outcome])) .open after →
      Taken operation outcome engine (result, after)
  | uncertain (bytes : List UInt8) (events poisoning : List Event) (error : Failure) (after : Engine) :
      (request operation engine).1 = .ok bytes → Uncertain readNumber headerAt operation outcome →
      Refusals events → Poisoning poisoning →
      Went engine (.reached operation 0 :: (events ++ .answered operation outcome :: poisoning))
        .poisoned after → Taken operation outcome engine (.error error, after)

variable (readNumber headerAt) in
lemma perform_taken {operation : Operation} {outcome closed freed : Except Failure Response}
    (hrest : Resting engine) (hopen : engine.state = .open) (hclose : operation ≠ .close)
    (hasked : Plays asked outcome) (hclosing : Plays closing closed) (hfree : Plays free freed) :
    Taken readNumber headerAt operation outcome engine
      (perform readNumber headerAt operation asked closing free engine) := by
  have hcallable : assertCallable engine = (.ok (), engine) := by
    rw [assertCallable_eq engine hrest.outside, if_pos hopen]
  have hreleased : engine.rawReleased = false := by
    rw [hrest.released, hopen]
    rfl
  have hrequest : request operation engine = ((request operation engine).1,
      { engine with preflight := (request operation engine).2.preflight }) := rfl
  rw [perform_eq hclose, Effect.bind_of_ok hcallable]
  generalize (request operation engine).2.preflight = preflight at hrequest
  cases hresult : (request operation engine).1 with
  | error error =>
    rw [hresult] at hrequest
    rw [Effect.bind_of_error hrequest]
    exact .unwritten error _ hresult ⟨hopen, rfl, hreleased, (List.append_nil _).symm⟩
  | ok bytes =>
    rw [hresult] at hrequest
    rw [Effect.bind_of_ok hrequest]
    obtain ⟨events, hrefusals, hcall⟩ :=
      call_eq { engine with preflight } operation hasked hrest.outside
    rcases invoke_decides closing free readNumber headerAt operation hcall with
      ⟨hcertain, result, hinvoke⟩ | ⟨huncertain, error, hinvoke⟩
    · rw [hinvoke]
      exact .certain events result _ hcertain hrefusals ⟨hopen, rfl, hreleased, rfl⟩
    · obtain ⟨poisoning, hpoisoning, hclosed⟩ := closeRaw_eq
        (({ engine with preflight } : Engine).logged
          (.reached operation 0 :: (events ++ [.answered operation outcome]))) hclosing hfree hopen
            hreleased hrest.outside
      rw [hinvoke, Effect.bind_of_ok hclosed]
      refine .uncertain bytes events poisoning error _ hresult huncertain hrefusals hpoisoning
        ⟨rfl, rfl, rfl, ?_⟩
      simp only [Engine.logged, List.append_assoc, List.cons_append, List.nil_append]

variable (readNumber headerAt) in
lemma close_open {outcome freed : Except Failure Response} (hrest : Resting engine)
    (hopen : engine.state = .open) (hasked : Plays asked outcome) (hfree : Plays free freed) :
    ∃ events events', Refusals events ∧ Refusals events' ∧
      Went engine (.reached .close 0 :: (events ++ .answered .close outcome :: .freed :: events'))
        .closed (close readNumber headerAt asked free engine).2 := by
  have hfresh : engine.rawReleased = false := by
    rw [hrest.released, hopen]
    rfl
  obtain ⟨events, hrefusals, hcall⟩ :=
    call_eq { engine with state := .closed } .close hasked hrest.outside
  obtain ⟨events', hrefusals', hrelease⟩ :=
    releaseRaw_eq (({ engine with state := .closed } : Engine).logged
      (.reached .close 0 :: (events ++ [.answered .close outcome]))) hfree hfresh
  have hasked : ∃ result, closeOpen readNumber headerAt true asked { engine with state := .closed } =
      (result, ({ engine with state := .closed } : Engine).logged
        (.reached .close 0 :: (events ++ [.answered .close outcome]))) := by
    cases outcome with
    | ok response => exact ⟨_, Effect.bind_of_ok hcall⟩
    | error error => exact ⟨_, Effect.bind_of_error hcall⟩
  obtain ⟨result, hasked⟩ := hasked
  refine ⟨events, events', hrefusals, hrefusals', ?_⟩
  have hnotClosed : engine.state ≠ .closed := by
    rw [hopen]
    decide
  rw [close, Effect.bind_of_ok (assertNotInPageDeviceCallback_outside hrest.outside),
    Effect.get_bind, if_neg hnotClosed, setState, Effect.modify_bind, decide_eq_true hopen]
  cases result with
  | ok answer =>
    rw [Effect.bind_of_ok (Effect.orElse_of_ok hasked), Effect.bind_of_ok hrelease]
    refine ⟨rfl, rfl, rfl, ?_⟩
    simp [Engine.logged, pure]
  | error error =>
    rw [Effect.bind_of_error ((Effect.orElse_of_error hasked).trans (Effect.bind_of_ok hrelease))]
    refine ⟨rfl, rfl, rfl, ?_⟩
    simp only [Engine.logged, List.append_assoc, List.cons_append, List.nil_append]

variable (readNumber headerAt) in
lemma close_again (asked : Raw) (free : Raw) (hrest : Resting engine) (hclosed : engine.state ≠ .open) :
    (close readNumber headerAt asked free engine).1 = .ok .unit ∧
      Went engine [] .closed (close readNumber headerAt asked free engine).2 := by
  have hreleased : engine.rawReleased = true := by
    rw [hrest.released]
    exact decide_eq_true hclosed
  rw [close, Effect.bind_of_ok (assertNotInPageDeviceCallback_outside hrest.outside), Effect.get_bind]
  by_cases h : engine.state = .closed
  · rw [if_pos h]
    exact ⟨rfl, h, rfl, hreleased, (List.append_nil _).symm⟩
  · have hrelease := releaseRaw_released { engine with state := .closed } free hreleased
    rw [if_neg h, setState, Effect.modify_bind, decide_eq_false hclosed,
      Effect.bind_of_ok (Effect.orElse_of_ok (rfl : closeOpen readNumber headerAt false asked
        { engine with state := .closed } = (.ok .unit, { engine with state := .closed }))),
      Effect.bind_of_ok hrelease]
    exact ⟨rfl, rfl, rfl, hreleased, (List.append_nil _).symm⟩

/-- An operation begins and ends with what it comes to between. -/
lemma operate_went {operation : Operation} {events : List Event} {state : State}
    {result : Except Failure Answer} {after : Engine} (hrest : Resting engine)
    (hrun : perform readNumber headerAt operation asked closing free
      (engine.logged [.called operation 0]) = (result, after))
    (h : Went (engine.logged [.called operation 0]) events state after) :
    Resting (operate readNumber headerAt operation asked closing free engine) ∧
      Went engine (.called operation 0 :: (events ++ [.settled operation result])) state
        (operate readNumber headerAt operation asked closing free engine) := by
  have hoperate : operate readNumber headerAt operation asked closing free engine =
      after.logged [.settled operation result] := by
    have hcalled : (log (.called operation engine.insidePageDeviceCallback) engine).2 =
        engine.logged [.called operation 0] := by
      rw [hrest.outside]
      rfl
    rw [operate, hcalled, hrun]
    rfl
  have hwent : Went engine (.called operation 0 :: (events ++ [.settled operation result])) state
      (operate readNumber headerAt operation asked closing free engine) := by
    rw [hoperate]
    refine ⟨h.reaches, h.outside, h.released, ?_⟩
    rw [Engine.logged, h.trace]
    simp only [Engine.logged, List.append_assoc, List.cons_append, List.nil_append]
  refine ⟨⟨hwent.outside.trans hrest.outside, ?_⟩, hwent⟩
  rw [hwent.released, hwent.reaches]

lemma operate_open {operation : Operation} {outcome closed freed : Except Failure Response}
    (hrest : Resting engine) (hopen : engine.state = .open) (hasked : Plays asked outcome)
    (hclosing : Plays closing closed) (hfree : Plays free freed) : ∃ events state,
    Episode readNumber headerAt .open events state ∧
      Resting (operate readNumber headerAt operation asked closing free engine) ∧
      Went engine events state (operate readNumber headerAt operation asked closing free engine) := by
  have hcalled : Resting (engine.logged [.called operation 0]) := ⟨hrest.outside, hrest.released⟩
  rcases hrun : perform readNumber headerAt operation asked closing free
    (engine.logged [.called operation 0]) with ⟨result, after⟩
  by_cases hclose : operation = .close
  · subst hclose
    obtain ⟨events, events', hrefusals, hrefusals', hwent⟩ :=
      close_open readNumber headerAt hcalled hopen hasked hfree
    have hafter : (close readNumber headerAt asked free (engine.logged [.called .close 0])).2 = after :=
      congrArg Prod.snd hrun
    rw [hafter] at hwent
    refine ⟨_, _, .closed outcome events events' result hrefusals hrefusals', ?_⟩
    have h := operate_went hrest hrun hwent
    simp only [List.append_assoc, List.cons_append] at h
    exact h
  · have htaken := perform_taken readNumber headerAt hcalled hopen hclose
      hasked hclosing hfree
    rw [hrun] at htaken
    cases htaken with
    | unwritten error _ _ hwent =>
      exact ⟨_, _, .unwritten operation error hclose, operate_went hrest hrun hwent⟩
    | certain events _ _ hcertain hrefusals hwent =>
      refine ⟨_, _, .certain operation outcome events result hclose hcertain hrefusals, ?_⟩
      have h := operate_went hrest hrun hwent
      simp only [List.append_assoc, List.cons_append, List.nil_append] at h
      exact h
    | uncertain _ events poisoning error _ _ huncertain hrefusals hpoisoning hwent =>
      refine ⟨_, _, .uncertain operation outcome events poisoning error hclose huncertain hrefusals
        hpoisoning, ?_⟩
      have h := operate_went hrest hrun hwent
      simp only [List.append_assoc, List.cons_append] at h
      exact h

lemma operate_shut {operation : Operation} (hrest : Resting engine) (hshut : engine.state ≠ .open) :
    ∃ events state, Episode readNumber headerAt engine.state events state ∧
      Resting (operate readNumber headerAt operation asked closing free engine) ∧
      Went engine events state (operate readNumber headerAt operation asked closing free engine) := by
  have hcalled : Resting (engine.logged [.called operation 0]) := ⟨hrest.outside, hrest.released⟩
  by_cases hclose : operation = .close
  · subst hclose
    obtain ⟨hresult, hwent⟩ := close_again readNumber headerAt asked free
      hcalled hshut
    have hrun : perform readNumber headerAt .close asked closing free (engine.logged [.called .close 0]) =
        (.ok .unit, (close readNumber headerAt asked free (engine.logged [.called .close 0])).2) :=
      Prod.ext hresult rfl
    exact ⟨_, _, .closedAgain engine.state hshut, operate_went hrest hrun hwent⟩
  · have hcallable := assertCallable_eq (engine.logged [.called operation 0]) hcalled.outside
    rw [Engine.logged_state, if_neg hshut] at hcallable
    have hrun : perform readNumber headerAt operation asked closing free
        (engine.logged [.called operation 0]) =
        (.error (if engine.state = .poisoned then enginePoisoned else engineClosed),
          engine.logged [.called operation 0]) := by
      rw [perform_eq hclose]
      exact Effect.bind_of_error hcallable
    exact ⟨_, _, .refused engine.state operation hshut hclose, operate_went hrest hrun
      ⟨rfl, rfl, hrest.released, (List.append_nil _).symm⟩⟩

variable (readNumber headerAt) in
/-- What a step comes to, and that the engine rests behind it. -/
theorem step_episode (step : Step) (hrest : Resting engine) : ∃ events state,
    Episode readNumber headerAt engine.state events state ∧
      Resting (step.run readNumber headerAt engine) ∧
      Went engine events state (step.run readNumber headerAt engine) := by
  cases step with
  | callback inside =>
    obtain ⟨events, hrefusals, hrun⟩ := callback_eq readNumber headerAt inside engine
    have hcallback : (Step.callback inside).run readNumber headerAt engine = engine.logged events := hrun
    rw [hcallback]
    exact ⟨events, engine.state, .callback engine.state events hrefusals, ⟨hrest.outside, hrest.released⟩,
      rfl, rfl, hrest.released, rfl⟩
  | operation operation asked closing free =>
    by_cases hopen : engine.state = .open
    · rw [hopen]
      exact operate_open hrest hopen asked.play_plays closing.play_plays free.play_plays
    · exact operate_shut hrest hopen

/-- The episodes of a run, one after another. -/
inductive Trail (readNumber : ReadNumber) (headerAt : Option Nat) : State → List Event → State → Prop
  | nil (state : State) : Trail readNumber headerAt state [] state
  | cons {state between after : State} {events rest : List Event} :
      Episode readNumber headerAt state events between → Trail readNumber headerAt between rest after →
      Trail readNumber headerAt state (events ++ rest) after

variable (readNumber headerAt) in
theorem runSteps_trail (steps : List Step) {engine : Engine} (hrest : Resting engine) :
    ∃ events state, Trail readNumber headerAt engine.state events state ∧
      Resting (runSteps readNumber headerAt steps engine) ∧
      Went engine events state (runSteps readNumber headerAt steps engine) := by
  induction steps generalizing engine with
  | nil =>
    exact ⟨[], engine.state, .nil engine.state, hrest,
      rfl, rfl, hrest.released, (List.append_nil _).symm⟩
  | cons step rest ih =>
    obtain ⟨events, between, hepisode, hbetween, hwent⟩ := step_episode readNumber headerAt step hrest
    obtain ⟨events', state, htrail, hafter, hwent'⟩ := ih hbetween
    rw [hwent.reaches] at htrail
    refine ⟨events ++ events', state, .cons hepisode htrail, hafter, ?_⟩
    rw [runSteps_cons]
    refine ⟨hwent'.reaches, hwent'.outside.trans hwent.outside, hwent'.released, ?_⟩
    rw [hwent'.trace, hwent.trace, List.append_assoc]

end Steps

end WasmEngine
end TinyJoin
