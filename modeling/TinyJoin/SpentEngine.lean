import TinyJoin.WasmEngineRuns

/-! An engine that may have changed its database unknown to its page reaches the raw engine no more, but
for one close, in whatever order its operations are called and whatever the raw engine answers. -/
namespace TinyJoin
namespace WasmEngine
open JsonText (Units)
open WasmBridge (ReadNumber)

/-! ## Traces -/

def Event.reach : Event → Option Operation
  | .reached operation _ => some operation
  | _ => none

def Event.isFreed : Event → Bool
  | .freed => true
  | _ => false

/-- The operations that reach the raw engine. -/
def reaches (events : List Event) : List Operation := events.filterMap Event.reach

/-- How often the raw engine is freed. -/
def frees (events : List Event) : Nat := events.countP Event.isFreed

/-- What an operation is answered by an engine of no more use. A close has nothing left to do. -/
inductive Refused : Operation → Nat → Except Failure Answer → Prop
  | poisoned (operation : Operation) (inside : Nat) : operation ≠ .close →
      Refused operation inside (.error enginePoisoned)
  | closed (operation : Operation) (inside : Nat) : operation ≠ .close →
      Refused operation inside (.error engineClosed)
  | reentrant (operation : Operation) (inside : Nat) : inside ≠ 0 →
      Refused operation inside (.error reentrantCall)
  | close : Refused .close 0 (.ok .unit)

/-- Each operation that is called is refused at once. -/
def AllRefused : List Event → Prop
  | [] => True
  | .called operation inside :: rest =>
    (∃ result rest', rest = .settled operation result :: rest' ∧ Refused operation inside result) ∧
      AllRefused rest
  | _ :: rest => AllRefused rest

/-- No operation reaches the raw engine, but for one close at most, and any that is called is refused. -/
def Spent (events : List Event) : Prop :=
  (reaches events = [] ∨ reaches events = [.close]) ∧ AllRefused events

/-- An engine is spent from each answer on that leaves things uncertain. -/
def SpentOnceUncertain (readNumber : ReadNumber) (headerAt : Option Nat) : List Event → Prop
  | [] => True
  | .answered operation outcome :: rest =>
    (Uncertain readNumber headerAt operation outcome → Spent rest) ∧
      SpentOnceUncertain readNumber headerAt rest
  | _ :: rest => SpentOnceUncertain readNumber headerAt rest

@[simp] lemma reaches_append (events events' : List Event) :
    reaches (events ++ events') = reaches events ++ reaches events' := List.filterMap_append

@[simp] lemma frees_append (events events' : List Event) :
    frees (events ++ events') = frees events + frees events' := List.countP_append

lemma AllRefused.append {events events' : List Event} (h : AllRefused events)
    (h' : AllRefused events') : AllRefused (events ++ events') := by
  induction events with
  | nil => exact h'
  | cons event rest ih =>
    cases event with
    | called operation inside =>
      obtain ⟨⟨result, rest', rfl, hrefused⟩, hrest⟩ := h
      exact ⟨⟨result, rest' ++ events', rfl, hrefused⟩, ih hrest⟩
    | reached _ _ => exact ih h
    | answered _ _ => exact ih h
    | freed => exact ih h
    | settled _ _ => exact ih h

/-- What an engine does that is not open: it only refuses. -/
structure Shut (events : List Event) : Prop where
  allRefused : AllRefused events
  not_reached : ∀ operation inside, .reached operation inside ∉ events
  not_answered : ∀ operation outcome, .answered operation outcome ∉ events
  not_freed : .freed ∉ events

namespace Shut
variable {events events' : List Event}

lemma nil : Shut [] := ⟨trivial, fun _ _ => List.not_mem_nil, fun _ _ => List.not_mem_nil, List.not_mem_nil⟩

lemma append (h : Shut events) (h' : Shut events') : Shut (events ++ events') := by
  refine ⟨h.allRefused.append h'.allRefused, ?_, ?_, ?_⟩
  · intro operation inside hmem
    exact (List.mem_append.mp hmem).elim (h.not_reached _ _) (h'.not_reached _ _)
  · intro operation outcome hmem
    exact (List.mem_append.mp hmem).elim (h.not_answered _ _) (h'.not_answered _ _)
  · intro hmem
    exact (List.mem_append.mp hmem).elim h.not_freed h'.not_freed

lemma refusal {operation : Operation} {inside : Nat} {result : Except Failure Answer}
    (h : Refused operation inside result) :
    Shut [.called operation inside, .settled operation result] :=
  ⟨⟨⟨result, [], rfl, h⟩, trivial⟩, by simp, by simp, by simp⟩

lemma reaches_eq (h : Shut events) : reaches events = [] := by
  rw [reaches, List.filterMap_eq_nil_iff]
  intro event hmem
  cases event with
  | reached operation inside => exact absurd hmem (h.not_reached operation inside)
  | _ => rfl

lemma frees_eq (h : Shut events) : frees events = 0 := by
  rw [frees, List.countP_eq_zero]
  intro event hmem
  cases event with
  | freed => exact absurd hmem h.not_freed
  | _ => exact Bool.false_ne_true

end Shut

lemma Refusals.shut {events : List Event} (h : Refusals events) : Shut events := by
  induction h with
  | nil => exact .nil
  | cons operation inside rest hinside _ ih =>
    exact (Shut.refusal (.reentrant operation inside hinside)).append ih

lemma Refusals.not_called {events : List Event} (h : Refusals events) (operation : Operation) :
    .called operation 0 ∉ events := by
  induction h with
  | nil => exact List.not_mem_nil
  | cons _ inside _ hinside _ ih =>
    simp only [List.mem_cons, Event.called.injEq, not_or, not_and]
    exact ⟨fun _ h => hinside h.symm, fun h => (nomatch h), ih⟩

section Runs
variable {readNumber : ReadNumber} {headerAt : Option Nat} {events rest : List Event}
  {before after : State}

/-- An engine that is not open stays so, and refuses what it is asked. -/
lemma Trail.shut (h : Trail readNumber headerAt before events after) (hbefore : before ≠ .open) :
    after ≠ .open ∧ Shut events := by
  induction h with
  | nil state => exact ⟨hbefore, .nil⟩
  | cons hepisode _ ih =>
    cases hepisode with
    | callback _ events hrefusals =>
      obtain ⟨hafter, hshut⟩ := ih hbefore
      exact ⟨hafter, hrefusals.shut.append hshut⟩
    | refused _ operation _ hclose =>
      obtain ⟨hafter, hshut⟩ := ih hbefore
      refine ⟨hafter, (Shut.refusal ?_).append hshut⟩
      split
      · exact .poisoned operation 0 hclose
      · exact .closed operation 0 hclose
    | closedAgain _ _ =>
      obtain ⟨hafter, hshut⟩ := ih (by decide)
      exact ⟨hafter, (Shut.refusal .close).append hshut⟩
    | _ => exact absurd rfl hbefore

variable (readNumber headerAt rest) in
lemma spentOnceUncertain_append (h : ∀ operation outcome, .answered operation outcome ∈ events →
      ¬Uncertain readNumber headerAt operation outcome)
    (hrest : SpentOnceUncertain readNumber headerAt rest) :
    SpentOnceUncertain readNumber headerAt (events ++ rest) := by
  induction events with
  | nil => exact hrest
  | cons event events ih =>
    have htail := ih fun operation outcome hmem => h operation outcome (List.mem_cons_of_mem _ hmem)
    cases event with
    | answered operation outcome =>
      exact ⟨fun huncertain => absurd huncertain (h operation outcome List.mem_cons_self), htail⟩
    | called _ _ => exact htail
    | reached _ _ => exact htail
    | freed => exact htail
    | settled _ _ => exact htail

lemma Shut.spentOnceUncertain (h : Shut events) : SpentOnceUncertain readNumber headerAt events := by
  have happend := spentOnceUncertain_append readNumber headerAt []
    (fun operation outcome hmem => absurd hmem (h.not_answered operation outcome)) trivial
  rwa [List.append_nil] at happend

/-- What the events of a run come to, by the state that they leave. -/
structure Accounted (readNumber : ReadNumber) (headerAt : Option Nat) (events : List Event)
    (after : State) : Prop where
  spent : SpentOnceUncertain readNumber headerAt events
  freed : frees events = if after = .open then 0 else 1
  open_iff : after = .open ↔ (∀ operation outcome, .answered operation outcome ∈ events →
    ¬Uncertain readNumber headerAt operation outcome) ∧ .called .close 0 ∉ events
  outside : ∀ operation inside, .reached operation inside ∈ events → inside = 0

/-- What leaves an engine open: its answers leave nothing uncertain, and it is not closed. -/
structure Harmless (readNumber : ReadNumber) (headerAt : Option Nat) (events : List Event) : Prop where
  certain : ∀ operation outcome, .answered operation outcome ∈ events →
    ¬Uncertain readNumber headerAt operation outcome
  not_closed : .called .close 0 ∉ events
  not_freed : .freed ∉ events
  outside : ∀ operation inside, .reached operation inside ∈ events → inside = 0

lemma Refusals.harmless (h : Refusals events) : Harmless readNumber headerAt events :=
  ⟨fun operation outcome hmem => absurd hmem (h.shut.not_answered operation outcome),
    h.not_called .close, h.shut.not_freed,
    fun operation inside hmem => absurd hmem (h.shut.not_reached operation inside)⟩

lemma Accounted.prepend (h : Harmless readNumber headerAt events)
    (hrest : Accounted readNumber headerAt rest after) :
    Accounted readNumber headerAt (events ++ rest) after := by
  refine ⟨spentOnceUncertain_append readNumber headerAt _ h.certain hrest.spent, ?_, ?_, ?_⟩
  · have hfrees : frees events = 0 := by
      rw [frees, List.countP_eq_zero]
      intro event hmem
      cases event with
      | freed => exact absurd hmem h.not_freed
      | _ => exact Bool.false_ne_true
    rw [frees_append, hfrees, hrest.freed, Nat.zero_add]
  · rw [hrest.open_iff]
    constructor
    · rintro ⟨hcertain, hclosed⟩
      refine ⟨fun operation outcome hmem => ?_, fun hmem => ?_⟩
      · exact (List.mem_append.mp hmem).elim (h.certain _ _) (hcertain _ _)
      · exact (List.mem_append.mp hmem).elim h.not_closed hclosed
    · rintro ⟨hcertain, hclosed⟩
      exact ⟨fun operation outcome hmem => hcertain _ _ (List.mem_append_right _ hmem),
        fun hmem => hclosed (List.mem_append_right _ hmem)⟩
  · intro operation inside hmem
    exact (List.mem_append.mp hmem).elim (h.outside _ _) (hrest.outside _ _)

/-- The end of the operation that frees the raw engine, and all that follows it. -/
structure Ended (events : List Event) : Prop where
  spent : Spent events
  reaches : reaches events = []
  freed : frees events = 1
  not_answered : ∀ operation outcome, .answered operation outcome ∉ events
  not_reached : ∀ operation inside, .reached operation inside ∉ events

lemma ended (h : Refusals events) (operation : Operation) (result : Except Failure Answer)
    (hrest : Shut rest) : Ended (.freed :: (events ++ .settled operation result :: rest)) := by
  have hsettled : Shut (.settled operation result :: rest) := by
    refine ⟨hrest.allRefused, ?_, ?_, ?_⟩
    · simpa using hrest.not_reached
    · simpa using hrest.not_answered
    · simpa using hrest.not_freed
  have hshut := h.shut.append hsettled
  refine ⟨⟨.inl hshut.reaches_eq, hshut.allRefused⟩, hshut.reaches_eq, ?_, ?_, ?_⟩
  · rw [frees, List.countP_cons_of_pos rfl]
    exact congrArg (· + 1) hshut.frees_eq
  · simpa using hshut.not_answered
  · simpa using hshut.not_reached

lemma Ended.spentOnceUncertain (h : Ended events) : SpentOnceUncertain readNumber headerAt events := by
  have happend := spentOnceUncertain_append readNumber headerAt []
    (fun operation outcome hmem => absurd hmem (h.not_answered operation outcome)) trivial
  rwa [List.append_nil] at happend

/-- The close of a raw engine, and all that follows it. -/
lemma closing_spent (h : Refusals events) (outcome : Except Failure Response) (hrest : Ended rest) :
    Spent (.reached .close 0 :: (events ++ .answered .close outcome :: rest)) := by
  refine ⟨.inr ?_, h.shut.allRefused.append hrest.spent.2⟩
  have htail : reaches (.answered .close outcome :: rest) = [] := hrest.reaches
  have hreaches : reaches (events ++ .answered .close outcome :: rest) = [] := by
    rw [reaches_append, h.shut.reaches_eq, htail]
    rfl
  exact congrArg (Operation.close :: ·) hreaches

lemma closing_spentOnceUncertain (h : Refusals events) (outcome : Except Failure Response)
    (hrest : Ended rest) : SpentOnceUncertain readNumber headerAt
      (.reached .close 0 :: (events ++ .answered .close outcome :: rest)) := by
  have hanswered : SpentOnceUncertain readNumber headerAt (.answered .close outcome :: rest) :=
    ⟨fun _ => hrest.spent, hrest.spentOnceUncertain⟩
  exact spentOnceUncertain_append readNumber headerAt _ h.harmless.certain hanswered

lemma closing_frees (h : Refusals events) (outcome : Except Failure Response) (hrest : Ended rest) :
    frees (.reached .close 0 :: (events ++ .answered .close outcome :: rest)) = 1 := by
  have htail : frees (.answered .close outcome :: rest) = 1 := hrest.freed
  have hfrees : frees (events ++ .answered .close outcome :: rest) = 1 := by
    rw [frees_append, h.shut.frees_eq, htail]
  exact hfrees

lemma closing_outside (h : Refusals events) (outcome : Except Failure Response) (hrest : Ended rest)
    (operation : Operation) (inside : Nat) (hmem : .reached operation inside ∈
      .reached .close 0 :: (events ++ .answered .close outcome :: rest)) : inside = 0 := by
  simp only [List.mem_cons, List.mem_append, Event.reached.injEq, reduceCtorEq, false_or] at hmem
  rcases hmem with ⟨_, h0⟩ | hmem | hmem
  · exact h0
  · exact absurd hmem (h.shut.not_reached operation inside)
  · exact absurd hmem (hrest.not_reached operation inside)

lemma accounted_closed (h : Refusals events) (outcome : Except Failure Response) (hrest : Ended rest)
    (hafter : after ≠ .open) : Accounted readNumber headerAt
      (.called .close 0 :: .reached .close 0 :: (events ++ .answered .close outcome :: rest)) after := by
  refine ⟨closing_spentOnceUncertain h outcome hrest, ?_, ?_, ?_⟩
  · rw [if_neg hafter]
    exact closing_frees h outcome hrest
  · constructor
    · exact fun hopen => absurd hopen hafter
    · exact fun hclosed => absurd List.mem_cons_self hclosed.2
  · intro operation inside hmem
    rcases List.mem_cons.mp hmem with hmem | hmem
    · cases hmem
    · exact closing_outside h outcome hrest operation inside hmem

lemma accounted_uncertain {poisoning : List Event} {operation : Operation}
    {outcome : Except Failure Response} (result : Except Failure Answer)
    (huncertain : Uncertain readNumber headerAt operation outcome) (h : Refusals events)
    (hpoisoning : Poisoning poisoning) (hrest : Shut rest) (hafter : after ≠ .open) :
    Accounted readNumber headerAt (.called operation 0 :: .reached operation 0 :: (events ++
      .answered operation outcome :: (poisoning ++ .settled operation result :: rest))) after := by
  cases hpoisoning with
  | intro closing freed closed hclosing hfreed =>
    have hended := ended hfreed operation result hrest
    simp only [List.cons_append, List.append_assoc]
    generalize Event.freed :: (freed ++ .settled operation result :: rest) = tail at hended
    have hanswered : SpentOnceUncertain readNumber headerAt (.answered operation outcome ::
        .reached .close 0 :: (closing ++ .answered .close closed :: tail)) :=
      ⟨fun _ => closing_spent hclosing closed hended, closing_spentOnceUncertain hclosing closed hended⟩
    refine ⟨spentOnceUncertain_append readNumber headerAt _ h.harmless.certain hanswered, ?_, ?_, ?_⟩
    · have hfrees : frees (.answered operation outcome ::
          .reached .close 0 :: (closing ++ .answered .close closed :: tail)) = 1 :=
        closing_frees hclosing closed hended
      have hall : frees (events ++ .answered operation outcome ::
          .reached .close 0 :: (closing ++ .answered .close closed :: tail)) = 1 := by
        rw [frees_append, h.shut.frees_eq, hfrees]
      rw [if_neg hafter]
      exact hall
    · constructor
      · exact fun hopen => absurd hopen hafter
      · intro hcertain
        exact absurd huncertain (hcertain.1 operation outcome (by simp))
    · intro other inside hmem
      simp only [List.mem_cons, List.mem_append, Event.reached.injEq, reduceCtorEq, false_or] at hmem
      rcases hmem with ⟨_, h0⟩ | hmem | hmem
      · exact h0
      · exact absurd hmem (h.shut.not_reached other inside)
      · refine closing_outside hclosing closed hended other inside ?_
        simpa using hmem

/-- What a run comes to, from an open engine on. -/
theorem Trail.accounted (h : Trail readNumber headerAt before events after) (hbefore : before = .open) :
    Accounted readNumber headerAt events after := by
  induction h with
  | nil state =>
    subst hbefore
    exact ⟨trivial, rfl, ⟨fun _ => ⟨by simp, by simp⟩, fun _ => rfl⟩, by simp⟩
  | cons hepisode htrail ih =>
    cases hepisode with
    | callback _ events hrefusals => exact (ih hbefore).prepend hrefusals.harmless
    | refused _ operation hshut _ => exact absurd hbefore hshut
    | closedAgain _ hshut => exact absurd hbefore hshut
    | unwritten operation error hclose =>
      refine (ih rfl).prepend ⟨by simp, ?_, by simp, by simp⟩
      simpa using hclose.symm
    | certain operation outcome events result hclose hcertain hrefusals =>
      refine (ih rfl).prepend ⟨?_, ?_, ?_, ?_⟩
      · intro other answer hmem
        simp only [List.mem_cons, List.mem_append, reduceCtorEq, false_or, List.not_mem_nil, or_false,
          Event.answered.injEq] at hmem
        rcases hmem with hmem | ⟨rfl, rfl⟩
        · exact absurd hmem (hrefusals.shut.not_answered other answer)
        · exact hcertain
      · simp only [List.mem_cons, List.mem_append, reduceCtorEq, false_or, List.not_mem_nil, or_false,
          Event.called.injEq, and_true, not_or]
        exact ⟨hclose.symm, hrefusals.not_called .close⟩
      · simpa using hrefusals.shut.not_freed
      · intro other inside hmem
        simp only [List.mem_cons, List.mem_append, reduceCtorEq, false_or, List.not_mem_nil, or_false,
          Event.reached.injEq] at hmem
        rcases hmem with ⟨_, h0⟩ | hmem
        · exact h0
        · exact absurd hmem (hrefusals.shut.not_reached other inside)
    | uncertain operation outcome events poisoning error _ huncertain hrefusals hpoisoning =>
      obtain ⟨hafter, hshut⟩ := htrail.shut (by decide)
      simpa only [List.cons_append, List.append_assoc, List.nil_append] using
        accounted_uncertain (.error error) huncertain hrefusals hpoisoning hshut hafter
    | closed outcome events events' result hrefusals hrefusals' =>
      obtain ⟨hafter, hshut⟩ := htrail.shut (by decide)
      simpa only [List.cons_append, List.append_assoc, List.nil_append] using
        accounted_closed hrefusals outcome (ended hrefusals' .close result hshut) hafter

lemma resting_adapt (preflight : Preflight) : Resting (adaptStructuredWasmEngine preflight) := ⟨rfl, rfl⟩

variable (readNumber headerAt) in
/-- What a run of a new engine comes to. -/
lemma runSteps_accounted (preflight : Preflight) (steps : List Step) :
    Resting (runSteps readNumber headerAt steps (adaptStructuredWasmEngine preflight)) ∧
      Accounted readNumber headerAt
        (runSteps readNumber headerAt steps (adaptStructuredWasmEngine preflight)).trace
        (runSteps readNumber headerAt steps (adaptStructuredWasmEngine preflight)).state := by
  obtain ⟨events, state, htrail, hrest, hwent⟩ :=
    runSteps_trail readNumber headerAt steps (resting_adapt preflight)
  have htrace : (runSteps readNumber headerAt steps (adaptStructuredWasmEngine preflight)).trace =
      events := hwent.trace.trans (List.nil_append _)
  rw [htrace, hwent.reaches]
  exact ⟨hrest, htrail.accounted rfl⟩

/-- An open engine that refuses a request, or is answered with what is no more than ordinary, stays open. -/
lemma operate_stays_open {engine : Engine} {operation : Operation} {asked closing free : Raw}
    {outcome closed freed : Except Failure Response} (hrest : Resting engine)
    (hopen : engine.state = .open) (hclose : operation ≠ .close) (hasked : Plays asked outcome)
    (hclosing : Plays closing closed) (hfree : Plays free freed)
    (h : (∃ error, (request operation engine).1 = .error error) ∨
      Ordinary readNumber headerAt operation outcome) :
    (operate readNumber headerAt operation asked closing free engine).state = .open := by
  have hcalled : Resting (engine.logged [.called operation 0]) := ⟨hrest.outside, hrest.released⟩
  have htaken := perform_taken readNumber headerAt hcalled hopen hclose
    hasked hclosing hfree
  rcases hrun : perform readNumber headerAt operation asked closing free
    (engine.logged [.called operation 0]) with ⟨result, after⟩
  rw [hrun] at htaken
  cases htaken with
  | unwritten _ _ _ hwent => exact (operate_went hrest hrun hwent).2.reaches
  | certain _ _ _ _ _ hwent => exact (operate_went hrest hrun hwent).2.reaches
  | uncertain bytes _ _ _ _ hrequest huncertain _ _ _ =>
    rcases h with ⟨error, hrefused⟩ | hordinary
    · have hsame : (request operation (engine.logged [.called operation 0])).1 =
          (request operation engine).1 := rfl
      rw [hsame, hrefused] at hrequest
      cases hrequest
    · exact absurd huncertain hordinary.not_uncertain

/-- However its operations are called and whatever the raw engine answers and does, an engine is spent
once an answer leaves it uncertain what its database holds: nothing reaches the raw engine any more but
one close, and every operation is refused, but for a close, which has nothing left to do. The raw engine
is freed once where the engine is poisoned or closed, and else not. An operation that is refused before
it reaches the raw engine, or is answered with an ordinary failure, leaves the engine open, and none
reaches the raw engine from inside a page-device callback. -/
theorem uncertain_engine_is_spent (readNumber : ReadNumber) (headerAt : Option Nat)
    (preflight : Preflight) (steps : List Step) :
    let after := runSteps readNumber headerAt steps (adaptStructuredWasmEngine preflight)
    SpentOnceUncertain readNumber headerAt after.trace ∧
    frees after.trace = (if after.state = .open then 0 else 1) ∧
    (after.state = .open ↔ (∀ operation outcome, .answered operation outcome ∈ after.trace →
      ¬Uncertain readNumber headerAt operation outcome) ∧ .called .close 0 ∉ after.trace) ∧
    (∀ operation inside, .reached operation inside ∈ after.trace → inside = 0) ∧
    (∀ operation asked closing free, after.state = .open → operation ≠ .close →
      ((∃ error, (request operation after).1 = .error error) ∨
        Ordinary readNumber headerAt operation asked.outcome) →
      ((Step.operation operation asked closing free).run readNumber headerAt after).state = .open) := by
  obtain ⟨hrest, haccounted⟩ := runSteps_accounted readNumber headerAt preflight steps
  refine ⟨haccounted.spent, haccounted.freed, haccounted.open_iff, haccounted.outside, ?_⟩
  intro operation asked closing free hopen hclose h
  exact operate_stays_open hrest hopen hclose asked.play_plays closing.play_plays free.play_plays h

/-- A poisoned engine is closed without a failure. -/
theorem poisoned_engine_closes : ¬∀ (steps : List Step) (before between rest : List Event)
    (operation later : Operation) (outcome : Except Failure Response) (inside : Nat)
    (result : Except Failure Answer),
    (runSteps (fun _ => (⟨0⟩ : F64)) none steps (adaptStructuredWasmEngine Preflight.initial)).trace =
      before ++ .answered operation outcome ::
        (between ++ .called later inside :: .settled later result :: rest) →
    Uncertain (fun _ => (⟨0⟩ : F64)) none operation outcome →
    result = .error enginePoisoned ∨ result = .error engineClosed := by
  intro h
  have hresult := h
    [.operation .commitTransaction (.ends (.error (.other []))) (.ends (.error (.other [])))
        (.ends (.error (.other []))),
      .operation .close (.ends (.error (.other []))) (.ends (.error (.other [])))
        (.ends (.error (.other [])))]
    [.called .commitTransaction 0, .reached .commitTransaction 0]
    [.reached .close 0, .answered .close (.error (.other [])), .freed,
      .settled .commitTransaction (.error (outcomeUnknown (.other [])))]
    [] .commitTransaction .close (.error (.other [])) 0 (.ok .unit) rfl (.threw _ rfl)
  rcases hresult with h | h
  · cases h
  · cases h

end Runs
end WasmEngine
end TinyJoin
