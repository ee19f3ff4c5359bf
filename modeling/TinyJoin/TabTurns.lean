import TinyJoin.Tabs
import TinyJoin.Tasks

/-! A step of the tabs as a turn of one: what comes into its hand, and the acts of the task that deals
with it. -/
namespace TinyJoin
namespace Coordination

open Coordinator (PageMessage)

lemma Election.leave_ne_idle (election : Election) : election.leave ≠ .idle := by
  cases election <;> exact Election.noConfusion

namespace Coordinator
variable {E ν : Type} {worker : Coordinator E ν}

/-! ## The Worker between two tasks -/

/-- A Worker whose client's lock is not granted is no owner. -/
def Vacant (worker : Coordinator E ν) : Prop := worker.election = .idle → worker.owner = none

lemma Vacant.modifyOwner (vacant : worker.Vacant) (f : Broker E ν → Broker E ν) :
    (worker.modifyOwner f).Vacant := by
  intro idle
  exact congrArg (Option.map f) (vacant idle)

lemma Move.vacant {a b : Hand ν × Coordinator E ν} (move : Move a b) (vacant : a.2.Vacant) :
    b.2.Vacant := by
  cases move with
  | @leave _ worker => exact fun idle => absurd idle worker.election.leave_ne_idle
  | @tend _ worker owner shrinks =>
    intro idle
    cases owner with
    | none => rfl
    | some broker =>
      obtain ⟨earlier, hearlier, -⟩ := shrinks broker.work rfl
      rw [work, vacant idle] at hearlier
      cases hearlier
  | push bytes => exact vacant.modifyOwner _
  | take next busy => exact (vacant.modifyOwner _).modifyOwner _
  | handle owns runs outcome => exact vacant.modifyOwner _
  | _ => exact vacant

lemma Act.vacant {a b : Hand ν × Coordinator E ν} (act : Act a b) (vacant : a.2.Vacant) :
    b.2.Vacant := by
  cases act with
  | move move => exact move.vacant vacant
  | await idle => exact fun h => Election.noConfusion h
  | decline epoch waits => exact fun h => Election.noConfusion h
  | elect epoch waits => exact fun h => Election.noConfusion h
  | «open» queried => exact fun h => Election.noConfusion h
  | own host opening => exact fun h => Election.noConfusion (opening.symm.trans h)
  | lead opening => exact fun h => Election.noConfusion h
  | @finish worker starting message last opening going ends =>
    exact fun h => absurd h worker.election.leave_ne_idle
  | release leaves => exact fun h => Election.noConfusion h
  | _ => exact vacant

/-- A Worker between two tasks. -/
structure Steady (worker : Coordinator E ν) : Prop where
  rests : worker.Rests
  vacant : worker.Vacant

lemma steady_start (client compatibility name : String) :
    (start client compatibility name : Coordinator E ν).Steady where
  rests _ h := by cases h
  vacant _ := rfl

lemma Acts.steady {a b : Hand ν × Coordinator E ν} (acts : Acts a b) (steady : a.2.Steady) :
    b.2.Steady := by
  refine ⟨acts.rests steady.rests, ?_⟩
  induction acts with
  | refl => exact steady.vacant
  | tail _ act ih => exact act.vacant ih

end Coordinator

namespace System
variable {E ν : Type}

/-! ## Turns -/

/-- What comes into a tab's hand, and what this leaves of the rest. -/
inductive Enters (name : String) (system : System E ν) : String → Hand ν → System E ν → Prop
  | start {tab compatibility init} (fresh : system.tabs tab = none) (positive : 0 < init) :
    Enters name system tab (.posted ⟨init, .init (.opfs name)⟩)
      ((system.addTab tab (Coordinator.start tab compatibility name)).notePosted tab
        (.request ⟨init, .init (.opfs name)⟩))
  | post {tab message} (fresh : system.freshId tab message = true) :
    Enters name system tab message.given (system.notePosted tab message)
  | arrive {tab client worker broker posting message} (lives : system.live tab = some worker)
    (owns : worker.owner = some broker) (posts : system.tabs client = some posting)
    (next : (routedTo broker.epoch posting)[system.routedRead broker.epoch client]? = some message) :
    Enters name system tab (.arrived message)
      { system with routedRead := advance system.routedRead broker.epoch client }
  | receive {tab owner posting answer} (read : String → String → Nat)
    (posts : system.tabs owner = some posting) (sent : answer ∈ repliesTo tab posting) :
    Enters name system tab (.received answer) { system with repliesRead := read }
  | grant {tab epoch} (fresh : epoch ∉ system.epochs.map Prod.fst) :
    Enters name system tab (.granted epoch) (system.grant tab epoch)
  | wake {tab} (groupRead : String → String → Nat) :
    Enters name system tab .empty { system with groupRead }

/-- One tab's turn. The lock's holder, and what owners have served beside it, are left open. -/
inductive Turn (name : String) (system : System E ν) : System E ν → Prop
  | task {tab hand ready worker after holder executed} (enters : Enters name system tab hand ready)
    (lives : ready.tabs tab = some worker) (acts : Coordinator.Acts (hand, worker) (.empty, after)) :
    Turn name system { ready.setTab tab after with holder, executed }

section
variable {numbers : Changes.NumberText ν} {engine : WorkerEngine E ν} {sizes : Sizes}
  {name tab : String} {hand : Hand ν} {system ready after : System E ν} {worker : Coordinator E ν}

def Steady (system : System E ν) : Prop := ∀ tab worker, system.tabs tab = some worker → worker.Steady

lemma tabs_of_live (lives : system.live tab = some worker) : system.tabs tab = some worker :=
  (Option.filter_eq_some_iff.mp lives).1

lemma Steady.setTab (steady : system.Steady) (h : worker.Steady) : (system.setTab tab worker).Steady := by
  intro other found hfound
  change (if other = tab then some worker else system.tabs other) = some found at hfound
  split at hfound
  · rw [← Option.some.inj hfound]
    exact h
  · exact steady other found hfound

lemma Enters.steady (enters : Enters name system tab hand ready) (steady : system.Steady) :
    ready.Steady := by
  cases enters with
  | start fresh positive =>
    exact @Steady.setTab E ν tab system _ steady (Coordinator.steady_start _ _ _)
  | _ => exact steady

/-- A tab's task, of what has come into its hand. -/
lemma turn_task {f : Coordinator E ν → Coordinator E ν} (steady : system.Steady)
    (enters : Enters name system tab hand ready) (happens : ready.task tab f = some after)
    (acts : ∀ worker, ready.live tab = some worker → worker.Steady →
      Coordinator.Acts (hand, worker) (.empty, f worker)) :
    Turn name system after ∧ after.Steady := by
  obtain ⟨worker, hlives, rfl⟩ : ∃ worker, ready.live tab = some worker ∧
      { ready.setTab tab (f worker) with
        executed := (ready.setTab tab (f worker)).executed ++ newlyServed worker (f worker) } =
        after := by
    unfold task at happens
    obtain ⟨worker, hlives, hafter⟩ := Option.bind_eq_some_iff.mp happens
    exact ⟨worker, hlives, Option.some.inj hafter⟩
  have hready := enters.steady steady
  have hsteady := hready tab worker (tabs_of_live hlives)
  have hacts := acts worker hlives hsteady
  exact ⟨.task enters (tabs_of_live hlives) hacts, hready.setTab (hacts.steady hsteady)⟩

/-- Every step is a turn. -/
theorem step_turn {action : Action E} (steady : system.Steady)
    (happens : system.step numbers engine sizes name action = some after) :
    Turn name system after ∧ after.Steady := by
  cases action with
  | start tab compatibility init =>
    unfold step at happens
    dsimp only at happens
    split at happens
    · cases happens
    · next hnew =>
      rw [not_or] at hnew
      refine turn_task steady (.start (Option.not_isSome_iff_eq_none.mp hnew.1)
        (Nat.pos_of_ne_zero hnew.2)) happens fun worker _ h => ?_
      exact @Coordinator.acts_receive E ν numbers engine worker sizes (.request _) h.rests
  | post tab message =>
    unfold step at happens
    dsimp only at happens
    split at happens
    · next hfresh =>
      exact turn_task steady (.post hfresh) happens fun worker _ h =>
        Coordinator.acts_receive h.rests
    · cases happens
  | grantClient tab =>
    obtain ⟨worker, hlives, happens⟩ := Option.bind_eq_some_iff.mp happens
    split at happens
    · next hidle =>
      refine turn_task steady (.wake system.groupRead) happens fun same hsame h => ?_
      obtain rfl := Option.some.inj (hlives.symm.trans hsame)
      exact Coordinator.acts_clientLockGranted hidle (h.vacant hidle) h.rests
    · cases happens
  | grantDatabase tab epoch =>
    obtain ⟨worker, hlives, happens⟩ := Option.bind_eq_some_iff.mp happens
    split at happens
    · next hgrants =>
      refine turn_task steady (.grant hgrants.2.2) happens fun same hsame h => ?_
      obtain rfl := Option.some.inj (hlives.symm.trans hsame)
      exact Coordinator.acts_databaseLockGranted epoch hgrants.2.1
    · cases happens
  | look tab index =>
    unfold step task at happens
    obtain ⟨worker, hlives, hafter⟩ := Option.bind_eq_some_iff.mp happens
    have hsteady := steady tab worker (tabs_of_live hlives)
    obtain rfl := Option.some.inj hafter
    exact ⟨.task (.wake system.groupRead) (tabs_of_live hlives) (Coordinator.Act.move .aside).acts,
      steady.setTab ⟨hsteady.rests, hsteady.vacant⟩⟩
  | answer tab =>
    exact turn_task steady (.wake system.groupRead) happens fun worker _ h =>
      Coordinator.acts_queryAnswered h.rests
  | opened tab state =>
    exact turn_task steady (.wake system.groupRead) happens fun worker _ h =>
      Coordinator.acts_opened state h.rests
  | openFails tab thrown =>
    exact turn_task steady (.wake system.groupRead) happens fun worker _ h =>
      Coordinator.acts_openFailed thrown
  | deliverGroup sender receiver =>
    obtain ⟨posting, -, happens⟩ := Option.bind_eq_some_iff.mp happens
    obtain ⟨message, -, happens⟩ := Option.bind_eq_some_iff.mp happens
    split at happens
    · cases happens
    · exact turn_task steady (.wake _) happens fun worker _ h =>
        Coordinator.acts_onGroup message.cloned
  | deliverRequest client owner =>
    obtain ⟨worker, hlives, happens⟩ := Option.bind_eq_some_iff.mp happens
    obtain ⟨broker, howns, happens⟩ := Option.bind_eq_some_iff.mp happens
    obtain ⟨posting, hposts, happens⟩ := Option.bind_eq_some_iff.mp happens
    obtain ⟨message, hnext, happens⟩ := Option.bind_eq_some_iff.mp happens
    exact turn_task steady (.arrive hlives howns hposts hnext) happens fun worker _ h =>
      Coordinator.acts_onOwnerInbox h.rests
  | deliverReply owner client =>
    obtain ⟨posting, hposts, happens⟩ := Option.bind_eq_some_iff.mp happens
    obtain ⟨answer, hnext, happens⟩ := Option.bind_eq_some_iff.mp happens
    exact turn_task steady (.receive _ hposts (List.mem_of_getElem? hnext)) happens fun worker _ h =>
      Coordinator.acts_onInbox
  | timer tab =>
    exact turn_task steady (.wake system.groupRead) happens fun worker _ h => Coordinator.acts_onTimer
  | clientGone owner client =>
    obtain ⟨worker, -, happens⟩ := Option.bind_eq_some_iff.mp happens
    obtain ⟨broker, -, happens⟩ := Option.bind_eq_some_iff.mp happens
    obtain ⟨connection, -, happens⟩ := Option.bind_eq_some_iff.mp happens
    split at happens
    · exact turn_task steady (.wake system.groupRead) happens fun worker _ h =>
        Coordinator.acts_clientGone client h.rests
    · cases happens
  | release tab =>
    obtain ⟨worker, hlives, happens⟩ := Option.bind_eq_some_iff.mp happens
    split at happens
    · next hleaving =>
      obtain rfl := Option.some.inj happens
      have hsteady := steady tab worker hlives
      refine ⟨.task (.wake system.groupRead) hlives (Coordinator.Act.release hleaving).acts,
        @Steady.setTab E ν tab system _ steady ⟨hsteady.rests, fun idle => ?_⟩⟩
      cases idle
    · cases happens
  | crash tab =>
    exact turn_task steady (.wake system.groupRead) happens fun worker _ h => (Coordinator.Moves.acts
      (Coordinator.Move.leave.moves.trans Coordinator.Move.aside.moves))

/-- What every turn keeps of the states that runs reach. -/
theorem Reaches.induction {P : System E ν → Prop} (start : P System.start)
    (turn : ∀ system after, P system → Turn name system after → P after)
    (reached : Reaches numbers engine sizes name system) : P system := by
  suffices h : P system ∧ system.Steady from h.1
  induction reached with
  | start => exact ⟨start, fun tab worker h => by cases h⟩
  | step _ _ happens ih =>
    obtain ⟨hturn, hsteady⟩ := step_turn ih.2 happens
    exact ⟨turn _ _ ih.1 hturn, hsteady⟩

end
end System
end Coordination
end TinyJoin
