import TinyJoin.Lib.Effect
import Mathlib.Logic.Relation

/-! Loops whose every round ends them with a result, fails, or leaves a smaller state to go on from;
and their runs, as rounds one after another. -/
namespace Loop
universe u
variable {τ ε α : Type} {size : τ → Nat} {step : τ → Except ε (α ⊕ τ)}

/-- Every round that goes on goes on from a smaller state. -/
def Shrinks (size : τ → Nat) (step : τ → Except ε (α ⊕ τ)) : Prop :=
  ∀ s s', step s = .ok (.inr s') → size s' < size s

def run (size : τ → Nat) (step : τ → Except ε (α ⊕ τ)) (shrinks : Shrinks size step) (s : τ) :
    Except ε α :=
  match _hstep : step s with
  | .error e => .error e
  | .ok (.inl a) => .ok a
  | .ok (.inr s') => run size step shrinks s'
termination_by size s
decreasing_by exact shrinks _ _ _hstep

/-- One round, which goes on. -/
def Round (step : τ → Except ε (α ⊕ τ)) (s s' : τ) : Prop := step s = .ok (.inr s')

/-- Some rounds, all of which go on. -/
abbrev Rounds (step : τ → Except ε (α ⊕ τ)) : τ → τ → Prop := Relation.ReflTransGen (Round step)

variable {shrinks : Shrinks size step} {s s' : τ} {a : α}

lemma run_of_stop (h : step s = .ok (.inl a)) : run size step shrinks s = .ok a := by
  rw [run]
  split
  · next e hstep => rw [h] at hstep; cases hstep
  · next b hstep => rw [h] at hstep; cases hstep; rfl
  · next t hstep => rw [h] at hstep; cases hstep

lemma run_of_round (h : step s = .ok (.inr s')) :
    run size step shrinks s = run size step shrinks s' := by
  rw [run]
  split
  · next e hstep => rw [h] at hstep; cases hstep
  · next b hstep => rw [h] at hstep; cases hstep
  · next t hstep => rw [h] at hstep; cases hstep; rfl

lemma run_of_rounds (h : Rounds step s s') :
    run size step shrinks s = run size step shrinks s' := by
  induction h with
  | refl => rfl
  | tail _ hround ih => rw [ih, run_of_round hround]

/-- What holds of the last round, and passes from any round to the one before it, holds of a run. -/
theorem run_induction {P : τ → Prop} (hstop : ∀ s, step s = .ok (.inl a) → P s)
    (hround : ∀ s s', step s = .ok (.inr s') → run size step shrinks s' = .ok a → P s' → P s)
    (hrun : run size step shrinks s = .ok a) : P s := by
  induction hsize : size s using Nat.strongRecOn generalizing s with
  | ind n ih =>
    cases hstep : step s with
    | error e =>
      rw [run] at hrun
      split at hrun
      · cases hrun
      · next b hstep' => rw [hstep] at hstep'; cases hstep'
      · next t hstep' => rw [hstep] at hstep'; cases hstep'
    | ok next =>
      cases next with
      | inl b =>
        rw [run_of_stop hstep] at hrun
        cases hrun
        exact hstop s hstep
      | inr t =>
        rw [run_of_round hstep] at hrun
        exact hround s t hstep hrun (ih _ (hsize ▸ shrinks s t hstep) hrun rfl)

end Loop
