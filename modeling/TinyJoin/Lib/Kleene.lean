import Mathlib.Logic.Basic

/-! Three-valued truth, and conjunction and disjunction in order over terms that may fail: the first term
that decides ends them, and a term that fails before it does fails the whole. -/

inductive Truth where
  | true | false | unknown
deriving DecidableEq, Repr

namespace Truth
universe u
variable {ε : Type u}

def ofBool (b : Bool) : Truth := if b then .true else .false

def not : Truth → Truth
  | .true => .false
  | .false => .true
  | .unknown => .unknown

/-- The conjunction of terms, after others none of which was false, and some unknown if `unknown` says
so. -/
def conjunction (unknown : Bool) : List (Except ε Truth) → Except ε Truth
  | [] => .ok (if unknown then .unknown else .true)
  | .error error :: _ => .error error
  | .ok .false :: _ => .ok .false
  | .ok .unknown :: terms => conjunction Bool.true terms
  | .ok .true :: terms => conjunction unknown terms

/-- The disjunction of terms, after others none of which was true, and some unknown if `unknown` says
so. -/
def disjunction (unknown : Bool) : List (Except ε Truth) → Except ε Truth
  | [] => .ok (if unknown then .unknown else .false)
  | .error error :: _ => .error error
  | .ok .true :: _ => .ok .true
  | .ok .unknown :: terms => disjunction Bool.true terms
  | .ok .false :: terms => disjunction unknown terms

lemma ofBool_eq_true {b : Bool} : ofBool b = .true ↔ b = Bool.true := by
  cases b <;> decide

/-- A conjunction is true where every term is. -/
lemma conjunction_eq_true {unknown : Bool} {terms : List (Except ε Truth)} :
    conjunction unknown terms = .ok .true ↔
      unknown = Bool.false ∧ ∀ term ∈ terms, term = .ok .true := by
  induction terms generalizing unknown with
  | nil => cases unknown <;> simp [conjunction]
  | cons term terms ih =>
    rw [List.forall_mem_cons]
    cases term with
    | error error => simp [conjunction]
    | ok truth =>
      cases truth with
      | true => simp [conjunction, ih]
      | false => simp [conjunction]
      | unknown => simp [conjunction, ih]

/-- An unknown term before others makes unknown what would have been true. -/
lemma conjunction_unknown (terms : List (Except ε Truth)) :
    conjunction Bool.true terms =
      (conjunction Bool.false terms).map (fun truth => if truth = .true then .unknown else truth) := by
  induction terms with
  | nil => rfl
  | cons term terms ih =>
    cases term with
    | error error => rfl
    | ok truth =>
      cases truth with
      | true => exact ih
      | false => rfl
      | unknown =>
        simp only [conjunction, ih]
        cases conjunction Bool.false terms with
        | error error => rfl
        | ok truth => cases truth <;> rfl

/-- Terms taken together stand among others as they do one by one. -/
lemma conjunction_grouped (unknown : Bool) (group terms : List (Except ε Truth)) :
    conjunction unknown (conjunction Bool.false group :: terms) = conjunction unknown (group ++ terms) := by
  induction group generalizing unknown with
  | nil => rfl
  | cons term group ih =>
    cases term with
    | error error => rfl
    | ok truth =>
      cases truth with
      | true => exact ih unknown
      | false => rfl
      | unknown =>
        have hgroup : conjunction Bool.false (.ok .unknown :: group) = conjunction Bool.true group := rfl
        have hrest : conjunction unknown ((.ok .unknown :: group) ++ terms) =
            conjunction Bool.true (conjunction Bool.false group :: terms) := (ih Bool.true).symm
        rw [hgroup, hrest, conjunction_unknown]
        cases conjunction Bool.false group with
        | error error => rfl
        | ok truth => cases truth <;> rfl

/-- A single term is its own conjunction. -/
lemma conjunction_singleton (term : Except ε Truth) : conjunction Bool.false [term] = term := by
  cases term with
  | error error => rfl
  | ok truth => cases truth <;> rfl

/-- A conjunction goes on behind some terms from what they come to. -/
lemma conjunction_append (unknown : Bool) (terms more : List (Except ε Truth)) :
    conjunction unknown (terms ++ more) = (conjunction unknown terms).bind (fun truth =>
      if truth = .false then .ok .false else conjunction (truth == .unknown) more) := by
  induction terms generalizing unknown with
  | nil => cases unknown <;> rfl
  | cons term terms ih =>
    cases term with
    | error error => rfl
    | ok truth =>
      cases truth with
      | true => exact ih unknown
      | false => rfl
      | unknown => exact ih Bool.true

/-- Terms are replaced, before others or behind them, by terms of the same conjunction. -/
lemma conjunction_append_congr {terms terms' more more' : List (Except ε Truth)}
    (hterms : ∀ unknown, conjunction unknown terms = conjunction unknown terms')
    (hmore : ∀ unknown, conjunction unknown more = conjunction unknown more') (unknown : Bool) :
    conjunction unknown (terms ++ more) = conjunction unknown (terms' ++ more') := by
  rw [conjunction_append, conjunction_append, hterms]
  simp only [hmore]

end Truth
