import Mathlib.Data.Fintype.Card
import TinyJoin.Lib.Charging
import TinyJoin.CloneGraph

/-! The two walks that measure a request. `requestBytes` keeps a stack of containers and all it has
seen; `checkedRequestBytes` recurses over a few containers, and leaves the rest to the other. -/
namespace TinyJoin.Clone

variable {ρ : Type}

def requestLimitError : String := "A request byte limit must be a non-negative safe integer"

/-- The charge of a property's name. -/
def nameCharge (name : List UInt16) : Nat := 24 + name.length * 2

/-- Whether a property of a container is an item of an array. -/
def isArraySlot (container : Container ρ) (name : List UInt16) : Bool :=
  match container with
  | .array slots _ _ _ => (List.range slots.items.length).any fun index => indexText index == name
  | .object _ _ _ => false

/-- The charge for the slots of a container, of an array each. -/
def slotCharge : Container ρ → Nat
  | .array slots _ _ _ => slots.items.length * 8
  | .object _ _ _ => 0

section Walks
variable [DecidableEq ρ]

namespace RequestBytes

structure Walk (ρ : Type) where
  seen : List ρ
  pending : List ρ
  bytes : Nat

def Walk.add (limit amount : Nat) (walk : Walk ρ) : Walk ρ :=
  { walk with bytes := Charging.add limit amount walk.bytes }

def visit (limit : Nat) (next : Datum ρ) (walk : Walk ρ) : Walk ρ :=
  if limit < walk.bytes then walk
  else
    match next with
    | .null | .undefined | .bool _ | .number _ => walk.add limit 8
    | .string text => walk.add limit (16 + text.length * 2)
    | .container ref =>
      if ref ∈ walk.seen then walk
      else
        let bytes := Charging.add limit 32 walk.bytes
        ⟨ref :: walk.seen, if bytes ≤ limit then ref :: walk.pending else walk.pending, bytes⟩
    | .other => { walk with bytes := limit + 1 }

/-- The charge of a property's name, which an array's item has not. -/
def Walk.name (limit : Nat) (current : Container ρ) (key : List UInt16) (walk : Walk ρ) : Walk ρ :=
  if isArraySlot current key then walk else walk.add limit (nameCharge key)

/-- The loop over a container's properties. -/
def visitOwn (limit : Nat) (current : Container ρ) : Entries ρ → Walk ρ → Walk ρ
  | [], walk => walk
  | (key, value) :: rest, walk =>
    let named := walk.name limit current key
    if limit < named.bytes then named
    else
      let visited := visit limit value named
      if limit < visited.bytes then visited else visitOwn limit current rest visited

lemma visit_of_stopped {limit : Nat} {walk : Walk ρ} (next : Datum ρ) (h : limit < walk.bytes) :
    visit limit next walk = walk := by
  unfold visit
  exact if_pos h

lemma visit_container {limit : Nat} {walk : Walk ρ} (ref : ρ) (h : walk.bytes ≤ limit) :
    visit limit (.container ref) walk =
      if ref ∈ walk.seen then walk
      else
        ⟨ref :: walk.seen,
          if Charging.add limit 32 walk.bytes ≤ limit then ref :: walk.pending else walk.pending,
          Charging.add limit 32 walk.bytes⟩ := by
  unfold visit
  exact if_neg (not_lt.mpr h)

lemma visit_scalar (limit : Nat) (walk : Walk ρ) {next : Datum ρ} (hnext : next.refs = []) :
    (visit limit next walk).seen = walk.seen ∧ (visit limit next walk).pending = walk.pending := by
  unfold visit
  split
  · exact ⟨rfl, rfl⟩
  cases next with
  | container ref => exact absurd hnext (List.cons_ne_nil _ _)
  | _ => exact ⟨rfl, rfl⟩

section Termination
variable [Fintype ρ]

/-- What is pending or not yet seen. -/
def Walk.left (walk : Walk ρ) : Nat :=
  walk.pending.length + (Finset.univ.filter (· ∉ walk.seen)).card

lemma left_name (limit : Nat) (current : Container ρ) (key : List UInt16) (walk : Walk ρ) :
    (walk.name limit current key).left = walk.left := by
  rw [Walk.name]
  split <;> rfl

lemma left_visit (limit : Nat) (next : Datum ρ) (walk : Walk ρ) :
    (visit limit next walk).left ≤ walk.left := by
  rcases lt_or_ge limit walk.bytes with hstopped | hbytes
  · rw [visit_of_stopped next hstopped]
  rcases next.scalar_or_container with hnext | ⟨ref, rfl⟩
  · obtain ⟨hseen, hpending⟩ := visit_scalar limit walk hnext
    rw [Walk.left, Walk.left, hseen, hpending]
  rw [visit_container ref hbytes]
  split
  · exact le_refl _
  · next hseen =>
    have hless : (Finset.univ.filter (· ∉ ref :: walk.seen)).card <
        (Finset.univ.filter (· ∉ walk.seen)).card := by
      apply Finset.card_lt_card
      rw [Finset.ssubset_iff_of_subset]
      · exact ⟨ref, by simpa using hseen, by simp⟩
      · intro other hother
        rw [Finset.mem_filter] at hother ⊢
        exact ⟨hother.1, fun hmem => hother.2 (List.mem_cons_of_mem _ hmem)⟩
    rw [Walk.left, Walk.left]
    dsimp only
    split
    · rw [List.length_cons]
      omega
    · omega

lemma left_visitOwn (limit : Nat) (current : Container ρ) (entries : Entries ρ) (walk : Walk ρ) :
    (visitOwn limit current entries walk).left ≤ walk.left := by
  induction entries generalizing walk with
  | nil => exact le_refl _
  | cons entry rest ih =>
    have hname := (left_name limit current entry.1 walk).le
    have hvisit := (left_visit limit entry.2 (walk.name limit current entry.1)).trans hname
    rw [visitOwn]
    dsimp only
    split
    · exact hname
    split
    · exact hvisit
    · exact (ih _).trans hvisit

end Termination

/-- The loop over the containers that are pending. -/
def drain [Fintype ρ] (graph : Graph ρ) (limit : Nat) (walk : Walk ρ) : Walk ρ :=
  match hpending : walk.pending with
  | [] => walk
  | current :: pending =>
    if limit < walk.bytes then walk
    else
      let charged := { walk with pending := pending }.add limit (slotCharge (graph current))
      if limit < charged.bytes then charged
      else drain graph limit (visitOwn limit (graph current) (graph current).own charged)
termination_by walk.left
decreasing_by
  refine (left_visitOwn _ _ _ _).trans_lt ?_
  rw [Walk.left, Walk.left, hpending]
  exact Nat.add_lt_add_right (Nat.lt_succ_self _) _

end RequestBytes

def requestBytes [Fintype ρ] (graph : Graph ρ) (limit : Nat) (value : Datum ρ) :
    Except String Nat :=
  if maxSafeInteger ≤ limit then .error requestLimitError
  else .ok (RequestBytes.drain graph limit (RequestBytes.visit limit value ⟨[], [], 0⟩)).bytes

namespace CheckedBytes

structure Walk (ρ : Type) where
  seen : List ρ
  bytes : Nat
  unchecked : Bool

def Walk.add (limit amount : Nat) (walk : Walk ρ) : Walk ρ :=
  { walk with bytes := Charging.add limit amount walk.bytes }

def Walk.stopped (limit : Nat) (walk : Walk ρ) : Bool :=
  decide (limit < walk.bytes) || walk.unchecked

def maxSeen : Nat := 64

/-- The loop over an array's items. -/
def visitItems (limit : Nat) (visit : Datum ρ → Walk ρ → Walk ρ) :
    List (Option (Datum ρ)) → Walk ρ → Walk ρ
  | [], walk => walk
  | slot :: rest, walk =>
    if walk.stopped limit then walk
    else visitItems limit visit rest (visit (slot.getD .undefined) walk)

/-- The loop over properties that have a name. -/
def visitNamed (limit : Nat) (visit : Datum ρ → Walk ρ → Walk ρ) : Entries ρ → Walk ρ → Walk ρ
  | [], walk => walk
  | (key, value) :: rest, walk =>
    if walk.stopped limit then walk
    else visitNamed limit visit rest (visit value (walk.add limit (nameCharge key)))

/-- What a container holds, unless it is an array that its keys do not show to be dense. -/
def visitOwn (limit : Nat) (visit : Datum ρ → Walk ρ → Walk ρ) (container : Container ρ)
    (walk : Walk ρ) : Walk ρ :=
  match container with
  | .array slots _ _ _ =>
    let length := slots.items.length
    let charged := walk.add limit (length * 8)
    if 0 < length ∧ container.keys[length - 1]? ≠ some (indexText (length - 1)) then
      { charged with unchecked := true }
    else
      visitNamed limit visit (container.own.drop length)
        (visitItems limit visit slots.items charged)
  | .object _ _ _ => visitNamed limit visit container.own walk

/-- The visit of a value within containers of which no more than `room` may be within one another,
as each is seen before those it holds. -/
def visit (graph : Graph ρ) (limit : Nat) : Nat → Datum ρ → Walk ρ → Walk ρ
  | 0, _, walk => { walk with unchecked := true }
  | room + 1, next, walk =>
    if walk.stopped limit then walk
    else
      match next with
      | .null | .undefined | .bool _ | .number _ => walk.add limit 8
      | .string text => walk.add limit (16 + text.length * 2)
      | .container ref =>
        if walk.seen.length = maxSeen then { walk with unchecked := true }
        else if ref ∈ walk.seen then walk
        else
          visitOwn limit (visit graph limit room) (graph ref)
            ({ walk with seen := ref :: walk.seen }.add limit 32)
      | .other => { walk with unchecked := true }

end CheckedBytes

def checkedRequestBytes [Fintype ρ] (graph : Graph ρ) (limit : Nat) (value : Datum ρ) :
    Except String Nat :=
  if maxSafeInteger ≤ limit then .error requestLimitError
  else
    let walk := CheckedBytes.visit graph limit (CheckedBytes.maxSeen + 1) value ⟨[], 0, false⟩
    if walk.unchecked then requestBytes graph limit value else .ok walk.bytes

end Walks
end TinyJoin.Clone
