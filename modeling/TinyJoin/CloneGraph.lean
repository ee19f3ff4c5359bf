import Mathlib.Logic.Function.Basic
import TinyJoin.Protocol

/-! What a structured clone holds: containers that are shared, hold themselves or have holes, where
`JsValue` is one message's tree. A container is known by its identity, of a type `ρ`. -/
namespace TinyJoin.Clone

/-- A scalar, or the container of an identity. -/
inductive Datum (ρ : Type) where
  | undefined
  | null
  | bool (b : Bool)
  | number (f : F64)
  | string (text : List UInt16)
  | container (ref : ρ)
  | other -- of no type JSON has, such as a bigint

/-- The items of an array, `none` where it has a hole. -/
structure Slots (ρ : Type) where
  items : List (Option (Datum ρ))
  length_lt : items.length < 2 ^ 32

abbrev Entries (ρ : Type) := List (List UInt16 × Datum ρ)

/-- The name of an array's item. -/
def indexText (index : Nat) : List UInt16 := Utf16.ofString (toString index)

def IsIndex (name : List UInt16) : Prop := ∃ index < 2 ^ 32 - 1, name = indexText index

/-- A container's own enumerable properties, in the order `Object.keys` lists them. -/
inductive Container (ρ : Type) where
  | array (slots : Slots ρ) (named : Entries ρ) (distinct : (named.map Prod.fst).Nodup)
      (not_index : ∀ name ∈ named.map Prod.fst, ¬ IsIndex name)
  | object (plain : Bool) (entries : Entries ρ) (distinct : (entries.map Prod.fst).Nodup)

abbrev Graph (ρ : Type) := ρ → Container ρ

lemma nodup_no_names {ρ : Type} : (([] : Entries ρ).map Prod.fst).Nodup := List.nodup_nil

/-- An array without named properties has none that is named as an index. -/
lemma none_is_index {ρ : Type} : ∀ name ∈ ([] : Entries ρ).map Prod.fst, ¬ IsIndex name :=
  fun _ h => absurd h List.not_mem_nil

variable {ρ σ τ : Type}

namespace Datum

/-- A value with its container renamed. -/
def map (f : ρ → σ) : Datum ρ → Datum σ
  | undefined => undefined
  | null => null
  | bool b => bool b
  | number x => number x
  | string text => string text
  | container ref => container (f ref)
  | other => other

/-- The containers a value is, at most one. -/
def refs : Datum ρ → List ρ
  | container ref => [ref]
  | _ => []

/-- A value as the checks of scalars see it, for which all containers are alike. -/
def scalar : Datum ρ → JsValue
  | undefined => .undefined
  | null => .null
  | bool b => .bool b
  | number x => .number x
  | string text => .string text
  | container _ => .object 0 false []
  | other => .other

lemma scalar_or_container (value : Datum ρ) : value.refs = [] ∨ ∃ ref, value = container ref := by
  cases value with
  | container ref => exact .inr ⟨ref, rfl⟩
  | _ => exact .inl rfl

@[simp] lemma scalar_map (f : ρ → σ) (value : Datum ρ) : (value.map f).scalar = value.scalar := by
  cases value <;> rfl

@[simp] lemma refs_map (f : ρ → σ) (value : Datum ρ) : (value.map f).refs = value.refs.map f := by
  cases value <;> rfl

end Datum

namespace Slots

def map (f : ρ → σ) (slots : Slots ρ) : Slots σ :=
  ⟨slots.items.map (Option.map (Datum.map f)), by
    rw [List.length_map]
    exact slots.length_lt⟩

/-- `slots[index]`, where a hole reads as `undefined`. -/
def get (slots : Slots ρ) (index : Nat) : Datum ρ := (slots.items[index]?.join).getD .undefined

/-- `slots.slice(start)`, which keeps holes. -/
def slice (slots : Slots ρ) (start : Nat) : Slots ρ :=
  ⟨slots.items.drop start, by
    rw [List.length_drop]
    exact (Nat.sub_le _ _).trans_lt slots.length_lt⟩

/-- The items that are there, each with its index. -/
def present (slots : Slots ρ) : Entries ρ :=
  slots.items.zipIdx.filterMap fun slot => slot.1.map (Prod.mk (indexText slot.2))

end Slots

/-- Properties with their containers renamed. -/
def renamed (f : ρ → σ) (entries : Entries ρ) : Entries σ :=
  entries.map (Prod.map id (Datum.map f))

lemma names_renamed (f : ρ → σ) (entries : Entries ρ) :
    (renamed f entries).map Prod.fst = entries.map Prod.fst := by
  rw [renamed, List.map_map]
  exact List.map_congr_left fun _ _ => rfl

namespace Container

def map (f : ρ → σ) : Container ρ → Container σ
  | array slots named distinct not_index =>
    array (slots.map f) (renamed f named) (by rwa [names_renamed])
      (by rwa [names_renamed])
  | object plain entries distinct =>
    object plain (renamed f entries) (by rwa [names_renamed])

/-- `Object.entries`. -/
def own : Container ρ → Entries ρ
  | array slots named _ _ => slots.present ++ named
  | object _ entries _ => entries

/-- `Object.keys`. -/
def keys (container : Container ρ) : List (List UInt16) := container.own.map Prod.fst

/-- `container[name]`, where no property is inherited. -/
def get (container : Container ρ) (name : String) : Datum ρ :=
  (container.own.lookup (Utf16.ofString name)).getD .undefined

end Container

/-- Whether one graph is part of another, where its containers have the names `f` gives them. -/
def Embeds (f : ρ → σ) (graph : Graph ρ) (extended : Graph σ) : Prop :=
  ∀ ref, extended (f ref) = (graph ref).map f

end TinyJoin.Clone
