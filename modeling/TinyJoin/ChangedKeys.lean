import TinyJoin.KeyIdentity
import TinyJoin.Lib.Effect
import TinyJoin.Lib.InsertionMap

/-! Folding the changed keys of several outcomes into one set, over objects and maps whose properties
are tables' names. -/
namespace TinyJoin
namespace Changes
open JsonText (Units)

/-! ## Objects of changed keys -/

/-- The names of the properties that every object inherits. -/
def objectNames : List String :=
  ["constructor", "__defineGetter__", "__defineSetter__", "hasOwnProperty", "__lookupGetter__",
    "__lookupSetter__", "isPrototypeOf", "propertyIsEnumerable", "toString", "valueOf", "__proto__",
    "toLocaleString"]

/-- The names of the further properties that every array inherits. -/
def arrayNames : List String :=
  ["at", "concat", "copyWithin", "fill", "find", "findIndex", "findLast", "findLastIndex",
    "lastIndexOf", "pop", "push", "reverse", "shift", "unshift", "slice", "sort", "splice",
    "includes", "indexOf", "join", "keys", "entries", "values", "forEach", "filter", "flat",
    "flatMap", "map", "every", "some", "reduce", "reduceRight", "toReversed", "toSorted",
    "toSpliced", "with"]

/-- What a property reads as: keys, something that `!` takes, or something else, which cannot be
iterated. -/
inductive Property (ν : Type) where
  | undefined
  | rows (rows : List (KeyRow ν))
  | other

/-- An object of changed keys: its own properties, and the array that an assignment to `__proto__`
made its prototype, if one did. -/
structure ChangedKeys (ν : Type) where
  own : InsertionMap String (List (KeyRow ν))
  prototype : Option (List (KeyRow ν))

namespace ChangedKeys
variable {ν : Type}

def empty : ChangedKeys ν := ⟨.empty, none⟩

/-- `keys[table]` -/
def get (keys : ChangedKeys ν) (table : String) : Property ν :=
  match keys.own.get table, keys.prototype with
  | some rows, _ => .rows rows
  | none, none => if table ∈ objectNames then .other else .undefined
  | none, some array =>
    if table = "__proto__" then .rows array
    else if table = "length" then if array = [] then .undefined else .other
    else if table ∈ arrayNames ∨ table ∈ objectNames ∨
        (List.range array.length).any (fun i => toString i == table) then .other
    else .undefined

/-- `keys[table] = rows`, which sets the prototype where the object has no property `__proto__` of
its own. -/
def set (keys : ChangedKeys ν) (table : String) (rows : List (KeyRow ν)) : ChangedKeys ν :=
  if table = "__proto__" ∧ ¬keys.own.has table then { keys with prototype := some rows }
  else { keys with own := keys.own.set table rows }

/-- What another thread receives of the object. -/
def structuredClone (keys : ChangedKeys ν) : ChangedKeys ν := { keys with prototype := none }

end ChangedKeys

/-- The outcome of a commit: its revision, the tables it changed, and the primary keys changed in
those of them whose keys are all known. -/
structure ApplyOutcome (ν : Type) where
  revision : Nat
  tables : List String
  keys : ChangedKeys ν

/-! ## The merge -/

def maxChangedKeysPerTable : Nat := 1000

structure PendingEntry (ν : Type) where
  rows : List (KeyRow ν)
  seen : List Units
deriving DecidableEq

/-- A running changed-key set. A table with no entry behind its name can no longer be reported in
full. -/
abbrev PendingChangedKeys (ν : Type) : Type := InsertionMap String (Option (PendingEntry ν))

inductive TypeError where
  | notIterable

section Merge
variable {ν : Type} (numbers : NumberText ν)

/-- The loop over a table's keys, up to the bound. -/
def addKeys : PendingEntry ν → List (KeyRow ν) → Option (PendingEntry ν)
  | entry, [] => some entry
  | entry, key :: incoming =>
    if maxChangedKeysPerTable ≤ entry.rows.length then none
    else if stringify numbers key ∈ entry.seen then addKeys entry incoming
    else addKeys ⟨entry.rows ++ [key], entry.seen ++ [stringify numbers key]⟩ incoming

/-- A table's entry, which is a new one where it has none. -/
def entryFor (table : String) : Effect (PendingChangedKeys ν) TypeError (Option (PendingEntry ν)) :=
  fun pending =>
    match pending.get table with
    | some entry => (.ok entry, pending)
    | none => (.ok (some ⟨[], []⟩), pending.set table (some ⟨[], []⟩))

def mergeTable (keys : ChangedKeys ν) (table : String) :
    Effect (PendingChangedKeys ν) TypeError Unit :=
  match keys.get table with
  | .undefined => Effect.modify (fun pending => pending.set table none)
  | .rows incoming => do
    match ← entryFor table with
    | none => pure ()
    | some entry => Effect.modify (fun pending => pending.set table (addKeys numbers entry incoming))
  | .other => do
    match ← entryFor table with
    | none => pure ()
    | some _ => Effect.fail .notIterable

def mergeChangedKeys (tables : List String) (keys : ChangedKeys ν) :
    Effect (PendingChangedKeys ν) TypeError Unit :=
  Effect.forEach (mergeTable numbers keys) tables

end Merge

/-- Drops the tables that could not report a complete key set, leaving only usable entries. -/
def finishChangedKeys {ν : Type} (pending : PendingChangedKeys ν) : ChangedKeys ν :=
  pending.entries.foldl (fun keys entry =>
    match entry.2 with
    | some usable => keys.set entry.1 usable.rows
    | none => keys) .empty

end Changes
end TinyJoin
