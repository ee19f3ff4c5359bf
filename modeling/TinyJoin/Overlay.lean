import TinyJoin.Lib.LazyOrder
import TinyJoin.Lib.Probing
import TinyJoin.Storage

/-! The rows a transaction stages for one table: in arrival order, found by a hash index, and put in
key order when a walk needs it; and a statement's changes to a table, by key. -/
namespace TinyJoin

open Bytes

/-! ### The hash index -/

namespace KeyIndex

def keyHasherMultiplier : UInt64 := 0x517cc1b727220a95

def writeU64 (hash value : UInt64) : UInt64 :=
  ((hash <<< 5 ||| hash >>> 59) ^^^ value) * keyHasherMultiplier

/-- A key's bytes as little-endian words, the last of them perhaps short. -/
def keyWords (key : List UInt8) : List UInt64 :=
  (List.range ((key.length + 7) / 8)).map (fun index =>
    UInt64.ofNat (ofLeBytes (slice key (8 * index) (8 * index + 8))))

def keyHash (key : List UInt8) : UInt64 :=
  let folded := (keyWords key).foldl writeU64 (writeU64 0 (UInt64.ofNat key.length))
  writeU64 folded (folded >>> 32)

/-- The slot a key hashes to among a power of two of them: as many of its hash's top bits as the
slots take. -/
def home (slots : Nat) (key : List UInt8) : Nat := (keyHash key).toNat >>> (64 - slots.log2)

end KeyIndex

/-! ### Staged rows -/

structure ChangedRow where
  old : Option HeldRow
  next : Option (List UInt8)

/-- One staged key: the committed row it held and the record staged for it, whether they differ,
and what the entry retains and costs. -/
structure OverlayEntry where
  row : ChangedRow
  changed : Bool
  retained : Nat
  cost : Option ChangeCost

structure TableOverlay where
  rows : List (List UInt8 × OverlayEntry)
  slots : List (Option Nat)
  deletes : Nat
  order : List Nat
  sorted : Nat

namespace TableOverlay

def empty : TableOverlay := ⟨[], [], 0, [], 0⟩

def find (overlay : TableOverlay) (key : List UInt8) : Probing.Probe :=
  Probing.find KeyIndex.home overlay.slots (overlay.rows.map Prod.fst) key

/-- The entry at a position a search found. -/
def entryAt (overlay : TableOverlay) (found : Probing.Probe) : Option OverlayEntry :=
  match found with
  | .ok position => (overlay.rows[position]?).map Prod.snd
  | .error _ => none

def get (overlay : TableOverlay) (key : List UInt8) : Option OverlayEntry :=
  overlay.entryAt (overlay.find key)

def keyOf (overlay : TableOverlay) (position : Nat) : List UInt8 :=
  ((overlay.rows[position]?).map Prod.fst).getD []

/-- Installs one entry, which replaces the entry of its key or joins the rows. -/
def installEntry (overlay : TableOverlay) (found : Option Probing.Probe) (key : List UInt8)
    (entry : OverlayEntry) : TableOverlay :=
  match found.getD (overlay.find key) with
  | .ok position =>
    { overlay with rows := overlay.rows.modify position (fun row => (row.1, entry)) }
  | .error slot =>
    let position := overlay.rows.length
    let (order, sorted) := LazyOrder.push overlay.keyOf overlay.order overlay.sorted position key
    let rows := overlay.rows ++ [(key, entry)]
    { overlay with
      rows, order, sorted
      slots := Probing.insert KeyIndex.home overlay.slots (rows.map Prod.fst) position slot }

def installEntries (overlay : TableOverlay) (found : Option Probing.Probe) :
    List (List UInt8 × OverlayEntry) → TableOverlay
  | [] => overlay
  | (key, entry) :: entries => installEntries (overlay.installEntry found key entry) none entries

def install (overlay : TableOverlay) (entries : List (List UInt8 × OverlayEntry)) (deletes : Int)
    (found : Option Probing.Probe) : TableOverlay :=
  installEntries { overlay with deletes := (overlay.deletes + deletes).toNat } found entries

/-- The overlay once an ordered walk has made its order whole. -/
def merged (overlay : TableOverlay) : TableOverlay :=
  if overlay.sorted < overlay.rows.length then
    { overlay with
      order := LazyOrder.mergeTail overlay.keyOf overlay.order overlay.sorted
      sorted := overlay.rows.length }
  else overlay

/-- The staged keys and their entries, in key order. -/
def ordered (overlay : TableOverlay) : List (List UInt8 × OverlayEntry) :=
  overlay.merged.order.filterMap (fun position => overlay.rows[position]?)

end TableOverlay

/-! ### A statement's changes to a table -/

structure KeyedRows (T : Type) where
  rows : List (List UInt8 × T)
  seen : Option (List (List UInt8))

namespace KeyedRows
variable {T : Type}

def empty : KeyedRows T := ⟨[], none⟩

/-- Starts keeping every key once one arrives below the last. -/
def observe (keyed : KeyedRows T) (key : List UInt8) : KeyedRows T :=
  match keyed.seen, keyed.rows.getLast? with
  | none, some last =>
    if key < last.1 then { keyed with seen := some (keyed.rows.map Prod.fst) } else keyed
  | _, _ => keyed

/-- Where the row already planned for `key` is, once its key was observed. -/
def getMut (keyed : KeyedRows T) (key : List UInt8) : Option Nat :=
  match keyed.seen with
  | none =>
    if (keyed.rows.getLast?).map Prod.fst = some key then some (keyed.rows.length - 1) else none
  | some seen =>
    if seen.contains key then keyed.rows.findIdx? (fun row => row.1 == key) else none

def modify (keyed : KeyedRows T) (position : Nat) (change : T → T) : KeyedRows T :=
  { keyed with rows := keyed.rows.modify position (fun row => (row.1, change row.2)) }

def insert (keyed : KeyedRows T) (key : List UInt8) (row : T) : KeyedRows T where
  rows := keyed.rows ++ [(key, row)]
  seen := keyed.seen.map (fun seen => seen.insert key)

def intoSorted (keyed : KeyedRows T) : List (List UInt8 × T) :=
  match keyed.seen with
  | none => keyed.rows
  | some _ =>
    (LazyOrder.sortKeyed (fun position => ((keyed.rows[position]?).map Prod.fst).getD [])
      (List.range keyed.rows.length)).filterMap (fun position => keyed.rows[position]?)

end KeyedRows
end TinyJoin
