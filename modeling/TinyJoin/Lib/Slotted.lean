import TinyJoin.Lib.Layout
import TinyJoin.Lib.Effect

/-! Slotted pages: cells packed downward from the end of a byte string, in the order of an array of
two-byte slots which grows upward and holds each cell's offset, with zeros between the two. -/
namespace Slotted
open Bytes

/-- Where each cell stands, when they are packed downward from `stop`. -/
def offsets : Nat → List (List UInt8) → List Nat
  | _, [] => []
  | stop, cell :: cells => (stop - cell.length) :: offsets (stop - cell.length) cells

/-- The slots of the cells. -/
def slots (stop : Nat) (cells : List (List UInt8)) : List UInt8 :=
  (offsets stop cells).flatMap (leBytes 2)

/-- The bytes the cells take. -/
def size (cells : List (List UInt8)) : Nat := (cells.map List.length).sum

/-- Writes each cell below the one before it and its offset in its slot, and returns where the
cells start. The slots start at `base`. -/
def pack (base : Nat) : List (List UInt8) → Nat → Nat → List UInt8 → List UInt8 × Nat
  | [], _, stop, bytes => (bytes, stop)
  | cell :: cells, index, stop, bytes =>
    let offset := stop - cell.length
    pack base cells (index + 1) offset
      (put (put bytes offset cell) (base + index * 2) (leBytes 2 offset))

@[simp] lemma size_nil : size [] = 0 := rfl

@[simp] lemma size_cons (cell : List UInt8) (cells : List (List UInt8)) :
    size (cell :: cells) = cell.length + size cells := by
  simp [size]

@[simp] lemma length_offsets (stop : Nat) (cells : List (List UInt8)) :
    (offsets stop cells).length = cells.length := by
  induction cells generalizing stop with
  | nil => rfl
  | cons cell cells ih => simp [offsets, ih]

lemma length_slots (stop : Nat) (cells : List (List UInt8)) :
    (slots stop cells).length = cells.length * 2 := by
  rw [slots, length_flatMap_of_width (fun n => length_leBytes 2 n), length_offsets]

lemma slots_cons (stop : Nat) (cell : List UInt8) (cells : List (List UInt8)) :
    slots stop (cell :: cells) =
      leBytes 2 (stop - cell.length) ++ slots (stop - cell.length) cells := by
  rw [slots, offsets, List.flatMap_cons, slots]

lemma length_reverse_flatten (cells : List (List UInt8)) :
    cells.reverse.flatten.length = size cells := by
  rw [List.length_flatten, List.map_reverse, List.sum_reverse, size]

lemma le_of_mem_offsets {stop offset : Nat} {cells : List (List UInt8)}
    (h : offset ∈ offsets stop cells) : stop - size cells ≤ offset := by
  induction cells generalizing stop with
  | nil => exact absurd h List.not_mem_nil
  | cons cell cells ih =>
    rw [size_cons]
    rcases List.mem_cons.mp h with rfl | h
    · omega
    · have := ih h
      omega

/-- Packing fills the slots upward from the end of `pre` and the cells downward to `tail`. -/
lemma pack_eq {base index stop gap : Nat} {pre tail : List UInt8} {cells : List (List UInt8)}
    (hpre : pre.length = base + index * 2) (hstop : pre.length + gap = stop)
    (hfits : size cells + cells.length * 2 ≤ gap) :
    pack base cells index stop (pre ++ (List.replicate gap 0 ++ tail)) =
      (pre ++ (slots stop cells ++ (List.replicate (gap - (size cells + cells.length * 2)) 0 ++
        (cells.reverse.flatten ++ tail))), stop - size cells) := by
  induction cells generalizing index stop gap pre tail with
  | nil => simp [pack, slots, offsets]
  | cons cell cells ih =>
    rw [size_cons, List.length_cons] at hfits
    have hsplit : List.replicate gap (0 : UInt8) =
        List.replicate 2 0 ++ (List.replicate (gap - cell.length - 2) 0 ++
          List.replicate cell.length 0) := by
      rw [← List.replicate_add, ← List.replicate_add]
      congr 1
      omega
    have hcell : put (pre ++ (List.replicate gap 0 ++ tail)) (stop - cell.length) cell =
        pre ++ (List.replicate 2 0 ++ (List.replicate (gap - cell.length - 2) 0 ++
          (cell ++ tail))) := by
      rw [hsplit, List.append_assoc, List.append_assoc, put_append (by omega),
        put_append (by rw [List.length_replicate]; omega),
        put_append (by rw [List.length_replicate, List.length_replicate]; omega),
        List.length_replicate, List.length_replicate]
      have hzero : stop - cell.length - pre.length - 2 - (gap - cell.length - 2) = 0 := by omega
      rw [hzero, put, List.take_zero, List.nil_append, Nat.zero_add, List.drop_append,
        List.length_replicate, Nat.sub_self, List.drop_zero,
        List.drop_eq_nil_of_le (by rw [List.length_replicate]), List.nil_append]
    have hslot : put (pre ++ (List.replicate 2 0 ++ (List.replicate (gap - cell.length - 2) 0 ++
          (cell ++ tail)))) (base + index * 2) (leBytes 2 (stop - cell.length)) =
        (pre ++ leBytes 2 (stop - cell.length)) ++ (List.replicate (gap - cell.length - 2) 0 ++
          (cell ++ tail)) := by
      rw [put_append (by omega), hpre, Nat.sub_self, put, List.take_zero, List.nil_append,
        Nat.zero_add, length_leBytes, List.drop_left' (by simp), List.append_assoc]
    rw [pack, hcell, hslot]
    rw [ih (by rw [List.length_append, length_leBytes, hpre]; omega)
      (by rw [List.length_append, length_leBytes]; omega) (by omega)]
    rw [slots_cons, List.reverse_cons, List.flatten_append, List.flatten_singleton, size_cons,
      List.length_cons]
    simp only [List.append_assoc]
    have hgap : gap - cell.length - 2 - (size cells + cells.length * 2) =
        gap - (cell.length + size cells + (cells.length + 1) * 2) := by omega
    rw [hgap, Nat.sub_sub]

section Unpack
variable {ε β : Type}

/-- Reads `count` cells from slot `index` on, each of which must end where the one before it
starts, and returns where the last starts. -/
def unpack (slot : Nat → Except ε Nat) (cellAt : Nat → Except ε (β × Nat))
    (packed : Nat → Nat → Nat → Nat → Except ε Unit) : Nat → Nat → Nat → Except ε (List β × Nat)
  | 0, _, stop => .ok ([], stop)
  | count + 1, index, stop => do
    let offset ← slot index
    let (entry, cellStop) ← cellAt offset
    packed index offset cellStop stop
    let (entries, floor) ← unpack slot cellAt packed count (index + 1) offset
    .ok (entry :: entries, floor)

variable {slot : Nat → Except ε Nat} {cellAt : Nat → Except ε (β × Nat)}
  {packed : Nat → Nat → Nat → Nat → Except ε Unit} {bytes : List UInt8} {base freeEnd total : Nat}
  {Good : β → Prop} {cell : β → List UInt8}

/-- What is read from a slotted string is what stands in it: the slots of the cells, and the cells
from the last to the first. -/
lemma unpack_eq_ok
    (hslot : ∀ index, index < total → slot index = .ok (readLe bytes (base + index * 2) 2))
    (hcell : ∀ offset entry stop, cellAt offset = .ok (entry, stop) ↔ Good entry ∧
      stop = offset + (cell entry).length ∧ stop ≤ bytes.length ∧
      slice bytes offset stop = cell entry)
    (hpacked : ∀ index offset cellStop stop, packed index offset cellStop stop = .ok () ↔
      freeEnd ≤ offset ∧ cellStop = stop)
    (htotal : base + total * 2 ≤ bytes.length)
    {count index stop floor : Nat} {entries : List β} (hcount : index + count ≤ total)
    (hstop : stop ≤ bytes.length) (hsmall : stop < 256 ^ 2) :
    unpack slot cellAt packed count index stop = .ok (entries, floor) ↔
      entries.length = count ∧ (∀ entry ∈ entries, Good entry) ∧
      (∀ offset ∈ offsets stop (entries.map cell), freeEnd ≤ offset) ∧
      floor + size (entries.map cell) = stop ∧
      slice bytes (base + index * 2) (base + (index + count) * 2) =
        slots stop (entries.map cell) ∧
      slice bytes floor stop = (entries.map cell).reverse.flatten := by
  induction count generalizing index stop entries with
  | zero =>
    rw [unpack, Except.ok.injEq, Prod.mk.injEq]
    constructor
    · rintro ⟨rfl, rfl⟩
      refine ⟨rfl, fun _ h => (nomatch h), fun _ h => (nomatch h), rfl, ?_, ?_⟩
      · simp [slice, slots, offsets]
      · simp [slice]
    · rintro ⟨hlen, -, -, hfloor, -, -⟩
      have hnil := List.length_eq_zero_iff.mp hlen
      subst hnil
      exact ⟨rfl, hfloor.symm⟩
  | succ count ih =>
    have hread := hslot index (by omega)
    have hlen : (slice bytes (base + index * 2) (base + index * 2 + 2)).length = 2 := by
      rw [length_slice (by omega)]
      omega
    have hslots : slice bytes (base + index * 2) (base + (index + (count + 1)) * 2) =
        slice bytes (base + index * 2) (base + index * 2 + 2) ++
          slice bytes (base + (index + 1) * 2) (base + (index + 1 + count) * 2) := by
      have hnext : base + (index + 1) * 2 = base + index * 2 + 2 := by omega
      have hlast : base + (index + (count + 1)) * 2 = base + (index + 1 + count) * 2 := by omega
      rw [hnext, hlast, slice_append_slice (by omega) (by omega)]
    rw [hslots]
    constructor
    · intro h
      rw [unpack, hread] at h
      obtain ⟨_, ⟨⟩, h⟩ := Except.bind_eq_ok.mp h
      obtain ⟨⟨entry, cellStop⟩, hentry, h⟩ := Except.bind_eq_ok.mp h
      obtain ⟨⟨⟩, hpack, h⟩ := Except.bind_eq_ok.mp h
      obtain ⟨⟨rest, last⟩, hrest, h⟩ := Except.bind_eq_ok.mp h
      rw [Except.ok.injEq, Prod.mk.injEq] at h
      obtain ⟨rfl, rfl⟩ := h
      obtain ⟨hgood, hend, hle, hbytes⟩ := (hcell _ _ _).mp hentry
      obtain ⟨hfree, rfl⟩ := (hpacked _ _ _ _).mp hpack
      obtain ⟨hcount', hall, hoffsets, hfloor, hslot', hcells⟩ :=
        (ih (by omega) (by omega) (readLe_lt _ _ _)).mp hrest
      have hoffset : cellStop - (cell entry).length = readLe bytes (base + index * 2) 2 := by omega
      refine ⟨by rw [List.length_cons, hcount'], List.forall_mem_cons.mpr ⟨hgood, hall⟩, ?_, ?_, ?_,
        ?_⟩
      · rw [List.map_cons, offsets, hoffset]
        exact List.forall_mem_cons.mpr ⟨hfree, hoffsets⟩
      · rw [List.map_cons, size_cons]
        omega
      · rw [List.map_cons, slots_cons, hoffset, hslot', leBytes_readLe (by omega)]
      · rw [List.map_cons, List.reverse_cons, List.flatten_append, List.flatten_singleton, ← hcells,
          ← hbytes, slice_append_slice (by omega) (by omega)]
    · rintro ⟨hlength, hall, hoffsets, hfloor, hslot', hcells⟩
      obtain ⟨entry, rest, rfl⟩ := List.exists_cons_of_length_eq_add_one hlength
      obtain ⟨hgood, hall⟩ := List.forall_mem_cons.mp hall
      rw [List.map_cons, offsets] at hoffsets
      obtain ⟨hfree, hoffsets⟩ := List.forall_mem_cons.mp hoffsets
      rw [List.map_cons, size_cons] at hfloor
      rw [List.map_cons, slots_cons] at hslot'
      obtain ⟨hfirst, hslot'⟩ := List.append_inj hslot' (by rw [hlen, length_leBytes])
      rw [List.map_cons, List.reverse_cons, List.flatten_append, List.flatten_singleton] at hcells
      have hsplit : slice bytes floor stop = slice bytes floor (stop - (cell entry).length) ++
          slice bytes (stop - (cell entry).length) stop := by
        rw [slice_append_slice (by omega) (by omega)]
      rw [hsplit] at hcells
      obtain ⟨hcells, hbytes⟩ := List.append_inj hcells (by
        rw [length_slice (by omega), length_reverse_flatten]
        omega)
      have hoffset : readLe bytes (base + index * 2) 2 = stop - (cell entry).length := by
        rw [readLe, hfirst, ofLeBytes_leBytes_of_lt (by omega)]
      have hentry : cellAt (stop - (cell entry).length) = .ok (entry, stop) :=
        (hcell _ _ _).mpr ⟨hgood, by omega, hstop, hbytes⟩
      have hpack : packed index (stop - (cell entry).length) stop stop = .ok () :=
        (hpacked _ _ _ _).mpr ⟨hfree, rfl⟩
      have hrest := (@ih (index + 1) (stop - (cell entry).length) rest (by omega) (by omega)
        (by omega)).mpr
        ⟨by simpa using hlength, hall, hoffsets, by omega, hslot', hcells⟩
      rw [unpack, hread, hoffset]
      simp only [bind, Except.bind, hentry, hpack, hrest]

end Unpack

end Slotted
