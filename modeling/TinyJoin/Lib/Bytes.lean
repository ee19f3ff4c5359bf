import TinyJoin.Lib.OrderCode
import Mathlib.Data.List.TakeDrop
import Mathlib.Tactic.Ring

/-! Fixed-width numbers as bytes, and reading and writing parts of a byte string in place.
Offsets and lengths are natural numbers; a write outside the string is never asked for. -/
namespace Bytes
universe u
open OrderCode

instance instLinearOrderUInt8 : LinearOrder UInt8 where
  le_refl := UInt8.le_refl
  le_trans := fun _ _ _ => UInt8.le_trans
  le_antisymm := fun _ _ => UInt8.le_antisymm
  le_total := UInt8.le_total
  lt_iff_le_not_ge := fun a b => by
    rw [UInt8.lt_iff_toNat_lt, UInt8.le_iff_toNat_le, UInt8.le_iff_toNat_le]
    omega
  toDecidableLE := inferInstance
  toDecidableLT := inferInstance
  toDecidableEq := inferInstance

instance instLawfulBEqByteString : LawfulBEq (List UInt8) := List.instLawfulBEq

/-- The `w` low bytes of `n`, least significant first. -/
def leBytes : Nat → Nat → List UInt8
  | 0, _ => []
  | w + 1, n => UInt8.ofNat (n % 256) :: leBytes w (n / 256)

def ofLeBytes : List UInt8 → Nat
  | [] => 0
  | b :: bs => b.toNat + 256 * ofLeBytes bs

/-- The `w` low bytes of `n`, most significant first. -/
def beBytes (w n : Nat) : List UInt8 := (leBytes w n).reverse

def ofBeBytes (bs : List UInt8) : Nat := ofLeBytes bs.reverse

@[simp] lemma length_leBytes (w n : Nat) : (leBytes w n).length = w := by
  induction w generalizing n with
  | zero => rfl
  | succ w ih => simp [leBytes, ih]

@[simp] lemma length_beBytes (w n : Nat) : (beBytes w n).length = w := by
  simp [beBytes]

lemma toNat_ofNat_mod (n : Nat) : (UInt8.ofNat (n % 256)).toNat = n % 256 := by
  rw [UInt8.toNat_ofNat']
  omega

lemma ofLeBytes_leBytes (w n : Nat) : ofLeBytes (leBytes w n) = n % 256 ^ w := by
  induction w generalizing n with
  | zero => simp [leBytes, ofLeBytes, Nat.mod_one]
  | succ w ih =>
    rw [leBytes, ofLeBytes, ih, toNat_ofNat_mod, Nat.pow_succ', Nat.mod_mul]

lemma ofLeBytes_leBytes_of_lt {w n : Nat} (h : n < 256 ^ w) : ofLeBytes (leBytes w n) = n := by
  rw [ofLeBytes_leBytes, Nat.mod_eq_of_lt h]

lemma ofLeBytes_lt (bs : List UInt8) : ofLeBytes bs < 256 ^ bs.length := by
  induction bs with
  | nil => simp [ofLeBytes]
  | cons b bs ih =>
    have hb : b.toNat < 256 := b.toNat_lt_size
    rw [ofLeBytes, List.length_cons, Nat.pow_succ]
    omega

lemma leBytes_ofLeBytes (bs : List UInt8) : leBytes bs.length (ofLeBytes bs) = bs := by
  induction bs with
  | nil => rfl
  | cons b bs ih =>
    have hb : b.toNat < 256 := b.toNat_lt_size
    have hmod : (b.toNat + 256 * ofLeBytes bs) % 256 = b.toNat := by omega
    have hdiv : (b.toNat + 256 * ofLeBytes bs) / 256 = ofLeBytes bs := by omega
    rw [ofLeBytes, List.length_cons, leBytes, hmod, hdiv, ih, UInt8.ofNat_toNat]

lemma leBytes_mod (w n : Nat) : leBytes w (n % 256 ^ w) = leBytes w n := by
  have h := leBytes_ofLeBytes (leBytes w n)
  rwa [length_leBytes, ofLeBytes_leBytes] at h

lemma take_leBytes {v w : Nat} (h : v ≤ w) (n : Nat) : (leBytes w n).take v = leBytes v n := by
  induction v generalizing w n with
  | zero => rfl
  | succ v ih =>
    obtain ⟨w, rfl⟩ : ∃ u, w = u + 1 := ⟨w - 1, by omega⟩
    simp only [leBytes, List.take_succ_cons, ih (Nat.le_of_succ_le_succ h)]

lemma ofBeBytes_beBytes_of_lt {w n : Nat} (h : n < 256 ^ w) : ofBeBytes (beBytes w n) = n := by
  rw [ofBeBytes, beBytes, List.reverse_reverse, ofLeBytes_leBytes_of_lt h]

lemma beBytes_ofBeBytes {w : Nat} {bs : List UInt8} (h : bs.length = w) :
    beBytes w (ofBeBytes bs) = bs := by
  have hrev := leBytes_ofLeBytes bs.reverse
  rw [List.length_reverse, h] at hrev
  rw [ofBeBytes, beBytes, hrev, List.reverse_reverse]

lemma ofBeBytes_lt (bs : List UInt8) : ofBeBytes bs < 256 ^ bs.length := by
  simpa [ofBeBytes] using ofLeBytes_lt bs.reverse

lemma beBytes_succ (w n : Nat) :
    beBytes (w + 1) n = beBytes w (n / 256) ++ [UInt8.ofNat (n % 256)] := by
  simp [beBytes, leBytes]

/-- Big-endian bytes of one width compare as the numbers do. -/
lemma beBytes_before {w n m : Nat} (hm : m < 256 ^ w) (h : n < m) :
    Before (beBytes w n) (beBytes w m) := by
  induction w generalizing n m with
  | zero => simp at hm; omega
  | succ w ih =>
    rw [beBytes_succ, beBytes_succ]
    rw [Nat.pow_succ] at hm
    rcases Nat.lt_or_ge (n / 256) (m / 256) with hq | hq
    · exact (ih (by omega) hq).append _ _
    · have hq : n / 256 = m / 256 := by omega
      rw [hq]
      apply Before.prepend
      apply Before.here
      rw [UInt8.lt_iff_toNat_lt, toNat_ofNat_mod, toNat_ofNat_mod]
      omega

section Parts
variable {α : Type u}

/-- The part of `bytes` from `start` up to `stop`. -/
def slice (bytes : List α) (start stop : Nat) : List α := (bytes.drop start).take (stop - start)

/-- Writes `source` over `bytes` from `offset` on. -/
def put (bytes : List α) (offset : Nat) (source : List α) : List α :=
  bytes.take offset ++ source ++ bytes.drop (offset + source.length)

@[simp] lemma length_put {bytes source : List α} {offset : Nat}
    (h : offset + source.length ≤ bytes.length) :
    (put bytes offset source).length = bytes.length := by
  simp [put]
  omega

lemma put_end (l : List α) (a : α) :
    put l l.length [a] = l ++ [a] := by
  simp [put]

lemma getElem?_put {l run : List α} {first k : Nat} (hfirst : first ≤ l.length)
    (hk : k < first ∨ first + run.length ≤ k) : (put l first run)[k]? = l[k]? := by
  have hlen : (l.take first).length = first := by
    rw [List.length_take]
    omega
  rw [put, List.append_assoc]
  rcases hk with hk | hk
  · rw [List.getElem?_append_left (by omega), List.getElem?_take_of_lt hk]
  · rw [List.getElem?_append_right (by omega), List.getElem?_append_right (by omega), hlen,
      List.getElem?_drop]
    congr 1
    omega

lemma getElem?_put_run {l run : List α} {first k : Nat} (hfirst : first ≤ l.length)
    (hk : k < run.length) : (put l first run)[first + k]? = run[k]? := by
  have hlen : (l.take first).length = first := by
    rw [List.length_take]
    omega
  rw [put, List.append_assoc, List.getElem?_append_right (by omega), hlen,
    Nat.add_sub_cancel_left, List.getElem?_append_left hk]

lemma length_put_le {l run : List α} {first : Nat} (hfirst : first ≤ l.length) :
    l.length ≤ (put l first run).length := by
  simp only [put, List.length_append, List.length_take, List.length_drop]
  omega

/-- Consecutive writes, the first element and then the rest, are one. -/
lemma put_cons {l : List α} {first : Nat} (hfirst : first ≤ l.length) (a : α) (run : List α) :
    put (put l first [a]) (first + 1) run = put l first (a :: run) := by
  have hlen : (l.take first ++ [a]).length = first + 1 := by
    rw [List.length_append, List.length_take, List.length_singleton]
    omega
  have hrest : (put l first [a]).drop (first + 1 + run.length) =
      l.drop (first + (a :: run).length) := by
    rw [put, List.drop_append, List.drop_of_length_le (by omega), hlen, List.drop_drop,
      List.nil_append, List.length_singleton, List.length_cons]
    congr 1
    omega
  rw [put, hrest, put, List.take_append_of_le_length (by omega), List.take_of_length_le (by omega),
    put, List.append_assoc, List.append_assoc, List.append_assoc]
  rfl

lemma length_slice {bytes : List α} {start stop : Nat} (h : stop ≤ bytes.length) :
    (slice bytes start stop).length = stop - start := by
  simp [slice]
  omega

lemma slice_append_left {x y : List α} {start stop : Nat} (h : stop ≤ x.length) :
    slice (x ++ y) start stop = slice x start stop := by
  rcases Nat.le_total start stop with hs | hs
  · rw [slice, slice, List.drop_append_of_le_length (by omega),
      List.take_append_of_le_length (by simp; omega)]
  · rw [slice, slice, Nat.sub_eq_zero_of_le hs, List.take_zero, List.take_zero]

lemma slice_append_right {x y : List α} {start stop : Nat} (h : x.length ≤ start) :
    slice (x ++ y) start stop = slice y (start - x.length) (stop - x.length) := by
  rw [slice, slice, List.drop_append, List.drop_eq_nil_of_le h, List.nil_append]
  congr 1
  omega

lemma slice_zero_length (x : List α) : slice x 0 x.length = x := by
  simp [slice]

lemma take_append_slice {x : List α} {start stop : Nat} (h : start ≤ stop) :
    x.take start ++ slice x start stop = x.take stop := by
  obtain ⟨n, rfl⟩ : ∃ n, stop = start + n := ⟨stop - start, by omega⟩
  rw [slice, Nat.add_sub_cancel_left, List.take_add]

lemma slice_append_slice {x : List α} {start mid stop : Nat} (h₁ : start ≤ mid)
    (h₂ : mid ≤ stop) : slice x start mid ++ slice x mid stop = slice x start stop := by
  obtain ⟨m, rfl⟩ : ∃ m, mid = start + m := ⟨mid - start, by omega⟩
  obtain ⟨n, rfl⟩ : ∃ n, stop = start + m + n := ⟨stop - (start + m), by omega⟩
  have hlen : start + m + n - start = m + n := by omega
  rw [slice, slice, slice, Nat.add_sub_cancel_left, Nat.add_sub_cancel_left, hlen, List.take_add,
    List.drop_drop]

lemma slice_of_append {x y z : List α} {start stop : Nat} (hs : start = x.length)
    (he : stop = x.length + y.length) : slice (x ++ (y ++ z)) start stop = y := by
  subst hs he
  simp [slice]

lemma slice_put_same {bytes source : List α} {offset stop : Nat}
    (h : offset + source.length ≤ bytes.length) (he : stop = offset + source.length) :
    slice (put bytes offset source) offset stop = source := by
  rw [put, List.append_assoc]
  apply slice_of_append
  · simp; omega
  · simp; omega

lemma slice_put_before {bytes source : List α} {offset start stop : Nat}
    (h : offset + source.length ≤ bytes.length) (hs : stop ≤ offset) :
    slice (put bytes offset source) start stop = slice bytes start stop := by
  rw [put, List.append_assoc, slice_append_left (by simp; omega)]
  conv_rhs => rw [← List.take_append_drop offset bytes]
  rw [slice_append_left (by simp; omega)]

lemma slice_put_after {bytes source : List α} {offset start stop : Nat}
    (h : offset + source.length ≤ bytes.length) (hs : offset + source.length ≤ start) :
    slice (put bytes offset source) start stop = slice bytes start stop := by
  have hl : (bytes.take offset ++ source).length = offset + source.length := by
    simp; omega
  rw [put, slice_append_right (by omega), hl]
  conv_rhs => rw [← List.take_append_drop (offset + source.length) bytes]
  have ht : (bytes.take (offset + source.length)).length = offset + source.length := by
    simp; omega
  rw [slice_append_right (by omega), ht]

/-! An array of entries of one width, laid out one after another. -/

section Entries
universe v
variable {β : Type v} {f : β → List α} {width : Nat}

lemma length_flatMap_of_width (hf : ∀ b, (f b).length = width) (l : List β) :
    (l.flatMap f).length = l.length * width := by
  induction l with
  | nil => simp
  | cons b l ih => rw [List.flatMap_cons, List.length_append, hf, ih, List.length_cons,
      Nat.succ_mul, Nat.add_comm]

/-- The entry at `index` stands `index` widths in. -/
lemma slice_flatMap (hf : ∀ b, (f b).length = width) {l : List β} {index : Nat} {b : β}
    (h : l[index]? = some b) (x z : List α) :
    slice (x ++ (l.flatMap f ++ z)) (x.length + index * width)
      (x.length + index * width + width) = f b := by
  induction l generalizing index x with
  | nil => simp at h
  | cons c l ih =>
    rw [List.flatMap_cons, List.append_assoc]
    cases index with
    | zero =>
      simp only [List.getElem?_cons_zero, Option.some.injEq] at h
      subst h
      exact slice_of_append (by simp) (by simp [hf])
    | succ index =>
      have step := ih (by simpa using h) (x ++ f c)
      rw [List.append_assoc] at step
      have hstart : x.length + (index + 1) * width = (x ++ f c).length + index * width := by
        rw [List.length_append, hf, Nat.succ_mul]
        omega
      rw [hstart]
      exact step

/-- A string of whole entries is its entries. -/
lemma flatMap_slices {bytes : List α} {count : Nat} (h : bytes.length = count * width) :
    (List.range count).flatMap (fun index => slice bytes (index * width) (index * width + width)) =
      bytes := by
  induction count generalizing bytes with
  | zero => simpa [eq_comm] using h
  | succ count ih =>
    rw [Nat.succ_mul] at h
    have hfirst := @ih (bytes.take (count * width)) (by simp; omega)
    rw [List.range_succ, List.flatMap_append, List.flatMap_singleton]
    have hsame : (List.range count).flatMap
          (fun index => slice bytes (index * width) (index * width + width)) =
        (List.range count).flatMap
          (fun index => slice (bytes.take (count * width)) (index * width)
            (index * width + width)) := by
      apply List.flatMap_congr
      intro index hindex
      have hlt := List.mem_range.mp hindex
      have hle : index * width + width ≤ count * width := by
        rw [← Nat.succ_mul]
        exact Nat.mul_le_mul_right _ hlt
      conv_lhs => rw [← List.take_append_drop (count * width) bytes]
      exact slice_append_left (by simp; omega)
    have hlast : slice bytes (count * width) (count * width + width) =
        bytes.drop (count * width) := by
      rw [slice, Nat.add_sub_cancel_left]
      exact List.take_of_length_le (by simp; omega)
    rw [hsame, hfirst, hlast, List.take_append_drop]

end Entries

end Parts

/-- The little-endian number in the `width` bytes at `offset`. -/
def readLe (bytes : List UInt8) (offset width : Nat) : Nat :=
  ofLeBytes (slice bytes offset (offset + width))

lemma readLe_lt (bytes : List UInt8) (offset width : Nat) :
    readLe bytes offset width < 256 ^ width := by
  have hlen : (slice bytes offset (offset + width)).length ≤ width := by
    simp [slice]
  exact Nat.lt_of_lt_of_le (ofLeBytes_lt _) (Nat.pow_le_pow_right (by omega) hlen)

end Bytes
