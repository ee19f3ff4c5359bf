import TinyJoin.Lib.Bytes

/-! Records laid out as fields at given offsets of a byte string, with what the string held before
in the gaps between them: what writing the fields in turn leaves, and when a string is that. -/
namespace Bytes
universe u
variable {α : Type u}

/-- Writes each field at its offset in turn. -/
def putAll (base : List α) (fields : List (Nat × List α)) : List α :=
  fields.foldl (fun bytes field => put bytes field.1 field.2) base

/-- The fields stand in order, from `start` up to `stop`. -/
def InOrder (stop : Nat) : Nat → List (Nat × List α) → Prop
  | start, [] => start ≤ stop
  | start, field :: fields => start ≤ field.1 ∧ InOrder stop (field.1 + field.2.length) fields

/-- From `start` on, `bytes` holds each field at its offset and what `base` holds between them. -/
def Holds (base bytes : List α) : Nat → List (Nat × List α) → Prop
  | start, [] => bytes.drop start = base.drop start
  | start, field :: fields => slice bytes start field.1 = slice base start field.1 ∧
      slice bytes field.1 (field.1 + field.2.length) = field.2 ∧
      Holds base bytes (field.1 + field.2.length) fields

/-- The string from `start` on, once the fields are written. -/
def laid (base : List α) : Nat → List (Nat × List α) → List α
  | start, [] => base.drop start
  | start, field :: fields =>
      slice base start field.1 ++ (field.2 ++ laid base (field.1 + field.2.length) fields)

lemma InOrder.start_le {stop start : Nat} {fields : List (Nat × List α)}
    (h : InOrder stop start fields) : start ≤ stop := by
  induction fields generalizing start with
  | nil => exact h
  | cons field fields ih =>
    have := ih h.2
    have := h.1
    omega

lemma drop_eq_slice_append {x : List α} {start stop : Nat} (h : start ≤ stop) :
    x.drop start = slice x start stop ++ x.drop stop := by
  obtain ⟨n, rfl⟩ : ∃ n, stop = start + n := ⟨stop - start, by omega⟩
  rw [slice, Nat.add_sub_cancel_left, ← List.drop_drop, List.take_append_drop]

/-- A write past a prefix leaves the prefix. -/
lemma put_append {pre rest source : List α} {offset : Nat} (h : pre.length ≤ offset) :
    put (pre ++ rest) offset source = pre ++ put rest (offset - pre.length) source := by
  rw [put, put, List.take_append, List.take_of_length_le h, List.drop_append,
    List.drop_eq_nil_of_le (by omega), List.nil_append, List.append_assoc, List.append_assoc,
    List.append_assoc]
  congr 4
  omega

/-- A write short of the end of a prefix leaves what follows it. -/
lemma put_append_of_le {pre rest source : List α} {offset : Nat}
    (h : offset + source.length ≤ pre.length) :
    put (pre ++ rest) offset source = put pre offset source ++ rest := by
  rw [put, put, List.take_append_of_le_length (by omega),
    List.drop_append_of_le_length (by omega), List.append_assoc, List.append_assoc,
    List.append_assoc]

lemma putAll_append {base : List α} {fields : List (Nat × List α)} {start : Nat} {pre : List α}
    (hpre : pre.length = start) (h : InOrder base.length start fields) :
    putAll (pre ++ base.drop start) fields = pre ++ laid base start fields := by
  induction fields generalizing start pre with
  | nil => rfl
  | cons field fields ih =>
    obtain ⟨hstart, hrest⟩ := h
    have hend := hrest.start_le
    have hput : put (pre ++ base.drop start) field.1 field.2 =
        (pre ++ (slice base start field.1 ++ field.2)) ++
          base.drop (field.1 + field.2.length) := by
      have hafter : start + (field.1 - start + field.2.length) = field.1 + field.2.length := by
        omega
      rw [put_append (by omega), put, List.drop_drop, hpre, hafter, slice, List.append_assoc,
        List.append_assoc, List.append_assoc]
    have hlen : (pre ++ (slice base start field.1 ++ field.2)).length =
        field.1 + field.2.length := by
      rw [List.length_append, List.length_append, length_slice (by omega)]
      omega
    rw [putAll, List.foldl_cons, hput]
    change putAll _ fields = _
    rw [ih hlen hrest, laid, List.append_assoc, List.append_assoc]

/-- Fields written in order leave the layout of the whole string. -/
lemma putAll_eq_laid {base : List α} {fields : List (Nat × List α)}
    (h : InOrder base.length 0 fields) : putAll base fields = laid base 0 fields := by
  have := @putAll_append α base fields 0 [] rfl h
  simpa using this

lemma holds_iff {base bytes : List α} (hlen : bytes.length = base.length)
    {fields : List (Nat × List α)} {start : Nat} (h : InOrder base.length start fields) :
    Holds base bytes start fields ↔ bytes.drop start = laid base start fields := by
  induction fields generalizing start with
  | nil => rfl
  | cons field fields ih =>
    obtain ⟨hstart, hrest⟩ := h
    have hend := hrest.start_le
    have hslice : (slice bytes start field.1).length = (slice base start field.1).length := by
      rw [length_slice (by omega), length_slice (by omega)]
    have hfield : (slice bytes field.1 (field.1 + field.2.length)).length = field.2.length := by
      rw [length_slice (by omega)]
      omega
    rw [Holds, ih hrest, laid, drop_eq_slice_append hstart,
      drop_eq_slice_append (Nat.le_add_right field.1 field.2.length)]
    constructor
    · rintro ⟨hgap, hat, hafter⟩
      rw [hgap, hat, hafter]
    · intro heq
      obtain ⟨hgap, heq⟩ := List.append_inj heq hslice
      obtain ⟨hat, hafter⟩ := List.append_inj heq hfield
      exact ⟨hgap, hat, hafter⟩

/-- A string is what writing the fields leaves exactly when it holds each of them, and the rest of
what was there. -/
lemma putAll_eq_iff {base bytes : List α} (hlen : bytes.length = base.length)
    {fields : List (Nat × List α)} (h : InOrder base.length 0 fields) :
    putAll base fields = bytes ↔ Holds base bytes 0 fields := by
  rw [holds_iff hlen h, putAll_eq_laid h, List.drop_zero, eq_comm]

lemma length_putAll {base : List α} {fields : List (Nat × List α)} {start : Nat}
    (h : InOrder base.length start fields) : (putAll base fields).length = base.length := by
  induction fields generalizing start base with
  | nil => rfl
  | cons field fields ih =>
    have hend := h.2.start_le
    have hlen := @length_put α base field.2 field.1 hend
    rw [putAll, List.foldl_cons]
    change (putAll _ fields).length = _
    rw [ih (by rw [hlen]; exact h.2), hlen]

/-- Fields short of the end leave what follows. -/
lemma putAll_append_right {base : List α} (rest : List α) {fields : List (Nat × List α)}
    {start : Nat} (h : InOrder base.length start fields) :
    putAll (base ++ rest) fields = putAll base fields ++ rest := by
  induction fields generalizing base start with
  | nil => rfl
  | cons field fields ih =>
    have hend := h.2.start_le
    rw [putAll, putAll, List.foldl_cons, List.foldl_cons, put_append_of_le hend]
    exact ih (by rw [length_put hend]; exact h.2)

/-- Writes that do not meet may be made in either order. -/
lemma put_comm {l x y : List α} {first second : Nat} (h : first + x.length ≤ second)
    (hend : second + y.length ≤ l.length) :
    put (put l second y) first x = put (put l first x) second y := by
  have hlen : (put l first x).length = l.length := length_put (by omega)
  have hbefore : (put l first x).take second = put (l.take second) first x := by
    have hsplit : l = l.take second ++ l.drop second := (List.take_append_drop second l).symm
    have htake : (l.take second).length = second := by
      rw [List.length_take]
      omega
    conv_lhs => rw [hsplit, put_append_of_le (by omega)]
    rw [List.take_left' (by rw [length_put (by omega), htake])]
  have hafter : (put l first x).drop (second + y.length) = l.drop (second + y.length) := by
    have hskip : (l.take first ++ x).length ≤ second + y.length := by
      rw [List.length_append, List.length_take]
      omega
    rw [put, List.drop_append, List.drop_eq_nil_of_le hskip, List.nil_append, List.drop_drop]
    congr 1
    rw [List.length_append, List.length_take]
    omega
  have htake : (l.take second).length = second := by
    rw [List.length_take]
    omega
  have hright : put (put l first x) second y =
      put (l.take second) first x ++ (y ++ l.drop (second + y.length)) := by
    rw [put, hbefore, hafter, List.append_assoc]
  have hleft : put l second y = l.take second ++ (y ++ l.drop (second + y.length)) := by
    rw [put, List.append_assoc]
  rw [hright, hleft, put_append_of_le (by omega)]

/-- A write short of every field may be made before them. -/
lemma put_putAll_comm {base x : List α} {offset start : Nat} {fields : List (Nat × List α)}
    (hstart : offset + x.length ≤ start) (h : InOrder base.length start fields) :
    put (putAll base fields) offset x = putAll (put base offset x) fields := by
  induction fields generalizing base start with
  | nil => rfl
  | cons field fields ih =>
    obtain ⟨hfield, hrest⟩ := h
    have hend := hrest.start_le
    have hlen := @length_put α base field.2 field.1 hend
    have hstep := @ih (put base field.1 field.2) (field.1 + field.2.length) (by omega)
      (by rw [hlen]; exact hrest)
    have hswap := @put_comm α base x field.2 offset field.1 (by omega) hend
    rw [hswap] at hstep
    exact hstep

/-- A write inside a part just written. -/
lemma put_put_inner {l part source : List α} {offset inner : Nat}
    (hpart : offset + part.length ≤ l.length) (h : inner + source.length ≤ part.length) :
    put (put l offset part) (offset + inner) source = put l offset (put part inner source) := by
  have hlen : (l.take offset).length = offset := by
    rw [List.length_take]
    omega
  have hsame : (put part inner source).length = part.length := length_put h
  have hwhole : put l offset part = l.take offset ++ (part ++ l.drop (offset + part.length)) := by
    rw [put, List.append_assoc]
  rw [hwhole, put_append (by omega), hlen, Nat.add_sub_cancel_left, put_append_of_le h]
  conv_rhs => rw [put, hsame, List.append_assoc]

lemma slice_slice {x : List α} {start stop first last : Nat} (h : start + last ≤ stop) :
    slice (slice x start stop) first last = slice x (start + first) (start + last) := by
  rw [slice, slice, slice, List.drop_take, List.drop_drop, List.take_take]
  congr 1
  omega

lemma slice_replicate {n start stop : Nat} (a : α) (h : stop ≤ n) :
    slice (List.replicate n a) start stop = List.replicate (stop - start) a := by
  rw [slice, List.drop_replicate, List.take_replicate]
  congr 1
  omega

lemma eq_replicate_of_all {l : List α} {a : α} {n : Nat} (hlen : l.length = n)
    (h : ∀ b ∈ l, b = a) : l = List.replicate n a := by
  rw [← hlen]
  exact List.eq_replicate_length.mpr h

/-- A part of a string is two parts when each of them stands in its place. -/
lemma slice_eq_append_iff {bytes x y : List α} {start stop : Nat} (h : start + x.length ≤ stop)
    (hstop : stop ≤ bytes.length) : slice bytes start stop = x ++ y ↔
      slice bytes start (start + x.length) = x ∧ slice bytes (start + x.length) stop = y := by
  have hlen : (slice bytes start (start + x.length)).length = x.length := by
    rw [length_slice (by omega)]
    omega
  rw [← slice_append_slice (Nat.le_add_right start x.length) h]
  constructor
  · intro heq
    exact List.append_inj heq hlen
  · rintro ⟨hx, hy⟩
    rw [hx, hy]

/-- The number in a field, as bytes, is the field. -/
lemma leBytes_readLe {bytes : List UInt8} {offset width : Nat}
    (h : offset + width ≤ bytes.length) :
    leBytes width (readLe bytes offset width) = slice bytes offset (offset + width) := by
  have hlen : (slice bytes offset (offset + width)).length = width := by
    rw [length_slice h]
    omega
  have := leBytes_ofLeBytes (slice bytes offset (offset + width))
  rw [hlen] at this
  exact this

/-- A field holds a number exactly when it is read as that number. -/
lemma slice_eq_leBytes_iff {bytes : List UInt8} {offset width n : Nat} (hn : n < 256 ^ width)
    (h : offset + width ≤ bytes.length) :
    slice bytes offset (offset + width) = leBytes width n ↔ readLe bytes offset width = n := by
  constructor
  · intro heq
    rw [readLe, heq, ofLeBytes_leBytes_of_lt hn]
  · rintro rfl
    rw [leBytes_readLe h]

end Bytes
