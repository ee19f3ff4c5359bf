import TinyJoin.Preflight
import TinyJoin.Lib.Simulation

/-! What each write of the request's writer does: it appends its bytes, whatever has to be grown for
them, or passes the limit on a request. -/
namespace TinyJoin
open Bytes
namespace Preflight
open Effect

/-- The buffer is as long as its counted room, which is within the bound on a request. -/
structure Buffered (s : Preflight) : Prop where
  capacity_eq : s.capacity = s.buffer.length
  initial_le : initialBufferBytes ≤ s.capacity
  le_max : s.capacity ≤ maxBytes

/-- So many bytes of the buffer are written. -/
structure Valid (s : Preflight) : Prop extends Buffered s where
  length_le : s.length ≤ s.capacity

/-- A request is being written, of which no more is retained than may be. -/
structure Writing (s : Preflight) : Prop extends Valid s where
  retained_le : s.retained ≤ maxBytes

/-- `s'` goes on from `s` with these bytes written and so much more retained. -/
structure Wrote (s : Preflight) (bytes : List UInt8) (retained : Nat) (s' : Preflight) : Prop where
  writing : s'.Writing
  written : s'.written = s.written ++ bytes
  retained_eq : s'.retained = s.retained + retained
  nodes_eq : s'.nodes = s.nodes
  operations_eq : s'.operations = s.operations

/-- A write which appends these bytes and retains so much, or passes the limit on either. -/
def Writes (m : Encode Unit) (bytes : List UInt8) (retained : Nat) : Prop :=
  ∀ s, s.Writing → m.Ends s (fun _ s' => s.Wrote bytes retained s')
    (fun e s' => e = resourceLimit ∧ s'.Valid ∧
      (maxBytes < s.length + bytes.length ∨ maxBytes < s.retained + retained))

lemma buffered_initial : initial.Buffered where
  capacity_eq := (List.length_replicate ..).symm
  initial_le := Nat.le_refl _
  le_max := by decide

@[simp] lemma Valid.length_written {s : Preflight} (h : s.Valid) : s.written.length = s.length := by
  have hle := h.length_le
  rw [h.capacity_eq] at hle
  rw [written, List.length_take, Nat.min_eq_left hle]

lemma Wrote.length_eq {s s' : Preflight} {bytes : List UInt8} {retained : Nat} (hs : s.Valid)
    (h : s.Wrote bytes retained s') : s'.length = s.length + bytes.length := by
  have hlen := congrArg List.length h.written
  rwa [h.writing.length_written, List.length_append, hs.length_written] at hlen

lemma Wrote.length_le {s s' : Preflight} {bytes : List UInt8} {retained : Nat} (hs : s.Valid)
    (h : s.Wrote bytes retained s') : s.length + bytes.length ≤ maxBytes := by
  rw [← h.length_eq hs]
  exact Nat.le_trans h.writing.length_le h.writing.le_max

lemma Wrote.trans {s s' s'' : Preflight} {bytes bytes' : List UInt8} {retained retained' : Nat}
    (h : s.Wrote bytes retained s') (h' : s'.Wrote bytes' retained' s'') :
    s.Wrote (bytes ++ bytes') (retained + retained') s'' where
  writing := h'.writing
  written := by rw [h'.written, h.written, List.append_assoc]
  retained_eq := by rw [h'.retained_eq, h.retained_eq, Nat.add_assoc]
  nodes_eq := h'.nodes_eq.trans h.nodes_eq
  operations_eq := h'.operations_eq.trans h.operations_eq

lemma Writes.bind {m n : Encode Unit} {bytes bytes' : List UInt8} {retained retained' : Nat}
    (hm : Writes m bytes retained) (hn : Writes n bytes' retained') :
    Writes (do m; n) (bytes ++ bytes') (retained + retained') := by
  intro s hs
  rw [ends_bind]
  refine (hm s hs).mono ?_ ?_
  · intro _ s' h
    refine (hn s' h.writing).mono (fun _ s'' h' => h.trans h') ?_
    rintro e s'' ⟨he, hvalid, hlimit⟩
    rw [h.length_eq hs.toValid, h.retained_eq] at hlimit
    rw [List.length_append]
    exact ⟨he, hvalid, by omega⟩
  · rintro e s' ⟨he, hvalid, hlimit⟩
    rw [List.length_append]
    exact ⟨he, hvalid, by omega⟩

/-! ## Room -/

/-- Growing the buffer keeps what is written in it. -/
lemma grow_ends {s : Preflight} {needed : Nat} (hs : s.Valid) (hneeded : s.length ≤ needed) :
    (grow needed).Ends s
      (fun _ s' => s'.Valid ∧ s'.written = s.written ∧ needed ≤ s'.capacity ∧
        s' = { s with buffer := s'.buffer, capacity := s'.capacity })
      (fun e s' => e = resourceLimit ∧ s' = s ∧ maxBytes < needed) := by
  have hlen := hs.length_written
  have hcap := hs.length_le
  have hinitial := hs.initial_le
  have hmax := hs.le_max
  rw [grow, ends_bind, ends_get]
  split
  · next hlimit => exact ⟨rfl, rfl, hlimit⟩
  · next hlimit =>
    dsimp only
    rw [if_neg (by omega), ends_modify]
    have hput : (put (List.replicate (min maxBytes (max needed (s.capacity * 2))) (0 : UInt8)) 0
        s.written).length = min maxBytes (max needed (s.capacity * 2)) := by
      rw [length_put (by rw [List.length_replicate]; omega), List.length_replicate]
    refine ⟨⟨⟨hput.symm, by dsimp only; omega, by dsimp only; omega⟩, by dsimp only; omega⟩, ?_,
      by dsimp only; omega, rfl⟩
    rw [written, put, List.take_zero, List.nil_append]
    exact List.take_left' hlen

lemma makeRoom_ends {s : Preflight} {count : Nat} (hs : s.Valid) :
    (makeRoom count).Ends s
      (fun _ s' => s'.Valid ∧ s'.written = s.written ∧ s.length + count ≤ s'.capacity ∧
        s' = { s with buffer := s'.buffer, capacity := s'.capacity })
      (fun e s' => e = resourceLimit ∧ s' = s ∧ maxBytes < s.length + count) := by
  rw [makeRoom, ends_bind, ends_get]
  split
  · exact grow_ends hs (Nat.le_add_right _ _)
  · next hroom => exact ⟨hs, rfl, Nat.le_of_not_lt hroom, rfl⟩

lemma take_put {l x : List UInt8} {n : Nat} (h : n + x.length ≤ l.length) :
    (put l n x).take (n + x.length) = l.take n ++ x := by
  have hlen : (l.take n ++ x).length = n + x.length := by
    rw [List.length_append, List.length_take]
    omega
  rw [put]
  exact List.take_left' hlen

/-- Bytes put behind what is written, and counted. -/
lemma Writing.appended {s s' : Preflight} {bytes : List UInt8} (hs : s.Writing) (hs' : s'.Valid)
    (hwritten : s'.written = s.written) (hroom : s.length + bytes.length ≤ s'.capacity)
    (heq : s' = { s with buffer := s'.buffer, capacity := s'.capacity }) :
    s.Wrote bytes 0 { s' with
      buffer := put s'.buffer s'.length bytes, length := s'.length + bytes.length } := by
  have hlen : s'.length = s.length := by rw [heq]
  have hretained : s'.retained = s.retained := by rw [heq]
  have hnodes : s'.nodes = s.nodes := by rw [heq]
  have hoperations : s'.operations = s.operations := by rw [heq]
  have hcap := hs'.capacity_eq
  have hput : (put s'.buffer s'.length bytes).length = s'.buffer.length := length_put (by omega)
  refine ⟨⟨⟨⟨?_, hs'.initial_le, hs'.le_max⟩, ?_⟩, ?_⟩, ?_, hretained, hnodes, hoperations⟩
  · rw [hput]
    exact hcap
  · dsimp only
    omega
  · dsimp only
    rw [hretained]
    exact hs.retained_le
  · rw [← hwritten, written, take_put (by omega), written]

/-- Room made, bytes filled in behind what is written, and then counted. -/
lemma append_writes (bytes : List UInt8) (fill : Nat → Encode Unit)
    (hfill : ∀ s : Preflight, s.length + bytes.length ≤ s.buffer.length →
      fill s.length s = (.ok (), { s with buffer := put s.buffer s.length bytes })) :
    Writes (do
      makeRoom bytes.length
      let s ← get
      fill s.length
      setLength (s.length + bytes.length)) bytes 0 := by
  intro s hs
  rw [ends_bind]
  refine (makeRoom_ends hs.toValid).mono ?_ ?_
  · rintro _ s' ⟨hvalid, hwritten, hroom, heq⟩
    have hlen : s'.length = s.length := by rw [heq]
    rw [ends_bind, ends_get, ends_bind, Ends,
      hfill s' (by rw [hlen, ← hvalid.capacity_eq]; exact hroom)]
    exact hs.appended hvalid hwritten hroom heq
  · rintro e s' ⟨he, rfl, hlimit⟩
    exact ⟨he, hs.toValid, .inl hlimit⟩

lemma set_eq_put {l : List UInt8} {n : Nat} {v : UInt8} (h : n < l.length) :
    l.set n v = put l n [v] := by
  rw [put, List.set_eq_take_append_cons_drop, if_pos h, List.append_assoc]
  rfl

lemma storeByte_run {s : Preflight} {index : Nat} {v : UInt8} (h : index < s.buffer.length) :
    storeByte index v s = (.ok (), { s with buffer := put s.buffer index [v] }) := by
  rw [← set_eq_put h]
  rfl

lemma setBytes_run {s : Preflight} {offset : Nat} {bytes : List UInt8}
    (h : offset + bytes.length ≤ s.buffer.length) :
    setBytes offset bytes s = (.ok (), { s with buffer := put s.buffer offset bytes }) := by
  have hrun : setBytes offset bytes s =
      (if offset + bytes.length ≤ s.buffer.length then
        modify (fun s => { s with buffer := put s.buffer offset bytes })
      else fail .range : Encode Unit) s := rfl
  rw [hrun, if_pos h]
  rfl

lemma u8_writes (value : UInt8) : Writes (u8 value) [value] 0 :=
  append_writes [value] (fun index => storeByte index value)
    (fun _ h => storeByte_run (by rw [List.length_singleton] at h; omega))

lemma u32_writes (value : Nat) : Writes (u32 value) (leBytes 4 value) 0 := by
  have hlen : (leBytes 4 value).length = 4 := length_leBytes 4 value
  have happend := append_writes (leBytes 4 value) (fun offset => setUint32 offset value)
    (fun _ h => setBytes_run h)
  rw [hlen] at happend
  exact happend

/-- The eight bytes of a number, after its tag. -/
lemma setFloat64_writes (value : F64) : Writes (do
      makeRoom 8
      let s ← get
      setFloat64 s.length value
      setLength (s.length + 8)) (leBytes 8 value.bits.toNat) 0 := by
  have hlen : (leBytes 8 value.bits.toNat).length = 8 := length_leBytes 8 _
  have happend := append_writes (leBytes 8 value.bits.toNat)
    (fun offset => setFloat64 offset value) (fun _ h => setBytes_run h)
  rw [hlen] at happend
  exact happend

lemma retain_writes (count : Nat) : Writes (retain count) [] count := by
  intro s hs
  rw [retain, ends_bind, ends_modify, ends_bind, ends_get]
  split
  · next hlimit =>
    exact ⟨rfl, ⟨⟨hs.capacity_eq, hs.initial_le, hs.le_max⟩, hs.length_le⟩, .inr hlimit⟩
  · next hlimit =>
    exact ⟨⟨⟨⟨hs.capacity_eq, hs.initial_le, hs.le_max⟩, hs.length_le⟩, Nat.le_of_not_lt hlimit⟩,
      (List.append_nil _).symm, rfl, rfl, rfl⟩

/-- The tag of a number, in either path. -/
def numberTag (value : F64) : UInt8 := if value.isSafeInteger then jsonI64 else jsonF64

lemma numberTag_eq (value : F64) :
    (if value.isInteger && decide (value.scaled ≤ maxSafeInteger * F64.unit) &&
      decide (-(maxSafeInteger * F64.unit) ≤ value.scaled) then jsonI64 else jsonF64) =
    numberTag value := by
  have hsafe : (value.isInteger && decide (value.scaled ≤ maxSafeInteger * F64.unit) &&
      decide (-(maxSafeInteger * F64.unit) ≤ value.scaled)) = value.isSafeInteger := by
    rw [F64.isSafeInteger, Bool.and_assoc, ← Bool.decide_and]
    congr 1
    rw [decide_eq_decide]
    have hunit : (maxSafeInteger : Int) * F64.unit = ((maxSafeInteger * 2 ^ 1074 : Nat) : Int) := by
      rw [F64.unit, Nat.cast_mul, Nat.cast_pow, Nat.cast_ofNat]
    rw [hunit]
    omega
  rw [hsafe, numberTag]

def numberBytes (value : F64) : List UInt8 := numberTag value :: leBytes 8 value.bits.toNat

lemma writeNumber_writes {value : F64} (h : value.isFinite = true) :
    Writes (writeNumber value) (numberBytes value) 0 := by
  rw [writeNumber, h, Bool.not_true, if_neg Bool.false_ne_true]
  exact (u8_writes _).bind (setFloat64_writes value)

lemma writeScalarNumber_writes (value : F64) :
    Writes (writeScalarNumber value) (numberBytes value) 0 := by
  have hlen : (numberBytes value).length = 9 := by
    rw [numberBytes, List.length_cons, length_leBytes]
  have happend := append_writes (numberBytes value) (fun offset => do
    storeByte offset (numberTag value)
    setFloat64 (offset + 1) value) ?_
  · rw [hlen] at happend
    unfold writeScalarNumber
    simp only [numberTag_eq]
    exact happend
  · intro s hroom
    rw [hlen] at hroom
    have hfirst : storeByte s.length (numberTag value) s = _ := storeByte_run (by omega)
    simp only [Bind.bind, hfirst]
    have hput : (put s.buffer s.length [numberTag value]).length = s.buffer.length :=
      length_put (by rw [List.length_singleton]; omega)
    rw [setFloat64, setBytes_run (by dsimp only; rw [hput, length_leBytes]; omega)]
    dsimp only
    rw [put_cons (by omega), numberBytes]

/-! ## Strings -/

/-- A string is measured up to the bound on a request, which a longer one passes. -/
lemma utf8LengthFrom_eq {bytes : Nat} (h : bytes ≤ maxBytes) (text : List UInt16) :
    utf8LengthFrom bytes text =
      if maxBytes < bytes + (Utf16.utf8 text).length then .error resourceLimit
      else .ok (bytes + (Utf16.utf8 text).length) := by
  fun_induction utf8LengthFrom bytes text with
  | case1 bytes => rw [Utf16.utf8_nil, List.length_nil, Nat.add_zero, if_neg (Nat.not_lt.mpr h)]
  | case2 bytes unit width hlimit =>
    rw [Utf16.utf8_single (by rintro _ _ ⟨⟩), Utf16.utf8_nil, List.append_nil,
      String.length_utf8EncodeChar, Utf16.utf8Size_single, if_pos hlimit]
  | case3 bytes unit width hlimit =>
    rw [Utf16.utf8_single (by rintro _ _ ⟨⟩), Utf16.utf8_nil, List.append_nil,
      String.length_utf8EncodeChar, Utf16.utf8Size_single, if_neg hlimit]
  | case4 bytes unit next rest hpair hlimit =>
    rw [Utf16.utf8_pair hpair, List.length_append, String.length_utf8EncodeChar]
    rw [Bool.and_eq_true] at hpair
    rw [Utf16.utf8Size_pair hpair.1 hpair.2, if_pos (by omega)]
  | case5 bytes unit next rest hpair hlimit ih =>
    rw [Utf16.utf8_pair hpair, List.length_append, String.length_utf8EncodeChar]
    rw [Bool.and_eq_true] at hpair
    rw [Utf16.utf8Size_pair hpair.1 hpair.2, ih (Nat.le_of_not_lt hlimit), Nat.add_assoc]
  | case6 bytes unit next rest hpair width hlimit =>
    rw [Utf16.utf8_single (by rintro _ _ ⟨⟩; exact Bool.eq_false_iff.mpr hpair), List.length_append,
      String.length_utf8EncodeChar, Utf16.utf8Size_single, if_pos (by omega)]
  | case7 bytes unit next rest hpair width hlimit ih =>
    rw [Utf16.utf8_single (by rintro _ _ ⟨⟩; exact Bool.eq_false_iff.mpr hpair), List.length_append,
      String.length_utf8EncodeChar, Utf16.utf8Size_single, ih (Nat.le_of_not_lt hlimit),
      Nat.add_assoc]

/-- The room a string is given holds it, and is refused only where the string does not fit. -/
lemma stringRoom_cases (start : Nat) (text : List UInt16) :
    (∃ room, stringRoom start text = .ok room ∧ (Utf16.utf8 text).length ≤ room ∧
      text.length ≤ room ∧ (maxBytes < start + room → maxBytes < start + (Utf16.utf8 text).length)) ∨
    (stringRoom start text = .error resourceLimit ∧
      maxBytes < start + (Utf16.utf8 text).length) := by
  have hle := Utf16.length_utf8_le text
  have hge := Utf16.length_le_utf8 text
  rw [stringRoom]
  split
  · rw [utf8Length, utf8LengthFrom_eq (Nat.zero_le _), Nat.zero_add]
    split
    · next hlimit => exact .inr ⟨rfl, by omega⟩
    · exact .inl ⟨_, rfl, Nat.le_refl _, hge, fun h => h⟩
  · next hfits => exact .inl ⟨_, rfl, by omega, by omega, fun h => absurd h (by omega)⟩

lemma encodeFitting_eq {room : Nat} {text : List Char}
    (h : (text.flatMap String.utf8EncodeChar).length ≤ room) :
    encodeFitting room text = text.flatMap String.utf8EncodeChar := by
  induction text generalizing room with
  | nil => rfl
  | cons c text ih =>
    rw [List.flatMap_cons, List.length_append, String.length_utf8EncodeChar] at h
    rw [encodeFitting, if_pos (by omega), ih (by omega), List.flatMap_cons]

lemma put_nil (l : List UInt8) (n : Nat) : put l n [] = l := by
  rw [put, List.length_nil, List.append_nil, Nat.add_zero, List.take_append_drop]

/-- The units before the first that is not ASCII, as they are copied. -/
lemma copyAscii_run (start : Nat) {written : Nat} {text : List UInt16} {s : Preflight}
    (h : start + written + text.length ≤ s.buffer.length) :
    ∃ ascii more, text = ascii ++ more ∧ (∀ unit ∈ ascii, unit.toNat < 0x80) ∧
      copyAscii start written text s = (.ok (written + ascii.length), { s with
        buffer := put s.buffer (start + written) (ascii.map UInt16.toUInt8) }) := by
  induction text generalizing written s with
  | nil =>
    refine ⟨[], [], rfl, fun _ hmem => (nomatch hmem), ?_⟩
    rw [List.map_nil, put_nil]
    rfl
  | cons code rest ih =>
    rw [List.length_cons] at h
    rw [copyAscii]
    split
    · refine ⟨[], code :: rest, rfl, fun _ hmem => (nomatch hmem), ?_⟩
      rw [List.map_nil, put_nil]
      rfl
    · next hascii =>
      have hput : (put s.buffer (start + written) [code.toUInt8]).length = s.buffer.length :=
        length_put (by rw [List.length_singleton]; omega)
      obtain ⟨ascii, more, rfl, hmem, hrun⟩ := @ih (written + 1)
        { s with buffer := put s.buffer (start + written) [code.toUInt8] }
        (by dsimp only; omega)
      refine ⟨code :: ascii, more, rfl, List.forall_mem_cons.mpr ⟨Nat.lt_of_not_le hascii, hmem⟩, ?_⟩
      simp only [Bind.bind]
      rw [storeByte_run (by omega)]
      dsimp only
      rw [hrun]
      dsimp only
      rw [← Nat.add_assoc, put_cons (by omega), List.length_cons, List.map_cons, Nat.add_assoc,
        Nat.add_comm 1]

/-- However a string is written, its bytes are where they belong, and those before them kept. -/
lemma stringBytes_ends {start room : Nat} {text : List UInt16} {s : Preflight}
    (hfits : (Utf16.utf8 text).length ≤ room) (hunits : text.length ≤ room)
    (hroom : start + room ≤ s.buffer.length) :
    (stringBytes start room text).Ends s
      (fun n s' => n = (Utf16.utf8 text).length ∧ s' = { s with buffer := s'.buffer } ∧
        s'.buffer.length = s.buffer.length ∧ s'.buffer.take start = s.buffer.take start ∧
        slice s'.buffer start (start + n) = Utf16.utf8 text)
      (fun _ _ => False) := by
  have hencode : ∀ t : Preflight, t.buffer.length = s.buffer.length →
      encodeInto text start room t = (.ok (Utf16.utf8 text).length, { t with
        buffer := put t.buffer start (Utf16.utf8 text) }) := by
    intro t ht
    have hfitting : encodeFitting (min room (t.buffer.length - start)) (Utf16.scalars text) =
        Utf16.utf8 text := encodeFitting_eq (by rw [← Utf16.utf8]; omega)
    unfold encodeInto
    simp only [Bind.bind, Effect.get, hfitting]
    rw [setBytes_run (by omega)]
    rfl
  have hput : ∀ {l x : List UInt8}, start + x.length ≤ l.length →
      (put l start x).take start = l.take start := by
    intro l x hl
    rw [put, List.append_assoc]
    exact List.take_left' (by rw [List.length_take]; omega)
  -- whatever was copied in place before, the encoder writes over it
  have hover : ∀ t : Preflight, t = { s with buffer := t.buffer } →
      t.buffer.length = s.buffer.length → t.buffer.take start = s.buffer.take start →
      (encodeInto text start room).Ends t
        (fun n s' => n = (Utf16.utf8 text).length ∧ s' = { s with buffer := s'.buffer } ∧
          s'.buffer.length = s.buffer.length ∧ s'.buffer.take start = s.buffer.take start ∧
          slice s'.buffer start (start + n) = Utf16.utf8 text) (fun _ _ => False) := by
    intro t ht hlen htake
    rw [Ends, hencode t hlen]
    refine ⟨rfl, by rw [ht], ?_, ?_, ?_⟩
    · exact (length_put (by omega)).trans hlen
    · exact (hput (by omega)).trans htake
    · exact slice_put_same (by omega) rfl
  rw [stringBytes, ends_bind, copyShort]
  split
  · obtain ⟨ascii, more, htext, hascii, hrun⟩ := @copyAscii_run start 0
      text s (by omega)
    have hcopied : (ascii.map UInt16.toUInt8).length ≤ text.length := by
      rw [List.length_map, htext, List.length_append]
      exact Nat.le_add_right _ _
    rw [Ends, hrun]
    dsimp only
    rw [Nat.zero_add, Nat.add_zero]
    split
    · exact hover _ rfl (length_put (by omega)) (hput (by omega))
    · next hall =>
      have hmore : more = [] := by
        have hlen := congrArg List.length htext
        rw [List.length_append] at hlen
        exact List.length_eq_zero_iff.mp (by omega)
      subst hmore
      rw [List.append_nil] at htext
      subst htext
      rw [Utf16.utf8_ascii hascii]
      refine ⟨(List.length_map ..).symm, rfl, length_put (by omega), hput (by omega), ?_⟩
      exact slice_put_same (by omega) (by rw [List.length_map])
  · next hlong =>
    rw [ends_pure]
    have hne : (0 : Nat) ≠ text.length := by
      intro hzero
      rw [← hzero] at hlong
      exact hlong (Nat.zero_le _)
    rw [if_pos hne]
    exact hover s rfl rfl rfl

def stringBody (text : List UInt16) : List UInt8 :=
  leBytes 4 (Utf16.utf8 text).length ++ Utf16.utf8 text

/-- A length written before the bytes it counts, once they are there. -/
lemma take_put_before {l x y : List UInt8} {n : Nat} (hl : n + 4 + x.length ≤ l.length)
    (hy : y.length = 4) (hx : slice l (n + 4) (n + 4 + x.length) = x) :
    (put l n y).take (n + 4 + x.length) = l.take n ++ (y ++ x) := by
  have hput : n + y.length ≤ l.length := by omega
  have hslice : slice (put l n y) (n + 4) (n + 4 + x.length) = x :=
    (slice_put_after hput (by omega)).trans hx
  have hfirst : (put l n y).take (n + 4) = l.take n ++ y := by
    rw [← hy]
    exact take_put hput
  rw [← take_append_slice (Nat.le_add_right (n + 4) x.length), hfirst, hslice, List.append_assoc]

lemma string_writes (text : List UInt16) : Writes (string (.string text)) (stringBody text)
    ((Utf16.utf8 text).length + stringOverhead) := by
  intro s hs
  have hbody : (stringBody text).length = 4 + (Utf16.utf8 text).length := by
    rw [stringBody, List.length_append, length_leBytes]
  rw [string, ends_bind, ends_get, ends_bind]
  rcases stringRoom_cases (s.length + 4) text with ⟨room, hstring, hfits, hunits, hover⟩ |
    ⟨hstring, hlimit⟩
  · rw [hstring, ends_ofExcept_ok, ends_bind]
    refine (makeRoom_ends hs.toValid).mono ?_ ?_
    · rintro _ s' ⟨hvalid, hwritten, hroom, heq⟩
      have hlen : s'.length = s.length := by rw [heq]
      rw [hvalid.capacity_eq] at hroom
      rw [ends_bind]
      refine (stringBytes_ends (s := s') hfits hunits (by omega)).mono ?_ (fun _ _ h => h.elim)
      rintro _ s'' ⟨rfl, heq', hbuffer, hbefore, hbytes⟩
      have hput : (put s''.buffer s.length (leBytes 4 (Utf16.utf8 text).length)).length =
          s''.buffer.length := length_put (by rw [length_leBytes]; omega)
      have hstart : s''.buffer.take s.length = s.written := by
        have htake := congrArg (List.take s.length) hbefore
        rw [List.take_take, List.take_take, Nat.min_eq_left (Nat.le_add_right _ _)] at htake
        rw [htake, ← hwritten, written, hlen]
      rw [ends_bind, setUint32, ends_of_run (setBytes_run (by rw [length_leBytes]; omega)), ends_bind,
        setLength, ends_modify]
      -- the string is written, and only what it retains remains to be counted
      have hwrote : s.Wrote (stringBody text) 0 { s'' with
          buffer := put s''.buffer s.length (leBytes 4 (Utf16.utf8 text).length)
          length := s.length + 4 + (Utf16.utf8 text).length } := by
        have hcap : s''.capacity = s'.capacity := by rw [heq']
        have hcapacity := hvalid.capacity_eq
        refine ⟨⟨⟨⟨?_, ?_, ?_⟩, ?_⟩, ?_⟩, ?_, ?_, ?_, ?_⟩
        · rw [hput, hbuffer, hcap, hcapacity]
        · exact hcap ▸ hvalid.initial_le
        · exact hcap ▸ hvalid.le_max
        · dsimp only
          omega
        · rw [heq', heq]
          exact hs.retained_le
        · rw [stringBody, ← hstart]
          exact take_put_before (by omega) (length_leBytes 4 _) hbytes
        · rw [heq', heq]
          rfl
        · rw [heq', heq]
        · rw [heq', heq]
      refine (retain_writes _ _ hwrote.writing).mono ?_ ?_
      · intro _ t ht
        have htrans := hwrote.trans ht
        rwa [List.append_nil, Nat.zero_add] at htrans
      · rintro e t ⟨he, ht, hlimit⟩
        rw [hwrote.length_eq hs.toValid, hwrote.retained_eq, List.length_nil] at hlimit
        exact ⟨he, ht, by omega⟩
    · rintro e s' ⟨he, rfl, hlimit⟩
      exact ⟨he, hs.toValid, .inl (by have := hover (by omega); omega)⟩
  · rw [hstring, ends_ofExcept_error]
    exact ⟨rfl, hs.toValid, .inl (by omega)⟩

lemma beginValues_writes {count : Nat} (h : count ≤ maxOperations) :
    Writes (beginValues count) (leBytes 4 count) (count * rustValueBytes + vectorOverhead) := by
  rw [beginValues, if_neg (Nat.not_lt.mpr h)]
  exact (retain_writes _).bind (u32_writes count)

lemma beginObject_writes {count : Nat} (h : count ≤ maxOperations) :
    Writes (beginObject count) (jsonObject :: leBytes 4 count) 0 := by
  rw [beginObject, if_neg (Nat.not_lt.mpr h)]
  exact (u8_writes _).bind (u32_writes count)

end Preflight
end TinyJoin
