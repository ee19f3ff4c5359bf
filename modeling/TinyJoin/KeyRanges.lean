import TinyJoin.Lib.Leading
import TinyJoin.LikePrefix
import TinyJoin.RecordRoundTrip
import TinyJoin.Storage

/-! Ranges of keys by their leading component: a cursor that starts where a range does meets the keys of
the range before any other. -/
namespace TinyJoin
open Bytes OrderCode

/-! ### Bounds -/

/-- The bounds of a range cleave keys as they cleave leading components: no component is a proper prefix
of one, and no upper bound is a proper prefix of a component. -/
structure KeyRange.Bounds (dataType : ColumnType) (range : KeyRange) : Prop where
  lower : ∀ bound, range.lower = some bound →
    ∀ k, KeyValue.Typed dataType k → Cleaves bound k.code
  upper : ∀ bound, range.upper = some bound → ∀ k, KeyValue.Typed dataType k →
    Before k.code bound ∨ k.code = bound ∨ Before bound k.code

/-- Components of one type are apart, or the same. -/
lemma code_cases {dataType : ColumnType} {a b : KeyValue} (ha : KeyValue.Typed dataType a)
    (hb : KeyValue.Typed dataType b) : Before a.code b.code ∨ a.code = b.code ∨ Before b.code a.code := by
  have hspelled := KeyValue.spelled ha hb
  cases hcompare : a.compare b with
  | lt =>
    rw [hcompare] at hspelled
    exact .inl hspelled
  | eq =>
    rw [hcompare] at hspelled
    exact .inr (.inl hspelled)
  | gt =>
    rw [hcompare] at hspelled
    exact .inr (.inr hspelled)

/-- A value a column is compared with is encoded as a component. -/
lemma code_of_encodeKeyBound {dataType : ColumnType} {value : Value} {bound : List UInt8}
    (h : encodeKeyBound dataType value = .ok bound) :
    ∃ k, KeyValue.Typed dataType k ∧ bound = k.code := by
  have hcode := encodeComponent_eq [] dataType value "" ""
  rw [encodeKeyBound] at h
  rw [h] at hcode
  obtain ⟨k, hk, hbound⟩ := Option.map_eq_some_iff.mp hcode.symm
  exact ⟨k, KeyValue.typed_of_ofValue hk, hbound.symm⟩

/-- A text's component goes on from the escaped bytes it starts with, or parts from them. -/
lemma textCode_cases (start text : List UInt8) :
    (∃ rest, text = start ++ rest ∧ textCode text = escapeZeros start ++ textCode rest) ∨
      Before (textCode text) (escapeZeros start) ∨ Before (escapeZeros start) (textCode text) := by
  induction start generalizing text with
  | nil => exact .inl ⟨text, rfl, rfl⟩
  | cons b start ih =>
    rw [escapeZeros_cons]
    cases text with
    | nil =>
      right
      left
      split
      · next hzero =>
        rw [hzero]
        exact .there (.here (by decide))
      · next hzero => exact .here (uint8_pos_of_ne hzero)
    | cons a text =>
      have hhead : ∀ c, ∃ more, (if c = 0 then [c, textEscapedZero] else [c]) = c :: more := by
        intro c
        split <;> exact ⟨_, rfl⟩
      have hcode : textCode (a :: text) = (if a = 0 then [a, textEscapedZero] else [a]) ++ textCode text := by
        rw [textCode, escapeZeros_cons, List.append_assoc]
        rfl
      rcases lt_trichotomy a b with hlt | rfl | hlt
      · obtain ⟨more, hmore⟩ := hhead a
        obtain ⟨more', hmore'⟩ := hhead b
        rw [hcode, hmore, hmore']
        exact .inr (.inl (.here hlt))
      · rw [hcode]
        rcases ih text with ⟨rest, rfl, hrest⟩ | h | h
        · exact .inl ⟨rest, rfl, by rw [hrest, List.append_assoc]⟩
        · exact .inr (.inl (h.prepend _))
        · exact .inr (.inr (h.prepend _))
      · obtain ⟨more, hmore⟩ := hhead a
        obtain ⟨more', hmore'⟩ := hhead b
        rw [hcode, hmore, hmore']
        exact .inr (.inr (.here hlt))

/-- The bounds that texts with a prefix lie between cleave keys of text. -/
lemma cleaves_textPrefix {start : String} {lower upper : List UInt8}
    (h : encodeTextPrefixBounds start = .ok (lower, upper)) {k : KeyValue}
    (hk : KeyValue.Typed .text k) :
    Cleaves lower k.code ∧ (Before k.code upper ∨ k.code = upper ∨ Before upper k.code) := by
  rw [LikePattern.encodeTextPrefixBounds_eq] at h
  cases h
  cases k with
  | text text =>
    have hcode : KeyValue.code (.text text) = textCode (textBytes text) := by
      simp [KeyValue.code, pushTextComponent_eq]
    rw [hcode]
    rcases textCode_cases (textBytes start) (textBytes text) with ⟨rest, hrest, hsame⟩ | h | h
    · rw [hsame]
      refine ⟨.inr (.inl (List.prefix_append _ _)), .inl ((LikePattern.textCode_before_255 ?_).prepend _)⟩
      intro byte hbyte
      apply LikePattern.textBytes_lt_255 text
      rw [hrest]
      exact List.mem_append_right _ hbyte
    · refine ⟨.inl h, .inl ?_⟩
      have happend := h.append [] [0xff]
      rwa [List.append_nil] at happend
    · refine ⟨.inr (.inr h), .inr (.inr ?_)⟩
      have happend := h.append [0xff] []
      rwa [List.append_nil] at happend
  | _ => cases hk

/-- A bound as a predicate's term sets it on a column of a type: a component, or one of those that a
pattern's prefix has its texts between. -/
inductive LowerBound (dataType : ColumnType) (bound : List UInt8) : Prop where
  | value (value : Value) : encodeKeyBound dataType value = .ok bound → LowerBound dataType bound
  | text (start : String) (upper : List UInt8) : dataType = .text →
      encodeTextPrefixBounds start = .ok (bound, upper) → LowerBound dataType bound

inductive UpperBound (dataType : ColumnType) (bound : List UInt8) : Prop where
  | value (value : Value) : encodeKeyBound dataType value = .ok bound → UpperBound dataType bound
  | text (start : String) (lower : List UInt8) : dataType = .text →
      encodeTextPrefixBounds start = .ok (lower, bound) → UpperBound dataType bound

/-- The bounds that terms set cleave keys. -/
lemma KeyRange.bounds_of_terms {dataType : ColumnType} {range : KeyRange}
    (hlower : ∀ bound, range.lower = some bound → LowerBound dataType bound)
    (hupper : ∀ bound, range.upper = some bound → UpperBound dataType bound) :
    range.Bounds dataType := by
  constructor
  · intro bound hbound k hk
    cases hlower bound hbound with
    | value value hvalue =>
      obtain ⟨other, hother, rfl⟩ := code_of_encodeKeyBound hvalue
      exact cleaves_of_cases (code_cases hk hother)
    | text start upper htext hbounds =>
      rw [htext] at hk
      exact (cleaves_textPrefix hbounds hk).1
  · intro bound hbound k hk
    cases hupper bound hbound with
    | value value hvalue =>
      obtain ⟨other, hother, rfl⟩ := code_of_encodeKeyBound hvalue
      exact code_cases hk hother
    | text start lower htext hbounds =>
      rw [htext] at hk
      exact (cleaves_textPrefix hbounds hk).2

/-! ### Keys -/

/-- A key that a component of a type leads. -/
def LedBy (dataType : ColumnType) (component key : List UInt8) : Prop :=
  ∃ k rest, KeyValue.Typed dataType k ∧ component = k.code ∧ key = component ++ rest

lemma leadingKeyComponent_eq {dataType : ColumnType} {component key : List UInt8}
    (h : LedBy dataType component key) : leadingKeyComponent key dataType = .ok component := by
  obtain ⟨k, rest, hk, rfl, rfl⟩ := h
  have hend := (component_read hk [] rest).1
  simp only [List.nil_append, List.length_nil, Nat.zero_add] at hend
  rw [leadingKeyComponent, hend]
  exact congrArg Except.ok List.take_left

/-- Incrementing the last byte that can be leaves out those behind it, which are all the greatest. -/
lemma incremented_cases (reversed : List UInt8) :
    (KeyRange.incremented reversed = none ∧ ∀ byte ∈ reversed, byte = 255) ∨
      ∃ p a tail, reversed.reverse = p ++ a :: tail ∧ (∀ byte ∈ tail, byte = 255) ∧ a < 255 ∧
        KeyRange.incremented reversed = some (p ++ [a + 1]) := by
  induction reversed with
  | nil => exact .inl ⟨rfl, List.forall_mem_nil _⟩
  | cons last rest ih =>
    rw [KeyRange.incremented]
    by_cases hlast : last < 255
    · rw [if_pos hlast]
      refine .inr ⟨rest.reverse, last, [], List.reverse_cons, List.forall_mem_nil _, hlast, ?_⟩
      rw [List.reverse_cons]
    · have hgreatest : last = 255 := by
        rw [UInt8.lt_iff_toNat_lt] at hlast
        have hlt : last.toNat < 256 := last.toNat_lt_size
        exact UInt8.toNat_inj.mp (by change last.toNat = 255; change ¬last.toNat < 255 at hlast; omega)
      rw [if_neg hlast]
      rcases ih with ⟨hnone, hall⟩ | ⟨p, a, tail, hreverse, htail, ha, hsome⟩
      · exact .inl ⟨hnone, List.forall_mem_cons.mpr ⟨hgreatest, hall⟩⟩
      · refine .inr ⟨p, a, tail ++ [last], ?_, ?_, ha, hsome⟩
        · rw [List.reverse_cons, hreverse, List.append_assoc]
          rfl
        · exact List.forall_mem_append.mpr ⟨htail, List.forall_mem_singleton.mpr hgreatest⟩

lemma le_255 (byte : UInt8) : byte ≤ 255 := by
  rw [UInt8.le_iff_toNat_le]
  have hlt : byte.toNat < 256 := byte.toNat_lt_size
  change byte.toNat ≤ 255
  omega

lemma succ_le_of_lt {a b : UInt8} (ha : a < 255) : a < a + 1 ∧ (a < b → a + 1 ≤ b) := by
  rw [UInt8.lt_iff_toNat_lt] at ha
  change a.toNat < 255 at ha
  have hsucc : (a + 1).toNat = a.toNat + 1 := by
    rw [UInt8.toNat_add]
    change (a.toNat + 1) % 256 = _
    omega
  rw [UInt8.lt_iff_toNat_lt, UInt8.lt_iff_toNat_lt, UInt8.le_iff_toNat_le, hsucc]
  omega

namespace KeyRange.Bounds
variable {dataType : ColumnType} {range : KeyRange} {component key other otherKey : List UInt8}

/-- A cursor forward from where the range starts meets the keys that its lower bound admits. -/
lemma start_le_iff (h : range.Bounds dataType) (hkey : LedBy dataType component key) :
    range.start ≤ key ↔ range.lower.all (fun lower => lower ≤ component) = true := by
  obtain ⟨k, rest, hk, rfl, rfl⟩ := hkey
  rw [start]
  cases hlower : range.lower with
  | none => exact iff_of_true (not_lt.mp (List.not_lt_nil _)) rfl
  | some bound =>
    rw [Option.getD_some, Option.all_some, decide_eq_true_iff]
    exact (h.lower bound hlower k hk).le_append_iff rest

/-- A cursor backward from where the range stops meets the keys that its upper bound admits. -/
lemma lt_stop_iff (h : range.Bounds dataType) (hkey : LedBy dataType component key) :
    (∀ stop, range.stop = some stop → key < stop) ↔
      range.upper.all (fun upper => component ≤ upper) = true := by
  obtain ⟨k, rest, hk, rfl, rfl⟩ := hkey
  rw [stop]
  cases hupper : range.upper with
  | none =>
    refine iff_of_true ?_ rfl
    intro stop hstop
    cases hstop
  | some bound =>
    rw [Option.bind_some, Option.all_some, decide_eq_true_iff]
    have hcases := h.upper bound hupper k hk
    rcases incremented_cases bound.reverse with ⟨hnone, hall⟩ | ⟨p, a, tail, hreverse, htail, ha, hsome⟩
    · rw [hnone]
      refine iff_of_true ?_ ?_
      · intro stop hstop
        cases hstop
      · refine le_of_greatest ?_ hcases
        intro byte hbyte other
        rw [hall byte (List.mem_reverse.mpr hbyte)]
        exact le_255 other
    · rw [List.reverse_reverse] at hreverse
      subst hreverse
      rw [hsome]
      have hnext : ∀ byte, a < byte → a + 1 ≤ byte := fun byte => (succ_le_of_lt ha).2
      constructor
      · intro hstop
        rcases hcases with hbefore | heq | hbefore
        · exact hbefore.lt.le
        · exact heq.le
        · have hle := le_append_of_before rest (fun byte hbyte other => htail byte hbyte ▸ le_255 other)
            hnext hbefore
          exact absurd (hstop _ rfl) hle.not_gt
      · intro hle stop hstop
        cases hstop
        rcases hcases with hbefore | heq | hbefore
        · exact append_lt_of_before (@succ_le_of_lt a a ha).1 hbefore
        · rw [heq]
          exact append_lt_of_eq (@succ_le_of_lt a a ha).1
        · exact absurd hle hbefore.lt.not_ge

end KeyRange.Bounds

end TinyJoin
