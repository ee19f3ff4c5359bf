import TinyJoin.Structured
import TinyJoin.Lib.Simulation

/-! The request reader on any bytes, which stays within them, and on bytes written for it. -/
namespace TinyJoin
open Bytes Effect
namespace Structured

/-! ## Any bytes -/

/-- From a position within the bytes, a step returns in `Q` and within them, or finds them invalid. -/
def Safe {α : Type} (bytes : List UInt8) (m : Read α) (Q : α → Prop) : Prop :=
  ∀ start, start ≤ bytes.length →
    m.Ends start (fun a stop => Q a ∧ stop ≤ bytes.length) (fun e _ => e = invalid)

section Safe
variable {α β : Type} {bytes : List UInt8} {m : Read α} {Q : α → Prop} {R : β → Prop}

lemma safe_pure {a : α} (h : Q a) : Safe bytes (pure a : Read α) Q := fun _ hstart => ⟨h, hstart⟩

lemma safe_invalid : Safe bytes (fail invalid : Read α) Q := fun _ _ => rfl

lemma Safe.bind {f : α → Read β} (hm : Safe bytes m Q) (hf : ∀ a, Q a → Safe bytes (f a) R) :
    Safe bytes (m >>= f) R := by
  intro start hstart
  rw [ends_bind]
  exact (hm start hstart).mono (fun a stop h => hf a h.1 stop h.2) (fun _ _ h => h)

lemma safe_take (count : Nat) : Safe bytes (take bytes count) (fun taken => taken.length = count) := by
  intro start hstart
  rw [take, ends_bind, ends_get]
  dsimp only
  split
  · next h =>
    have hslice : start ≤ start + count ∧ start + count ≤ bytes.length := ⟨Nat.le_add_right _ _, h.2⟩
    rw [ends_bind, sliceAt, if_pos hslice, ends_pure, ends_bind, ends_modify, ends_pure]
    refine ⟨?_, h.2⟩
    rw [length_slice h.2, Nat.add_sub_cancel_left]
  · exact rfl

lemma safe_flag : Safe bytes (flag bytes) (fun _ => True) := by
  refine (safe_take 1).bind fun taken _ => ?_
  split
  · exact safe_pure trivial
  · exact safe_pure trivial
  · exact safe_invalid

lemma safe_u32 : Safe bytes (u32 bytes) (fun _ => True) := by
  refine (safe_take 4).bind fun taken hlen => ?_
  match taken, hlen with
  | [_, _, _, _], _ => exact safe_pure trivial

lemma safe_f64 : Safe bytes (f64 bytes) (fun _ => True) := by
  refine (safe_take 8).bind fun raw hlen => ?_
  rw [if_pos hlen]
  exact safe_pure trivial

lemma safe_string : Safe bytes (string bytes) (fun _ => True) := by
  refine safe_u32.bind fun length _ => ?_
  refine (safe_take length).bind fun taken _ => ?_
  split
  · exact safe_pure trivial
  · exact safe_invalid

lemma safe_number (tag : Nat) : Safe bytes (number bytes tag) (fun _ => True) := by
  refine safe_f64.bind fun value _ => ?_
  split
  · split
    · exact safe_invalid
    · exact safe_pure trivial
  · split
    · exact safe_pure trivial
    · exact safe_invalid

lemma safe_left : Safe bytes (left bytes) (fun _ => True) := by
  intro start hstart
  rw [left, ends_bind, ends_get, if_pos hstart]
  exact ⟨trivial, hstart⟩

lemma safe_count : Safe bytes (count bytes) (fun _ => True) := by
  refine safe_u32.bind fun count _ => ?_
  refine safe_left.bind fun left _ => ?_
  split
  · exact safe_invalid
  · exact safe_pure trivial

lemma safe_tag : Safe bytes (tag bytes) (fun _ => True) := by
  refine (safe_take 1).bind fun taken hlen => ?_
  match taken, hlen with
  | [_], _ => exact safe_pure trivial

lemma safe_times {body : α → Read α} (h : ∀ built, Safe bytes (body built) (fun _ => True))
    (count : Nat) (built : α) : Safe bytes (times body count built) (fun _ => True) := by
  induction count generalizing built with
  | zero => exact safe_pure trivial
  | succ count ih =>
    rw [times]
    exact (h built).bind fun built' _ => ih built'

/-- A value at any depth: every level down is one nearer to the limit. -/
lemma safe_value (depth : Nat) : Safe bytes (value bytes depth) (fun _ => True) := by
  by_cases hdepth : maxDepth < depth
  · rw [value, dif_pos hdepth]
    exact safe_invalid
  · have hdeeper := safe_value (depth + 1)
    rw [value, dif_neg hdepth]
    refine safe_tag.bind fun tag _ => ?_
    split
    · exact safe_pure trivial
    split
    · exact safe_pure trivial
    split
    · exact safe_pure trivial
    split
    · exact safe_number tag
    split
    · exact safe_string.bind fun _ _ => safe_pure trivial
    split
    · refine safe_count.bind fun count _ => ?_
      refine (safe_times (fun values => ?_) count []).bind fun _ _ => safe_pure trivial
      exact hdeeper.bind fun _ _ => safe_pure trivial
    split
    · refine safe_u32.bind fun count _ => ?_
      refine (safe_times (fun object => ?_) count []).bind fun _ _ => safe_pure trivial
      refine safe_string.bind fun _ _ => ?_
      exact hdeeper.bind fun _ _ => safe_pure trivial
    · exact safe_invalid
termination_by maxDepth + 1 - depth

lemma safe_values : Safe bytes (values bytes) (fun _ => True) := by
  refine safe_count.bind fun count _ => ?_
  refine safe_times (fun values => ?_) count []
  exact (safe_value 0).bind fun _ _ => safe_pure trivial

lemma safe_finish : Safe bytes (finish bytes) (fun _ => True) := by
  intro start hstart
  rw [finish, ends_bind, ends_get]
  split
  · exact ⟨trivial, hstart⟩
  · exact rfl

lemma safe_arguments (operation : Nat) (bytes : List UInt8) : Safe bytes (arguments operation bytes) (fun _ => True) := by
  rw [arguments]
  split
  · refine safe_flag.bind fun _ _ => safe_string.bind fun _ _ => safe_values.bind fun _ _ => ?_
    exact safe_finish.bind fun _ _ => safe_pure trivial
  split
  · refine safe_flag.bind fun _ _ => safe_string.bind fun _ _ => ?_
    exact safe_finish.bind fun _ _ => safe_pure trivial
  split
  · refine safe_string.bind fun _ _ => ?_
    exact safe_finish.bind fun _ _ => safe_pure trivial
  split
  · refine safe_flag.bind fun _ _ => safe_u32.bind fun _ _ => safe_values.bind fun _ _ => ?_
    exact safe_finish.bind fun _ _ => safe_pure trivial
  split
  · refine safe_u32.bind fun _ _ => ?_
    exact safe_finish.bind fun _ _ => safe_pure trivial
  split
  · refine safe_flag.bind fun _ _ => safe_values.bind fun schema _ => ?_
    refine safe_finish.bind fun _ _ => ?_
    split
    · exact safe_pure trivial
    · exact safe_invalid
  split
  · exact safe_finish.bind fun _ _ => safe_pure trivial
  · exact safe_invalid

end Safe

/-! ## Bytes written for the reader -/

/-- At `bytes`, wherever they stand, the reader takes all of them and returns `a`. -/
def Reads {α : Type} (bytes : List UInt8) (m : List UInt8 → Read α) (a : α) : Prop :=
  ∀ before after : List UInt8, (before ++ bytes ++ after).length ≤ maxUsize →
    m (before ++ bytes ++ after) before.length = (.ok a, before.length + bytes.length)

section Reads
variable {α β : Type} {bytes bytes' : List UInt8} {m : List UInt8 → Read α} {a : α} {b : β}

lemma reads_pure : Reads [] (fun _ => pure a) a := fun _ _ _ => rfl

lemma Reads.bind {f : α → List UInt8 → Read β} (hm : Reads bytes m a) (hf : Reads bytes' (f a) b) :
    Reads (bytes ++ bytes') (fun all => m all >>= fun a => f a all) b := by
  intro before after hlen
  have hleft : before ++ (bytes ++ bytes') ++ after = before ++ bytes ++ (bytes' ++ after) := by
    simp only [List.append_assoc]
  have hright : before ++ (bytes ++ bytes') ++ after = (before ++ bytes) ++ bytes' ++ after := by
    simp only [List.append_assoc]
  have hfirst : m (before ++ (bytes ++ bytes') ++ after) before.length =
      (.ok a, before.length + bytes.length) := by
    rw [hleft] at hlen ⊢
    exact hm before (bytes' ++ after) hlen
  have hsecond : f a (before ++ (bytes ++ bytes') ++ after) (before ++ bytes).length =
      (.ok b, (before ++ bytes).length + bytes'.length) := by
    rw [hright] at hlen ⊢
    exact hf (before ++ bytes) after hlen
  rw [List.length_append] at hsecond
  dsimp only
  rw [bind_of_run hfirst, hsecond, List.length_append, Nat.add_assoc]

lemma reads_take (bytes : List UInt8) : Reads bytes (fun all => take all bytes.length) bytes := by
  intro before after hlen
  have hstop : before.length + bytes.length ≤ (before ++ bytes ++ after).length := by
    simp only [List.length_append]
    omega
  have hslice : slice (before ++ bytes ++ after) before.length (before.length + bytes.length) =
      bytes := by
    rw [List.append_assoc]
    exact slice_of_append rfl rfl
  change take (before ++ bytes ++ after) bytes.length before.length = _
  have hrun : take (before ++ bytes ++ after) bytes.length before.length =
      (if before.length + bytes.length ≤ maxUsize ∧
          before.length + bytes.length ≤ (before ++ bytes ++ after).length then do
        let taken ← sliceAt (before ++ bytes ++ after) before.length (before.length + bytes.length)
        Effect.modify (fun _ => before.length + bytes.length)
        pure taken
      else fail invalid : Read (List UInt8)) before.length := rfl
  rw [hrun, if_pos ⟨by omega, hstop⟩]
  have hat : sliceAt (before ++ bytes ++ after) before.length (before.length + bytes.length) =
      (pure bytes : Read (List UInt8)) := by
    rw [sliceAt, if_pos ⟨Nat.le_add_right _ _, hstop⟩, hslice]
  rw [hat]
  rfl

lemma reads_take_of_length {count : Nat} (h : bytes.length = count) :
    Reads bytes (fun all => take all count) bytes := by
  subst h
  exact reads_take bytes

/-- A step behind which nothing more is taken. -/
lemma Reads.bind_nil {f : α → List UInt8 → Read β} (hm : Reads bytes m a) (hf : Reads [] (f a) b) :
    Reads bytes (fun all => m all >>= fun a => f a all) b := by
  have hboth := hm.bind hf
  rwa [List.append_nil] at hboth

lemma reads_flag (b : Bool) : Reads [if b then 1 else 0] flag b := by
  unfold flag
  refine (reads_take [if b then (1 : UInt8) else 0]).bind_nil ?_
  cases b <;> exact reads_pure

lemma reads_u32 {n : Nat} (h : n < 2 ^ 32) : Reads (leBytes 4 n) u32 n := by
  have hn : ofLeBytes (leBytes 4 n) = n := ofLeBytes_leBytes_of_lt h
  obtain ⟨b₀, b₁, b₂, b₃, hbytes⟩ : ∃ b₀ b₁ b₂ b₃, leBytes 4 n = [b₀, b₁, b₂, b₃] :=
    ⟨_, _, _, _, rfl⟩
  rw [hbytes] at hn ⊢
  unfold u32
  refine (reads_take [b₀, b₁, b₂, b₃]).bind_nil ?_
  dsimp only
  rw [hn]
  exact reads_pure

lemma reads_f64 (f : F64) : Reads (leBytes 8 f.bits.toNat) f64 f := by
  have hbits : UInt64.ofNat (ofLeBytes (leBytes 8 f.bits.toNat)) = f.bits := by
    rw [ofLeBytes_leBytes_of_lt (by exact f.bits.toNat_lt), UInt64.ofNat_toNat]
  have hf64 := (reads_take_of_length (length_leBytes 8 f.bits.toNat)).bind_nil (b := f)
    (f := fun raw _ => if raw.length = 8 then pure ⟨UInt64.ofNat (ofLeBytes raw)⟩ else fail .panic)
    (by rw [if_pos (length_leBytes 8 _), hbits]; exact reads_pure)
  exact hf64

lemma reads_string (s : String) (h : (textBytes s).length < 2 ^ 32) :
    Reads (leBytes 4 (textBytes s).length ++ textBytes s) string s := by
  unfold string
  refine (reads_u32 h).bind ((reads_take (textBytes s)).bind_nil ?_)
  rw [fromUtf8_textBytes]
  exact reads_pure

lemma reads_tag (tag : UInt8) : Reads [tag] Structured.tag tag.toNat := by
  unfold Structured.tag
  exact (reads_take [tag]).bind_nil reads_pure

/-- The count of a list, before as many bytes at least. -/
lemma reads_count {n : Nat} {f : Nat → List UInt8 → Read β} (hn : n < 2 ^ 32)
    (hbytes : n ≤ bytes'.length) (hf : Reads bytes' (f n) b) :
    Reads (leBytes 4 n ++ bytes') (fun all => count all >>= fun n => f n all) b := by
  intro before after hlen
  have hu32 : u32 (before ++ (leBytes 4 n ++ bytes') ++ after) before.length =
      (.ok n, before.length + 4) := by
    have hread := reads_u32 hn before (bytes' ++ after)
    rw [length_leBytes] at hread
    simp only [List.append_assoc] at hread hlen ⊢
    exact hread hlen
  have hleft : left (before ++ (leBytes 4 n ++ bytes') ++ after) (before.length + 4) =
      (.ok (bytes'.length + after.length), before.length + 4) := by
    have hall : (before ++ (leBytes 4 n ++ bytes') ++ after).length =
        before.length + 4 + (bytes'.length + after.length) := by
      simp only [List.length_append, length_leBytes]
      omega
    change (if before.length + 4 ≤ (before ++ (leBytes 4 n ++ bytes') ++ after).length then
      pure ((before ++ (leBytes 4 n ++ bytes') ++ after).length - (before.length + 4))
      else fail .panic : Read Nat) (before.length + 4) = _
    rw [if_pos (by omega), hall, Nat.add_sub_cancel_left]
    rfl
  have hcount : count (before ++ (leBytes 4 n ++ bytes') ++ after) before.length =
      (.ok n, before.length + 4) := by
    rw [count, bind_of_run hu32, bind_of_run hleft, if_neg (by omega)]
    rfl
  have hrest := hf (before ++ leBytes 4 n) after (by
    simp only [List.append_assoc, List.length_append] at hlen ⊢
    omega)
  rw [List.length_append, length_leBytes] at hrest
  dsimp only
  rw [bind_of_run hcount, List.length_append, length_leBytes, ← Nat.add_assoc]
  simp only [List.append_assoc] at hrest ⊢
  exact hrest

/-- A step whose result is only put together. -/
lemma reads_map (g : α → β) (h : Reads bytes m a) :
    Reads bytes (fun all => m all >>= fun a => pure (g a)) (g a) :=
  h.bind_nil (f := fun a _ => pure (g a)) reads_pure

/-! ## Whole requests -/

/-- At the end of a request, the reader takes all that is left and returns `a`. -/
def ReadsLast (bytes : List UInt8) (m : List UInt8 → Read α) (a : α) : Prop :=
  ∀ before : List UInt8, (before ++ bytes).length ≤ maxUsize →
    (m (before ++ bytes) before.length).1 = .ok a

lemma Reads.last {f : α → List UInt8 → Read β} (hm : Reads bytes m a)
    (hf : ReadsLast bytes' (f a) b) :
    ReadsLast (bytes ++ bytes') (fun all => m all >>= fun a => f a all) b := by
  intro before hlen
  rw [← List.append_assoc] at hlen ⊢
  have hlast := hf (before ++ bytes) hlen
  rw [List.length_append] at hlast
  dsimp only
  rw [bind_of_run (hm before bytes' hlen)]
  exact hlast

/-- Nothing follows the last of what is read. -/
lemma Reads.finished {f : α → Read β} (hm : Reads bytes m a) (hf : ∀ start, (f a start).1 = .ok b) :
    ReadsLast bytes (fun all => m all >>= fun a => finish all >>= fun _ => f a) b := by
  intro before hlen
  have hrun := hm before [] (by rwa [List.append_nil])
  rw [List.append_nil] at hrun
  have hfinish : finish (before ++ bytes) (before.length + bytes.length) =
      (.ok (), before.length + bytes.length) := by
    change (if before.length + bytes.length = (before ++ bytes).length then pure () else fail invalid :
      Read Unit) (before.length + bytes.length) = _
    rw [if_pos List.length_append.symm]
    rfl
  dsimp only
  rw [bind_of_run hrun, bind_of_run hfinish]
  exact hf _

end Reads

section Arguments
variable {target valueBytes : List UInt8} {sql : String} {id : Nat} {params : List Value}

lemma readsLast_executeSql (arrayRows : Bool) (hsql : Reads target string sql)
    (hvalues : Reads valueBytes values params) :
    ReadsLast ([if arrayRows then 1 else 0] ++ (target ++ valueBytes)) (arguments opExecuteSql)
      (.executeSql arrayRows sql params) :=
  (reads_flag arrayRows).last (hsql.last (hvalues.finished
    (f := fun params => pure (Arguments.executeSql arrayRows sql params)) fun _ => rfl)
    (f := fun sql all => values all >>= fun params => finish all >>= fun _ =>
      pure (Arguments.executeSql arrayRows sql params)))
    (f := fun arrayRows all => string all >>= fun sql => values all >>= fun params =>
      finish all >>= fun _ => pure (Arguments.executeSql arrayRows sql params))

lemma readsLast_executePrepared (arrayRows : Bool) (hid : Reads target u32 id)
    (hvalues : Reads valueBytes values params) :
    ReadsLast ([if arrayRows then 1 else 0] ++ (target ++ valueBytes)) (arguments opExecutePrepared)
      (.executePrepared arrayRows id params) :=
  (reads_flag arrayRows).last (hid.last (hvalues.finished
    (f := fun params => pure (Arguments.executePrepared arrayRows id params)) fun _ => rfl)
    (f := fun id all => values all >>= fun params => finish all >>= fun _ =>
      pure (Arguments.executePrepared arrayRows id params)))
    (f := fun arrayRows all => u32 all >>= fun id => values all >>= fun params =>
      finish all >>= fun _ => pure (Arguments.executePrepared arrayRows id params))

lemma readsLast_execSql (arrayRows : Bool) (hsql : Reads target string sql) :
    ReadsLast ([if arrayRows then 1 else 0] ++ target) (arguments opExecSql)
      (.execSql arrayRows sql) :=
  (reads_flag arrayRows).last (hsql.finished
    (f := fun sql => pure (Arguments.execSql arrayRows sql)) fun _ => rfl)
    (f := fun arrayRows all => string all >>= fun sql => finish all >>= fun _ =>
      pure (Arguments.execSql arrayRows sql))

lemma readsLast_prepareSql (hsql : Reads target string sql) :
    ReadsLast target (arguments opPrepareSql) (.prepareSql sql) :=
  hsql.finished (f := fun sql => pure (Arguments.prepareSql sql)) fun _ => rfl

lemma readsLast_closePrepared (hid : Reads target u32 id) :
    ReadsLast target (arguments opClosePrepared) (.closePrepared id) :=
  hid.finished (f := fun id => pure (Arguments.closePrepared id)) fun _ => rfl

lemma readsLast_setSchema (drop : Bool) {schema : Value} (hvalues : Reads valueBytes values [schema]) :
    ReadsLast ([if drop then 1 else 0] ++ valueBytes) (arguments opSetSchema)
      (.setSchema drop schema) :=
  (reads_flag drop).last (hvalues.finished fun _ => rfl)

end Arguments
end Structured
end TinyJoin
