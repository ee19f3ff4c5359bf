import TinyJoin.PreflightPaths
import TinyJoin.ProtocolCheck
import TinyJoin.StructuredRead

/-! Requests across the bridge: what the writer wrote of a request that passed the check, the engine
reads back. -/
namespace TinyJoin
open Bytes

mutual
/-- The value the engine is to read: an integer where a number is a safe integer, and a map where
a key's last entry counts. -/
def JsValue.toValue : JsValue → Value
  | .null => .null
  | .bool b => .bool b
  | .number f => if f.isSafeInteger then .ofI64 f.toInt else .ofF64 f
  | .string text => .string (Utf16.lossy text)
  | .array _ items => .array (JsValue.toValues items)
  | .object _ _ entries => .object (JsValue.toEntries [] entries)
  | .undefined | .hole | .other => .null

def JsValue.toValues : List JsValue → List Value
  | [] => []
  | item :: rest => item.toValue :: JsValue.toValues rest

def JsValue.toEntries (object : List (String × Value)) :
    List (List UInt16 × JsValue) → List (String × Value)
  | [] => object
  | (key, value) :: rest =>
    JsValue.toEntries (Map.insert (Utf16.lossy key) value.toValue object) rest
end

lemma Map.lookup_insert (key name : String) (value : Value) (entries : List (String × Value)) :
    (Map.insert key value entries).lookup name =
      if name = key then some value else entries.lookup name := by
  induction entries with
  | nil =>
    rw [Map.insert, List.lookup_cons, List.lookup_nil]
    by_cases h : name = key
    · rw [if_pos h, h, beq_self_eq_true]
    · rw [if_neg h, beq_false_of_ne h]
  | cons entry rest ih =>
    rcases entry with ⟨other, kept⟩
    rw [Map.insert]
    by_cases h : name = key
    · rw [if_pos h] at ih ⊢
      subst h
      split
      · rw [List.lookup_cons, beq_self_eq_true]
      · next hne =>
        split
        · rw [List.lookup_cons, beq_self_eq_true]
        · rw [List.lookup_cons, beq_false_of_ne hne]
          exact ih
    · rw [if_neg h] at ih ⊢
      split
      · next heq =>
        subst heq
        rw [List.lookup_cons, List.lookup_cons, beq_false_of_ne h]
      · split
        · rw [List.lookup_cons, beq_false_of_ne h]
        · rw [List.lookup_cons, List.lookup_cons]
          split
          · rfl
          · exact ih

/-- A key's last entry is the one the map holds. -/
lemma JsValue.lookup_toEntries (name : String) (entries : List (List UInt16 × JsValue))
    (object : List (String × Value)) : (toEntries object entries).lookup name =
      ((entries.map (fun entry => (Utf16.lossy entry.1, entry.2.toValue))).reverse.lookup name).or
        (object.lookup name) := by
  induction entries generalizing object with
  | nil => rw [toEntries, List.map_nil, List.reverse_nil, List.lookup_nil, Option.none_or]
  | cons entry rest ih =>
    rcases entry with ⟨key, value⟩
    rw [toEntries, ih, Map.lookup_insert, List.map_cons, List.reverse_cons, List.lookup_append,
      Option.or_assoc]
    congr 1
    rw [List.lookup_cons, List.lookup_nil]
    by_cases h : name = Utf16.lossy key
    · rw [if_pos h, h, beq_self_eq_true, Option.some_or]
    · rw [if_neg h, beq_false_of_ne h, Option.none_or]

namespace Preflight
open Effect Structured

/-- A write which appends bytes of the kind `P`, and where its input is `legal` fails only as too
large. -/
def Sends (m : Encode Unit) (legal : Prop) (P : List UInt8 → Prop) : Prop :=
  ∀ s : Preflight, s.Writing →
    m.Ends s (fun _ s' => s'.Writing ∧ ∃ bytes, s'.written = s.written ++ bytes ∧ P bytes)
      (fun e s' => s'.Valid ∧ (legal → e = resourceLimit))

section Sends
variable {m n : Encode Unit} {legal legal' : Prop} {P Q R : List UInt8 → Prop}

lemma Sends.mono (h : Sends m legal P) (hlegal : legal' → legal) (hP : ∀ bytes, P bytes → Q bytes) :
    Sends m legal' Q := by
  intro s hs
  refine (h s hs).mono ?_ (fun e s' he => ⟨he.1, fun h => he.2 (hlegal h)⟩)
  rintro _ s' ⟨hs', bytes, hwritten, hbytes⟩
  exact ⟨hs', bytes, hwritten, hP bytes hbytes⟩

lemma Writes.sends {bytes : List UInt8} {retained : Nat} (h : Writes m bytes retained)
    (hP : bytes.length ≤ maxBytes → P bytes) : Sends m legal P := by
  intro s hs
  refine (h s hs).mono ?_ (fun e s' he => ⟨he.2.1, fun _ => he.1⟩)
  intro _ s' hwrote
  have hlen := hwrote.length_le hs.toValid
  exact ⟨hwrote.writing, bytes, hwrote.written, hP (by omega)⟩

lemma sends_fail {e : Thrown} (h : legal → e = resourceLimit) : Sends (fail e) legal P :=
  fun _ hs => ⟨hs.toValid, h⟩

lemma Sends.bind (hm : Sends m legal P) (hn : ∀ bytes, P bytes → Sends n legal Q)
    (hR : ∀ bytes bytes', P bytes → Q bytes' → R (bytes ++ bytes')) : Sends (do m; n) legal R := by
  intro s hs
  rw [ends_bind]
  refine (hm s hs).mono ?_ (fun _ _ h => h)
  rintro _ s' ⟨hs', bytes, hwritten, hbytes⟩
  refine (hn bytes hbytes s' hs').mono ?_ (fun _ _ h => h)
  rintro _ s'' ⟨hs'', bytes', hwritten', hbytes'⟩
  refine ⟨hs'', bytes ++ bytes', ?_, hR bytes bytes' hbytes hbytes'⟩
  rw [hwritten', hwritten, List.append_assoc]

lemma sends_pure (h : P []) : Sends (pure ()) legal P :=
  fun _ hs => ⟨hs, [], (List.append_nil _).symm, h⟩

lemma sends_enterValue (depth : Nat) :
    Sends (enterValue depth) (depth ≤ maxDepth) (fun bytes => bytes = [] ∧ depth ≤ maxDepth) := by
  intro s hs
  have hcounted : ∀ nodes operations, Writing { s with nodes := nodes, operations := operations } :=
    fun _ _ => hs.of_eq rfl rfl rfl rfl
  rw [enterValue, ends_bind, Ends, countOperation_run]
  by_cases hoperations : maxOperations ≤ s.operations
  · rw [if_pos hoperations]
    exact ⟨hs.toValid, fun _ => rfl⟩
  rw [if_neg hoperations]
  dsimp only
  by_cases hdepth : maxDepth < depth
  · rw [if_pos hdepth]
    exact ⟨(hcounted _ _).toValid, fun h => absurd h (Nat.not_le.mpr hdepth)⟩
  rw [if_neg hdepth, Ends, countNode_run]
  by_cases hnodes : maxNodes ≤ s.nodes
  · rw [if_pos hnodes]
    exact ⟨(hcounted _ _).toValid, fun _ => rfl⟩
  · rw [if_neg hnodes]
    exact ⟨hcounted _ _, [], (List.append_nil _).symm, rfl, Nat.le_of_not_lt hdepth⟩

lemma sends_beginValues (count : Nat) :
    Sends (beginValues count) legal (fun bytes => bytes = leBytes 4 count ∧ count < 2 ^ 32) := by
  by_cases h : count ≤ maxOperations
  · have hmax : maxOperations < 2 ^ 32 := by decide
    exact (beginValues_writes h).sends (fun _ => ⟨rfl, by omega⟩)
  · rw [beginValues, if_pos (Nat.lt_of_not_le h)]
    exact sends_fail (fun _ => rfl)

lemma sends_beginObject (count : Nat) : Sends (beginObject count) legal
    (fun bytes => bytes = jsonObject :: leBytes 4 count ∧ count < 2 ^ 32) := by
  by_cases h : count ≤ maxOperations
  · have hmax : maxOperations < 2 ^ 32 := by decide
    exact (beginObject_writes h).sends (fun _ => ⟨rfl, by omega⟩)
  · have hobject : beginObject count = (do u8 jsonObject; fail resourceLimit) := by
      rw [beginObject, if_pos (Nat.lt_of_not_le h)]
    rw [hobject]
    refine Sends.bind (P := fun _ => True) (Q := fun _ => False) ((u8_writes _).sends fun _ => trivial)
      (fun _ _ => sends_fail (fun _ => rfl)) (fun _ _ _ h => h.elim)

lemma textBytes_lossy (text : List UInt16) : textBytes (Utf16.lossy text) = Utf16.utf8 text := by
  rw [textBytes_eq_flatMap, Utf16.lossy, String.toList_ofList, Utf16.utf8]

lemma sends_string (text : List UInt16) : Sends (Preflight.string (.string text)) legal
    (fun bytes => Reads bytes Structured.string (Utf16.lossy text)) := by
  refine (string_writes text).sends fun hlen => ?_
  have hbody : (stringBody text).length = 4 + (Utf16.utf8 text).length := by
    rw [stringBody, List.length_append, length_leBytes]
  have hmax : maxBytes < 2 ^ 32 := by decide
  have hread := reads_string (Utf16.lossy text) (by rw [textBytes_lossy]; omega)
  rw [textBytes_lossy] at hread
  exact hread

end Sends

/-! ## Values -/

/-- One round of the loop over a list's values. -/
def pushValue (depth : Nat) (all : List UInt8) (values : List Value) : Read (List Value) := do
  pure (values ++ [← value all depth])

/-- One round of the loop over an object's keys. -/
def insertEntry (depth : Nat) (all : List UInt8) (object : List (String × Value)) :
    Read (List (String × Value)) := do
  let key ← Structured.string all
  let value ← value all depth
  pure (Map.insert key value object)

/-- What the reader does behind a value's tag. -/
def content (depth tag : Nat) (all : List UInt8) : Read Value :=
  if tag = tagNull then pure .null
  else if tag = tagFalse then pure (.bool false)
  else if tag = tagTrue then pure (.bool true)
  else if tag = tagInteger ∨ tag = tagFloat then number all tag
  else if tag = tagString then do
    let text ← Structured.string all
    pure (.string text)
  else if tag = tagArray then do
    let count ← count all
    let values ← times (pushValue (depth + 1) all) count []
    pure (.array values)
  else if tag = tagObject then do
    let count ← Structured.u32 all
    let object ← times (insertEntry (depth + 1) all) count []
    pure (.object object)
  else fail invalid

lemma reads_value {depth : Nat} (hdepth : depth ≤ Structured.maxDepth) (tag : UInt8) {bytes : List UInt8}
    {v : Value} (h : Reads bytes (content depth tag.toNat) v) :
    Reads (tag :: bytes) (fun all => value all depth) v := by
  have hvalue : (fun all => value all depth) =
      fun all => Structured.tag all >>= fun tag => content depth tag all := by
    funext all
    rw [value, dif_neg (Nat.not_lt.mpr hdepth)]
    rfl
  rw [hvalue]
  exact (reads_tag tag).bind (f := fun tag all => content depth tag all) h

lemma reads_number {depth : Nat} {f : F64} (hf : f.isFinite = true) :
    Reads (leBytes 8 f.bits.toNat) (content depth (numberTag f).toNat) (JsValue.number f).toValue := by
  have hbytes : leBytes 8 f.bits.toNat = leBytes 8 f.bits.toNat ++ [] := (List.append_nil _).symm
  by_cases hsafe : f.isSafeInteger = true
  · have htag : (numberTag f).toNat = tagInteger := by
      rw [numberTag, if_pos hsafe]
      rfl
    have hint := hsafe
    rw [F64.isSafeInteger, Bool.and_eq_true, decide_eq_true_iff] at hint
    have hfits : (!f.isInteger || decide (maxSafeInteger * 2 ^ 1074 < f.scaled.natAbs)) = false := by
      rw [hint.1, Bool.not_true, Bool.false_or, decide_eq_false_iff_not]
      exact Nat.not_lt.mpr hint.2
    rw [htag, JsValue.toValue, if_pos hsafe, hbytes]
    refine (reads_f64 f).bind (f := fun value _ =>
      if !value.isInteger || decide (maxSafeInteger * 2 ^ 1074 < value.scaled.natAbs) then fail invalid
      else pure (Value.ofI64 value.toInt)) ?_
    rw [hfits, if_neg Bool.false_ne_true]
    exact reads_pure
  · have htag : (numberTag f).toNat = tagFloat := by
      rw [numberTag, if_neg hsafe]
      rfl
    rw [htag, JsValue.toValue, if_neg hsafe, Value.ofF64, dif_pos hf, hbytes]
    refine (reads_f64 f).bind (f := fun value _ =>
      if h : value.isFinite = true then pure (Value.number (.float ⟨value, h⟩)) else fail invalid) ?_
    rw [dif_pos hf]
    exact reads_pure

/-- The bytes of one value, at `depth`. -/
def IsValue (depth : Nat) (v : Value) (bytes : List UInt8) : Prop :=
  1 ≤ bytes.length ∧ Reads bytes (fun all => value all depth) v

lemma isValue_tagged {depth : Nat} (hdepth : depth ≤ Structured.maxDepth) (tag : UInt8)
    {bytes : List UInt8} {v : Value} (h : Reads bytes (content depth tag.toNat) v) :
    IsValue depth v (tag :: bytes) :=
  ⟨Nat.le_add_left _ _, reads_value hdepth tag h⟩

/-- What is written behind entering a value is the value's bytes. -/
lemma Sends.entered {depth : Nat} {legal : Prop} {m : Encode Unit} {v : Value}
    (hlegal : legal → depth ≤ maxDepth)
    (hm : depth ≤ Structured.maxDepth → Sends m legal (IsValue depth v)) :
    Sends (do enterValue depth; m) legal (IsValue depth v) := by
  refine Sends.bind ((sends_enterValue depth).mono hlegal fun _ h => h) (fun _ h => hm h.2) ?_
  rintro _ bytes ⟨rfl, _⟩ h
  exact h

/-- The bytes of a list's values, each of which takes at least its tag. -/
def AreValues (depth : Nat) (items : List JsValue) (bytes : List UInt8) : Prop :=
  items.length ≤ bytes.length ∧ ∀ values : List Value,
    Reads bytes (fun all => times (pushValue depth all) items.length values)
      (values ++ JsValue.toValues items)

lemma areValues_nil (depth : Nat) : AreValues depth [] [] := by
  refine ⟨Nat.le_refl _, fun values => ?_⟩
  rw [JsValue.toValues, List.append_nil]
  exact reads_pure

lemma areValues_cons {depth : Nat} {item : JsValue} {rest : List JsValue} {bytes bytes' : List UInt8}
    (h : IsValue depth item.toValue bytes) (h' : AreValues depth rest bytes') :
    AreValues depth (item :: rest) (bytes ++ bytes') := by
  refine ⟨?_, fun values => ?_⟩
  · have hlen := h.1
    have hlen' := h'.1
    rw [List.length_cons, List.length_append]
    omega
  · have hboth := (reads_map (fun v => values ++ [v]) h.2).bind
      (f := fun values all => times (pushValue depth all) rest.length values)
      (h'.2 (values ++ [item.toValue]))
    rw [List.append_assoc] at hboth
    exact hboth

mutual
/-- A value is written as the reader reads it, at any depth. -/
theorem writeJsonValue_sends (depth : Nat) : ∀ v : JsValue,
    Sends (writeJsonValue depth v) (Protocol.Nested depth v) (IsValue depth v.toValue) := by
  intro v
  rw [writeJsonValue.eq_def]
  cases v with
  | null =>
    refine Sends.entered (fun h => h) fun hdepth => ?_
    exact (u8_writes jsonNull).sends fun _ => isValue_tagged hdepth jsonNull reads_pure
  | bool b =>
    refine Sends.entered (fun h => h) fun hdepth => ?_
    cases b with
    | false => exact (u8_writes jsonFalse).sends fun _ => isValue_tagged hdepth jsonFalse reads_pure
    | true => exact (u8_writes jsonTrue).sends fun _ => isValue_tagged hdepth jsonTrue reads_pure
  | number f =>
    refine Sends.entered (fun h => h.1) fun hdepth => ?_
    by_cases hf : f.isFinite = true
    · exact (writeNumber_writes hf).sends fun _ => isValue_tagged hdepth _ (reads_number hf)
    · have hfail : writeNumber f = fail (invalidBridgeValue "A JSON number must be finite") := by
        rw [writeNumber, if_pos (by rw [Bool.not_eq_true] at hf; rw [hf]; rfl)]
      dsimp only
      rw [hfail]
      exact sends_fail fun h => absurd h.2 hf
  | string text =>
    refine Sends.entered (fun h => h) fun hdepth => ?_
    refine Sends.bind ((u8_writes jsonString).sends (P := fun bytes => bytes = [jsonString])
      fun _ => rfl) (fun _ _ => sends_string text) ?_
    rintro _ bytes rfl h
    exact isValue_tagged hdepth jsonString (reads_map Value.string h)
  | array ref items =>
    refine Sends.entered (fun h => h.1) fun hdepth => ?_
    have hitems : Sends _ (Protocol.Nested depth (.array ref items)) _ :=
      (writeListItems_sends (depth + 1) "JSON array" items).mono (fun h => h.2) (fun _ h => h)
    refine Sends.bind ((u8_writes jsonArray).sends (P := fun bytes => bytes = [jsonArray])
      fun _ => rfl) (fun _ _ => (sends_beginValues items.length).bind (fun _ _ => hitems)
      (R := fun bytes => Reads bytes (content depth jsonArray.toNat)
        (JsValue.array ref items).toValue) ?_) ?_
    · rintro _ bytes ⟨rfl, hcount⟩ ⟨hlen, hread⟩
      exact reads_count hcount hlen (reads_map Value.array (hread []))
    · rintro _ bytes rfl h
      exact isValue_tagged hdepth jsonArray h
  | object ref plain entries =>
    refine Sends.entered (fun h => h.1) fun hdepth => ?_
    have hentries : Sends _ (Protocol.Nested depth (.object ref plain entries)) _ :=
      (writeEntries_sends (depth + 1) entries).mono (fun h => h.2) (fun _ h => h)
    refine Sends.bind (sends_beginObject entries.length) (fun _ _ => hentries) ?_
    rintro _ bytes ⟨rfl, hcount⟩ hread
    refine isValue_tagged hdepth jsonObject ?_
    exact (reads_u32 hcount).bind (f := fun count all => do
      let object ← times (insertEntry (depth + 1) all) count []
      pure (Value.object object)) (reads_map Value.object (hread []))
  | undefined => exact Sends.entered (fun h => h.elim) fun _ => sends_fail fun h => h.elim
  | hole => exact Sends.entered (fun h => h.elim) fun _ => sends_fail fun h => h.elim
  | other => exact Sends.entered (fun h => h.elim) fun _ => sends_fail fun h => h.elim

theorem writeListItems_sends (depth : Nat) (label : String) : ∀ items : List JsValue,
    Sends (writeListItems depth label items) (Protocol.NestedItems depth items)
      (AreValues depth items) := by
  intro items
  cases items with
  | nil =>
    rw [writeListItems]
    exact sends_pure (areValues_nil depth)
  | cons item rest =>
    rw [writeListItems]
    split
    · next hundefined =>
      refine sends_fail fun h => ?_
      cases item with
      | undefined => exact h.1.elim
      | hole => exact h.1.elim
      | _ => cases hundefined
    · have hitem : Sends _ (Protocol.NestedItems depth (item :: rest)) _ :=
        (writeJsonValue_sends depth item).mono (fun h => h.1) (fun _ h => h)
      have hrest : Sends _ (Protocol.NestedItems depth (item :: rest)) _ :=
        (writeListItems_sends depth label rest).mono (fun h => h.2) (fun _ h => h)
      exact hitem.bind (fun _ _ => hrest) (fun _ _ => areValues_cons)

theorem writeEntries_sends (depth : Nat) : ∀ entries : List (List UInt16 × JsValue),
    Sends (writeEntries depth entries) (Protocol.NestedEntries depth entries)
      (fun bytes => ∀ object : List (String × Value),
        Reads bytes (fun all => times (insertEntry depth all) entries.length object)
          (JsValue.toEntries object entries)) := by
  intro entries
  cases entries with
  | nil =>
    rw [writeEntries]
    exact sends_pure fun object => reads_pure
  | cons entry rest =>
    rcases entry with ⟨key, item⟩
    rw [writeEntries]
    have hitem : Sends _ (Protocol.NestedEntries depth ((key, item) :: rest)) _ :=
      (writeJsonValue_sends depth item).mono (fun h => h.1) (fun _ h => h)
    have hrest : Sends _ (Protocol.NestedEntries depth ((key, item) :: rest)) _ :=
      (writeEntries_sends depth rest).mono (fun h => h.2) (fun _ h => h)
    -- the value and the entries after it, behind the key
    have hbehind := hitem.bind (fun _ _ => hrest) (R := fun bytes => ∃ first more,
      bytes = first ++ more ∧ IsValue depth item.toValue first ∧ ∀ object : List (String × Value),
        Reads more (fun all => times (insertEntry depth all) rest.length object)
          (JsValue.toEntries object rest))
      (fun first more hfirst hmore => ⟨first, more, rfl, hfirst, hmore⟩)
    have hretained := Sends.bind ((retain_writes (rustValueBytes + rustMapEntryOverhead)).sends
      (P := fun bytes => bytes = []) fun _ => rfl) (fun _ _ => hbehind)
      (fun _ bytes hnil h => by rw [hnil, List.nil_append]; exact h)
    refine (sends_string key).bind (fun _ _ => hretained) ?_
    rintro bytes _ hkey ⟨first, more, rfl, hfirst, hmore⟩ object
    rw [← List.append_assoc]
    refine Reads.bind (f := fun object all => times (insertEntry depth all) rest.length object)
      ?_ (hmore (Map.insert (Utf16.lossy key) item.toValue object))
    exact hkey.bind (f := fun key all => do
      let value ← value all depth
      pure (Map.insert key value object))
      (reads_map (fun v => Map.insert (Utf16.lossy key) v object) hfirst.2)
end

/-- A scalar in place is a value as any other, and the values behind it are written either way. -/
lemma Sends.scalar {m n : Encode Unit} {item : JsValue} {rest : List JsValue} {bytes : List UInt8}
    {legal : Prop} {retained : Nat} (hm : Writes m bytes retained)
    (hbytes : bytes.length ≤ maxBytes → IsValue 0 item.toValue bytes)
    (hn : Sends n legal (AreValues 0 rest)) : Sends (do m; n) legal (AreValues 0 (item :: rest)) :=
  (hm.sends hbytes).bind (fun _ _ => hn) (fun _ _ => areValues_cons)

lemma sends_general (index : Nat) (items : List JsValue) :
    Sends (do
      modify (fun s => { s with nodes := index, operations := index })
      writeListItems 0 "SQL parameters" items) (Protocol.NestedItems 0 items) (AreValues 0 items) := by
  intro s hs
  rw [ends_bind, ends_modify]
  exact writeListItems_sends 0 "SQL parameters" items _ (hs.of_eq rfl rfl rfl rfl)

lemma stringBody_isValue {text : List UInt16}
    (h : (jsonString :: stringBody text).length ≤ maxBytes) :
    IsValue 0 (JsValue.string text).toValue (jsonString :: stringBody text) := by
  have hbody : (stringBody text).length = 4 + (Utf16.utf8 text).length := by
    rw [stringBody, List.length_append, length_leBytes]
  have hmax : maxBytes < 2 ^ 32 := by decide
  rw [List.length_cons] at h
  have hread := reads_string (Utf16.lossy text) (by rw [textBytes_lossy]; omega)
  rw [textBytes_lossy] at hread
  exact isValue_tagged (Nat.zero_le _) jsonString (reads_map Value.string hread)

lemma writeParams_sends (items : List JsValue) (index : Nat) :
    Sends (writeParams index items) (Protocol.NestedItems 0 items) (AreValues 0 items) := by
  induction items generalizing index with
  | nil => exact sends_pure (areValues_nil 0)
  | cons item rest ih =>
    have hrest : Sends _ (Protocol.NestedItems 0 (item :: rest)) _ :=
      (ih (index + 1)).mono (fun h => h.2) (fun _ h => h)
    have hdepth : 0 ≤ Structured.maxDepth := Nat.zero_le _
    cases item with
    | null => exact Sends.scalar (u8_writes _) (fun _ => isValue_tagged hdepth _ reads_pure) hrest
    | bool b =>
      cases b with
      | false => exact Sends.scalar (u8_writes _) (fun _ => isValue_tagged hdepth _ reads_pure) hrest
      | true => exact Sends.scalar (u8_writes _) (fun _ => isValue_tagged hdepth _ reads_pure) hrest
    | number f =>
      rw [writeParams]
      split
      · next hf =>
        exact Sends.scalar (writeScalarNumber_writes f)
          (fun _ => isValue_tagged hdepth _ (reads_number hf)) hrest
      · exact sends_general index _
    | string text =>
      have hstring := Sends.scalar ((u8_writes jsonString).bind (string_writes text))
        stringBody_isValue hrest
      rw [bind_assoc] at hstring
      exact hstring
    | array ref items => exact sends_general index _
    | object ref plain entries => exact sends_general index _
    | undefined => exact sends_general index _
    | hole => exact sends_general index _
    | other => exact sends_general index _

/-- A list of values, as its count and the values. -/
lemma reads_values {items : List JsValue} {bytes : List UInt8} (hcount : items.length < 2 ^ 32)
    (h : AreValues 0 items bytes) :
    Reads (leBytes 4 items.length ++ bytes) Structured.values (JsValue.toValues items) := by
  have hread := reads_count hcount h.1
    (f := fun count all => times (pushValue 0 all) count []) (h.2 [])
  rw [List.nil_append] at hread
  exact hread

/-! ## Requests -/

/-- What a request asks for, which is what the engine is to read of it. -/
def textOf : JsValue → String
  | .string text => Utf16.lossy text
  | _ => ""

def idOf : JsValue → Nat
  | .number f => f.toInt.toNat
  | _ => 0

def itemsOf : JsValue → List JsValue
  | .array _ items => items
  | _ => []

def statementArguments (prepared : Bool) (statement input : JsValue) (arrayRows : Bool)
    (start : Nat) : Arguments :=
  if prepared then
    .executePrepared arrayRows (idOf statement) (JsValue.toValues ((itemsOf input).drop start))
  else .executeSql arrayRows (textOf statement) (JsValue.toValues ((itemsOf input).drop start))

def isPrepared (slots : List JsValue) : Bool :=
  slots[2]?.any (Protocol.isNumber Protocol.statementPrepared)

def requestArguments : Protocol.Request → Arguments
  | .statement slots =>
    statementArguments (isPrepared slots) (slots[3]?.getD .undefined) (.array 0 slots)
      (slots[5]?.any (Protocol.isNumber 1)) Protocol.statementParams
  | .executeSql sql params _ rowMode =>
    statementArguments false sql params (Protocol.isText "array" rowMode) 0
  | .executePrepared statementId params _ rowMode =>
    statementArguments true statementId params (Protocol.isText "array" rowMode) 0
  | .execSql sql _ rowMode => .execSql (Protocol.isText "array" rowMode) (textOf sql)
  | .prepareSql sql => .prepareSql (textOf sql)
  | .closePrepared statementId => .closePrepared (idOf statementId)
  | .setSchema schema drop => .setSchema (match drop with | .bool b => b | _ => false) schema.toValue

/-- The operation the bridge calls for a request. -/
def operation : Protocol.Request → Nat
  | .statement slots => if isPrepared slots then opExecutePrepared else opExecuteSql
  | .executeSql .. => opExecuteSql
  | .executePrepared .. => opExecutePrepared
  | .execSql .. => opExecSql
  | .prepareSql _ => opPrepareSql
  | .closePrepared _ => opClosePrepared
  | .setSchema .. => opSetSchema

/-- The values a request holds are on a heap. -/
def OnHeap (heap : Nat → JsValue) : Protocol.Request → Prop
  | .statement slots => JsValue.OnHeapItems heap slots
  | .executeSql _ params _ _ => params.OnHeap heap
  | .executePrepared _ params _ _ => params.OnHeap heap
  | .setSchema schema _ => schema.OnHeap heap
  | .execSql .. | .prepareSql _ | .closePrepared _ => True

/-- From any state of the module, a request is begun with bytes of the kind `P`, or is too large. -/
def Begins (m : Encode Unit) (P : List UInt8 → Prop) : Prop :=
  ∀ s : Preflight, s.Buffered → m.Ends s (fun _ s' => s'.Writing ∧ P s'.written)
    (fun e s' => s'.Buffered ∧ e = resourceLimit)

/-- From any state of the module, a request of the kind `P` is handed over, or is too large. -/
def Encodes (m : Encode (List UInt8)) (P : List UInt8 → Prop) : Prop :=
  ∀ s : Preflight, s.Buffered →
    m.Ends s (fun bytes s' => s'.Buffered ∧ bytes.length ≤ maxBytes ∧ P bytes)
      (fun e s' => s'.Buffered ∧ e = resourceLimit)

section Begins
variable {m n : Encode Unit} {P Q R : List UInt8 → Prop}

lemma Begins.bind {legal : Prop} (hm : Begins m P) (hlegal : legal) (hn : Sends n legal Q)
    (hR : ∀ bytes bytes', P bytes → Q bytes' → R (bytes ++ bytes')) : Begins (do m; n) R := by
  intro s hs
  rw [ends_bind]
  refine (hm s hs).mono ?_ (fun _ _ h => h)
  rintro _ s' ⟨hs', hP⟩
  refine (hn s' hs').mono ?_ (fun _ _ h => ⟨h.1.toBuffered, h.2 hlegal⟩)
  rintro _ s'' ⟨hs'', bytes, hwritten, hQ⟩
  rw [hwritten]
  exact ⟨hs'', hR _ _ hP hQ⟩

/-- A request is handed over as it is written, and its buffer kept or let go. -/
lemma Begins.finish (hm : Begins m P) : Encodes (do m; Preflight.finish) P := by
  intro s hs
  rw [ends_bind]
  refine (hm s hs).mono ?_ (fun _ _ h => h)
  rintro _ s' ⟨hs', hP⟩
  rw [Preflight.finish, ends_bind, ends_get, ends_bind, ends_modify, ends_pure]
  refine ⟨?_, ?_, hP⟩
  · split
    · exact ⟨(List.length_replicate ..).symm, Nat.le_refl _, buffered_initial.le_max⟩
    · exact hs'.toBuffered
  · rw [hs'.length_written]
    exact Nat.le_trans hs'.length_le hs'.le_max

lemma Encodes.mono {m : Encode (List UInt8)} (h : Encodes m P) (hP : ∀ bytes, P bytes → Q bytes) :
    Encodes m Q := by
  intro s hs
  exact (h s hs).mono (fun bytes _ hb => ⟨hb.1, hb.2.1, hP bytes hb.2.2⟩) (fun _ _ he => he)

end Begins

lemma begins_empty : Begins (begin 0) (fun bytes => bytes = []) := by
  intro s hs
  have hbegun : Writing { s with length := 0, retained := 0, nodes := 0, operations := 0 } :=
    ⟨⟨⟨hs.capacity_eq, hs.initial_le, hs.le_max⟩, Nat.zero_le _⟩, Nat.zero_le _⟩
  rw [begin, ends_modify]
  exact ⟨hbegun, List.take_zero ..⟩

lemma begins_flag (b : Bool) :
    Begins (do storeByte 0 (Preflight.flag b); begin 1) (fun bytes => bytes = [Preflight.flag b]) := by
  intro s hs
  rw [ends_of_run (flag_begin_run hs b)]
  exact hs.flagged b 0 0

/-- The flag, and what is read behind it. -/
def Flagged {α : Type} (b : Bool) (m : List UInt8 → Read α) (a : α) (bytes : List UInt8) : Prop :=
  ∃ rest, bytes = [Preflight.flag b] ++ rest ∧ Reads rest m a

lemma isStatementId_of_safe {f : F64} (hsafe : f.isSafeInteger = true) (hpos : 1 ≤ f.toInt)
    (hmax : f.toInt ≤ Protocol.maxU32) : isStatementId f = true := by
  rw [F64.isSafeInteger, Bool.and_eq_true, F64.isInteger, Bool.and_eq_true, decide_eq_true_iff] at hsafe
  have hunit : (0 : Int) ≤ F64.unit := Int.pow_nonneg (by decide)
  have hscaled : f.toInt * F64.unit = f.scaled :=
    Int.ediv_mul_cancel (Int.dvd_of_emod_eq_zero hsafe.1.2)
  have hlow : 1 * F64.unit ≤ f.toInt * F64.unit := Int.mul_le_mul_of_nonneg_right hpos hunit
  have hhigh : f.toInt * F64.unit ≤ Protocol.maxU32 * F64.unit :=
    Int.mul_le_mul_of_nonneg_right hmax hunit
  rw [Int.one_mul, hscaled] at hlow
  rw [hscaled] at hhigh
  rw [isStatementId, hsafe.1.1, decide_eq_true hlow, decide_eq_true hhigh,
    decide_eq_true hsafe.1.2]
  rfl

lemma begins_id {statement : JsValue} (h : Protocol.isPreparedStatementId statement = true)
    (arrayRows : Bool) :
    Begins (writeTarget true statement arrayRows)
      (Flagged arrayRows Structured.u32 (idOf statement)) := by
  obtain ⟨f, rfl, hsafe, hpos, hmax⟩ := Protocol.isPreparedStatementId_eq_true h
  have hlimit : (Protocol.maxU32 : Int) < 2 ^ 32 := by decide
  intro s hs
  rw [ends_of_run (writeTarget_id_run hs (isStatementId_of_safe hsafe hpos hmax) arrayRows)]
  have hidentified := hs.identified arrayRows f.toInt.toNat
  refine ⟨hidentified.1, ?_⟩
  rw [hidentified.2]
  exact ⟨leBytes 4 f.toInt.toNat, rfl, reads_u32 (by omega)⟩

lemma begins_sql {statement : JsValue} (h : Protocol.isString statement = true) (arrayRows : Bool) :
    Begins (writeTarget false statement arrayRows)
      (Flagged arrayRows Structured.string (textOf statement)) := by
  obtain ⟨text, rfl⟩ := Protocol.isString_eq_true h
  intro s hs
  rw [Ends, writeTarget_sql_run hs]
  have hflagged := hs.flagged arrayRows s.nodes s.operations
  have hsends : Sends (Preflight.string (.string text)) True _ := sends_string text
  refine (hsends _ hflagged.1).mono ?_
    (fun _ _ he => ⟨he.1.toBuffered, he.2 trivial⟩)
  rintro _ s' ⟨hs', bytes, hwritten, hread⟩
  rw [hflagged.2] at hwritten
  exact ⟨hs', bytes, hwritten, hread⟩

lemma sends_statementParams (start : Nat) (ref : Nat) (items : List JsValue) :
    Sends (writeStatementParams start (.array ref items)) (Protocol.NestedItems 0 (items.drop start))
      (fun bytes => Reads bytes Structured.values (JsValue.toValues (items.drop start))) := by
  have hlen : (items.drop start).length = items.length - start := List.length_drop
  rw [writeStatementParams, ← hlen]
  refine (sends_beginValues _).bind (fun _ _ => writeParams_sends _ 0) ?_
  rintro _ bytes ⟨rfl, hcount⟩ h
  exact reads_values hcount h

lemma sends_schema (schema : JsValue) :
    Sends (writeJsonValues 0 "schema" [schema]) (Protocol.Nested 0 schema)
      (fun bytes => Reads bytes Structured.values [schema.toValue]) := by
  have hitems : Sends _ (Protocol.Nested 0 schema) _ :=
    (writeListItems_sends 0 "schema" [schema]).mono (fun h => ⟨h, trivial⟩) (fun _ h => h)
  refine (sends_beginValues _).bind (fun _ _ => hitems) ?_
  rintro _ bytes ⟨rfl, hcount⟩ h
  exact reads_values hcount h

/-- An encoder's outcome for one request. -/
def RoundTrips (m : Encode (List UInt8)) (operation : Nat) (arguments : Arguments) : Prop :=
  Encodes m (fun bytes => Structured.read operation bytes = .ok arguments)

lemma Encodes.roundTrips {m : Encode (List UInt8)} {operation : Nat} {arguments : Arguments}
    (h : Encodes m (fun bytes => ReadsLast bytes (Structured.arguments operation) arguments)) :
    RoundTrips m operation arguments := by
  intro s hs
  have hmax : maxBytes ≤ maxUsize := by decide
  refine (h s hs).mono ?_ (fun _ _ he => he)
  rintro bytes s' ⟨hs', hlen, hread⟩
  refine ⟨hs', hlen, ?_⟩
  exact hread [] (by rw [List.nil_append]; omega)

lemma encodeStatement_roundTrips (prepared : Bool) (statement : JsValue) (arrayRows : Bool)
    (start : Nat) {ref : Nat} {items : List JsValue}
    (hstatement : (if prepared then Protocol.isPreparedStatementId statement
      else Protocol.isString statement) = true)
    (hitems : Protocol.NestedItems 0 (items.drop start)) :
    RoundTrips (encodeStatement prepared statement (.array ref items) arrayRows start)
      (if prepared then opExecutePrepared else opExecuteSql)
      (statementArguments prepared statement (.array ref items) arrayRows start) := by
  refine Encodes.roundTrips ?_
  cases prepared with
  | true =>
    have hbegins := (begins_id hstatement arrayRows).bind hitems (sends_statementParams start ref items)
      (R := fun bytes => ReadsLast bytes (Structured.arguments opExecutePrepared)
        (statementArguments true statement (.array ref items) arrayRows start)) ?_
    · have hencodes := hbegins.finish
      rw [bind_assoc] at hencodes
      exact hencodes
    · rintro _ bytes ⟨id, rfl, hid⟩ hvalues
      rw [List.append_assoc]
      exact readsLast_executePrepared arrayRows hid hvalues
  | false =>
    have hbegins := (begins_sql hstatement arrayRows).bind hitems
      (sends_statementParams start ref items)
      (R := fun bytes => ReadsLast bytes (Structured.arguments opExecuteSql)
        (statementArguments false statement (.array ref items) arrayRows start)) ?_
    · have hencodes := hbegins.finish
      rw [bind_assoc] at hencodes
      exact hencodes
    · rintro _ bytes ⟨sql, rfl, hsql⟩ hvalues
      rw [List.append_assoc]
      exact readsLast_executeSql arrayRows hsql hvalues

lemma encodeExecSql_roundTrips {sql : JsValue} (h : Protocol.isString sql = true) (arrayRows : Bool) :
    RoundTrips (encodeExecSql sql arrayRows) opExecSql (.execSql arrayRows (textOf sql)) := by
  obtain ⟨text, rfl⟩ := Protocol.isString_eq_true h
  refine Encodes.roundTrips ?_
  have hbegins := (begins_flag arrayRows).bind trivial (sends_string text)
    (R := fun bytes => ReadsLast bytes (Structured.arguments opExecSql)
      (.execSql arrayRows (textOf (.string text)))) ?_
  · have hencodes := hbegins.finish
    rw [bind_assoc, bind_assoc] at hencodes
    exact hencodes
  · rintro _ bytes rfl hsql
    exact readsLast_execSql arrayRows hsql

lemma encodePrepareSql_roundTrips {sql : JsValue} (h : Protocol.isString sql = true) :
    RoundTrips (encodePrepareSql sql) opPrepareSql (.prepareSql (textOf sql)) := by
  obtain ⟨text, rfl⟩ := Protocol.isString_eq_true h
  refine Encodes.roundTrips ?_
  have hbegins := begins_empty.bind trivial (sends_string text)
    (R := fun bytes => ReadsLast bytes (Structured.arguments opPrepareSql)
      (.prepareSql (textOf (.string text)))) ?_
  · have hencodes := hbegins.finish
    rw [bind_assoc] at hencodes
    exact hencodes
  · rintro _ bytes rfl hsql
    exact readsLast_prepareSql hsql

lemma encodeClosePrepared_roundTrips {statementId : JsValue}
    (h : Protocol.isPreparedStatementId statementId = true) :
    RoundTrips (encodeClosePrepared statementId) opClosePrepared
      (.closePrepared (idOf statementId)) := by
  obtain ⟨f, rfl, hsafe, hpos, hmax⟩ := Protocol.isPreparedStatementId_eq_true h
  have hlimit : (Protocol.maxU32 : Int) < 2 ^ 32 := by decide
  refine Encodes.roundTrips ?_
  have hbegins := begins_empty.bind trivial
    ((u32_writes f.toInt.toNat).sends (P := fun bytes => Reads bytes Structured.u32 f.toInt.toNat)
      fun _ => reads_u32 (by omega))
    (R := fun bytes => ReadsLast bytes (Structured.arguments opClosePrepared)
      (.closePrepared (idOf (.number f)))) ?_
  · have hencodes := hbegins.finish
    rw [bind_assoc] at hencodes
    have hcount : Protocol.isCountWithin 1 Protocol.maxU32 (.number f) = true := h
    rw [encodeClosePrepared, if_pos hcount]
    exact hencodes
  · rintro _ bytes rfl hid
    exact readsLast_closePrepared hid

lemma encodeSetSchema_roundTrips {schema : JsValue} (h : Protocol.Nested 0 schema) (drop : Bool) :
    RoundTrips (encodeSetSchema schema drop) opSetSchema (.setSchema drop schema.toValue) := by
  refine Encodes.roundTrips ?_
  have hbegins := (begins_flag drop).bind h (sends_schema schema)
    (R := fun bytes => ReadsLast bytes (Structured.arguments opSetSchema)
      (.setSchema drop schema.toValue)) ?_
  · have hencodes := hbegins.finish
    rw [bind_assoc, bind_assoc] at hencodes
    exact hencodes
  · rintro _ bytes rfl hvalues
    exact readsLast_setSchema drop hvalues

/-- A request that passed the check is handed over as the engine reads it, or is too large. -/
lemma encodeRequest_roundTrips {heap : Nat → JsValue} {request : Protocol.Request}
    (hheap : OnHeap heap request) (h : Protocol.isRequest request = true) :
    RoundTrips (encodeRequest request) (operation request) (requestArguments request) := by
  cases request with
  | statement slots =>
    match slots, h with
    | version :: id :: op :: target :: transaction :: arrayRows :: params, h =>
      rw [Protocol.isRequest, Protocol.isStatementRequest] at h
      simp only [Bool.and_eq_true] at h
      obtain ⟨⟨⟨⟨⟨-, htarget⟩, -⟩, -⟩, -⟩, hscan⟩ := h
      have hparams : Protocol.NestedItems 0 params :=
        Protocol.scanStatementParams_nested hheap.2.2.2.2.2.2 hscan
      refine encodeStatement_roundTrips _ target _ _ ?_ hparams
      have hprepared : isPrepared (version :: id :: op :: target :: transaction :: arrayRows :: params) =
          Protocol.isNumber Protocol.statementPrepared op := rfl
      change (if isPrepared (version :: id :: op :: target :: transaction :: arrayRows :: params) then
        _ else _) = true
      rw [hprepared]
      split
      · next hop =>
        rw [if_pos hop] at htarget
        exact htarget
      · next hop =>
        rw [if_neg hop, Bool.and_eq_true] at htarget
        exact htarget.2
  | executeSql sql params transactionId rowMode =>
    rw [Protocol.isRequest] at h
    simp only [Bool.and_eq_true] at h
    obtain ⟨⟨⟨hsql, hparams⟩, -⟩, -⟩ := h
    obtain ⟨ref, items, rfl, -, hnested⟩ := Protocol.isJsonValues_nested hheap hparams
    exact encodeStatement_roundTrips false sql _ 0 hsql hnested
  | executePrepared statementId params transactionId rowMode =>
    rw [Protocol.isRequest] at h
    simp only [Bool.and_eq_true] at h
    obtain ⟨⟨⟨hid, hparams⟩, -⟩, -⟩ := h
    obtain ⟨ref, items, rfl, -, hnested⟩ := Protocol.isJsonValues_nested hheap hparams
    exact encodeStatement_roundTrips true statementId _ 0 hid hnested
  | execSql sql transactionId rowMode =>
    rw [Protocol.isRequest] at h
    simp only [Bool.and_eq_true] at h
    exact encodeExecSql_roundTrips h.1.1 _
  | prepareSql sql => exact encodePrepareSql_roundTrips h
  | closePrepared statementId => exact encodeClosePrepared_roundTrips h
  | setSchema schema drop =>
    rw [Protocol.isRequest, Bool.and_eq_true] at h
    exact encodeSetSchema_roundTrips (Protocol.isJson_nested hheap h.1) _

/-- Every request that passed the protocol's check, from any state of the module, is refused as too
large or written as the engine reads it; both paths of a statement write the same from any offset;
growing keeps what is written, and handing over returns it; and on any bytes the reader ends with
arguments or finds them invalid, without a step out of their range. -/
theorem request_round_trip :
    initial.Buffered ∧
    (∀ (heap : Nat → JsValue) (request : Protocol.Request) (s : Preflight), s.Buffered →
      OnHeap heap request → Protocol.isRequest request = true →
      (encodeRequest request s).2.Buffered ∧
        ((encodeRequest request s).1 = .error resourceLimit ∨
          ∃ bytes, (encodeRequest request s).1 = .ok bytes ∧
            Structured.read (operation request) bytes = .ok (requestArguments request))) ∧
    (∀ (prepared : Bool) (statement input : JsValue) (arrayRows : Bool) (start : Nat)
      (s t : Preflight), s.Buffered → t.Buffered →
      (encodeStatement prepared statement input arrayRows start s).1 =
        (encodeSlicedStatement prepared statement input arrayRows start t).1) ∧
    (∀ (needed : Nat) (s : Preflight), s.Valid → s.length ≤ needed →
      (grow needed s).2.Valid ∧ (grow needed s).2.written = s.written) ∧
    (∀ s : Preflight, (Preflight.finish s).1 = .ok s.written) ∧
    (∀ (operation : Nat) (bytes : List UInt8),
      (∃ arguments, Structured.read operation bytes = .ok arguments) ∨
        Structured.read operation bytes = .error invalid) ∧
    (∀ s : String, (JsValue.string (Utf16.ofString s)).toValue = .string s) ∧
    (∀ (f : F64) (hf : f.isFinite = true), (JsValue.number f).toValue =
      if f.isSafeInteger then .ofI64 f.toInt else .number (.float ⟨f, hf⟩)) ∧
    (∀ (entries : List (List UInt16 × JsValue)) (name : String),
      (JsValue.toEntries [] entries).lookup name =
        (entries.map (fun entry => (Utf16.lossy entry.1, entry.2.toValue))).reverse.lookup name) := by
  refine ⟨buffered_initial, ?_, ?_, ?_, ?_, ?_, ?_, ?_, ?_⟩
  · intro heap request s hs hheap h
    have hends := encodeRequest_roundTrips hheap h s hs
    rw [Ends] at hends
    rcases hrun : encodeRequest request s with ⟨e | bytes, s'⟩
    · rw [hrun] at hends
      exact ⟨hends.1, .inl (congrArg Except.error hends.2)⟩
    · rw [hrun] at hends
      exact ⟨hends.1, .inr ⟨bytes, rfl, hends.2.2⟩⟩
  · intro prepared statement input arrayRows start s t hs ht
    exact (encodeStatement_similar prepared statement input arrayRows start).result ⟨hs, ht⟩
  · intro needed s hs hneeded
    have hgrow := grow_ends hs hneeded
    rw [Ends] at hgrow
    rcases hrun : grow needed s with ⟨e | _, s'⟩
    · rw [hrun] at hgrow
      rw [hgrow.2.1]
      exact ⟨hs, rfl⟩
    · rw [hrun] at hgrow
      exact ⟨hgrow.1, hgrow.2.1⟩
  · exact finish_run
  · intro operation bytes
    have hsafe := safe_arguments operation bytes 0 (Nat.zero_le _)
    rw [Ends] at hsafe
    rw [Structured.read]
    rcases hrun : Structured.arguments operation bytes 0 with ⟨e | arguments, stop⟩
    · rw [hrun] at hsafe
      exact .inr (congrArg Except.error hsafe)
    · exact .inl ⟨arguments, rfl⟩
  · intro s
    rw [JsValue.toValue, Utf16.lossy_ofString]
  · intro f hf
    rw [JsValue.toValue, Value.ofF64, dif_pos hf]
  · intro entries name
    rw [JsValue.lookup_toEntries, List.lookup_nil, Option.or_none]

/-- Parameters of several kinds: a string, a number, and an object in an array. -/
def mixedParams : JsValue :=
  .array 0 [.string [104, 105], .number F64.zero, .array 1 [.object 2 true [([107], .bool true)]]]

def mixedHeap : Nat → JsValue
  | 0 => mixedParams
  | 1 => .array 1 [.object 2 true [([107], .bool true)]]
  | _ => .object 2 true [([107], .bool true)]

theorem request_round_trip_mixed :
    (encodeRequest (.executeSql (.string [63]) mixedParams .undefined .undefined) initial).2.Buffered ∧
      ((encodeRequest (.executeSql (.string [63]) mixedParams .undefined .undefined) initial).1 =
          .error resourceLimit ∨
        ∃ bytes, (encodeRequest (.executeSql (.string [63]) mixedParams .undefined .undefined)
            initial).1 = .ok bytes ∧
          Structured.read opExecuteSql bytes = .ok (.executeSql false "?"
            [.string "hi", .ofI64 0, .array [.object [("k", .bool true)]]])) := by
  have hchecked : Protocol.isRequest (.executeSql (.string [63]) mixedParams .undefined .undefined) =
      true := by
    decide +kernel
  have hheap : OnHeap mixedHeap (.executeSql (.string [63]) mixedParams .undefined .undefined) :=
    ⟨rfl, trivial, trivial, ⟨rfl, ⟨rfl, trivial, trivial⟩, trivial⟩, trivial⟩
  have hsql : Utf16.lossy [63] = "?" := by decide +kernel
  have hhi : Utf16.lossy [104, 105] = "hi" := by decide +kernel
  have hkey : Utf16.lossy [107] = "k" := by decide +kernel
  have hsafe : F64.zero.isSafeInteger = true := by decide +kernel
  have hzero : F64.zero.toInt = 0 := by decide +kernel
  have harguments : requestArguments (.executeSql (.string [63]) mixedParams .undefined .undefined) =
      .executeSql false "?" [.string "hi", .ofI64 0, .array [.object [("k", .bool true)]]] := by
    simp only [requestArguments, statementArguments, mixedParams, itemsOf, textOf, List.drop_zero,
      JsValue.toValues, JsValue.toValue, JsValue.toEntries, Map.insert, Protocol.isText, hsql, hhi,
      hkey, hsafe, hzero, if_true, Bool.false_eq_true, if_false]
  have hround := request_round_trip.2.1 mixedHeap
    (.executeSql (.string [63]) mixedParams .undefined .undefined) initial buffered_initial hheap
    hchecked
  rw [harguments] at hround
  exact hround

end Preflight
end TinyJoin
