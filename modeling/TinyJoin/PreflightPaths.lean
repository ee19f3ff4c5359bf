import TinyJoin.PreflightWrites

/-! The two paths of a statement's parameters: scalars written where they are met, and every value
written as a list's items are. Each write is decided by what is written and retained before it, so
the paths are run side by side, each on a buffer of its own. -/
namespace TinyJoin
open Bytes
namespace Preflight
open Effect

/-- Two requests in writing with the same bytes and the same retained, and counters related so. -/
structure Similar (counters : Nat × Nat → Nat × Nat → Prop) (s t : Preflight) : Prop where
  left : s.Writing
  right : t.Writing
  written_eq : s.written = t.written
  retained_eq : s.retained = t.retained
  counters : counters (s.nodes, s.operations) (t.nodes, t.operations)

variable {C : Nat × Nat → Nat × Nat → Prop} {m n : Encode Unit}

lemma Similar.length_eq {s t : Preflight} (h : Similar C s t) : s.length = t.length := by
  rw [← h.left.length_written, h.written_eq, h.right.length_written]

/-- Writes of the same bytes cannot be told apart. -/
lemma Writes.simulates {bytes : List UInt8} {retained : Nat} (hm : Writes m bytes retained)
    (hn : Writes n bytes retained) : Simulates (Similar C) (Similar C) m n := by
  have hfits : ∀ {s s' t : Preflight}, Similar C s t ∨ Similar C t s → s.Valid →
      s.Wrote bytes retained s' →
      ¬(maxBytes < t.length + bytes.length ∨ maxBytes < t.retained + retained) := by
    intro s s' t hst hs h
    have hlength := h.length_le hs
    have hretained := h.writing.retained_le
    rw [h.retained_eq] at hretained
    rcases hst with hst | hst
    · rw [← hst.length_eq, ← hst.retained_eq]
      omega
    · rw [hst.length_eq, hst.retained_eq]
      omega
  refine Simulates.of_ends
    (Q := fun s _ s' => s.Wrote bytes retained s')
    (E := fun s e => e = resourceLimit ∧
      (maxBytes < s.length + bytes.length ∨ maxBytes < s.retained + retained))
    (W := fun t _ t' => t.Wrote bytes retained t')
    (F := fun t e => e = resourceLimit ∧
      (maxBytes < t.length + bytes.length ∨ maxBytes < t.retained + retained)) ?_ ?_ ?_ ?_ ?_ ?_
  · intro s t hst
    exact (hm s hst.left).mono (fun _ _ h => h) (fun _ _ h => ⟨h.1, h.2.2⟩)
  · intro s t hst
    exact (hn t hst.right).mono (fun _ _ h => h) (fun _ _ h => ⟨h.1, h.2.2⟩)
  · intro s t _ s' _ t' hst hs ht
    refine ⟨rfl, hs.writing, ht.writing, ?_, ?_, ?_⟩
    · rw [hs.written, ht.written, hst.written_eq]
    · rw [hs.retained_eq, ht.retained_eq, hst.retained_eq]
    · rw [hs.nodes_eq, hs.operations_eq, ht.nodes_eq, ht.operations_eq]
      exact hst.counters
  · rintro s t e f _ ⟨rfl, _⟩ ⟨rfl, _⟩
    rfl
  · rintro s t _ s' f hst hs ⟨_, hlimit⟩
    exact hfits (.inl hst) hst.left.toValid hs hlimit
  · rintro s t e _ t' hst ⟨_, hlimit⟩ ht
    exact hfits (.inr hst) hst.right.toValid ht hlimit

lemma Writing.of_eq {s s' : Preflight} (hs : s.Writing) (hbuffer : s'.buffer = s.buffer)
    (hcapacity : s'.capacity = s.capacity) (hlength : s'.length = s.length)
    (hretained : s'.retained = s.retained) : s'.Writing := by
  refine ⟨⟨⟨?_, ?_, ?_⟩, ?_⟩, ?_⟩
  · rw [hcapacity, hbuffer]
    exact hs.capacity_eq
  · rw [hcapacity]
    exact hs.initial_le
  · rw [hcapacity]
    exact hs.le_max
  · rw [hcapacity, hlength]
    exact hs.length_le
  · rw [hretained]
    exact hs.retained_le

/-- Only the counters change. -/
lemma Similar.count {D : Nat × Nat → Nat × Nat → Prop} {s t : Preflight} (h : Similar C s t)
    (nodes operations nodes' operations' : Nat) (hD : D (nodes, operations) (nodes', operations')) :
    Similar D { s with nodes := nodes, operations := operations }
      { t with nodes := nodes', operations := operations' } where
  left := h.left.of_eq rfl rfl rfl rfl
  right := h.right.of_eq rfl rfl rfl rfl
  written_eq := h.written_eq
  retained_eq := h.retained_eq
  counters := hD

lemma countOperation_run (s : Preflight) : countOperation s =
    if maxOperations ≤ s.operations then (.error resourceLimit, s)
    else (.ok (), { s with operations := s.operations + 1 }) := by
  unfold countOperation checkedIncrement
  split_ifs
  · rfl
  · rfl

lemma countNode_run (s : Preflight) : countNode s =
    if maxNodes ≤ s.nodes then (.error resourceLimit, s)
    else (.ok (), { s with nodes := s.nodes + 1 }) := by
  unfold countNode checkedIncrement
  split_ifs
  · rfl
  · rfl

lemma enterValue_similar (depth : Nat) :
    Simulates (Similar Eq) (Similar Eq) (enterValue depth) (enterValue depth) := by
  refine Simulates.bind (S := Similar Eq) ?_ fun _ => ?_
  · intro s t hst
    have hnodes : s.nodes = t.nodes := congrArg Prod.fst hst.counters
    have hoperations : s.operations = t.operations := congrArg Prod.snd hst.counters
    rw [countOperation_run, countOperation_run, hoperations]
    split
    · rfl
    · exact ⟨rfl, hst.count _ _ _ _ (by rw [hnodes])⟩
  · refine simulates_ite (fun _ => simulates_fail) fun _ => ?_
    intro s t hst
    have hnodes : s.nodes = t.nodes := congrArg Prod.fst hst.counters
    have hoperations : s.operations = t.operations := congrArg Prod.snd hst.counters
    rw [countNode_run, countNode_run, hnodes]
    split
    · rfl
    · exact ⟨rfl, hst.count _ _ _ _ (by rw [hoperations])⟩

lemma beginValues_similar (count : Nat) :
    Simulates (Similar C) (Similar C) (beginValues count) (beginValues count) := by
  by_cases h : count ≤ maxOperations
  · exact (beginValues_writes h).simulates (beginValues_writes h)
  · rw [beginValues, if_pos (Nat.lt_of_not_le h)]
    exact simulates_fail

lemma beginObject_similar (count : Nat) :
    Simulates (Similar C) (Similar C) (beginObject count) (beginObject count) := by
  refine ((u8_writes jsonObject).simulates (u8_writes jsonObject)).bind fun _ => ?_
  exact simulates_ite (fun _ => simulates_fail) (fun _ => (u32_writes count).simulates (u32_writes count))

mutual
/-- A value is written alike on every buffer. -/
theorem writeJsonValue_similar (depth : Nat) : ∀ value : JsValue,
    Simulates (Similar Eq) (Similar Eq) (writeJsonValue depth value) (writeJsonValue depth value) := by
  intro value
  rw [writeJsonValue.eq_def]
  refine (enterValue_similar depth).bind fun _ => ?_
  cases value with
  | null => exact (u8_writes _).simulates (u8_writes _)
  | bool b =>
    cases b with
    | false => exact (u8_writes _).simulates (u8_writes _)
    | true => exact (u8_writes _).simulates (u8_writes _)
  | number f =>
    by_cases hf : f.isFinite = true
    · exact (writeNumber_writes hf).simulates (writeNumber_writes hf)
    · dsimp only
      rw [writeNumber, if_pos (by rw [Bool.not_eq_true] at hf; rw [hf]; rfl)]
      exact simulates_fail
  | string text =>
    refine ((u8_writes _).simulates (u8_writes _)).bind fun _ => ?_
    exact (string_writes text).simulates (string_writes text)
  | array ref items =>
    refine ((u8_writes _).simulates (u8_writes _)).bind fun _ => ?_
    refine (beginValues_similar _).bind fun _ => ?_
    exact writeListItems_similar (depth + 1) "JSON array" items
  | object ref plain entries =>
    refine (beginObject_similar _).bind fun _ => ?_
    exact writeEntries_similar (depth + 1) entries
  | undefined => exact simulates_fail
  | hole => exact simulates_fail
  | other => exact simulates_fail

theorem writeListItems_similar (depth : Nat) (label : String) : ∀ items : List JsValue,
    Simulates (Similar Eq) (Similar Eq) (writeListItems depth label items)
      (writeListItems depth label items) := by
  intro items
  cases items with
  | nil => exact simulates_pure
  | cons item rest =>
    rw [writeListItems]
    refine simulates_ite (fun _ => simulates_fail) fun _ => ?_
    refine (writeJsonValue_similar depth item).bind fun _ => ?_
    exact writeListItems_similar depth label rest

theorem writeEntries_similar (depth : Nat) : ∀ entries : List (List UInt16 × JsValue),
    Simulates (Similar Eq) (Similar Eq) (writeEntries depth entries) (writeEntries depth entries) := by
  intro entries
  cases entries with
  | nil => exact simulates_pure
  | cons entry rest =>
    rcases entry with ⟨key, value⟩
    rw [writeEntries]
    refine ((string_writes key).simulates (string_writes key)).bind fun _ => ?_
    refine ((retain_writes _).simulates (retain_writes _)).bind fun _ => ?_
    refine (writeJsonValue_similar depth value).bind fun _ => ?_
    exact writeEntries_similar depth rest
end

/-! ## Parameters in place -/

/-- The request on the right has counted `index` values, whatever the one on the left has. -/
def Behind (index : Nat) (_ counters : Nat × Nat) : Prop := counters = (index, index)

/-- A scalar written where it is met is the value the general path writes, which counts it. -/
lemma scalar_similar {index : Nat} (h : index < maxOperations) {bytes : List UInt8} {retained : Nat}
    (hm : Writes m bytes retained) (hn : Writes n bytes retained) :
    Simulates (Similar (Behind index)) (Similar (Behind (index + 1))) m
      (do enterValue 0; n) := by
  intro s t hst
  have hcounters : (t.nodes, t.operations) = (index, index) := hst.counters
  have hnodes : t.nodes = index := congrArg Prod.fst hcounters
  have hoperations : t.operations = index := congrArg Prod.snd hcounters
  have hlimit : ¬maxNodes ≤ index := Nat.not_le.mpr h
  have henter : enterValue 0 t = (.ok (), { t with nodes := index + 1, operations := index + 1 }) := by
    have hoperation : countOperation t = (.ok (), { t with operations := index + 1 }) := by
      rw [countOperation_run, hoperations, if_neg (Nat.not_le.mpr h)]
    rw [enterValue, bind_of_run hoperation, if_neg (Nat.not_lt_zero _), countNode_run]
    dsimp only
    rw [hnodes, if_neg hlimit]
  have hsim : Simulates (Similar (Behind (index + 1))) (Similar (Behind (index + 1))) m n :=
    hm.simulates hn
  have hstep := hsim s { t with nodes := index + 1, operations := index + 1 }
    (hst.count (D := Behind (index + 1)) _ _ _ _ rfl)
  rw [bind_of_run henter]
  exact hstep

/-- Nothing of the counters is asked. -/
abbrev Anyhow (_ _ : Nat × Nat) : Prop := True

lemma Similar.anyhow {s t : Preflight} (h : Similar C s t) : Similar Anyhow s t where
  left := h.left
  right := h.right
  written_eq := h.written_eq
  retained_eq := h.retained_eq
  counters := trivial

/-- From the first value of another kind on, the counters are what the general path has. -/
lemma general_similar (index : Nat) (items : List JsValue) :
    Simulates (Similar (Behind index)) (Similar Anyhow)
      (do
        modify (fun s => { s with nodes := index, operations := index })
        writeListItems 0 "SQL parameters" items)
      (writeListItems 0 "SQL parameters" items) := by
  intro s t hst
  have hcounters : (t.nodes, t.operations) = (index, index) := hst.counters
  have hst' : Similar Eq { s with nodes := index, operations := index } t :=
    hst.count index index t.nodes t.operations hcounters.symm
  exact (writeListItems_similar 0 "SQL parameters" items).mono (fun _ _ h => h)
    (fun _ _ h => h.anyhow) _ t hst'

/-- The scalar path writes what the general path does, from any value of the list on. -/
lemma writeParams_similar (items : List JsValue) {index : Nat}
    (h : index + items.length ≤ maxOperations) :
    Simulates (Similar (Behind index)) (Similar Anyhow) (writeParams index items)
      (writeListItems 0 "SQL parameters" items) := by
  induction items generalizing index with
  | nil =>
    exact simulates_pure.mono (fun _ _ h => h) (fun _ _ h => h.anyhow)
  | cons item rest ih =>
    rw [List.length_cons] at h
    have hindex : index < maxOperations := by omega
    have hrest : Simulates (Similar (Behind (index + 1))) (Similar Anyhow)
        (writeParams (index + 1) rest) (writeListItems 0 "SQL parameters" rest) := ih (by omega)
    cases item with
    | null =>
      exact (scalar_similar hindex (u8_writes jsonNull) (u8_writes jsonNull)).bind fun _ => hrest
    | bool b =>
      cases b with
      | false =>
        exact (scalar_similar hindex (u8_writes jsonFalse) (u8_writes jsonFalse)).bind fun _ => hrest
      | true =>
        exact (scalar_similar hindex (u8_writes jsonTrue) (u8_writes jsonTrue)).bind fun _ => hrest
    | number f =>
      by_cases hf : f.isFinite = true
      · have hparams : writeParams index (.number f :: rest) = (do
            writeScalarNumber f
            writeParams (index + 1) rest) := by
          rw [writeParams, if_pos hf]
        rw [hparams]
        exact (scalar_similar hindex (writeScalarNumber_writes f) (writeNumber_writes hf)).bind
          fun _ => hrest
      · have hparams : writeParams index (.number f :: rest) = (do
            modify (fun s => { s with nodes := index, operations := index })
            writeListItems 0 "SQL parameters" (.number f :: rest)) := by
          rw [writeParams, if_neg hf]
        rw [hparams]
        exact general_similar index _
    | string text =>
      have hboth := scalar_similar hindex ((u8_writes jsonString).bind (string_writes text))
        ((u8_writes jsonString).bind (string_writes text))
      have hstring := hboth.bind fun _ => hrest
      rw [bind_assoc] at hstring
      exact hstring
    | array ref items => exact general_similar index _
    | object ref plain entries => exact general_similar index _
    | undefined => exact general_similar index _
    | hole => exact general_similar index _
    | other => exact general_similar index _

/-! ## Whole statements -/

/-- A buffer with the flag in its first byte, which is all that is written. -/
lemma Buffered.flagged {s : Preflight} (hs : s.Buffered) (b : Bool) (nodes operations : Nat) :
    Writing { s with
      buffer := put s.buffer 0 [flag b], length := 1, retained := 0, nodes := nodes
      operations := operations } ∧
    written { s with
      buffer := put s.buffer 0 [flag b], length := 1, retained := 0, nodes := nodes
      operations := operations } = [flag b] := by
  have hcap := hs.capacity_eq
  have hinitial := hs.initial_le
  have hpos : 1 ≤ initialBufferBytes := by decide
  have hroom : 0 + [flag b].length ≤ s.buffer.length := by
    rw [List.length_singleton]
    omega
  refine ⟨⟨⟨⟨?_, hinitial, hs.le_max⟩, ?_⟩, Nat.zero_le _⟩, ?_⟩
  · rw [length_put hroom]
    exact hcap
  · dsimp only
    omega
  · have htake : (put s.buffer 0 [flag b]).take (0 + [flag b].length) = s.buffer.take 0 ++ [flag b] :=
      take_put hroom
    rw [List.take_zero, List.nil_append] at htake
    exact htake

lemma storeFlag_run {s : Preflight} (hs : s.Buffered) (b : Bool) :
    storeByte 0 (flag b) s = (.ok (), { s with buffer := put s.buffer 0 [flag b] }) := by
  refine storeByte_run ?_
  have hinitial := hs.initial_le
  have hpos : 1 ≤ initialBufferBytes := by decide
  rw [hs.capacity_eq] at hinitial
  omega

lemma flag_begin_run {s : Preflight} (hs : s.Buffered) (b : Bool) :
    (do storeByte 0 (flag b); begin 1 : Encode Unit) s = (.ok (), { s with
      buffer := put s.buffer 0 [flag b], length := 1, retained := 0, nodes := 0, operations := 0 }) := by
  rw [bind_of_run (storeFlag_run hs b)]
  rfl

/-- The flag and an identifier, which are where a statement's parameters begin. -/
lemma Buffered.identified {s : Preflight} (hs : s.Buffered) (b : Bool) (id : Nat) :
    Writing { s with
      buffer := put (put s.buffer 0 [flag b]) 1 (leBytes 4 id), length := 5, retained := 0 } ∧
    written { s with
      buffer := put (put s.buffer 0 [flag b]) 1 (leBytes 4 id), length := 5, retained := 0 } =
      flag b :: leBytes 4 id := by
  have hcap := hs.capacity_eq
  have hinitial := hs.initial_le
  have hpos : 5 ≤ initialBufferBytes := by decide
  have hroom : 0 + (flag b :: leBytes 4 id).length ≤ s.buffer.length := by
    rw [List.length_cons, length_leBytes]
    omega
  have hput : put (put s.buffer 0 [flag b]) 1 (leBytes 4 id) = put s.buffer 0 (flag b :: leBytes 4 id) :=
    put_cons (Nat.zero_le _) (flag b) (leBytes 4 id)
  rw [hput]
  refine ⟨⟨⟨⟨?_, hinitial, hs.le_max⟩, ?_⟩, Nat.zero_le _⟩, ?_⟩
  · rw [length_put hroom]
    exact hcap
  · dsimp only
    omega
  · have htake := take_put hroom
    rw [List.take_zero, List.nil_append, List.length_cons, length_leBytes] at htake
    exact htake

lemma writeTarget_id_run {s : Preflight} (hs : s.Buffered) {f : F64} (hf : isStatementId f = true)
    (arrayRows : Bool) : writeTarget true (.number f) arrayRows s = (.ok (), { s with
      buffer := put (put s.buffer 0 [flag arrayRows]) 1 (leBytes 4 f.toInt.toNat)
      length := 5, retained := 0 }) := by
  have hinitial := hs.initial_le
  have hpos : 5 ≤ initialBufferBytes := by decide
  rw [hs.capacity_eq] at hinitial
  have hput : (put s.buffer 0 [flag arrayRows]).length = s.buffer.length :=
    length_put (by rw [List.length_singleton]; omega)
  rw [writeTarget, bind_of_run (storeFlag_run hs arrayRows), if_pos rfl, writeStatementId, if_pos hf]
  have hmodify : (modify (fun s => { s with retained := 0 }) : Encode Unit)
      { s with buffer := put s.buffer 0 [flag arrayRows] } =
      (.ok (), { s with buffer := put s.buffer 0 [flag arrayRows], retained := 0 }) := rfl
  rw [bind_of_run hmodify, setUint32, bind_of_run (setBytes_run (by
    rw [length_leBytes]
    dsimp only
    omega))]
  rfl

lemma writeTarget_sql_run {s : Preflight} (hs : s.Buffered) (statement : JsValue) (arrayRows : Bool) :
    writeTarget false statement arrayRows s = string statement { s with
      buffer := put s.buffer 0 [flag arrayRows], length := 1, retained := 0 } := by
  rw [writeTarget, bind_of_run (storeFlag_run hs arrayRows)]
  rfl

/-- Two requests begun alike. -/
lemma Similar.begun {s t : Preflight} {bytes : List UInt8} (hs : s.Writing ∧ s.written = bytes)
    (ht : t.Writing ∧ t.written = bytes) (hretained : s.retained = t.retained) :
    Similar Anyhow s t where
  left := hs.1
  right := ht.1
  written_eq := hs.2.trans ht.2.symm
  retained_eq := hretained
  counters := trivial

lemma writeTarget_similar (prepared : Bool) (statement : JsValue) (arrayRows : Bool) :
    Simulates (fun s t => s.Buffered ∧ t.Buffered) (Similar Anyhow)
      (writeTarget prepared statement arrayRows) (writeTarget prepared statement arrayRows) := by
  rintro s t ⟨hs, ht⟩
  cases prepared with
  | true =>
    by_cases hid : ∃ f, statement = .number f ∧ isStatementId f = true
    · obtain ⟨f, rfl, hf⟩ := hid
      rw [writeTarget_id_run hs hf, writeTarget_id_run ht hf]
      exact ⟨rfl, .begun (hs.identified arrayRows _) (ht.identified arrayRows _) rfl⟩
    · have hfail : writeStatementId statement = fail invalidStatementId := by
        cases statement with
        | number f =>
          rw [writeStatementId, if_neg]
          intro hf
          exact hid ⟨f, rfl, hf⟩
        | _ => rfl
      rw [writeTarget, if_pos rfl, hfail, bind_of_run (storeFlag_run hs arrayRows),
        bind_of_run (storeFlag_run ht arrayRows)]
      exact rfl
  | false =>
    have hbegun : Similar Anyhow
        { s with buffer := put s.buffer 0 [flag arrayRows], length := 1, retained := 0 }
        { t with buffer := put t.buffer 0 [flag arrayRows], length := 1, retained := 0 } :=
      .begun (hs.flagged arrayRows _ _) (ht.flagged arrayRows _ _) rfl
    rw [writeTarget_sql_run hs, writeTarget_sql_run ht]
    cases statement with
    | string text => exact (string_writes text).simulates (string_writes text) _ _ hbegun
    | _ => exact rfl

/-- A statement's parameters all written as a list's items are, as if they had been sliced out of
the array first. -/
def writeSlicedParams (start : Nat) : JsValue → Encode Unit
  | .array _ items => do
    modify (fun s => { s with nodes := 0, operations := 0 })
    writeJsonValues 0 "SQL parameters" (items.drop start)
  | _ => fail (invalidBridgeValue "SQL parameters must be an array")

def encodeSlicedStatement (prepared : Bool) (statement input : JsValue) (arrayRows : Bool)
    (start : Nat) : Encode (List UInt8) := do
  writeTarget prepared statement arrayRows
  writeSlicedParams start input
  finish

lemma writeStatementParams_similar (start : Nat) (input : JsValue) :
    Simulates (Similar Anyhow) (Similar Anyhow) (writeStatementParams start input)
      (writeSlicedParams start input) := by
  cases input with
  | array ref items =>
    have hreset : Simulates (Similar Anyhow) (Similar (Behind 0)) (pure () : Encode Unit)
        (modify (fun s => { s with nodes := 0, operations := 0 })) := by
      intro s t hst
      exact ⟨rfl, hst.count s.nodes s.operations 0 0 rfl⟩
    have hlen : (items.drop start).length = items.length - start := List.length_drop
    refine hreset.bind (f := fun _ => writeStatementParams start (.array ref items)) fun _ => ?_
    rw [writeStatementParams, writeJsonValues, hlen]
    by_cases hcount : items.length - start ≤ maxOperations
    · refine (beginValues_similar _).bind fun _ => ?_
      exact writeParams_similar _ (by omega)
    · have hfail : beginValues (items.length - start) = fail resourceLimit := by
        rw [beginValues, if_pos (Nat.lt_of_not_le hcount)]
      rw [hfail]
      exact fun _ _ _ => rfl
  | _ => exact simulates_fail

lemma finish_run (s : Preflight) : (finish s).1 = .ok s.written := rfl

lemma finish_similar : Simulates (Similar C) (fun _ _ => True) finish finish := by
  intro s t hst
  exact ⟨hst.written_eq, trivial⟩

/-- A statement is written alike by both paths, whatever the module's state before either. -/
lemma encodeStatement_similar (prepared : Bool) (statement input : JsValue) (arrayRows : Bool)
    (start : Nat) : Simulates (fun s t => s.Buffered ∧ t.Buffered) (fun _ _ => True)
      (encodeStatement prepared statement input arrayRows start)
      (encodeSlicedStatement prepared statement input arrayRows start) := by
  refine (writeTarget_similar prepared statement arrayRows).bind fun _ => ?_
  refine (writeStatementParams_similar start input).bind fun _ => ?_
  exact finish_similar

end Preflight
end TinyJoin
