import TinyJoin.ChangeReport
import Mathlib.Data.Set.Card

/-! A statement's report names, for each table, the set of the primary keys that its changes name, or
nothing where they are too many. -/
namespace TinyJoin
open Sorting

/-! ### Planned changes -/

/-- A change that planning makes, and the encoded primary key it names. A row or key that it carries
has values of its key columns' types, and a key that it brings encoded is that of some such row. -/
inductive StorageReader.Plans (reader : StorageReader) : RowChange → List UInt8 → Prop where
  | upsert {table : String} {schema : TableDefinition} {row : RowMap} {key : List UInt8} :
    reader.tableSchema table = .ok schema → Keyed schema row.row key →
    Plans reader (.upsert table row) key
  | delete {table : String} {schema : TableDefinition} {row : RowMap} {key : List UInt8} :
    reader.tableSchema table = .ok schema → Keyed schema row.row key →
    Plans reader (.delete table row) key
  | put {table : String} {schema : TableDefinition} {layout : RecordLayout} {row : Row}
      {key record : List UInt8} :
    reader.tableSchema table = .ok schema → reader.recordLayout table = some layout →
    Keyed schema row key → Plans reader (.put table key record) key
  | remove {table : String} {schema : TableDefinition} {layout : RecordLayout} {row : Row}
      {key : List UInt8} :
    reader.tableSchema table = .ok schema → reader.recordLayout table = some layout →
    Keyed schema row key → Plans reader (.remove table key) key

/-- The primary keys that changes name in a table. -/
def StorageReader.keysNamed (reader : StorageReader) (table : String) (changes : List RowChange) :
    Set (List UInt8) :=
  {key | ∃ change ∈ changes, change.table = table ∧ reader.Plans change key}

/-- The keys are listed, each once, in the order of their encodings. -/
structure TableKeys.Lists (reported : TableKeys) (schema : TableDefinition)
    (named : Set (List UInt8)) : Prop where
  schema_eq : reported.schema = schema
  keys : ∃ encoded : List (List UInt8), encoded.Pairwise (· < ·) ∧
    (∀ key, key ∈ encoded ↔ key ∈ named) ∧
    List.Forall₂ (Spells schema) reported.keys encoded

section Report
variable {reader : StorageReader} {change : RowChange} {changes : List RowChange}
  {key : List UInt8} {table : String} {schema : TableDefinition}

lemma StorageReader.Plans.unique {other : List UInt8} (h : reader.Plans change key)
    (h' : reader.Plans change other) : key = other := by
  cases h with
  | upsert hschema hkeyed =>
    cases h' with
    | upsert hschema' hkeyed' =>
      rw [hschema] at hschema'
      cases hschema'
      exact Except.ok.inj (hkeyed.encodes.symm.trans hkeyed'.encodes)
  | delete hschema hkeyed =>
    cases h' with
    | delete hschema' hkeyed' =>
      rw [hschema] at hschema'
      cases hschema'
      exact Except.ok.inj (hkeyed.encodes.symm.trans hkeyed'.encodes)
  | put _ _ _ =>
    cases h'
    rfl
  | remove _ _ _ =>
    cases h'
    rfl

lemma StorageReader.shape (hschema : reader.tableSchema table = .ok schema) : SchemaShape schema :=
  schemaShape_of_valid (reader.valid hschema)

lemma emptyRecord_new (layout : RecordLayout) (schema : TableDefinition) (key : List UInt8) :
    ∃ record, StoredRecord.new schema layout key emptyRecord = .ok record ∧
      record.key = key ∧ record.layout = layout :=
  ⟨_, rfl, rfl, rfl⟩

/-- The key of a row planned as its record is read from its encoding. -/
lemma pushPlannedKey_eq {layout : RecordLayout} {row : Row}
    (hschema : reader.tableSchema table = .ok schema)
    (hlayout : reader.recordLayout table = some layout) (hkeyed : Keyed schema row key)
    (values : List Value) :
    ∃ pushed, pushChangedKey.pushPlannedKey reader schema values table key =
        .ok (values ++ pushed) ∧ Spells schema pushed key := by
  obtain ⟨layout', hnew, hlaid⟩ := layout_new (reader.shape hschema)
  rw [reader.layout_new hschema hlayout] at hnew
  cases hnew
  obtain ⟨components, hread, hvalues⟩ := hkeyed.readComponents_eq (reader.shape hschema) hlaid
  obtain ⟨record, hrecord, hkey, hlayout'⟩ := emptyRecord_new layout schema key
  refine ⟨_, ?_, _, hkeyed.dropZeroSign, keyValues_dropZeroSign.symm⟩
  rw [pushChangedKey.pushPlannedKey, hlayout]
  simp only [hrecord, bind, Except.bind, StoredRecord.pushKeyValues, hkey, hlayout', hread,
    ne_eq, not_true_eq_false, if_false, pure, Except.pure, hvalues]

/-- What a planned change reports: the key it names. -/
lemma StorageReader.Plans.reports (h : reader.Plans change key) :
    ∃ schema, reader.tableSchema change.table = .ok schema ∧
      encodedChangedKey schema change = key ∧
      ∀ values, ∃ pushed, pushChangedKey reader schema change values = .ok (values ++ pushed) ∧
        Spells schema pushed key := by
  cases h with
  | upsert hschema hkeyed =>
    exact ⟨_, hschema, by rw [encodedChangedKey, hkeyed.encodes]; rfl,
      fun values => ⟨_, rfl, _, hkeyed, rfl⟩⟩
  | delete hschema hkeyed =>
    exact ⟨_, hschema, by rw [encodedChangedKey, hkeyed.encodes]; rfl,
      fun values => ⟨_, rfl, _, hkeyed, rfl⟩⟩
  | put hschema hlayout hkeyed =>
    exact ⟨_, hschema, rfl, pushPlannedKey_eq hschema hlayout hkeyed⟩
  | remove hschema hlayout hkeyed =>
    exact ⟨_, hschema, rfl, pushPlannedKey_eq hschema hlayout hkeyed⟩

lemma ncard_of_nodup {α : Type} {s : Set α} {l : List α} (hnodup : l.Nodup)
    (hmem : ∀ a, a ∈ l ↔ a ∈ s) : s.ncard = l.length := by
  classical
  have hs : s = (l.toFinset : Set α) := by
    ext a
    rw [Finset.mem_coe, List.mem_toFinset, hmem]
  rw [hs, Set.ncard_coe_finset, List.toFinset_card_of_nodup hnodup]

/-! ### The early check -/

/-- A key at hand is the one its change names. -/
lemma plans_of_heldKey {held : Option PreviousRow} (hplanned : ∃ key, reader.Plans change key)
    (hread : ∀ key record, held.getD .unread = .read (some (.stored key record)) →
      reader.Plans change key)
    (h : heldKey change held = some key) : reader.Plans change key := by
  obtain ⟨named, hnamed⟩ := hplanned
  unfold heldKey at h
  split at h
  · cases h
    cases hnamed with
    | put hschema hlayout hkeyed => exact .put hschema hlayout hkeyed
  · cases h
    cases hnamed with
    | remove hschema hlayout hkeyed => exact .remove hschema hlayout hkeyed
  · cases h
    exact hread _ _ rfl
  · cases h

/-- Changes whose keys ascend name as many keys as they are. -/
lemma keysAscend_spec {last : Option (List UInt8)} {previous : List PreviousRow}
    (hplanned : ∀ change ∈ changes, ∃ key, reader.Plans change key)
    (hread : ∀ entry ∈ PagedTransaction.withPrevious changes previous, ∀ key record,
      entry.2 = .read (some (.stored key record)) → reader.Plans entry.1 key)
    (h : keysAscend table last changes previous = true) :
    ∃ keys : List (List UInt8), keys.length = changes.length ∧ keys.Pairwise (· < ·) ∧
      (∀ before ∈ last, ∀ key ∈ keys, before < key) ∧
      (∀ change ∈ changes, change.table = table) ∧
      ∀ key, key ∈ keys ↔ key ∈ reader.keysNamed table changes := by
  induction changes generalizing last previous with
  | nil => exact ⟨[], rfl, .nil, by simp, by simp, by simp [StorageReader.keysNamed]⟩
  | cons change changes ih =>
    rw [keysAscend] at h
    cases hheld : heldKey change previous.head? with
    | none => simp [hheld] at h
    | some key =>
      simp only [hheld] at h
      split at h
      · cases h
      · next hnot =>
        rw [not_or, not_not, Bool.not_eq_true] at hnot
        obtain ⟨htable, hlast⟩ := hnot
        have hplans : reader.Plans change key := by
          refine plans_of_heldKey (hplanned change List.mem_cons_self) ?_ hheld
          intro key record hstored
          refine hread _ List.mem_cons_self key record ?_
          rw [← hstored, List.headD_eq_head?_getD]
        obtain ⟨keys, hlength, hpair, habove, htables, hmem⟩ := ih
          (fun change hchange => hplanned change (List.mem_cons_of_mem _ hchange))
          (fun entry hentry => hread entry (List.mem_cons_of_mem _ hentry)) h
        have hfirst : ∀ later ∈ keys, key < later := habove key rfl
        refine ⟨key :: keys, by rw [List.length_cons, List.length_cons, hlength],
          List.pairwise_cons.mpr ⟨hfirst, hpair⟩, ?_, ?_, ?_⟩
        · intro before hbefore later hlater
          cases hbefore
          have hlt : before < key := by simpa using hlast
          rcases List.mem_cons.mp hlater with rfl | hlater
          · exact hlt
          · exact hlt.trans (hfirst later hlater)
        · intro other hother
          rcases List.mem_cons.mp hother with rfl | hother
          · exact htable
          · exact htables other hother
        · intro later
          rw [List.mem_cons, hmem]
          constructor
          · rintro (rfl | ⟨other, hother, hrest⟩)
            · exact ⟨change, List.mem_cons_self, htable, hplans⟩
            · exact ⟨other, List.mem_cons_of_mem _ hother, hrest⟩
          · rintro ⟨other, hother, hrest⟩
            rcases List.mem_cons.mp hother with rfl | hother
            · exact .inl (hrest.2.unique hplans)
            · exact .inr ⟨other, hother, hrest⟩

/-! ### The general report -/

/-- The last schema read is a table's. -/
def ReadLast (reader : StorageReader) (last : Option TableDefinition) : Prop :=
  ∀ schema ∈ last, ∃ table, reader.tableSchema table = .ok schema

lemma schemaOf_eq {last : Option TableDefinition} (hlast : ReadLast reader last) (table : String) :
    schemaOf reader last table = reader.tableSchema table := by
  cases last with
  | none => rfl
  | some schema =>
    rw [schemaOf]
    split
    · next hname =>
      obtain ⟨read, hread⟩ := hlast schema rfl
      rw [← hname, reader.name_eq hread, hread]
    · rfl

/-- A change stands with its table and the key it names. -/
structure EncodedKey.Encodes (reader : StorageReader) (encoded : EncodedKey) : Prop where
  table : encoded.change.table = encoded.table
  plans : reader.Plans encoded.change encoded.key

lemma encodeChanges_spec {last : Option TableDefinition} (hlast : ReadLast reader last)
    (hplanned : ∀ change ∈ changes, ∃ key, reader.Plans change key) :
    ∃ encoded last', encodeChanges reader last changes = .ok (encoded, last') ∧
      ReadLast reader last' ∧ (∀ e ∈ encoded, e.Encodes reader) ∧
      encoded.map (fun e => e.change) = changes := by
  induction changes generalizing last with
  | nil => exact ⟨[], last, rfl, hlast, by simp, rfl⟩
  | cons change changes ih =>
    obtain ⟨key, hkey⟩ := hplanned change List.mem_cons_self
    obtain ⟨schema, hschema, hencoded, -⟩ := hkey.reports
    have hnext : ReadLast reader (some schema) := by
      rintro schema' ⟨⟩
      exact ⟨_, hschema⟩
    obtain ⟨encoded, last', hrest, hlast', hencodes, hchanges⟩ := ih hnext
      (fun change hchange => hplanned change (List.mem_cons_of_mem _ hchange))
    refine ⟨⟨change.table, key, change⟩ :: encoded, last', ?_, hlast', ?_, ?_⟩
    · simp only [encodeChanges, schemaOf_eq hlast, hschema, bind, Except.bind, hrest, pure,
        Except.pure, hencoded]
    · intro e he
      rcases List.mem_cons.mp he with rfl | he
      · exact ⟨rfl, hkey⟩
      · exact hencodes e he
    · rw [List.map_cons, hchanges]

/-- Keys are pushed one after another. -/
lemma pushChangedKeys_spec (hschema : reader.tableSchema table = .ok schema)
    {run : List EncodedKey} (hrun : ∀ e ∈ run, e.Encodes reader ∧ e.table = table)
    (values : List Value) :
    ∃ pushed : List (List Value),
      pushChangedKeys reader schema run values = .ok (values ++ pushed.flatten) ∧
      List.Forall₂ (Spells schema) pushed (run.map (fun e => e.key)) := by
  induction run generalizing values with
  | nil => exact ⟨[], by rw [pushChangedKeys, List.flatten_nil, List.append_nil], .nil⟩
  | cons e run ih =>
    obtain ⟨hencodes, htable⟩ := hrun e List.mem_cons_self
    obtain ⟨schema', hschema', -, hpush⟩ := hencodes.plans.reports
    rw [hencodes.table, htable, hschema] at hschema'
    cases hschema'
    obtain ⟨first, hfirst, hspells⟩ := hpush values
    obtain ⟨pushed, hpushed, hrest⟩ := ih (fun e he => hrun e (List.mem_cons_of_mem _ he))
      (values ++ first)
    refine ⟨first :: pushed, ?_, .cons hspells hrest⟩
    simp only [pushChangedKeys, hfirst, bind, Except.bind, hpushed, List.flatten_cons,
      List.append_assoc]

lemma chunks_flatten {width : Nat} (hwidth : 0 < width) {chunks : List (List Value)}
    (h : ∀ chunk ∈ chunks, chunk.length = width) :
    TableKeys.chunks width chunks.flatten = chunks := by
  induction chunks with
  | nil => rw [List.flatten_nil, TableKeys.chunks]
  | cons chunk chunks ih =>
    have hlength := h chunk List.mem_cons_self
    have hne : chunk ≠ [] := by
      rintro rfl
      exact hwidth.ne hlength
    obtain ⟨value, rest, rfl⟩ := List.exists_cons_of_ne_nil hne
    have hrest : rest.length = width - 1 := by
      rw [← hlength, List.length_cons, Nat.add_sub_cancel]
    rw [List.flatten_cons, List.cons_append, TableKeys.chunks, List.take_left' hrest,
      List.drop_left' hrest, ih (fun chunk hchunk => h chunk (List.mem_cons_of_mem _ hchunk))]

/-- Pushed values are read back key by key. -/
lemma keys_flatten (hshape : SchemaShape schema) {pushed : List (List Value)}
    {encoded : List (List UInt8)} (h : List.Forall₂ (Spells schema) pushed encoded) :
    TableKeys.keys ⟨schema, pushed.flatten⟩ = pushed := by
  have hpos : 0 < schema.primaryKey.length := List.length_pos_iff.mpr hshape.key_ne_nil
  have hwidth : max schema.primaryKey.length 1 = schema.primaryKey.length := by omega
  rw [TableKeys.keys, TableKeys.columns, hwidth]
  refine chunks_flatten hpos ?_
  intro chunk hchunk
  obtain ⟨i, hi, rfl⟩ := List.mem_iff_getElem.mp hchunk
  exact (h.get hi (h.length_eq ▸ hi)).length

/-- A run of a table's changes, all of them. -/
structure IsRun (reader : StorageReader) (changes : List RowChange) (table : String)
    (run : List EncodedKey) : Prop where
  ne_nil : run ≠ []
  encodes : ∀ e ∈ run, e.Encodes reader ∧ e.table = table
  ascends : (run.map (fun e => e.key)).Pairwise (· < ·)
  named : ∀ key, key ∈ run.map (fun e => e.key) ↔ key ∈ reader.keysNamed table changes

lemma IsRun.ncard_eq {run : List EncodedKey} (h : IsRun reader changes table run) :
    (reader.keysNamed table changes).ncard = run.length := by
  rw [ncard_of_nodup (h.ascends.imp (fun hlt => hlt.ne)) h.named, List.length_map]

lemma IsRun.lists {run : List EncodedKey} (h : IsRun reader changes table run)
    (hschema : reader.tableSchema table = .ok schema) :
    ∃ values, pushChangedKeys reader schema run [] = .ok values ∧
      TableKeys.Lists ⟨schema, values⟩ schema (reader.keysNamed table changes) := by
  obtain ⟨pushed, hpushed, hspells⟩ := pushChangedKeys_spec hschema h.encodes []
  refine ⟨pushed.flatten, hpushed, rfl, run.map (fun e => e.key), h.ascends, h.named, ?_⟩
  rw [keys_flatten (reader.shape hschema) hspells]
  exact hspells

/-- What the report has of a table. -/
def Reports (reader : StorageReader) (changes : List RowChange) (table : String)
    (reported : Option TableKeys) : Prop :=
  match reported with
  | some reported => (reader.keysNamed table changes).Nonempty ∧
      (reader.keysNamed table changes).ncard ≤ maxChangedKeysPerTable ∧
      ∃ schema, reader.tableSchema table = .ok schema ∧
        reported.Lists schema (reader.keysNamed table changes)
  | none => reader.keysNamed table changes = ∅ ∨
      maxChangedKeysPerTable < (reader.keysNamed table changes).ncard

lemma ChangedKeys.get_insert {keys : ChangedKeys} (h : keys.InOrder) (reported : TableKeys)
    (table : String) : (keys.insert reported).get table =
      if table = reported.table then some reported else keys.get table := h.get_put

/-- The loop over the runs reports each run's table. -/
lemma reportTables_spec {last : Option TableDefinition} (hlast : ReadLast reader last)
    {tables : List (List EncodedKey)}
    (hruns : ∀ run ∈ tables, ∀ e ∈ run, IsRun reader changes e.table run)
    (hne : ∀ run ∈ tables, run ≠ [])
    (hdiffer : tables.Pairwise (fun r s => ∀ a ∈ r, ∀ b ∈ s, a.table < b.table))
    {keys : ChangedKeys} (hkeys : keys.InOrder)
    (hnew : ∀ run ∈ tables, ∀ e ∈ run, keys.get e.table = none) :
    ∃ keys', reportTables reader last tables keys = .ok keys' ∧ keys'.InOrder ∧
      (∀ run ∈ tables, ∀ e ∈ run, Reports reader changes e.table (keys'.get e.table)) ∧
      ∀ table, (∀ run ∈ tables, ∀ e ∈ run, e.table ≠ table) →
        keys'.get table = keys.get table := by
  induction tables generalizing last keys with
  | nil => exact ⟨keys, rfl, hkeys, by simp, by simp⟩
  | cons run rest ih =>
    obtain ⟨first, more, rfl⟩ := List.exists_cons_of_ne_nil (hne run List.mem_cons_self)
    obtain ⟨habove, hpair⟩ := List.pairwise_cons.mp hdiffer
    have hrun := hruns _ List.mem_cons_self first List.mem_cons_self
    have hothers : ∀ run ∈ rest, ∀ e ∈ run, e.table ≠ first.table := fun run hrun e he =>
      (habove run hrun first List.mem_cons_self e he).ne'
    have hsame : ∀ e ∈ first :: more, e.table = first.table := fun e he => (hrun.encodes e he).2
    rw [reportTables]
    split
    · next hmany =>
      obtain ⟨keys', heq, hordered, hreports, hrest⟩ := ih hlast
        (fun run hrun => hruns run (List.mem_cons_of_mem _ hrun))
        (fun run hrun => hne run (List.mem_cons_of_mem _ hrun)) hpair hkeys
        (fun run hrun => hnew run (List.mem_cons_of_mem _ hrun))
      refine ⟨keys', heq, hordered, ?_, ?_⟩
      · intro run hmem e he
        rcases List.mem_cons.mp hmem with rfl | hmem
        · rw [hsame e he, hrest first.table hothers,
            hnew _ List.mem_cons_self first List.mem_cons_self]
          refine .inr ?_
          rw [hrun.ncard_eq]
          exact hmany
        · exact hreports run hmem e he
      · exact fun table htable =>
          hrest table (fun run hrun => htable run (List.mem_cons_of_mem _ hrun))
    · next hfew =>
      obtain ⟨schema, hschema, -⟩ := (hrun.encodes first List.mem_cons_self).1.plans.reports
      rw [(hrun.encodes first List.mem_cons_self).1.table] at hschema
      obtain ⟨values, hvalues, hlists⟩ := hrun.lists hschema
      have hname : TableKeys.table ⟨schema, values⟩ = first.table := reader.name_eq hschema
      have hget := ChangedKeys.get_insert hkeys ⟨schema, values⟩
      rw [hname] at hget
      have hnext : ReadLast reader (some schema) := by
        rintro schema' ⟨⟩
        exact ⟨_, hschema⟩
      obtain ⟨keys', heq, hordered, hreports, hrest⟩ := ih hnext
        (fun run hrun => hruns run (List.mem_cons_of_mem _ hrun))
        (fun run hrun => hne run (List.mem_cons_of_mem _ hrun)) hpair
        (show (keys.insert ⟨schema, values⟩).InOrder from hkeys.put)
        (fun run hrun e he => by
          rw [hget, if_neg (hothers run hrun e he)]
          exact hnew run (List.mem_cons_of_mem _ hrun) e he)
      refine ⟨keys', ?_, hordered, ?_, ?_⟩
      · simp only [schemaOf_eq hlast, hschema, bind, Except.bind, hvalues, heq]
      · intro run hmem e he
        rcases List.mem_cons.mp hmem with rfl | hmem
        · rw [hsame e he, hrest first.table hothers, hget, if_pos rfl]
          refine ⟨⟨first.key, (hrun.named first.key).mp (by simp)⟩, ?_, schema, hschema, hlists⟩
          rw [hrun.ncard_eq]
          exact not_lt.mp hfew
        · exact hreports run hmem e he
      · intro table htable
        rw [hrest table (fun run hrun => htable run (List.mem_cons_of_mem _ hrun)), hget,
          if_neg (htable _ List.mem_cons_self first List.mem_cons_self).symm]

/-- Sorting the encoded keys and dropping repeats leaves a run for each table that the changes name
keys in. -/
lemma runs_spec (sort : UnstableSort EncodedKey EncodedKey.place) {encoded : List EncodedKey}
    (hencodes : ∀ e ∈ encoded, e.Encodes reader)
    (hchanges : encoded.map (fun e => e.change) = changes) :
    let tables := runs EncodedKey.table (firsts EncodedKey.place (sort.sort encoded))
    (∀ run ∈ tables, ∀ e ∈ run, IsRun reader changes e.table run) ∧
      tables.Pairwise (fun r s => ∀ a ∈ r, ∀ b ∈ s, a.table < b.table) ∧
      ∀ table, (reader.keysNamed table changes).Nonempty → ∃ run ∈ tables, ∃ e ∈ run,
        e.table = table := by
  intro tables
  have hsorted := sort.sorted encoded
  have hstrict := pairwise_firsts hsorted
  have htables : (firsts EncodedKey.place (sort.sort encoded)).Pairwise
      (fun a b => a.table ≤ b.table) := hstrict.imp (fun hlt => by
    rcases Prod.Lex.toLex_lt_toLex.mp hlt with hlt | ⟨heq, -⟩
    · exact hlt.le
    · exact heq.le)
  have hfrom : ∀ e ∈ firsts EncodedKey.place (sort.sort encoded), e.Encodes reader :=
    fun e he => hencodes e ((sort.perm encoded).mem_iff.mp ((firsts_sublist _ _).mem he))
  have hplace : ∀ table key, (∃ e ∈ firsts EncodedKey.place (sort.sort encoded),
      e.table = table ∧ e.key = key) ↔ key ∈ reader.keysNamed table changes := by
    intro table key
    have hmem : toLex (table, key) ∈ (firsts EncodedKey.place (sort.sort encoded)).map
        EncodedKey.place ↔ toLex (table, key) ∈ encoded.map EncodedKey.place := by
      rw [map_firsts hsorted, List.mem_dedup]
      exact ((sort.perm encoded).map EncodedKey.place).mem_iff
    have hiff : ∀ l : List EncodedKey, toLex (table, key) ∈ l.map EncodedKey.place ↔
        ∃ e ∈ l, e.table = table ∧ e.key = key := by
      intro l
      rw [List.mem_map]
      constructor
      · rintro ⟨e, he, heq⟩
        exact ⟨e, he, (Prod.mk.inj (toLex_inj.mp heq)).1, (Prod.mk.inj (toLex_inj.mp heq)).2⟩
      · rintro ⟨e, he, rfl, rfl⟩
        exact ⟨e, he, rfl⟩
    rw [← hiff, hmem, hiff]
    constructor
    · rintro ⟨e, he, rfl, rfl⟩
      exact ⟨e.change, by rw [← hchanges]; exact List.mem_map_of_mem he, (hencodes e he).table,
        (hencodes e he).plans⟩
    · rintro ⟨change, hchange, rfl, hplans⟩
      rw [← hchanges] at hchange
      obtain ⟨e, he, rfl⟩ := List.mem_map.mp hchange
      exact ⟨e, he, (hencodes e he).table.symm, (hencodes e he).plans.unique hplans⟩
  refine ⟨?_, pairwise_runs htables, ?_⟩
  · intro run hrun e he
    have hsame : ∀ a ∈ run, a.table = e.table := fun a ha => group_of_mem_runs hrun ha he
    have hfilter := eq_filter_of_mem_runs htables hrun hsame
    have hsub : run.Sublist (firsts EncodedKey.place (sort.sort encoded)) := by
      rw [hfilter]
      exact List.filter_sublist
    constructor
    · exact ne_nil_of_mem_runs hrun
    · exact fun a ha => ⟨hfrom a (hsub.mem ha), hsame a ha⟩
    · rw [List.pairwise_map]
      refine (hstrict.sublist hsub).imp_of_mem ?_
      intro a b ha hb hlt
      rcases Prod.Lex.toLex_lt_toLex.mp hlt with hlt | ⟨-, hlt⟩
      · exact absurd hlt (by rw [hsame a ha, hsame b hb]; exact lt_irrefl _)
      · exact hlt
    · intro key
      rw [← hplace, List.mem_map]
      constructor
      · rintro ⟨a, ha, rfl⟩
        exact ⟨a, hsub.mem ha, hsame a ha, rfl⟩
      · rintro ⟨a, ha, htable, rfl⟩
        refine ⟨a, ?_, rfl⟩
        rw [hfilter]
        exact List.mem_filter.mpr ⟨ha, by simpa using htable⟩
  · rintro table ⟨key, hkey⟩
    obtain ⟨e, he, htable, -⟩ := (hplace table key).mpr hkey
    obtain ⟨run, hrun, he⟩ := exists_run EncodedKey.table he
    exact ⟨run, hrun, e, he, htable⟩

/-! ### The report -/

/-- The early check gives up only changes to one table that name too many keys there. -/
lemma exceedsChangedKeys_spec {previous : List PreviousRow}
    (hplanned : ∀ change ∈ changes, ∃ key, reader.Plans change key)
    (hread : ∀ entry ∈ PagedTransaction.withPrevious changes previous, ∀ key record,
      entry.2 = .read (some (.stored key record)) → reader.Plans entry.1 key)
    (h : exceedsChangedKeys changes previous = true) (table : String) :
    reader.keysNamed table changes = ∅ ∨
      maxChangedKeysPerTable < (reader.keysNamed table changes).ncard := by
  rw [exceedsChangedKeys] at h
  split at h
  · cases h
  · next first hfirst =>
    obtain ⟨keys, hlength, hpair, -, htables, hmem⟩ := keysAscend_spec hplanned hread h
    by_cases htable : table = first.table
    · refine .inr ?_
      rw [htable, ncard_of_nodup (hpair.imp (fun hlt => hlt.ne)) hmem, hlength]
      exact (List.getElem?_eq_some_iff.mp hfirst).1
    · refine .inl (Set.eq_empty_iff_forall_notMem.mpr ?_)
      rintro key ⟨change, hchange, heq, -⟩
      exact htable (heq.symm.trans (htables change hchange))

/-- One change needs neither the bound nor sorting. -/
lemma changedKeys_single (sort : UnstableSort EncodedKey EncodedKey.place)
    (previous : List PreviousRow) (hplans : reader.Plans change key) :
    ∃ keys, changedKeys sort reader [change] previous = .ok keys ∧ keys.InOrder ∧
      ∀ table, Reports reader [change] table (keys.get table) := by
  obtain ⟨schema, hschema, -, hpush⟩ := hplans.reports
  obtain ⟨values, hvalues, hspells⟩ := hpush []
  have hnamed : reader.keysNamed change.table [change] = {key} := by
    ext other
    constructor
    · rintro ⟨found, hfound, -, hother⟩
      rw [List.mem_singleton.mp hfound] at hother
      exact hother.unique hplans
    · rintro rfl
      exact ⟨change, List.mem_cons_self, rfl, hplans⟩
  have hempty : (NameMap.new : ChangedKeys).InOrder := .nil
  refine ⟨ChangedKeys.insert .new ⟨schema, [] ++ values⟩, ?_, hempty.put, ?_⟩
  · simp only [changedKeys, hschema, bind, Except.bind, hvalues, pure, Except.pure]
  intro table
  rw [ChangedKeys.get_insert hempty, show TableKeys.table ⟨schema, [] ++ values⟩ = change.table from
    reader.name_eq hschema]
  split
  · next htable =>
    subst htable
    rw [Reports, hnamed, Set.ncard_singleton]
    refine ⟨Set.singleton_nonempty key, by decide, schema, hschema, rfl, [key],
      List.pairwise_singleton _ _, by simp, ?_⟩
    have hkeys := keys_flatten (reader.shape hschema) (.cons hspells .nil)
    rw [List.flatten_cons, List.flatten_nil, List.append_nil] at hkeys
    rw [List.nil_append, hkeys]
    exact .cons hspells .nil
  · next htable =>
    refine .inl (Set.eq_empty_iff_forall_notMem.mpr ?_)
    rintro other ⟨found, hfound, heq, -⟩
    rw [List.mem_singleton.mp hfound] at heq
    exact htable heq.symm

lemma changedKeys_spec (sort : UnstableSort EncodedKey EncodedKey.place)
    {previous : List PreviousRow} (hplanned : ∀ change ∈ changes, ∃ key, reader.Plans change key)
    (hread : ∀ entry ∈ PagedTransaction.withPrevious changes previous, ∀ key record,
      entry.2 = .read (some (.stored key record)) → reader.Plans entry.1 key) :
    ∃ keys, changedKeys sort reader changes previous = .ok keys ∧ keys.InOrder ∧
      ∀ table, Reports reader changes table (keys.get table) := by
  have hempty : (NameMap.new : ChangedKeys).InOrder := .nil
  rw [changedKeys.eq_def]
  split
  · next change =>
    obtain ⟨key, hkey⟩ := hplanned change List.mem_cons_self
    exact changedKeys_single sort previous hkey
  · split
    · next hexceeds =>
      exact ⟨.new, rfl, hempty, exceedsChangedKeys_spec hplanned hread hexceeds⟩
    · obtain ⟨encoded, last, hencoded, hlast, hencodes, hchanges⟩ :=
        encodeChanges_spec (show ReadLast reader none from nofun) hplanned
      obtain ⟨hruns, hdiffer, hall⟩ := runs_spec sort hencodes hchanges
      obtain ⟨keys, hkeys, hordered, hreports, hrest⟩ := reportTables_spec hlast hruns
        (fun run hrun => ne_nil_of_mem_runs hrun) hdiffer hempty (fun _ _ _ _ => rfl)
      refine ⟨keys, by simp only [hencoded, bind, Except.bind, hkeys], hordered, ?_⟩
      intro table
      by_cases hnamed : (reader.keysNamed table changes).Nonempty
      · obtain ⟨run, hrun, e, he, rfl⟩ := hall table hnamed
        exact hreports run hrun e he
      · have hnone : keys.get table = none := by
          refine hrest table ?_
          rintro run hrun e he rfl
          exact hnamed ⟨e.key, ((hruns run hrun e he).named e.key).mp
            (List.mem_map_of_mem he)⟩
        rw [hnone]
        exact .inl (Set.not_nonempty_iff_eq_empty.mp hnamed)

end Report

/-- The changed-keys report is exact: for every table it lists the keys that the changes name there,
each once and in order, and it leaves a table out where the changes name none or more than the bound.
The early check gives no other table up, and two changes that name one key report it alike, but for
the sign of a float zero. -/
theorem changedKeys_exact (sort : UnstableSort EncodedKey EncodedKey.place) (reader : StorageReader)
    (changes : List RowChange) (previous : List PreviousRow)
    (hplanned : ∀ change ∈ changes, ∃ key, reader.Plans change key)
    (hread : ∀ entry ∈ PagedTransaction.withPrevious changes previous, ∀ key record,
      entry.2 = .read (some (.stored key record)) → reader.Plans entry.1 key) :
    (∃ keys, changedKeys sort reader changes previous = .ok keys ∧ keys.InOrder ∧
      ∀ table, Reports reader changes table (keys.get table)) ∧
    (exceedsChangedKeys changes previous = true → ∀ table,
      reader.keysNamed table changes = ∅ ∨
        maxChangedKeysPerTable < (reader.keysNamed table changes).ncard) ∧
    ∀ change ∈ changes, ∀ other ∈ changes, change.table = other.table →
      ∀ key, reader.Plans change key → reader.Plans other key →
      ∃ schema values values', reader.tableSchema change.table = .ok schema ∧
        pushChangedKey reader schema change [] = .ok values ∧
        pushChangedKey reader schema other [] = .ok values' ∧
        values.map Value.dropZeroSign = values'.map Value.dropZeroSign := by
  refine ⟨changedKeys_spec sort hplanned hread, exceedsChangedKeys_spec hplanned hread, ?_⟩
  intro change _ other _ htable key hchange hother
  obtain ⟨schema, hschema, -, hpush⟩ := hchange.reports
  obtain ⟨schema', hschema', -, hpush'⟩ := hother.reports
  rw [← htable, hschema] at hschema'
  cases hschema'
  obtain ⟨values, hvalues, hspells⟩ := hpush []
  obtain ⟨values', hvalues', hspells'⟩ := hpush' []
  exact ⟨schema, _, _, hschema, hvalues, hvalues', by
    simpa using hspells.same (reader.shape hschema) hspells'⟩

/-- The catalog of one table. -/
def gaugesReader : StorageReader where
  tableSchema table := if table = "gauges" then .ok gauges else .error (storageCorrupt "no table")
  recordLayout table := if table = "gauges" then (RecordLayout.new gauges).toOption else none
  name_eq := by
    intro table schema h
    split at h
    · next htable =>
      cases h
      exact htable.symm
    · cases h
  valid := by
    intro table schema h
    split at h
    · cases h
      rfl
    · cases h
  layout_new := by
    intro table schema layout h hlayout
    split at h
    · next htable =>
      cases h
      rw [if_pos htable] at hlayout
      exact toOption_eq_some.mp hlayout
    · cases h

/-- A gauge's row as a map. -/
def gaugeMap (id : F64) : RowMap :=
  ⟨[("flags", .null), ("id", .ofF64 id), ("level", .ofI64 300), ("note", .string "")]⟩

lemma gaugeMap_keyed : Keyed gauges (gaugeMap ⟨F64.signBit⟩).row [128, 0, 0, 0, 0, 0, 0, 0] := by
  refine ⟨rfl, ?_⟩
  intro column hcolumn hkey value hvalue
  simp only [gauges, List.mem_cons, List.not_mem_nil, or_false] at hcolumn
  rcases hcolumn with rfl | rfl | rfl | rfl
  · cases hvalue
    rfl
  · cases hvalue
    rfl
  · exact absurd hkey (by decide)
  · cases hvalue
    rfl

theorem changedKeys_exact_gauges : ∃ keys,
    changedKeys (.merge EncodedKey.place) gaugesReader
      [.remove "gauges" [128, 0, 0, 0, 0, 0, 0, 0], .upsert "gauges" (gaugeMap ⟨F64.signBit⟩)]
      [.read none, .unread] = .ok keys ∧ keys.InOrder ∧
    Reports gaugesReader
      [.remove "gauges" [128, 0, 0, 0, 0, 0, 0, 0], .upsert "gauges" (gaugeMap ⟨F64.signBit⟩)]
      "gauges" (keys.get "gauges") := by
  have hremove : gaugesReader.Plans (.remove "gauges" [128, 0, 0, 0, 0, 0, 0, 0])
      [128, 0, 0, 0, 0, 0, 0, 0] := .remove rfl rfl gaugeMap_keyed
  have hupsert : gaugesReader.Plans (.upsert "gauges" (gaugeMap ⟨F64.signBit⟩))
      [128, 0, 0, 0, 0, 0, 0, 0] := .upsert rfl gaugeMap_keyed
  obtain ⟨⟨keys, hkeys, hordered, hreports⟩, -, -⟩ := changedKeys_exact (.merge EncodedKey.place)
    gaugesReader
    [.remove "gauges" [128, 0, 0, 0, 0, 0, 0, 0], .upsert "gauges" (gaugeMap ⟨F64.signBit⟩)]
    [.read none, .unread]
    (by
      intro change hchange
      rcases List.mem_pair.mp hchange with rfl | rfl
      · exact ⟨_, hremove⟩
      · exact ⟨_, hupsert⟩)
    (by
      intro entry hentry key record heq
      rcases List.mem_pair.mp hentry with rfl | rfl
      · cases heq
      · cases heq)
  exact ⟨keys, hkeys, hordered, hreports "gauges"⟩

end TinyJoin
