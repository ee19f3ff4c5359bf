import TinyJoin.FilterTests
import TinyJoin.NodeCanonical
import TinyJoin.TableVisits

/-! A filter over stored rows: what a predicate is worth on a row decides it, whether the row's columns are
read one by one, its record's bytes are tested first, or a visit presents it. -/
namespace TinyJoin
open Query

variable {json : SerdeJson} {schema : TableDefinition} {layout : RecordLayout} {row : Row}
  {key value : List UInt8}

/-! ### One row -/

/-- The filter of a predicate, if there is one, that names a schema's columns and whose subqueries have
been run. -/
structure FilterOf (schema : TableDefinition) (table : String) (predicate : Option Predicate)
    (filter : Query.Filter) : Prop where
  valid : ∀ condition, predicate = some condition →
    validatePredicateColumns schema table condition = .ok () ∧ condition.resolved = true
  new : Query.Filter.new predicate schema table = .ok filter

/-- Such a predicate has a filter. -/
lemma exists_filterOf {table : String} {predicate : Option Predicate}
    (h : ∀ condition, predicate = some condition →
      validatePredicateColumns schema table condition = .ok () ∧ condition.resolved = true) :
    ∃ filter, FilterOf schema table predicate filter := by
  cases predicate with
  | none => exact ⟨_, h, rfl⟩
  | some condition =>
    obtain ⟨hvalid, hresolved⟩ := h condition rfl
    obtain ⟨node, hnode⟩ := new_of_valid condition hvalid hresolved
    refine ⟨⟨some node, table, (node.compileTests schema).1, (node.compileTests schema).2⟩, h, ?_⟩
    rw [Query.Filter.new, hnode]
    rfl

/-- A filter decides a stored row as its predicate does, which is worth the same on the row that the entry
decodes to: of the row's columns, with the predicate's errors; and of the record's bytes, which never
reject a row it is true of, and pass only such rows where the filter need not judge them. -/
theorem filter_decides_stored_rows (json : SerdeJson) (schema : TableDefinition) (layout : RecordLayout)
    (row : Row) (key value : List UInt8) (table : String) (predicate : Option Predicate)
    (hschema : validateSchemaShape schema = .ok ()) (hlayout : RecordLayout.new schema = .ok layout)
    (hentry : StoredEntry json schema row key value)
    (hvalid : ∀ condition, predicate = some condition →
      validatePredicateColumns schema table condition = .ok () ∧ condition.resolved = true) :
    ∃ filter record decoded, Query.Filter.new predicate schema table = .ok filter ∧
      StoredRecord.new schema layout key value = .ok record ∧ record.toRow json = .ok decoded ∧
      filter.matchesRow (record.column json) = rowMatches decoded table predicate ∧
      (storedRecordPasses value (filter.storedTests schema layout) = some false →
        rowMatches decoded table predicate ≠ .ok true) ∧
      (storedRecordPasses value (filter.storedTests schema layout) = some true →
        filter.judged schema layout = false → rowMatches decoded table predicate = .ok true) := by
  have hshape := schemaShape_of_valid hschema
  obtain ⟨layout', hlayout', hlaid⟩ := layout_new hshape
  obtain rfl : layout = layout' := Except.ok.inj (hlayout.symm.trans hlayout')
  obtain ⟨filter, -, hnew⟩ := exists_filterOf hvalid
  obtain ⟨record, columns, cells, kept, hopened, hwritten, hs, hl, hk, -⟩ :=
    written_of_encodeRow key hlaid hentry.value
  have hread := readable_of_stored hschema hlaid hentry hopened
  have hmatches := matchesRow_eq hread.reads hnew
  obtain ⟨hrejects, haccepts⟩ := storedRecordPasses_agrees hschema hlaid hopened hread hnew
  rw [hmatches] at hrejects haccepts
  exact ⟨filter, record, entryRow schema row, hnew, hopened,
    hwritten.toRow_eq hshape hlaid hentry.normal hentry.roundTrips hentry.key hs hl hk, hmatches, hrejects,
    haccepts⟩

/-- Gauges above the level of 3. -/
def aboveThree : Predicate := .comparison "level" .gt (.ofI64 3)

lemma gauge_stored (id : {f : F64 // f.isFinite = true}) {key value : List UInt8}
    (hkey : encodePrimaryKey gauges (gauge id.val (.ofI64 300) .null (.string "")) = .ok key)
    (hvalue : encodeRow literalJson gauges (gauge id.val (.ofI64 300) .null (.string "")) = .ok value) :
    StoredEntry literalJson gauges (gauge id.val (.ofI64 300) .null (.string "")) key value :=
  ⟨gauge_normalized id, gauge_jsonRoundTrips id.val, hkey, hvalue⟩

theorem filter_decides_stored_rows_gauge : ∃ layout filter record decoded,
    RecordLayout.new gauges = .ok layout ∧
      Query.Filter.new (some aboveThree) gauges "gauges" = .ok filter ∧
      StoredRecord.new gauges layout [128, 0, 0, 0, 0, 0, 0, 0] [4, 3, 2, 2, 2, 44, 1] = .ok record ∧
      record.toRow literalJson = .ok decoded ∧
      filter.matchesRow (record.column literalJson) = rowMatches decoded "gauges" (some aboveThree) := by
  obtain ⟨filter, record, decoded, hfilter, hrecord, hdecoded, hmatches, -⟩ :=
    filter_decides_stored_rows literalJson gauges _ _ [128, 0, 0, 0, 0, 0, 0, 0] [4, 3, 2, 2, 2, 44, 1]
      "gauges" (some aboveThree) rfl rfl (gauge_stored ⟨⟨F64.signBit⟩, by decide⟩ rfl rfl) (by
        intro condition hcondition
        cases hcondition
        exact ⟨rfl, rfl⟩)
  exact ⟨_, filter, record, decoded, rfl, hfilter, hrecord, hdecoded, hmatches⟩

/-! ### A table's rows -/

/-- A table whose entries were written from rows of its schema, by ascending keys. -/
structure TableStored (json : SerdeJson) (table : PagedTable) : Prop where
  schema : validateSchemaShape table.schema = .ok ()
  layout : RecordLayout.new table.schema = .ok table.layout
  ascend : KeysAscend table.entries
  stored : ∀ entry ∈ table.entries, ∃ row, StoredEntry json table.schema row entry.key entry.value

/-- What a predicate is worth on the row that a record decodes to. -/
def recordMatches (json : SerdeJson) (table : String) (predicate : Option Predicate)
    (record : StoredRecord) : Result Bool := do
  rowMatches (← record.toRow json) table predicate

/-- A primary key is led by its first column's component. -/
lemma ledBy_of_stored (hlaid : LaidOut schema layout) (hentry : StoredEntry json schema row key value) :
    ∃ component, LedBy (layout.keyTypes.headD .json) component key := by
  obtain ⟨hne, tuple, htuple, hkey, -⟩ := encodePrimaryKey_eq_ok.mp hentry.key
  have htypes := keyTuple_types htuple hlaid.types
  have htyped := keyTuple_typed htuple
  cases tuple with
  | nil =>
    cases hcolumns : schema.primaryKey with
    | nil => exact absurd hcolumns hne
    | cons column columns =>
      rw [hcolumns] at htuple
      obtain ⟨_, _, _, _, _, _, _, _, hcons⟩ := (keyTuple_cons_eq_some schema row column columns _).mp htuple
      cases hcons
  | cons first rest =>
    refine ⟨first.2.code, first.2, tupleCode rest, ?_, rfl, hkey⟩
    rw [← htypes, List.map_cons, List.headD_cons]
    exact htyped first List.mem_cons_self

/-- What a filter's reader makes of a stored entry is what its predicate is worth on the row. -/
lemma reader_of_stored {table : String} {predicate : Option Predicate} {filter : Query.Filter}
    (hschema : validateSchemaShape schema = .ok ()) (hlayout : RecordLayout.new schema = .ok layout)
    (hentry : StoredEntry json schema row key value)
    (hnew : Query.Filter.new predicate schema table = .ok filter) :
    ∃ record, StoredRecord.new schema layout key value = .ok record ∧
      acceptsRow (some (filter.reader json)) true record = recordMatches json table predicate record ∧
      (storedRecordPasses value (filter.storedTests schema layout) = some false →
        acceptsRow (some (filter.reader json)) true record ≠ .ok true) ∧
      (storedRecordPasses value (filter.storedTests schema layout) = some true →
        filter.judged schema layout = false →
          acceptsRow (some (filter.reader json)) true record = .ok true) := by
  have hshape := schemaShape_of_valid hschema
  obtain ⟨layout', hlayout', hlaid⟩ := layout_new hshape
  obtain rfl : layout = layout' := Except.ok.inj (hlayout.symm.trans hlayout')
  obtain ⟨record, columns, cells, kept, hopened, hwritten, hs, hl, hk, -⟩ :=
    written_of_encodeRow key hlaid hentry.value
  have hread := readable_of_stored hschema hlaid hentry hopened
  have hrow := hwritten.toRow_eq hshape hlaid hentry.normal hentry.roundTrips hentry.key hs hl hk
  obtain ⟨hrejects, haccepts⟩ := storedRecordPasses_agrees hschema hlaid hopened hread hnew
  refine ⟨record, hopened, ?_, hrejects, haccepts⟩
  rw [recordMatches, hrow]
  exact matchesRow_eq hread.reads hnew

/-- What a visit of a table is given to filter its rows by a predicate: nothing where there is none, or
the predicate's filter. -/
inductive VisitFilter (json : SerdeJson) (schema : TableDefinition) (table : String) :
    Option Predicate → Option TinyJoin.Filter → Prop where
  | all : VisitFilter json schema table none none
  | of {predicate : Option Predicate} {filter : Query.Filter} :
    Query.Filter.new predicate schema table = .ok filter →
    VisitFilter json schema table predicate (some (filter.reader json))

/-- What a visit's filter makes of a stored entry is what its predicate is worth on the row. -/
lemma VisitFilter.accepts_eq {table : String} {predicate : Option Predicate}
    {filter : Option TinyJoin.Filter} {record : StoredRecord}
    (h : VisitFilter json schema table predicate filter)
    (hschema : validateSchemaShape schema = .ok ()) (hlayout : RecordLayout.new schema = .ok layout)
    (hentry : StoredEntry json schema row key value)
    (hrecord : StoredRecord.new schema layout key value = .ok record) :
    acceptsRow filter true record = recordMatches json table predicate record := by
  cases h with
  | all =>
    obtain ⟨record', hrecord', haccepts, -⟩ :=
      @reader_of_stored json schema layout row key value table none _ hschema hlayout hentry rfl
    rw [hrecord] at hrecord'
    cases hrecord'
    exact haccepts
  | of hnew =>
    obtain ⟨record', hrecord', haccepts, -⟩ := reader_of_stored hschema hlayout hentry hnew
    rw [hrecord] at hrecord'
    cases hrecord'
    exact haccepts

namespace TableStored
variable {table : PagedTable} {range : Option KeyRange} {name : String} {predicate : Option Predicate}
  {filter : Option TinyJoin.Filter}

lemma laidOut (h : TableStored json table) : LaidOut table.schema table.layout := by
  obtain ⟨layout, hlayout, hlaid⟩ := layout_new (schemaShape_of_valid h.schema)
  rw [h.layout] at hlayout
  cases hlayout
  exact hlaid

/-- Each entry can be visited with the filter of a predicate. -/
lemma visitable (h : TableStored json table)
    (hfilter : VisitFilter json table.schema name predicate filter) {entry : TreeEntry}
    (hentry : entry ∈ table.entries) : Visitable table range filter entry := by
  obtain ⟨row, hstored⟩ := h.stored entry hentry
  have hplaced : RangeTells table.leadingKeyType range entry := by
    cases range with
    | none => rfl
    | some bounded => exact rangeTells_of_led (ledBy_of_stored h.laidOut hstored) bounded
  cases hfilter with
  | all =>
    obtain ⟨record, hrecord, -⟩ := @reader_of_stored json table.schema table.layout row entry.key
      entry.value name none _ h.schema h.layout hstored rfl
    refine ⟨hplaced, ⟨record, hrecord⟩, ?_, fun _ _ _ _ => rfl⟩
    intro hcontra
    cases hcontra
  | of hnew =>
    obtain ⟨record, hrecord, -, hrejects, haccepts⟩ := reader_of_stored h.schema h.layout hstored hnew
    have honly : ∀ other, table.record entry.key entry.value = .ok other → other = record := by
      intro other hother
      exact Except.ok.inj (hother.symm.trans hrecord)
    refine ⟨hplaced, ⟨record, hrecord⟩, ?_, ?_⟩
    · intro hpasses other hother
      rw [honly other hother]
      exact hrejects hpasses
    · intro hpasses hmust other hother
      rw [honly other hother]
      exact haccepts hpasses hmust

/-- The entries are keyed so that bounds which terms set on the leading column divide them. -/
lemma ranged (h : TableStored json table)
    (hlower : ∀ bounded bound, range = some bounded → bounded.lower = some bound →
      LowerBound table.leadingKeyType bound)
    (hupper : ∀ bounded bound, range = some bounded → bounded.upper = some bound →
      UpperBound table.leadingKeyType bound) :
    Ranged table.leadingKeyType range table.entries where
  ascend := h.ascend
  led entry hentry := by
    obtain ⟨row, hstored⟩ := h.stored entry hentry
    exact ledBy_of_stored h.laidOut hstored
  bounds bounded hrange :=
    KeyRange.bounds_of_terms (fun bound => hlower bounded bound hrange) fun bound => hupper bounded bound hrange

end TableStored

/-! ### Visits of a table's rows -/

/-- The rows that a visit of a table is to present: those of a range, in an order, but for some keys. -/
def rowsOf (table : PagedTable) (range : Option KeyRange) (order : KeyOrder)
    (except : List (List UInt8)) : List (List UInt8 × List UInt8) :=
  (inOrder order (within table range (table.entries.filter (fun entry => entry.key ∉ except)))).map
    (fun entry => (entry.key, entry.value))

/-- A visit presents rows of a table, as the records they open as, of those a predicate is true of. -/
abbrev PresentsRows {σ : Type} (json : SerdeJson) (name : String) (table : PagedTable)
    (predicate : Option Predicate) (calls : Callbacks σ) :
    List (List UInt8 × List UInt8) → σ → Result (VisitOutcome × σ) → Prop :=
  Presents (fun s result => ∃ n, calls.charge n s = result ∨ calls.scanned n s = result)
    (fun row record => table.record row.1 row.2 = .ok record) (recordMatches json name predicate)
    calls.visitor

section Visit
variable {σ : Type} {storage : PagedStorage} {name : String} {table : PagedTable}
  {predicate : Option Predicate} {filter : Option TinyJoin.Filter} {range : Option KeyRange}
  {order : KeyOrder} {except : List (List UInt8)} {calls : Callbacks σ}

lemma mem_inOrder {α : Type} {items : List α} {item : α} :
    item ∈ inOrder order items ↔ item ∈ items := by
  cases order with
  | ascending => exact Iff.rfl
  | descending => exact List.mem_reverse

lemma visitRowsWhere_presents (hready : storage.ensureReady = .ok ())
    (htable : storage.table name = .ok table) (hstored : TableStored json table)
    (hfilter : VisitFilter json table.schema name predicate filter)
    (hranged : Ranged table.leadingKeyType range table.entries)
    (hexcept : except.Pairwise (fun key later => key < later))
    (hforward : order = .descending → except = [])
    (hopen : ∀ tree, table.root = some tree → ∃ places, PagedStorage.openVisit tree range order = .ok places)
    (s : σ) :
    PresentsRows json name table predicate calls (rowsOf table range order except) s
      (storage.visitRowsWhere name range order except filter calls s) := by
  have hentries : ∀ root, table.root = root → table.entries = (root.getD []).flatten := by
    intro root hroot
    rw [PagedTable.entries, hroot]
  have hpresents : PresentsEntries table filter calls
      (inOrder order (within table range (table.entries.filter (fun entry => entry.key ∉ except)))) s
      (storage.visitRowsWhere name range order except filter calls s) := by
    rw [PagedStorage.visitRowsWhere, hready, htable]
    simp only [bind, Except.bind]
    cases hroot : table.root with
    | none =>
      have hnone : table.entries = [] := hentries none hroot
      rw [hnone]
      have hempty : inOrder order (within table range (List.filter
          (fun entry : TreeEntry => decide (entry.key ∉ except)) [])) = [] := by
        cases order <;> rfl
      rw [hempty]
      exact .done s
    | some tree =>
      obtain ⟨places, hplaces⟩ := hopen tree hroot
      have hflat : table.entries = tree.flatten := hentries (some tree) hroot
      dsimp only
      rw [hplaces, hflat]
      rw [hflat] at hranged
      refine visitTree_presents hranged ?_ hexcept hforward hplaces s
      intro entry hentry
      exact hstored.visitable hfilter (hflat ▸ hentry)
  refine hpresents.imp (fun entry => (entry.key, entry.value)) ?_
  intro entry hentry record hrecord
  refine ⟨hrecord, ?_⟩
  have hmem := List.mem_of_mem_filter (List.mem_of_mem_filter (mem_inOrder.mp hentry))
  obtain ⟨row, hrow⟩ := hstored.stored entry hmem
  exact hfilter.accepts_eq hstored.schema hstored.layout hrow hrecord

/-- Where a visit's cursor is sought to, if it is sought to a key. -/
def soughtKey (range : Option KeyRange) (order : KeyOrder) : Option (List UInt8) :=
  match order with
  | .ascending => some ((range.map KeyRange.start).getD [])
  | .descending => range.bind KeyRange.stop

/-- A cursor opens where the key that it is sought to is no longer than any stored key. -/
lemma openVisit_isOk {tree : Tree} {range : Option KeyRange} {order : KeyOrder}
    (h : ∀ bound, soughtKey range order = some bound → bound.length ≤ maxBtreeKeyBytes) :
    ∃ places, PagedStorage.openVisit tree range order = .ok places := by
  have hcursor : ∀ bound backward, (∀ key, bound = some key → key.length ≤ maxBtreeKeyBytes) →
      ∃ places, tree.cursor bound backward = .ok places := by
    intro bound backward hshort
    cases bound with
    | none => exact ⟨_, rfl⟩
    | some key =>
      rw [Tree.cursor]
      dsimp only
      rw [validateKey_eq_ok.mpr (hshort key rfl)]
      exact ⟨_, rfl⟩
  cases order with
  | ascending => exact hcursor _ _ h
  | descending => exact hcursor _ _ h

end Visit

/-- The entry of a gauge, and a database that holds no more. -/
def gaugeEntry : TreeEntry := ⟨[128, 0, 0, 0, 0, 0, 0, 0], [4, 3, 2, 2, 2, 44, 1], true⟩

def gaugeTable : PagedTable where
  schema := gauges
  layout := ⟨[.stored 0, .key 0, .stored 1, .stored 2], [.float], [1], [0, 2, 3]⟩
  treeId := 16
  root := some [[gaugeEntry]]
  rowCount := 1

def weir : PagedStorage := ⟨1, false, ⟨[("gauges", gaugeTable)]⟩, ⟨[]⟩⟩

lemma gaugeTable_stored : TableStored literalJson gaugeTable where
  schema := rfl
  layout := rfl
  ascend := List.pairwise_singleton _ _
  stored entry hentry := by
    rw [List.mem_singleton.mp hentry]
    exact ⟨_, gauge_stored ⟨⟨F64.signBit⟩, by decide⟩ rfl rfl⟩

/-- Keeps the keys of the rows it is shown. -/
def keepKeys : Callbacks (List (List UInt8)) where
  charge _ s := .ok s
  scanned _ s := .ok s
  visitor record s := .ok (.continued, s ++ [record.key])

end TinyJoin
