import TinyJoin.ColumnValues
import TinyJoin.Lib.Reassign
import TinyJoin.UpdatePlan

/-! What an UPDATE makes of each row, and that planning one matching row, as a map or straight into its
record, finds that row and where it goes. -/
namespace TinyJoin
open Reassign

/-! ### Tables -/

/-- A row as a table holds it: under its key, in its record, and read back as it is. -/
structure StoredAs (json : SerdeJson) (schema : TableDefinition) (row : Row)
    (key record : List UInt8) : Prop where
  normal : Normalized schema row
  readBack : entryRow schema row = row
  key : encodePrimaryKey schema row = .ok key
  record : encodeRow json schema row = .ok record

/-- The records that a table's keys hold are those of rows. -/
structure StoresRows (json : SerdeJson) (schema : TableDefinition)
    (records : List UInt8 → Option (List UInt8)) (rows : List UInt8 → Option Row) : Prop where
  free : ∀ key, rows key = none → records key = none
  stored : ∀ key row, rows key = some row → ∃ record, records key = some record ∧
    StoredAs json schema row key record

/-- What a visit presents of a row that its key holds. -/
def RowRef.Presents (schema : TableDefinition) (layout : RecordLayout)
    (records : List UInt8 → Option (List UInt8)) (key : List UInt8) (row : Row) : RowRef → Prop
  | .map held => held.row = row
  | .record entry => ∃ value, records key = some value ∧
      StoredRecord.new schema layout key value = .ok entry

/-- A visit that comes to its end has presented every row of the table that the predicate accepts,
each once, and no other. -/
def Visit.Covers (schema : TableDefinition) (layout : RecordLayout)
    (records : List UInt8 → Option (List UInt8)) (rows : List UInt8 → Option Row)
    (accepts : Row → Bool) (visit : Visit) : Prop :=
  visit.failure = none → ∃ presented : List (List UInt8 × Row),
    List.Forall₂ (fun ref entry => ref.Presents schema layout records entry.1 entry.2) visit.rows
      presented ∧
    (presented.map Prod.fst).Nodup ∧
    ∀ key row, (key, row) ∈ presented ↔ rows key = some row ∧ accepts row = true

/-! ### Assignments -/

def Row.read (row : Row) (table : String) (column : String) (_excluded : Bool) : Result Value :=
  match row column with
  | some value => .ok value
  | none => .error (.columnNotFound column table)

/-- The value that a row's column is assigned, or that it keeps. -/
def assignedValue (table : String) (assignments : List (String × Assigned)) (row : Row)
    (column : ColumnDefinition) : Result Value :=
  match assignments.lookup column.name with
  | some .default => .ok (column.default.getD .null)
  | some (.expression expression) => evaluate (row.read table) expression
  | none => .ok ((row column.name).getD .null)

/-- The row that a row becomes: every assignment is of the row as it was. -/
structure Assigns (schema : TableDefinition) (table : String)
    (assignments : List (String × Assigned)) (row next : Row) : Prop where
  columns : ∀ column ∈ schema.columns, ∃ value,
    assignedValue table assignments row column = .ok value ∧
      next column.name = some (respelled column value)
  others : ∀ name, name ∉ schema.columns.map (fun column => column.name) → next name = none

/-- What an UPDATE makes of a table's rows. -/
def Updates (schema : TableDefinition) (table : String) (assignments : List (String × Assigned))
    (accepts : Row → Bool) : Becomes (List UInt8) Row := fun old before key row =>
  if accepts before then
    ∃ next, Assigns schema table assignments before next ∧
      encodePrimaryKey schema next = .ok key ∧ row = entryRow schema next
  else key = old ∧ row = before

section Values
variable {json : SerdeJson} {schema : TableDefinition} {table : String}
  {assignments : List (String × Assigned)} {row next : Row}

lemma Assigns.unique {other : Row} (h : Assigns schema table assignments row next)
    (h' : Assigns schema table assignments row other) : next = other := by
  funext name
  by_cases hname : name ∈ schema.columns.map (fun column => column.name)
  · obtain ⟨column, hcolumn, rfl⟩ := List.mem_map.mp hname
    obtain ⟨value, hvalue, hnext⟩ := h.columns column hcolumn
    obtain ⟨value', hvalue', hnext'⟩ := h'.columns column hcolumn
    rw [hvalue] at hvalue'
    cases hvalue'
    rw [hnext, hnext']
  · rw [h.others name hname, h'.others name hname]

lemma validateNamedFrom_nodup {before columns : List String}
    (h : validateNamedFrom schema before columns = .ok ()) :
    columns.Nodup ∧ ∀ column ∈ columns, column ∉ before ∧
      column ∈ schema.columns.map (fun definition => definition.name) := by
  induction columns generalizing before with
  | nil => exact ⟨.nil, fun _ hmem => (nomatch hmem)⟩
  | cons column columns ih =>
    rw [validateNamedFrom] at h
    obtain ⟨hnew, h⟩ := Except.ite_error_eq_ok.mp h
    obtain ⟨definition, hdefinition, h⟩ := Except.bind_eq_ok.mp h
    obtain ⟨hnodup, hrest⟩ := ih h
    constructor
    · refine List.nodup_cons.mpr ⟨fun hmem => ?_, hnodup⟩
      exact (hrest column hmem).1 List.mem_cons_self
    · intro other hother
      rcases List.mem_cons.mp hother with rfl | hmem
      · refine ⟨hnew, ?_⟩
        rw [columnDefinition] at hdefinition
        split at hdefinition
        · next hfound =>
          exact List.mem_map.mpr ⟨_, List.mem_of_find?_eq_some hfound, by
            simpa using List.find?_some hfound⟩
        · cases hdefinition
      · exact ⟨fun hbefore => (hrest other hmem).1 (List.mem_cons_of_mem _ hbefore),
          (hrest other hmem).2⟩

/-- A column that is found by its name is the one of that name. -/
lemma find?_name (hshape : SchemaShape schema) {column : ColumnDefinition}
    (h : column ∈ schema.columns) :
    schema.columns.find? (fun definition => definition.name == column.name) = some column := by
  cases hfind : schema.columns.find? (fun definition => definition.name == column.name) with
  | none =>
    have hnone := List.find?_eq_none.mp hfind column h
    exact absurd (beq_self_eq_true column.name) hnone
  | some found =>
    have hname : found.name = column.name := by simpa using List.find?_some hfind
    rw [List.inj_on_of_nodup_map hshape.names_nodup (List.mem_of_find?_eq_some hfind) h hname]

lemma lookup_of_mem {α : Type} {entries : List (String × α)} (hnodup : (entries.map Prod.fst).Nodup)
    {name : String} {value : α} (h : (name, value) ∈ entries) : entries.lookup name = some value := by
  induction entries with
  | nil => cases h
  | cons first rest ih =>
    obtain ⟨hfirst, hrest⟩ := List.nodup_cons.mp hnodup
    rcases List.mem_cons.mp h with rfl | hmem
    · exact List.lookup_cons_self
    · have hne : name ≠ first.1 := fun heq => hfirst (heq ▸ List.mem_map_of_mem hmem)
      rw [List.lookup_cons, beq_eq_false_iff_ne.mpr hne]
      exact ih hrest hmem

lemma lookup_of_not_mem {α : Type} {entries : List (String × α)} {name : String}
    (h : name ∉ entries.map Prod.fst) : entries.lookup name = none := by
  rw [List.lookup_eq_none_iff]
  intro entry hentry
  exact bne_iff_ne.mpr (fun heq => h (heq ▸ List.mem_map_of_mem hentry))

/-- An assignment is among those given one value for every row, or those worked out from each. -/
def Resolves (schema : TableDefinition) (resolved : List (String × Value))
    (computed : List (String × Expression)) (name : String) (assigned : Assigned) : Prop :=
  (∃ value, (name, value) ∈ resolved ∧
    ((assigned = .default ∧ columnDefault schema name = .ok value) ∨
      ∃ expression, assigned = .expression expression ∧ expression.readsRow = false ∧
        constant expression = .ok value)) ∨
    ∃ expression, assigned = .expression expression ∧ (name, expression) ∈ computed

lemma Resolves.mono {resolved resolved' : List (String × Value)}
    {computed computed' : List (String × Expression)} {name : String} {assigned : Assigned}
    (hresolved : resolved ⊆ resolved') (hcomputed : computed ⊆ computed')
    (h : Resolves schema resolved computed name assigned) :
    Resolves schema resolved' computed' name assigned := by
  rcases h with ⟨value, hmem, hwhich⟩ | ⟨expression, hexpression, hmem⟩
  · exact .inl ⟨value, hresolved hmem, hwhich⟩
  · exact .inr ⟨expression, hexpression, hcomputed hmem⟩

lemma resolveAssignments_spec {resolved : List (String × Value)}
    {computed : List (String × Expression)}
    (h : resolveAssignments schema table assignments = .ok (resolved, computed)) :
    (resolved.map Prod.fst ++ computed.map Prod.fst).Perm (assignments.map Prod.fst) ∧
      ∀ entry ∈ assignments, Resolves schema resolved computed entry.1 entry.2 := by
  induction assignments generalizing resolved computed with
  | nil =>
    cases h
    exact ⟨.refl _, fun _ hmem => (nomatch hmem)⟩
  | cons first rest ih =>
    obtain ⟨column, assigned⟩ := first
    cases assigned with
    | default =>
      obtain ⟨value, hdefault, h⟩ := Except.bind_eq_ok.mp h
      obtain ⟨⟨restResolved, restComputed⟩, hrest, h⟩ := Except.bind_eq_ok.mp h
      cases h
      obtain ⟨hperm, hcases⟩ := ih hrest
      refine ⟨hperm.cons column, List.forall_mem_cons.mpr ⟨?_, fun entry hentry => ?_⟩⟩
      · exact .inl ⟨value, List.mem_cons_self, .inl ⟨rfl, hdefault⟩⟩
      · exact (hcases entry hentry).mono (List.subset_cons_self _ _) (List.Subset.refl _)
    | expression expression =>
      rw [resolveAssignments] at h
      split at h
      · obtain ⟨definition, -, h⟩ := Except.bind_eq_ok.mp h
        obtain ⟨_, -, h⟩ := Except.bind_eq_ok.mp h
        obtain ⟨⟨restResolved, restComputed⟩, hrest, h⟩ := Except.bind_eq_ok.mp h
        cases h
        obtain ⟨hperm, hcases⟩ := ih hrest
        refine ⟨List.perm_middle.trans (hperm.cons column),
          List.forall_mem_cons.mpr ⟨?_, fun entry hentry => ?_⟩⟩
        · exact .inr ⟨expression, rfl, List.mem_cons_self⟩
        · exact (hcases entry hentry).mono (List.Subset.refl _) (List.subset_cons_self _ _)
      · next hreads =>
        obtain ⟨value, hconstant, h⟩ := Except.bind_eq_ok.mp h
        obtain ⟨⟨restResolved, restComputed⟩, hrest, h⟩ := Except.bind_eq_ok.mp h
        cases h
        obtain ⟨hperm, hcases⟩ := ih hrest
        refine ⟨hperm.cons column, List.forall_mem_cons.mpr ⟨?_, fun entry hentry => ?_⟩⟩
        · exact .inl ⟨value, List.mem_cons_self, .inr ⟨expression, rfl, by simpa using hreads,
            hconstant⟩⟩
        · exact (hcases entry hentry).mono (List.subset_cons_self _ _) (List.Subset.refl _)

/-! ### Rows planned as maps -/

lemma insertValues_not_mem {map : RowMap} {values : List (String × Value)} {name : String}
    (h : name ∉ values.map Prod.fst) : (insertValues map values).row name = map.row name := by
  induction values generalizing map with
  | nil => rfl
  | cons value values ih =>
    rw [List.map_cons, List.mem_cons, not_or] at h
    rw [insertValues, List.foldl_cons]
    refine (ih h.2).trans ?_
    rw [RowMap.row_insert, Row.insert_other h.1]

lemma insertValues_mem {map : RowMap} {values : List (String × Value)}
    (hnodup : (values.map Prod.fst).Nodup) {name : String} {value : Value}
    (h : (name, value) ∈ values) : (insertValues map values).row name = some value := by
  induction values generalizing map with
  | nil => cases h
  | cons first values ih =>
    obtain ⟨hfirst, hrest⟩ := List.nodup_cons.mp hnodup
    rw [insertValues, List.foldl_cons]
    rcases List.mem_cons.mp h with rfl | hmem
    · refine (insertValues_not_mem hfirst).trans ?_
      rw [RowMap.row_insert, Row.insert_same]
    · exact ih hrest hmem

lemma computeValues_spec {map : RowMap} {computed : List (String × Expression)}
    {values : List (String × Value)} (h : computeValues table map computed = .ok values) :
    values.map Prod.fst = computed.map Prod.fst ∧
      ∀ name expression, (name, expression) ∈ computed →
        ∃ value, (name, value) ∈ values ∧ evaluate (map.row.read table) expression = .ok value := by
  induction computed generalizing values with
  | nil =>
    cases h
    exact ⟨rfl, fun _ _ hmem => (nomatch hmem)⟩
  | cons first computed ih =>
    obtain ⟨column, expression⟩ := first
    obtain ⟨value, hvalue, h⟩ := Except.bind_eq_ok.mp h
    obtain ⟨rest, hrest, h⟩ := Except.bind_eq_ok.mp h
    cases h
    obtain ⟨hnames, hvalues⟩ := ih hrest
    refine ⟨by rw [List.map_cons, List.map_cons, hnames], fun name other hmem => ?_⟩
    rcases List.mem_cons.mp hmem with heq | hmem
    · cases heq
      exact ⟨value, List.mem_cons_self, hvalue⟩
    · obtain ⟨given, hgiven, hevaluates⟩ := hvalues name other hmem
      exact ⟨given, List.mem_cons_of_mem _ hgiven, hevaluates⟩

/-- What an UPDATE finds before it reads a row is what it was asked for. -/
structure UpdatePlan.Prepares (json : SerdeJson) (plan : UpdatePlan)
    (assignments : List (String × Assigned)) : Prop where
  shape : SchemaShape plan.schema
  name : plan.schema.name = plan.table
  names : (assignments.map Prod.fst).Nodup
  columns : ∀ name ∈ assignments.map Prod.fst,
    name ∈ plan.schema.columns.map (fun column => column.name)
  perm : (plan.resolved.map Prod.fst ++ plan.computed.map Prod.fst).Perm
    (assignments.map Prod.fst)
  resolves : ∀ entry ∈ assignments,
    Resolves plan.schema plan.resolved plan.computed entry.1 entry.2
  valid : ∀ column ∈ plan.schema.columns, ∀ value, (column.name, value) ∈ plan.resolved →
    column.validateValue json plan.limits value plan.table = .ok ()

/-- The values that a row's columns are given are the assigned ones. -/
lemma UpdatePlan.Prepares.assignedValue_eq {plan : UpdatePlan} (h : plan.Prepares json assignments)
    (values : List (String × Value))
    (hnames : values.map Prod.fst = plan.computed.map Prod.fst)
    (hvalues : ∀ name expression, (name, expression) ∈ plan.computed →
      ∃ value, (name, value) ∈ values ∧ evaluate (row.read plan.table) expression = .ok value)
    {column : ColumnDefinition} (hcolumn : column ∈ plan.schema.columns) :
    assignedValue plan.table assignments row column = .ok
      (((values.lookup column.name).or ((plan.resolved.lookup column.name).or
        (row column.name))).getD .null) := by
  have hnodup := h.perm.nodup_iff.mpr h.names
  rw [List.nodup_append'] at hnodup
  obtain ⟨hresolved, hcomputed, hdisjoint⟩ := hnodup
  rw [assignedValue]
  by_cases hmem : column.name ∈ assignments.map Prod.fst
  · obtain ⟨⟨name, assigned⟩, hentry, hname⟩ := List.mem_map.mp hmem
    obtain rfl : name = column.name := hname
    rw [lookup_of_mem h.names hentry]
    rcases h.resolves _ hentry with ⟨value, hresolve, hwhich⟩ | ⟨expression, rfl, hcompute⟩
    · have hother : column.name ∉ values.map Prod.fst := by
        rw [hnames]
        exact hdisjoint (List.mem_map_of_mem hresolve)
      rw [lookup_of_not_mem hother, lookup_of_mem hresolved hresolve, Option.none_or, Option.some_or,
        Option.getD_some]
      rcases hwhich with ⟨rfl, hdefault⟩ | ⟨expression, rfl, hreads, hconstant⟩
      · rw [columnDefault, find?_name h.shape hcolumn] at hdefault
        exact hdefault
      · exact evaluate_of_constant hreads hconstant _
    · obtain ⟨value, hvalue, hevaluates⟩ := hvalues _ expression hcompute
      rw [lookup_of_mem (hnames ▸ hcomputed) hvalue, Option.some_or, Option.getD_some]
      exact hevaluates
  · have hnone := h.perm.mem_iff.not.mpr hmem
    rw [List.mem_append, not_or, ← hnames] at hnone
    rw [lookup_of_not_mem hmem, lookup_of_not_mem hnone.1, lookup_of_not_mem hnone.2,
      Option.none_or, Option.none_or]

/-- The values that a row's map is given are looked up the last first. -/
lemma insertValues_row {map : RowMap} {values : List (String × Value)}
    (hnodup : (values.map Prod.fst).Nodup) (name : String) :
    (insertValues map values).row name = (values.lookup name).or (map.row name) := by
  by_cases hmem : name ∈ values.map Prod.fst
  · obtain ⟨⟨_, value⟩, hvalue, rfl⟩ := List.mem_map.mp hmem
    rw [insertValues_mem hnodup hvalue, lookup_of_mem hnodup hvalue, Option.some_or]
  · rw [insertValues_not_mem hmem, lookup_of_not_mem hmem, Option.none_or]

lemma primaryKeyEntries_spec {map : RowMap} {names : List String} {entries : List (String × Value)}
    (h : primaryKeyEntries schema map names = .ok entries) :
    ∀ name ∈ names, entries.lookup name = map.row name := by
  induction names generalizing entries with
  | nil => exact fun _ hmem => (nomatch hmem)
  | cons first names ih =>
    rw [primaryKeyEntries] at h
    cases hfirst : map.row first with
    | none => rw [hfirst] at h; cases h
    | some value =>
      rw [hfirst] at h
      obtain ⟨rest, hrest, h⟩ := Except.bind_eq_ok.mp h
      cases h
      intro name hname
      rw [List.lookup_cons]
      by_cases heq : name = first
      · rw [heq, beq_self_eq_true, hfirst]
      · rw [beq_eq_false_iff_ne.mpr heq]
        exact ih hrest name ((List.mem_cons.mp hname).resolve_left heq)

lemma encodePrimaryKey_congr {other : Row} (h : ∀ name ∈ schema.primaryKey, row name = other name)
    {key : List UInt8} (hkey : encodePrimaryKey schema row = .ok key) :
    encodePrimaryKey schema other = .ok key := by
  obtain ⟨hne, tuple, htuple, hcode, hlength⟩ := encodePrimaryKey_eq_ok.mp hkey
  exact encodePrimaryKey_eq_ok.mpr ⟨hne, tuple, by rw [← keyTuple_congr h, htuple], hcode, hlength⟩

/-- What a planned row is: what it was, what it becomes, and what is written for it. -/
structure PlannedUpdate.Plans (json : SerdeJson) (schema : TableDefinition) (table : String)
    (assignments : List (String × Assigned)) (update : PlannedUpdate) (row next : Row) : Prop where
  assigns : Assigns schema table assignments row next
  normal : Normalized schema next
  key : encodePrimaryKey schema next = .ok update.newKey
  written : match update.next with
    | .map oldPrimaryKey _ newRow =>
      encodePrimaryKey schema oldPrimaryKey.row = .ok update.oldKey ∧ newRow.row = next
    | .record record => encodeRow json schema next = .ok record

lemma updateMap_spec {plan : UpdatePlan} (h : plan.Prepares json assignments) {map : RowMap}
    {key : List UInt8} (hnormal : Normalized plan.schema map.row)
    (hkey : encodePrimaryKey plan.schema map.row = .ok key) {planned : UpdatedRow}
    {nextBytes keyBytes : Nat} (hok : updateMap json plan map = .ok (planned, nextBytes, keyBytes))
    (held : Option HeldRow) :
    ∃ next, PlannedUpdate.Plans json plan.schema plan.table assignments ⟨key, held, planned⟩ map.row
      next := by
  obtain ⟨oldPrimaryKey, hold, hok⟩ := Except.bind_eq_ok.mp hok
  obtain ⟨values, hvalues, hok⟩ := Except.bind_eq_ok.mp hok
  obtain ⟨newRow, hnew, hok⟩ := Except.bind_eq_ok.mp hok
  obtain ⟨_, -, hok⟩ := Except.bind_eq_ok.mp hok
  obtain ⟨_, -, hok⟩ := Except.bind_eq_ok.mp hok
  obtain ⟨newKey, hnewKey, hok⟩ := Except.bind_eq_ok.mp hok
  obtain ⟨_, -, hok⟩ := Except.bind_eq_ok.mp hok
  obtain ⟨_, -, hok⟩ := Except.bind_eq_ok.mp hok
  cases hok
  obtain ⟨entries, hentries, hold⟩ := Except.bind_eq_ok.mp hold
  cases hold
  obtain ⟨hnames, hevaluates⟩ := computeValues_spec hvalues
  have hnodup := h.perm.nodup_iff.mpr h.names
  rw [List.nodup_append'] at hnodup
  obtain ⟨hcolumns, hothers⟩ := normalizeRow_spec h.shape hnew
  refine ⟨newRow.row, ⟨fun column hcolumn => ?_, hothers⟩,
    normalized_of_normalizeRow h.shape hnew, hnewKey, ?_, rfl⟩
  · refine ⟨_, h.assignedValue_eq values hnames hevaluates hcolumn, ?_⟩
    have hgiven := (hcolumns column hcolumn).2
    rw [insertValues_row (hnames ▸ hnodup.2.1), insertValues_row hnodup.1] at hgiven
    obtain ⟨value, hvalue⟩ := Option.isSome_iff_exists.mp
      ((hnormal.columns column.name).mpr (List.mem_map_of_mem hcolumn))
    rw [hgiven, hvalue]
    cases values.lookup column.name <;> cases plan.resolved.lookup column.name <;> rfl
  · exact encodePrimaryKey_congr (fun name hname => (primaryKeyEntries_spec hentries name hname).symm)
      hkey

/-! ### Rows rewritten as records -/

/-- A row with its FLOAT values respelled. -/
def Row.respell (schema : TableDefinition) (row : Row) : Row := fun name =>
  (schema.columns.find? (fun column => column.name == name)).bind
    (fun column => (row name).map (respelled column))

lemma Row.respell_column (hshape : SchemaShape schema) {column : ColumnDefinition}
    (h : column ∈ schema.columns) :
    row.respell schema column.name = (row column.name).map (respelled column) := by
  rw [Row.respell, find?_name hshape h, Option.bind_some]

lemma Row.respell_other {name : String}
    (h : name ∉ schema.columns.map (fun column => column.name)) : row.respell schema name = none := by
  have hnone : schema.columns.find? (fun column => column.name == name) = none := by
    rw [List.find?_eq_none]
    intro column hcolumn heq
    exact h (List.mem_map.mpr ⟨column, hcolumn, beq_iff_eq.mp heq⟩)
  rw [Row.respell, hnone, Option.bind_none]

/-- Respelling a row leaves its record as it is. -/
lemma encodeRow_respell (hshape : SchemaShape schema) {record : List UInt8}
    (h : encodeRow json schema row = .ok record) :
    encodeRow json schema (row.respell schema) = .ok record := by
  obtain ⟨columns, hcolumns, h⟩ := Except.bind_eq_ok.mp h
  have hstored := storedValues_eq_ok.mp hcolumns
  have hrespelled : ∃ respelt, List.Forall₂ (fun column stored => ∃ value,
        row.respell schema column.name = some value ∧ stored = (column, StoredValue.value value))
          (storedDefinitions schema schema.columns) respelt ∧
      List.Forall₂ (SameCell json schema.name) respelt columns := by
    have hmem : ∀ column ∈ storedDefinitions schema schema.columns, column ∈ schema.columns :=
      fun column hcolumn => (mem_of_storedDefinitions hcolumn).1
    revert hstored hmem
    generalize storedDefinitions schema schema.columns = definitions
    clear hcolumns h
    intro hstored hmem
    induction hstored with
    | nil => exact ⟨[], .nil, .nil⟩
    | @cons column stored _ _ hfirst _ ih =>
      obtain ⟨value, hvalue, rfl⟩ := hfirst
      rw [List.forall_mem_cons] at hmem
      obtain ⟨respelt, hvalues, hsame⟩ := ih hmem.2
      refine ⟨(column, .value (respelled column value)) :: respelt, .cons ⟨_, ?_, rfl⟩ hvalues,
        .cons ⟨rfl, encodeCell_respelled _ _ _, isNull_respelled _ _⟩ hsame⟩
      rw [Row.respell_column hshape hmem.1, hvalue, Option.map_some]
  obtain ⟨respelt, hvalues, hsame⟩ := hrespelled
  rw [encodeRow, storedValues_eq_ok.mpr hvalues]
  exact (encodeStoredValues_congr hsame).trans h

lemma respelled_of_holds {column : ColumnDefinition} {value : Value}
    (h : if value.isNull then column.nullable = true else value.holds column.dataType = true) :
    respelled column value = value := by
  unfold respelled
  split
  · next hfloat =>
    cases value with
    | number n =>
      have hisF64 : n.isF64 = true := by simpa [Value.isNull, hfloat, Value.holds, Value.isF64] using h
      cases n with
      | float f => rfl
      | _ => cases hisF64
    | _ => rfl
  · rfl

namespace RecordUpdate

/-- The values by schema position are those assigned, and none is of a key column. -/
lemma assignedFrom_spec (hshape : SchemaShape schema) {resolved : List (String × Value)}
    (hnodup : (resolved.map Prod.fst).Nodup) {before assigned : List (Option Value)}
    (hlength : before.length = schema.columns.length)
    (h : assignedFrom schema before resolved = some assigned) :
    (∀ name ∈ resolved.map Prod.fst, name ∉ schema.primaryKey) ∧
      ∀ index column, schema.columns[index]? = some column →
        assigned.getD index none = (resolved.lookup column.name).or (before.getD index none) := by
  induction resolved generalizing before with
  | nil =>
    cases h
    exact ⟨by simp, fun index column _ => by rw [List.lookup_nil, Option.none_or]⟩
  | cons first resolved ih =>
    obtain ⟨name, value⟩ := first
    obtain ⟨hfirst, hrest⟩ := List.nodup_cons.mp hnodup
    rw [assignedFrom] at h
    split at h
    · next position hposition =>
      split at h
      · cases h
      · next hkey =>
        obtain ⟨hkeys, hvalues⟩ := ih hrest (by rw [List.length_set, hlength]) h
        refine ⟨List.forall_mem_cons.mpr ⟨hkey, hkeys⟩, fun index column hcolumn => ?_⟩
        rw [hvalues index column hcolumn, List.lookup_cons]
        obtain ⟨hlt, hat, -⟩ := List.findIdx?_eq_some_iff_getElem.mp hposition
        by_cases heq : column.name = name
        · have hindex : index = position := by
            have hfound := findIdx?_name hshape hcolumn
            rw [heq, hposition] at hfound
            exact (Option.some.inj hfound).symm
          rw [heq, lookup_of_not_mem hfirst, beq_self_eq_true, hindex, Option.none_or, Option.some_or,
            List.getD_eq_getElem?_getD, List.getElem?_set_self (by omega), Option.getD_some]
        · have hindex : position ≠ index := by
            rintro rfl
            rw [List.getElem?_eq_getElem hlt, Option.some.injEq] at hcolumn
            exact heq (hcolumn ▸ beq_iff_eq.mp hat)
          rw [beq_eq_false_iff_ne.mpr heq, List.getD_eq_getElem?_getD, List.getElem?_set_ne hindex,
            ← List.getD_eq_getElem?_getD]
    · cases h

lemma new_spec {reader : StorageReader} {resolved : List (String × Value)}
    {returning : Option (List String)} {records : RecordUpdate}
    (h : RecordUpdate.new reader schema resolved returning = some records) :
    assignedFrom schema (List.replicate schema.columns.length none) resolved =
      some records.assigned := by
  obtain ⟨layout, -, h⟩ := Option.bind_eq_some_iff.mp h
  obtain ⟨assigned, hassigned, h⟩ := Option.bind_eq_some_iff.mp h
  obtain ⟨bound, -, h⟩ := Option.bind_eq_some_iff.mp h
  cases h
  exact hassigned

end RecordUpdate

lemma updateRecord_spec {plan : UpdatePlan} (h : plan.Prepares json assignments)
    (hcomputed : plan.computed = []) {records : RecordUpdate}
    (hassigned : RecordUpdate.assignedFrom plan.schema
      (List.replicate plan.schema.columns.length none) plan.resolved = some records.assigned)
    {layout : RecordLayout} (hlaid : LaidOut plan.schema layout) {key value : List UInt8}
    (hstored : StoredAs json plan.schema row key value) {record : StoredRecord}
    (hrecord : StoredRecord.new plan.schema layout key value = .ok record) {planned : UpdatedRow}
    {nextBytes keyBytes : Nat}
    (hok : updateRecord json plan records key record = .ok (planned, nextBytes, keyBytes))
    (held : Option HeldRow) :
    ∃ next, PlannedUpdate.Plans json plan.schema plan.table assignments ⟨key, held, planned⟩ row
      next := by
  obtain ⟨written, hwritten, hok⟩ := Except.bind_eq_ok.mp hok
  obtain ⟨_, -, hok⟩ := Except.bind_eq_ok.mp hok
  obtain ⟨_, -, hok⟩ := Except.bind_eq_ok.mp hok
  obtain ⟨_, -, hok⟩ := Except.bind_eq_ok.mp hok
  cases hok
  obtain ⟨record', columns, cells, kept, hnew, hcells, hs, hl, -⟩ :=
    written_of_encodeRow key hlaid hstored.record
  rw [hrecord] at hnew
  cases hnew
  rw [hcells.encodeUpdatedRecord_eq h.shape hlaid hs hl] at hwritten
  have hnodup := h.perm.nodup_iff.mpr h.names
  rw [hcomputed, List.map_nil, List.append_nil] at hnodup
  obtain ⟨hkeys, hvalues⟩ := RecordUpdate.assignedFrom_spec h.shape hnodup (by simp) hassigned
  -- Each column is what it is assigned, or else what it was.
  have hcolumn : ∀ column ∈ plan.schema.columns,
      row.assign plan.schema records.assigned column.name =
        (plan.resolved.lookup column.name).or (row column.name) := by
    intro column hmem
    obtain ⟨index, hindex⟩ := List.mem_iff_getElem?.mp hmem
    have hlt := (List.getElem?_eq_some_iff.mp hindex).1
    rw [Row.assign_column h.shape _ hindex, hvalues index column hindex,
      List.getD_replicate _ hlt, Option.or_none]
  have hsome : ∀ column ∈ plan.schema.columns, ∃ value, row column.name = some value :=
    fun column hmem => Option.isSome_iff_exists.mp
      ((hstored.normal.columns _).mpr (List.mem_map_of_mem hmem))
  -- What is not assigned is spelled as it was.
  have hkept : ∀ column ∈ plan.schema.columns, ∀ value, row column.name = some value →
      respelled column value = value :=
    fun column hmem value hvalue => respelled_of_holds (hstored.normal.values column hmem value hvalue)
  refine ⟨(row.assign plan.schema records.assigned).respell plan.schema,
    ⟨fun column hmem => ?_, fun name hname => Row.respell_other hname⟩, ⟨fun name => ?_,
      fun column hmem given hgiven => ?_⟩, ?_, encodeRow_respell h.shape hwritten⟩
  · refine ⟨_, h.assignedValue_eq [] (by rw [hcomputed]; rfl)
      (by rw [hcomputed]; exact fun _ _ hmem => (nomatch hmem)) hmem, ?_⟩
    obtain ⟨old, hold⟩ := hsome column hmem
    rw [Row.respell_column h.shape hmem, hcolumn column hmem, hold, List.lookup_nil, Option.none_or]
    cases plan.resolved.lookup column.name <;> rfl
  · constructor
    · intro hpresent
      by_contra hname
      rw [Row.respell_other hname] at hpresent
      cases hpresent
    · intro hname
      obtain ⟨column, hmem, rfl⟩ := List.mem_map.mp hname
      obtain ⟨old, hold⟩ := hsome column hmem
      rw [Row.respell_column h.shape hmem, hcolumn column hmem, hold]
      cases plan.resolved.lookup column.name <;> rfl
  · rw [Row.respell_column h.shape hmem, hcolumn column hmem] at hgiven
    cases hlookup : plan.resolved.lookup column.name with
    | some assigned =>
      rw [hlookup, Option.some_or, Option.map_some, Option.some.injEq] at hgiven
      rw [← hgiven]
      obtain ⟨_, _, hsplit, -⟩ := List.lookup_eq_some_iff.mp hlookup
      exact holds_respelled (h.valid column hmem assigned (by simp [hsplit]))
    | none =>
      obtain ⟨old, hold⟩ := hsome column hmem
      rw [hlookup, Option.none_or, hold, Option.map_some, hkept column hmem old hold,
        Option.some.injEq] at hgiven
      exact hstored.normal.values column hmem given (hgiven ▸ hold)
  · refine encodePrimaryKey_congr (fun name hname => ?_) hstored.key
    obtain ⟨column, hmem, rfl⟩ := h.shape.key_mem name hname
    obtain ⟨old, hold⟩ := hsome column hmem
    have hnone : plan.resolved.lookup column.name = none :=
      lookup_of_not_mem (fun hassigned => hkeys _ hassigned hname)
    rw [Row.respell_column h.shape hmem, hcolumn column hmem, hnone, Option.none_or, hold,
      Option.map_some, hkept column hmem old hold]

/-! ### Rows read back -/

lemma dropZeroSign_idem (value : Value) : value.dropZeroSign.dropZeroSign = value.dropZeroSign := by
  cases value with
  | number n =>
    cases n with
    | float f =>
      unfold Value.dropZeroSign
      dsimp only
      by_cases hzero : f.val.isZero = true
      · rw [if_pos hzero]
        rfl
      · rw [if_neg hzero]
        dsimp only
        rw [if_neg hzero]
    | _ => rfl
  | _ => rfl

lemma isNull_dropZeroSign (value : Value) : value.dropZeroSign.isNull = value.isNull := by
  cases value with
  | number n =>
    cases n with
    | float f =>
      unfold Value.dropZeroSign
      dsimp only
      split <;> rfl
    | _ => rfl
  | _ => rfl

/-- A record is of the columns that are not in the key. -/
lemma storedValues_congr {other : Row} {columns : List ColumnDefinition}
    (h : ∀ name, name ∉ schema.primaryKey → row name = other name) :
    storedValues schema row columns = storedValues schema other columns := by
  induction columns with
  | nil => rfl
  | cons column columns ih =>
    rw [storedValues, storedValues, ih]
    split
    · rfl
    · next hname => rw [h column.name (by simpa using hname)]

/-- A written row is held as it is read back. -/
lemma storedAs_entryRow {key record : List UInt8}
    (hnormal : Normalized schema row) (hkey : encodePrimaryKey schema row = .ok key)
    (hrecord : encodeRow json schema row = .ok record) :
    StoredAs json schema (entryRow schema row) key record where
  normal := by
    constructor
    · intro name
      rw [← hnormal.columns name, entryRow]
      split
      · rw [Option.isSome_map]
      · rfl
    · intro column hcolumn value hvalue
      rw [entryRow] at hvalue
      split at hvalue
      · obtain ⟨old, hold, rfl⟩ := Option.map_eq_some_iff.mp hvalue
        have hholds := hnormal.values column hcolumn old hold
        rw [isNull_dropZeroSign]
        split
        · next hnull => rwa [if_pos hnull] at hholds
        · next hnull => exact holds_dropZeroSign (by rwa [if_neg hnull] at hholds)
      · exact hnormal.values column hcolumn value hvalue
  readBack := by
    funext name
    unfold entryRow
    split
    · cases row name with
      | none => rfl
      | some value => exact congrArg some (dropZeroSign_idem value)
    · rfl
  key := encodePrimaryKey_entryRow hkey
  record := by
    have hsame : storedValues schema (entryRow schema row) schema.columns =
        storedValues schema row schema.columns := storedValues_congr (fun name hname => if_neg hname)
    rw [← hrecord, encodeRow, encodeRow, hsame]

end Values
end TinyJoin
