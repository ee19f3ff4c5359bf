import TinyJoin.StagedRuns
import TinyJoin.UpdatedRows
import Mathlib.Data.Set.Card

/-! An UPDATE is one simultaneous assignment: the changes planned for it replace every matching row with
its assigned row at once, whatever chains and cycles their keys move in, and it is rejected for a
duplicate key exactly where the rows would come to share one. -/
namespace TinyJoin
open Reassign

/-! ### Before a row is read -/

section Prepared
variable {json : SerdeJson} {reader : DmlReader} {table : String}
  {assignments : List (String × Assigned)} {returning : Option (List String)} {plan : UpdatePlan}

lemma assignmentBytesFrom_valid {limits : TextLimits} {schema : TableDefinition}
    {resolved : List (String × Value)} {bytes total : Nat} (hshape : SchemaShape schema)
    (h : assignmentBytesFrom json limits schema table bytes resolved = .ok total) :
    ∀ column ∈ schema.columns, ∀ value, (column.name, value) ∈ resolved →
      column.validateValue json limits value table = .ok () := by
  induction resolved generalizing bytes with
  | nil => exact fun _ _ _ hmem => (nomatch hmem)
  | cons first resolved ih =>
    obtain ⟨definition, hdefinition, h⟩ := Except.bind_eq_ok.mp h
    obtain ⟨_, hvalid, h⟩ := Except.bind_eq_ok.mp h
    obtain ⟨_, -, h⟩ := Except.bind_eq_ok.mp h
    intro column hcolumn value hmem
    rcases List.mem_cons.mp hmem with rfl | hmem
    · rw [columnDefinition, find?_name hshape hcolumn] at hdefinition
      cases hdefinition
      exact hvalid
    · exact ih h column hcolumn value hmem

lemma prepareUpdate_spec (h : prepareUpdate json reader table assignments returning = .ok plan) :
    reader.tableSchema table = .ok plan.schema ∧ plan.table = table ∧
      plan.Prepares json assignments ∧
      ∀ records, plan.records = some records → plan.computed = [] ∧
        RecordUpdate.assignedFrom plan.schema (List.replicate plan.schema.columns.length none)
          plan.resolved = some records.assigned := by
  obtain ⟨schema, hschema, h⟩ := Except.bind_eq_ok.mp h
  obtain ⟨_, hnamed, h⟩ := Except.bind_eq_ok.mp h
  obtain ⟨_, -, h⟩ := Except.bind_eq_ok.mp h
  obtain ⟨⟨resolved, computed⟩, hresolve, h⟩ := Except.bind_eq_ok.mp h
  obtain ⟨bytes, hbytes, h⟩ := Except.bind_eq_ok.mp h
  obtain ⟨_, -, h⟩ := Except.bind_eq_ok.mp h
  cases h
  obtain ⟨hnames, hcolumns⟩ := validateNamedFrom_nodup hnamed
  obtain ⟨hperm, hresolves⟩ := resolveAssignments_spec hresolve
  have hshape := schemaShape_of_valid (reader.valid hschema)
  refine ⟨hschema, rfl, ⟨hshape, reader.name_eq hschema, hnames, fun name hname =>
    (hcolumns name hname).2, hperm, hresolves, assignmentBytesFrom_valid hshape hbytes⟩, ?_⟩
  intro records hrecords
  dsimp only at hrecords
  split at hrecords
  · next hnone => exact ⟨List.isEmpty_iff.mp hnone, RecordUpdate.new_spec hrecords⟩
  · cases hrecords

end Prepared

/-! ### The rows -/

section Rows
variable {json : SerdeJson} {schema : TableDefinition} {layout : RecordLayout} {row : Row}
  {key value : List UInt8}

lemma lookup_filterMap (columns : List ColumnDefinition) (name : String) :
    (columns.filterMap (fun column =>
      (row column.name).map (fun value => (column.name, value)))).lookup name =
      if name ∈ columns.map (fun column => column.name) then row name else none := by
  induction columns with
  | nil => rfl
  | cons column columns ih =>
    by_cases hname : name = column.name
    · subst hname
      rw [if_pos (by simp)]
      cases hvalue : row column.name with
      | some value => rw [List.filterMap_cons_some (by rw [hvalue]; rfl), List.lookup_cons_self]
      | none =>
        rw [List.filterMap_cons_none (by rw [hvalue]; rfl), ih, hvalue]
        exact ite_self _
    · have hiff : name ∈ (column :: columns).map (fun column => column.name) ↔
          name ∈ columns.map (fun column => column.name) := by
        rw [List.map_cons, List.mem_cons, or_iff_right hname]
      rw [if_congr hiff rfl rfl, ← ih]
      cases hvalue : row column.name with
      | some value =>
        rw [List.filterMap_cons_some (by rw [hvalue]; rfl), List.lookup_cons,
          beq_eq_false_iff_ne.mpr hname]
      | none => rw [List.filterMap_cons_none (by rw [hvalue]; rfl)]

lemma rowMap_row (hnormal : Normalized schema row) : (rowMap schema row).row = row := by
  funext name
  refine (lookup_filterMap schema.columns name).trans ?_
  split
  · rfl
  · next hmem =>
    rw [← hnormal.columns, Option.not_isSome_iff_eq_none] at hmem
    exact hmem.symm

/-- A planned row, what it was and what it becomes. -/
structure PlannedRow where
  update : PlannedUpdate
  before : Row
  next : Row

/-- The row kept for the writer is the one that the key holds. -/
def HeldRow.Keeps (records : List UInt8 → Option (List UInt8)) (key : List UInt8) (row : Row) :
    HeldRow → Prop
  | .map held => held.row = row
  | .stored storedKey value => storedKey = key ∧ records key = some value
  | .measured _ => False

lemma RowRef.Presents.hold_keeps {records : List UInt8 → Option (List UInt8)} {ref : RowRef}
    (h : ref.Presents schema layout records key row) : ref.hold.Keeps records key row := by
  cases ref with
  | map held => exact h
  | record entry =>
    obtain ⟨value, hvalue, hnew⟩ := h
    obtain ⟨_, _, _, -, -, -, hkey, hentry, -⟩ := new_eq_ok hnew
    exact ⟨hkey, hentry ▸ hvalue⟩

/-- A visited row is planned as what its assignments make of it, and kept as what it is. -/
structure PlannedRow.Plans (json : SerdeJson) (plan : UpdatePlan)
    (assignments : List (String × Assigned)) (records : List UInt8 → Option (List UInt8))
    (planned : PlannedRow) : Prop where
  update : planned.update.Plans json plan.schema plan.table assignments planned.before planned.next
  kept : ∀ held, planned.update.oldRow = some held →
    held.Keeps records planned.update.oldKey planned.before

lemma planUpdated_spec {plan : UpdatePlan} {updating updating' : Updating} {ref : RowRef}
    {replaced : Result (UpdatedRow × Nat × Nat)}
    (h : planUpdated json plan updating ref key replaced = .ok updating') :
    ∃ held next nextBytes keyBytes, replaced = .ok (next, nextBytes, keyBytes) ∧
      (held = none ∨ held = some ref.hold) ∧
      updating'.updates = updating.updates ++ [⟨key, held, next⟩] := by
  obtain ⟨bytes, -, h⟩ := Except.bind_eq_ok.mp h
  obtain ⟨⟨next, nextBytes, keyBytes⟩, hnext, h⟩ := Except.bind_eq_ok.mp h
  obtain ⟨_, -, h⟩ := Except.bind_eq_ok.mp h
  obtain ⟨_, -, h⟩ := Except.bind_eq_ok.mp h
  obtain ⟨_, -, h⟩ := Except.bind_eq_ok.mp h
  obtain ⟨returned, hreturned, h⟩ := Except.bind_eq_ok.mp h
  cases h
  refine ⟨if (keptFits updating.kept bytes).1 then some ref.hold else none, next, nextBytes, keyBytes,
    hnext, ?_, ?_⟩
  · split
    · exact .inr rfl
    · exact .inl rfl
  · have hupdates : returned.updates = updating.updates := by
      unfold returnRow at hreturned
      split at hreturned
      · split at hreturned
        · obtain ⟨_, -, hreturned⟩ := Except.bind_eq_ok.mp hreturned
          obtain ⟨_, -, hreturned⟩ := Except.bind_eq_ok.mp hreturned
          cases hreturned
          rfl
        · cases hreturned
          rfl
      · cases hreturned
        rfl
    rw [hupdates]

lemma planRow_spec {plan : UpdatePlan} {assignments : List (String × Assigned)}
    {records : List UInt8 → Option (List UInt8)} (h : plan.Prepares json assignments)
    (hrecords : ∀ update, plan.records = some update → plan.computed = [] ∧
      RecordUpdate.assignedFrom plan.schema (List.replicate plan.schema.columns.length none)
        plan.resolved = some update.assigned)
    (hlaid : LaidOut plan.schema layout) (hheld : records key = some value)
    (hstored : StoredAs json plan.schema row key value)
    (hjson : JsonRoundTrips json plan.schema row) {ref : RowRef}
    (hpresents : ref.Presents plan.schema layout records key row) {updating updating' : Updating}
    (hok : planRow json plan updating ref = .ok updating') :
    ∃ planned : PlannedRow, updating'.updates = updating.updates ++ [planned.update] ∧
      planned.update.oldKey = key ∧ planned.before = row ∧
      planned.Plans json plan assignments records := by
  have hkeeps := hpresents.hold_keeps
  unfold planRow at hok
  obtain ⟨-, hok⟩ := Except.ite_error_eq_ok.mp hok
  split at hok
  · next update record hrecord =>
    obtain ⟨update', hupdate, hrecord⟩ := Option.bind_eq_some_iff.mp hrecord
    obtain ⟨record', hfits, heq⟩ := Option.map_eq_some_iff.mp hrecord
    cases heq
    obtain ⟨hnone, hassigned⟩ := hrecords update hupdate
    cases ref with
    | map held => cases hfits
    | record entry =>
      obtain rfl : entry = record := (Option.filter_eq_some_iff.mp hfits).1 |> Option.some.inj
      obtain ⟨value', hvalue', hnew⟩ := hpresents
      rw [hheld, Option.some.injEq] at hvalue'
      subst hvalue'
      obtain ⟨_, _, _, -, -, -, hkey, -⟩ := new_eq_ok hnew
      obtain ⟨_, -, hok⟩ := Except.bind_eq_ok.mp hok
      obtain ⟨_, -, hok⟩ := Except.bind_eq_ok.mp hok
      obtain ⟨oldKey, hold, hok⟩ := Except.bind_eq_ok.mp hok
      cases hold
      obtain ⟨held, next, nextBytes, keyBytes, hnext, hwhich, hupdates⟩ := planUpdated_spec hok
      rw [hkey] at hnext hupdates
      obtain ⟨after, hplans⟩ := updateRecord_spec h hnone hassigned hlaid hstored hnew hnext held
      refine ⟨⟨_, row, after⟩, hupdates, rfl, rfl, hplans, ?_⟩
      rintro kept hkept
      rcases hwhich with rfl | rfl
      · cases hkept
      · cases hkept
        exact hkeeps
  · obtain ⟨map, hmap, hok⟩ := Except.bind_eq_ok.mp hok
    obtain ⟨_, -, hok⟩ := Except.bind_eq_ok.mp hok
    obtain ⟨_, -, hok⟩ := Except.bind_eq_ok.mp hok
    obtain ⟨oldKey, hold, hok⟩ := Except.bind_eq_ok.mp hok
    obtain ⟨held, next, nextBytes, keyBytes, hnext, hwhich, hupdates⟩ := planUpdated_spec hok
    have hread : map.row = row ∧ oldKey = key := by
      cases ref with
      | map held =>
        cases hmap
        have hencoded : encodePrimaryKey plan.schema map.row = .ok oldKey := hold
        rw [show map.row = row from hpresents, hstored.key] at hencoded
        exact ⟨hpresents, (Except.ok.inj hencoded).symm⟩
      | record entry =>
        obtain ⟨value', hvalue', hnew⟩ := hpresents
        rw [hheld, Option.some.injEq] at hvalue'
        subst hvalue'
        obtain ⟨_, _, _, -, hs, hl, hkey, -⟩ := new_eq_ok hnew
        obtain ⟨record', columns, cells, kept, hnew', hwritten, -⟩ :=
          written_of_encodeRow key hlaid hstored.record
        rw [hnew] at hnew'
        cases hnew'
        obtain ⟨decoded, hdecoded, hmap⟩ := Except.bind_eq_ok.mp hmap
        cases hmap
        rw [hwritten.toRow_eq h.shape hlaid hstored.normal hjson hstored.key hs hl hkey] at hdecoded
        cases hdecoded
        cases hold
        rw [hstored.readBack]
        exact ⟨rowMap_row hstored.normal, hkey⟩
    obtain ⟨rfl, rfl⟩ := hread
    obtain ⟨after, hplans⟩ := updateMap_spec h hstored.normal hstored.key hnext held
    refine ⟨⟨_, map.row, after⟩, hupdates, rfl, rfl, hplans, ?_⟩
    rintro kept hkept
    rcases hwhich with rfl | rfl
    · cases hkept
    · cases hkept
      exact hkeeps

/-- The loop over the visited rows plans each, in the order that they come in. -/
lemma foldlM_planRow {plan : UpdatePlan} {assignments : List (String × Assigned)}
    {records : List UInt8 → Option (List UInt8)} {rows : List UInt8 → Option Row}
    (h : plan.Prepares json assignments)
    (hrecords : ∀ update, plan.records = some update → plan.computed = [] ∧
      RecordUpdate.assignedFrom plan.schema (List.replicate plan.schema.columns.length none)
        plan.resolved = some update.assigned)
    (hlaid : LaidOut plan.schema layout) (hstores : StoresRows json plan.schema records rows)
    (hjson : ∀ key row, rows key = some row → JsonRoundTrips json plan.schema row)
    {refs : List RowRef} {presented : List (List UInt8 × Row)}
    (hpresents : List.Forall₂ (fun ref entry =>
      ref.Presents plan.schema layout records entry.1 entry.2) refs presented)
    (hrows : ∀ entry ∈ presented, rows entry.1 = some entry.2) {updating updating' : Updating}
    (hok : refs.foldlM (planRow json plan) updating = .ok updating') :
    ∃ planned : List PlannedRow,
      updating'.updates = updating.updates ++ planned.map PlannedRow.update ∧
      planned.map (fun row => (row.update.oldKey, row.before)) = presented ∧
      ∀ row ∈ planned, row.Plans json plan assignments records := by
  induction hpresents generalizing updating with
  | nil =>
    cases hok
    exact ⟨[], by simp, rfl, fun _ hmem => (nomatch hmem)⟩
  | @cons ref entry refs presented hfirst _ ih =>
    rw [List.foldlM_cons] at hok
    obtain ⟨next, hnext, hok⟩ := Except.bind_eq_ok.mp hok
    rw [List.forall_mem_cons] at hrows
    obtain ⟨record, hrecord, hstored⟩ := hstores.stored _ _ hrows.1
    obtain ⟨row, hupdates, hkey, hbefore, hplans⟩ := planRow_spec h hrecords hlaid hrecord hstored
      (hjson _ _ hrows.1) hfirst hnext
    obtain ⟨planned, hrest, hentries, hall⟩ := ih hrows.2 hok
    refine ⟨row :: planned, ?_, ?_, List.forall_mem_cons.mpr ⟨hplans, hall⟩⟩
    · rw [hrest, hupdates, List.append_assoc, List.map_cons, List.singleton_append]
    · rw [List.map_cons, hentries, hkey, hbefore]

end Rows

/-! ### Where the rows go -/

section Moves
variable {json : SerdeJson} {plan : UpdatePlan} {assignments : List (String × Assigned)}
  {records : List UInt8 → Option (List UInt8)} {rows : List UInt8 → Option Row}
  {accepts : Row → Bool} {planned : List PlannedRow}

/-- Where a planned row moves, and the row that is read back there. -/
def PlannedRow.move (schema : TableDefinition) (planned : PlannedRow) : Move (List UInt8) Row :=
  ⟨planned.update.oldKey, planned.update.newKey, entryRow schema planned.next⟩

/-- The planned rows are every matching row's, each once. -/
structure PlansRows (json : SerdeJson) (plan : UpdatePlan) (assignments : List (String × Assigned))
    (records : List UInt8 → Option (List UInt8)) (rows : List UInt8 → Option Row)
    (accepts : Row → Bool) (planned : List PlannedRow) : Prop where
  nodup : (planned.map (fun row => row.update.oldKey)).Nodup
  mem : ∀ key row, (key, row) ∈ planned.map (fun row => (row.update.oldKey, row.before)) ↔
    rows key = some row ∧ accepts row = true
  plans : ∀ row ∈ planned, row.Plans json plan assignments records

lemma PlansRows.moves (h : PlansRows json plan assignments records rows accepts planned) :
    Moves (Updates plan.schema plan.table assignments accepts) rows
      (planned.map (PlannedRow.move plan.schema)) where
  nodup := by
    rw [List.map_map]
    exact h.nodup
  moved := by
    intro move hmove
    obtain ⟨row, hrow, rfl⟩ := List.mem_map.mp hmove
    obtain ⟨hbefore, haccepts⟩ := (h.mem _ _).mp
      (List.mem_map_of_mem (f := fun row : PlannedRow => (row.update.oldKey, row.before)) hrow)
    refine ⟨row.before, hbefore, fun key after => ?_⟩
    have hplans := (h.plans row hrow).update
    rw [Updates, if_pos haccepts]
    constructor
    · rintro ⟨next, hassigns, hkey, rfl⟩
      rw [hassigns.unique hplans.assigns] at hkey ⊢
      exact ⟨Except.ok.inj (hkey.symm.trans hplans.key), rfl⟩
    · rintro ⟨rfl, rfl⟩
      exact ⟨row.next, hplans.assigns, hplans.key, rfl⟩
  unmoved := by
    intro old before hbefore hmissing key row
    have hrejects : ¬accepts before = true := by
      intro haccepts
      obtain ⟨planned, hplanned, heq⟩ := List.mem_map.mp ((h.mem _ _).mpr ⟨hbefore, haccepts⟩)
      refine hmissing (List.mem_map.mpr ⟨planned.move plan.schema, List.mem_map_of_mem hplanned, ?_⟩)
      exact (Prod.mk.inj heq).1
    rw [Updates, if_neg hrejects]

lemma PlansRows.rowCount (h : PlansRows json plan assignments records rows accepts planned) :
    planned.length = {key | ∃ row, rows key = some row ∧ accepts row = true}.ncard := by
  have hset : {key | ∃ row, rows key = some row ∧ accepts row = true} =
      ((planned.map (fun row => row.update.oldKey)).toFinset : Set (List UInt8)) := by
    ext key
    rw [Set.mem_ofPred_eq, Finset.mem_coe, List.mem_toFinset]
    constructor
    · rintro ⟨row, hrow⟩
      obtain ⟨planned, hplanned, heq⟩ := List.mem_map.mp ((h.mem _ _).mpr hrow)
      exact List.mem_map.mpr ⟨planned, hplanned, (Prod.mk.inj heq).1⟩
    · intro hkey
      obtain ⟨row, hrow, rfl⟩ := List.mem_map.mp hkey
      exact ⟨row.before, (h.mem _ _).mp (List.mem_map.mpr ⟨row, hrow, rfl⟩)⟩
  rw [hset, Set.ncard_coe_finset, List.toFinset_card_of_nodup h.nodup, List.length_map]

/-- Each new key is one that no row before it takes and that no row stays at. -/
def Clear (rows : List UInt8 → Option Row) (olds : List (List UInt8)) :
    List (List UInt8) → List (List UInt8) → Prop
  | [], _ => True
  | key :: keys, destinations => key ∉ destinations ∧ (key ∉ olds → rows key = none) ∧
      Clear rows olds keys (key :: destinations)

lemma clear_iff {olds keys destinations : List (List UInt8)} :
    Clear rows olds keys destinations ↔ keys.Nodup ∧ (∀ key ∈ keys, key ∉ destinations) ∧
      ∀ key ∈ keys, key ∉ olds → rows key = none := by
  induction keys generalizing destinations with
  | nil => simp [Clear]
  | cons key keys ih =>
    rw [Clear, ih, List.nodup_cons]
    constructor
    · rintro ⟨hnew, hfree, hnodup, hothers, hrest⟩
      refine ⟨⟨fun hmem => hothers key hmem List.mem_cons_self, hnodup⟩,
        List.forall_mem_cons.mpr ⟨hnew, fun other hother hmem => hothers other hother ?_⟩,
        List.forall_mem_cons.mpr ⟨hfree, hrest⟩⟩
      exact List.mem_cons_of_mem _ hmem
    · rintro ⟨⟨hkey, hnodup⟩, hnew, hfree⟩
      rw [List.forall_mem_cons] at hnew hfree
      refine ⟨hnew.1, hfree.1, hnodup, fun other hother hmem => ?_, hfree.2⟩
      rcases List.mem_cons.mp hmem with rfl | hmem
      · exact hkey hother
      · exact hnew.2 other hother hmem

/-- A plan's map of a row reads as held exactly where its key holds a row, unless the read fails. -/
def DmlReader.Finds (reader : DmlReader) (table : String) (rows : List UInt8 → Option Row)
    (update : PlannedUpdate) : Prop :=
  ∀ oldPrimaryKey newKey newRow, update.next = .map oldPrimaryKey newKey newRow →
    ∀ held, reader.holdsPrimaryKey table newRow = .ok held → held = (rows newKey).isSome

/-- The check of destinations is of what is clear. The keys it holds as old are, apart from the
destinations, the updated rows'. -/
lemma checkDestinations_spec {reader : DmlReader} {table : String} {updates : List PlannedUpdate}
    {olds oldKeys destinations : List (List UInt8)}
    (hfinds : ∀ update ∈ updates, reader.Finds table rows update)
    (holds : ∀ update ∈ updates, update.oldKey ∈ olds)
    (hkeys : ∀ key, key ∉ destinations → (key ∈ oldKeys ↔ key ∈ olds)) :
    (checkDestinations reader table updates oldKeys destinations = .ok () →
      Clear rows olds (updates.map PlannedUpdate.newKey) destinations) ∧
    ∀ error, checkDestinations reader table updates oldKeys destinations = .error error →
      (error = duplicatePrimaryKey "UPDATE of" table ∧
        ¬Clear rows olds (updates.map PlannedUpdate.newKey) destinations) ∨
      ∃ row, reader.holdsPrimaryKey table row = .error error := by
  induction updates generalizing oldKeys destinations with
  | nil => exact ⟨fun _ => trivial, fun _ herror => (nomatch herror)⟩
  | cons update updates ih =>
    rw [List.forall_mem_cons] at hfinds holds
    rw [List.map_cons, Clear, checkDestinations]
    by_cases htaken : update.newKey ∈ destinations
    · rw [if_pos htaken]
      exact ⟨fun hok => (nomatch hok), fun error herror =>
        .inl ⟨(Except.error.inj herror).symm, fun hclear => hclear.1 htaken⟩⟩
    · rw [if_neg htaken]
      -- The rest is checked with one destination more.
      have hrest : ∀ {next : List (List UInt8)},
          (∀ key, key ∉ update.newKey :: destinations → (key ∈ next ↔ key ∈ olds)) →
          (update.newKey ∉ olds → rows update.newKey = none) →
          (checkDestinations reader table updates next (update.newKey :: destinations) = .ok () →
            update.newKey ∉ destinations ∧ (update.newKey ∉ olds → rows update.newKey = none) ∧
              Clear rows olds (updates.map PlannedUpdate.newKey) (update.newKey :: destinations)) ∧
          ∀ error, checkDestinations reader table updates next (update.newKey :: destinations) =
              .error error →
            (error = duplicatePrimaryKey "UPDATE of" table ∧
              ¬(update.newKey ∉ destinations ∧ (update.newKey ∉ olds → rows update.newKey = none) ∧
                Clear rows olds (updates.map PlannedUpdate.newKey)
                  (update.newKey :: destinations))) ∨
            ∃ row, reader.holdsPrimaryKey table row = .error error := by
        intro next hnext hfree
        obtain ⟨hok, herror⟩ := ih hfinds.2 holds.2 hnext
        refine ⟨fun h => ⟨htaken, hfree, hok h⟩, fun error h => ?_⟩
        rcases herror error h with ⟨hduplicate, hclear⟩ | hread
        · exact .inl ⟨hduplicate, fun h => hclear h.2.2⟩
        · exact .inr hread
      have hsame : ∀ key, key ∉ update.newKey :: destinations → (key ∈ oldKeys ↔ key ∈ olds) :=
        fun key hkey => hkeys key (fun hmem => hkey (List.mem_cons_of_mem _ hmem))
      cases hnext : update.next with
      | record record =>
        have hkey : update.newKey = update.oldKey := by rw [PlannedUpdate.newKey, hnext]
        exact hrest hsame (fun hmissing => absurd (hkey ▸ holds.1) hmissing)
      | map oldPrimaryKey newKey newRow =>
        have hkey : update.newKey = newKey := by rw [PlannedUpdate.newKey, hnext]
        dsimp only
        by_cases hmoves : newKey ≠ update.oldKey ∧ newKey ∉ oldKeys
        · rw [if_pos hmoves]
          have holdKeys := hmoves.2
          rw [hkeys newKey (hkey ▸ htaken)] at holdKeys
          cases hread : reader.holdsPrimaryKey table newRow with
          | error e =>
            exact ⟨fun hok => (nomatch hok), fun error herror =>
              .inr ⟨newRow, by rw [hread, Except.error.inj herror]⟩⟩
          | ok held =>
            have hheld := hfinds.1 _ _ _ hnext held hread
            cases held with
            | true =>
              refine ⟨fun hok => (nomatch hok), fun error herror =>
                .inl ⟨(Except.error.inj herror).symm, fun hclear => ?_⟩⟩
              have hfree := hclear.2.1 (hkey ▸ holdKeys)
              rw [hkey] at hfree
              rw [hfree] at hheld
              cases hheld
            | false =>
              rw [← hkey]
              refine hrest (fun key hmissing => ?_) (fun _ => ?_)
              · rw [List.mem_cons, or_iff_right (List.ne_of_not_mem_cons hmissing)]
                exact hsame key hmissing
              · rw [hkey, ← Option.not_isSome_iff_eq_none, ← hheld]
                exact Bool.false_ne_true
        · rw [if_neg hmoves]
          refine hrest hsame (fun hmissing => ?_)
          rw [hkey] at hmissing
          refine absurd ?_ hmissing
          by_cases hstays : newKey = update.oldKey
          · exact hstays ▸ holds.1
          · rw [← hkeys newKey (hkey ▸ htaken)]
            by_contra hnone
            exact hmoves ⟨hstays, hnone⟩

lemma PlansRows.collides_iff (h : PlansRows json plan assignments records rows accepts planned) :
    Collides (Updates plan.schema plan.table assignments accepts) rows ↔
      ¬Clear rows (planned.map (fun row => row.update.oldKey))
        (planned.map (fun row => row.update.newKey)) [] := by
  have hmaps : (planned.map (PlannedRow.move plan.schema)).map Move.old =
        planned.map (fun row => row.update.oldKey) ∧
      (planned.map (PlannedRow.move plan.schema)).map Move.new =
        planned.map (fun row => row.update.newKey) := by
    simp only [List.map_map]
    exact ⟨rfl, rfl⟩
  rw [h.moves.collides_iff, clear_iff, hmaps.1, hmaps.2, not_and_or, not_and_or]
  refine or_congr_right ?_
  constructor
  · rintro ⟨move, hmove, hmissing, hsome⟩
    obtain ⟨row, hrow, rfl⟩ := List.mem_map.mp hmove
    refine .inr (fun hfree => ?_)
    have hnone := hfree _ (List.mem_map.mpr ⟨row, hrow, rfl⟩) hmissing
    rw [show (row.move plan.schema).new = row.update.newKey from rfl, hnone] at hsome
    cases hsome
  · rintro (hnone | hfree)
    · exact absurd (fun _ _ hmem => (nomatch hmem)) hnone
    · push Not at hfree
      obtain ⟨key, hkey, hmissing, hsome⟩ := hfree
      obtain ⟨row, hrow, rfl⟩ := List.mem_map.mp hkey
      exact ⟨_, List.mem_map_of_mem hrow, hmissing, Option.isSome_iff_ne_none.mpr hsome⟩

/-- The check of the keys fails exactly where two rows would share one, or a read of one fails. -/
lemma PlansRows.checkKeys_spec (h : PlansRows json plan assignments records rows accepts planned)
    {reader : DmlReader} {table : String}
    (hfinds : ∀ row ∈ planned, reader.Finds table rows row.update) :
    (checkKeys reader table (planned.map PlannedRow.update) = .ok () →
      ¬Collides (Updates plan.schema plan.table assignments accepts) rows) ∧
    ∀ error, checkKeys reader table (planned.map PlannedRow.update) = .error error →
      (error = duplicatePrimaryKey "UPDATE of" table ∧
        Collides (Updates plan.schema plan.table assignments accepts) rows) ∨
      ∃ row, reader.holdsPrimaryKey table row = .error error := by
  rw [h.collides_iff, not_not]
  unfold checkKeys
  split
  · obtain ⟨hok, herror⟩ := @checkDestinations_spec rows reader table
      (planned.map PlannedRow.update) (planned.map (fun row => row.update.oldKey))
      ((planned.map PlannedRow.update).map PlannedUpdate.oldKey) []
      (by simpa using hfinds)
      (fun update hupdate => by
        obtain ⟨row, hrow, rfl⟩ := List.mem_map.mp hupdate
        exact List.mem_map.mpr ⟨row, hrow, rfl⟩)
      (fun key _ => by rw [List.map_map]; rfl)
    have hnews : (planned.map PlannedRow.update).map PlannedUpdate.newKey =
        planned.map (fun row => row.update.newKey) := by
      rw [List.map_map]
      rfl
    rw [hnews] at hok herror
    exact ⟨hok, herror⟩
  · next hstay =>
    refine ⟨fun _ => clear_iff.mpr ?_, fun error herror => (nomatch herror)⟩
    have hkeys : planned.map (fun row => row.update.newKey) =
        planned.map (fun row => row.update.oldKey) := by
      refine List.map_congr_left (fun row hrow => ?_)
      by_contra hne
      exact hstay (List.any_eq_true.mpr ⟨row.update, List.mem_map_of_mem hrow, by simpa using hne⟩)
    rw [hkeys]
    exact ⟨h.nodup, fun _ _ hmem => (nomatch hmem), fun key hkey hmissing => absurd hkey hmissing⟩

end Moves

/-! ### The changes -/

section Changes
variable {json : SerdeJson} {storage : PagedStorage} {view : TableView} {table : String}
  {schema : TableDefinition}

/-- A change of a table edits one of its keys. -/
structure RowChange.Edits (json : SerdeJson) (storage : PagedStorage) (table : String)
    (change : RowChange) (edit : List UInt8 × Option (List UInt8)) : Prop where
  named : change.table = table
  key : change.key storage = some edit.1
  writes : change.patchRow.writes json storage table = edit.2

lemma RowChange.Edits.apply {change : RowChange} {edit : List UInt8 × Option (List UInt8)}
    (h : change.Edits json storage table edit) (view : TableView) :
    change.apply json storage view table = Function.update (view table) edit.1 edit.2 ∧
      ∀ other, other ≠ table → change.apply json storage view other = view other := by
  constructor
  · funext key
    rw [RowChange.apply, h.named, h.key, h.writes]
    by_cases hkey : key = edit.1
    · rw [if_pos ⟨rfl, congrArg some hkey.symm⟩, hkey, Function.update_self]
    · rw [if_neg (fun hsame => hkey (Option.some.inj hsame.2).symm), Function.update_of_ne hkey]
  · intro other hother
    funext key
    rw [RowChange.apply, h.named, if_neg (fun hsame => hother hsame.1)]

/-- Changes of one table, applied one after another, are edits of it. -/
lemma applyAll_edits {changes : List RowChange} {edited : List (List UInt8 × Option (List UInt8))}
    (h : List.Forall₂ (RowChange.Edits json storage table) changes edited) :
    RowChange.applyAll json storage view changes table = edits (view table) edited ∧
      ∀ other, other ≠ table → RowChange.applyAll json storage view changes other = view other := by
  induction h generalizing view with
  | nil => exact ⟨rfl, fun _ _ => rfl⟩
  | @cons change edit changes edited hfirst _ ih =>
    obtain ⟨htable, hothers⟩ := hfirst.apply view
    obtain ⟨hrest, hrestOthers⟩ := @ih (change.apply json storage view)
    rw [htable] at hrest
    exact ⟨hrest, fun other hother => (hrestOthers other hother).trans (hothers other hother)⟩

/-- An edit of a table's records is that of its rows. -/
def StoresEdit (json : SerdeJson) (schema : TableDefinition)
    (edit : List UInt8 × Option (List UInt8)) (row : List UInt8 × Option Row) : Prop :=
  edit.1 = row.1 ∧ match edit.2, row.2 with
    | none, none => True
    | some record, some row => StoredAs json schema row edit.1 record
    | _, _ => False

lemma StoresRows.edits {records : List UInt8 → Option (List UInt8)}
    {rows : List UInt8 → Option Row} (h : StoresRows json schema records rows)
    {edited : List (List UInt8 × Option (List UInt8))} {rowEdits : List (List UInt8 × Option Row)}
    (hedits : List.Forall₂ (StoresEdit json schema) edited rowEdits) :
    StoresRows json schema (edits records edited) (edits rows rowEdits) := by
  induction hedits generalizing records rows with
  | nil => exact h
  | @cons edit row edited rowEdits hfirst _ ih =>
    obtain ⟨key, record⟩ := edit
    obtain ⟨_, row⟩ := row
    obtain ⟨rfl, hstored⟩ := hfirst
    refine ih ⟨fun other hnone => ?_, fun other after hafter => ?_⟩
    · dsimp only at hnone hstored ⊢
      by_cases hother : other = key
      · rw [hother, Function.update_self] at hnone ⊢
        subst hnone
        cases record with
        | none => rfl
        | some record => exact hstored.elim
      · rw [Function.update_of_ne hother] at hnone ⊢
        exact h.free other hnone
    · dsimp only at hafter hstored ⊢
      by_cases hother : other = key
      · rw [hother, Function.update_self] at hafter
        subst hafter
        cases record with
        | none => exact hstored.elim
        | some record => exact ⟨record, by rw [hother, Function.update_self], hother ▸ hstored⟩
      · rw [Function.update_of_ne hother] at hafter ⊢
        exact h.stored other after hafter

/-- No two of the writes among changes are of one key, as every writer demands. -/
def RowChange.WritesOnce (storage : PagedStorage) (changes : List RowChange) : Prop :=
  ((changes.filter (fun change => !change.patchRow.isDelete)).map
    (RowChange.key storage)).Nodup

end Changes

section Planned
variable {json : SerdeJson} {plan : UpdatePlan} {assignments : List (String × Assigned)}
  {records : List UInt8 → Option (List UInt8)} {rows : List UInt8 → Option Row}
  {accepts : Row → Bool} {planned : List PlannedRow} {storage : PagedStorage} {paged : PagedTable}

/-- A planned row is deleted from its old key exactly where it moves. -/
lemma PlannedRow.Plans.deleted {row : PlannedRow} (h : row.Plans json plan assignments records)
    (hpaged : storage.table plan.table = .ok paged) (hschema : paged.schema = plan.schema) :
    if row.update.newKey ≠ row.update.oldKey then
      ∃ key, row.update.deleted plan.table = some (.delete plan.table key, row.update.read) ∧
        (RowChange.delete plan.table key).Edits json storage plan.table (row.update.oldKey, none)
    else row.update.deleted plan.table = none := by
  have hwritten := h.update.written
  unfold PlannedUpdate.newKey PlannedUpdate.deleted
  cases hnext : row.update.next with
  | record record => simp
  | map oldPrimaryKey newKey newRow =>
    rw [hnext] at hwritten
    dsimp only
    split
    · next hmoves =>
      rw [if_pos (Ne.symm hmoves)]
      refine ⟨oldPrimaryKey, rfl, rfl, ?_, rfl⟩
      simp only [RowChange.key, hpaged, hschema, bind, Except.bind, hwritten.1]
      rfl
    · next hstays =>
      rw [if_neg (fun hne => hstays (Ne.symm hne))]

/-- A planned row is written at its new key. -/
lemma PlannedRow.Plans.upserted {row : PlannedRow} (h : row.Plans json plan assignments records)
    (hpaged : storage.table plan.table = .ok paged) (hschema : paged.schema = plan.schema)
    {record : List UInt8} (hrecord : encodeRow json plan.schema row.next = .ok record) :
    (row.update.upserted plan.table).1.Edits json storage plan.table
      (row.update.newKey, some record) := by
  have hwritten := h.update.written
  have hkey := h.update.key
  unfold PlannedUpdate.newKey at hkey ⊢
  unfold PlannedUpdate.upserted
  cases hnext : row.update.next with
  | record written =>
    rw [hnext] at hwritten
    rw [hrecord] at hwritten
    exact ⟨rfl, rfl, congrArg some (Except.ok.inj hwritten).symm⟩
  | map oldPrimaryKey newKey newRow =>
    rw [hnext] at hwritten hkey
    refine ⟨rfl, ?_, ?_⟩
    · simp only [RowChange.key, hpaged, hschema, bind, Except.bind, hwritten.2, hkey]
      rfl
    · simp only [RowChange.patchRow, RowChange.parts, PatchRow.writes, hpaged, hschema, bind,
        Except.bind, hwritten.2, hrecord]
      rfl

/-- The keys that rows move from. -/
def vacated (planned : List PlannedRow) : List (List UInt8) :=
  (planned.filter (fun row => decide (row.update.newKey ≠ row.update.oldKey))).map
    (fun row => row.update.oldKey)

lemma edits_deleted (hpaged : storage.table plan.table = .ok paged)
    (hschema : paged.schema = plan.schema)
    (hplans : ∀ row ∈ planned, row.Plans json plan assignments records) :
    List.Forall₂ (RowChange.Edits json storage plan.table)
      (((planned.map PlannedRow.update).filterMap (PlannedUpdate.deleted plan.table)).map Prod.fst)
      ((vacated planned).map (fun key => (key, none))) := by
  induction planned with
  | nil => exact .nil
  | cons row planned ih =>
    rw [List.forall_mem_cons] at hplans
    have hdeleted := hplans.1.deleted hpaged hschema
    rw [List.map_cons, vacated, List.filter_cons]
    split at hdeleted
    · next hmoves =>
      obtain ⟨key, hdeleted, hedits⟩ := hdeleted
      rw [List.filterMap_cons_some hdeleted, if_pos (by simpa using hmoves)]
      exact .cons hedits (ih hplans.2)
    · next hstays =>
      rw [List.filterMap_cons_none hdeleted, if_neg (by simpa using hstays)]
      exact ih hplans.2

lemma edits_upserted (hpaged : storage.table plan.table = .ok paged)
    (hschema : paged.schema = plan.schema)
    (hplans : ∀ row ∈ planned, row.Plans json plan assignments records)
    (hencodes : ∀ row ∈ planned, ∃ record, encodeRow json plan.schema row.next = .ok record) :
    ∃ edited, List.Forall₂ (RowChange.Edits json storage plan.table)
        (((planned.map PlannedRow.update).map (PlannedUpdate.upserted plan.table)).map Prod.fst)
        edited ∧
      List.Forall₂ (StoresEdit json plan.schema) edited
        ((planned.map (PlannedRow.move plan.schema)).map (fun move => (move.new, some move.row))) := by
  induction planned with
  | nil => exact ⟨[], .nil, .nil⟩
  | cons row planned ih =>
    rw [List.forall_mem_cons] at hplans hencodes
    obtain ⟨edited, hedits, hstores⟩ := ih hplans.2 hencodes.2
    obtain ⟨record, hrecord⟩ := hencodes.1
    have hplan := hplans.1.update
    exact ⟨_ :: edited, .cons (hplans.1.upserted hpaged hschema hrecord) hedits,
      .cons ⟨rfl, storedAs_entryRow hplan.normal hplan.key hrecord⟩ hstores⟩

/-- Once planned, an UPDATE's changes make every row what it becomes, all at once. -/
lemma PlansRows.applyAll (h : PlansRows json plan assignments records rows accepts planned)
    {view : TableView} (hview : view plan.table = records)
    (hpaged : storage.table plan.table = .ok paged) (hschema : paged.schema = plan.schema)
    (hstores : StoresRows json plan.schema records rows)
    (hfree : ¬Collides (Updates plan.schema plan.table assignments accepts) rows)
    (hencodes : ∀ row ∈ planned, ∃ record, encodeRow json plan.schema row.next = .ok record) :
    ∃ rows', Replaces (Updates plan.schema plan.table assignments accepts) rows rows' ∧
      StoresRows json plan.schema (RowChange.applyAll json storage view
        ((plannedChanges plan.table (planned.map PlannedRow.update)).map Prod.fst) plan.table)
        rows' ∧
      ∀ other, other ≠ plan.table → RowChange.applyAll json storage view
        ((plannedChanges plan.table (planned.map PlannedRow.update)).map Prod.fst) other =
          view other := by
  obtain ⟨edited, hedits, hrows⟩ := edits_upserted hpaged hschema h.plans hencodes
  have hall := List.rel_append (edits_deleted hpaged hschema h.plans) hedits
  obtain ⟨htable, hothers⟩ := @applyAll_edits json storage view plan.table _ _ hall
  rw [plannedChanges, List.map_append]
  have hremoved : ∀ key, key ∈ vacated planned ↔
      ∃ move ∈ planned.map (PlannedRow.move plan.schema), move.old = key ∧ move.new ≠ key := by
    intro key
    simp only [vacated, List.mem_map, List.mem_filter, decide_eq_true_eq]
    constructor
    · rintro ⟨row, ⟨hrow, hmoves⟩, rfl⟩
      exact ⟨_, ⟨row, hrow, rfl⟩, rfl, hmoves⟩
    · rintro ⟨_, ⟨row, hrow, rfl⟩, rfl, hmoves⟩
      exact ⟨row, ⟨hrow, hmoves⟩, rfl⟩
  refine ⟨_, h.moves.replaces_edits hfree hremoved, ?_, hothers⟩
  rw [htable, hview]
  refine hstores.edits (List.rel_append ?_ hrows)
  exact List.forall₂_map_left_iff.mpr (List.forall₂_map_right_iff.mpr
    (List.forall₂_same.mpr (fun key _ => ⟨rfl, trivial⟩)))

end Planned
end TinyJoin
