import TinyJoin.NotificationDelivery

/-! Change notifications are sound and complete while every merge can be read. -/
namespace TinyJoin
namespace Changes
open Distinct

section
variable {π ν : Type} [DecidableEq ν] (numbers : NumberText ν)

/-! ## The host -/

/-- What the host holds stands for what it is still to announce. -/
structure HostGood (host : Host ν) (groups : List (List (EngineOutcome ν))) : Prop where
  represents : List.Forall₂ Represents host.pendingOutcomes groups
  tables : ∀ table, table ∈ host.pendingTables ↔
    ∃ outcome ∈ host.pendingOutcomes, table ∈ outcome.tables

namespace HostGood
variable {host : Host ν} {groups : List (List (EngineOutcome ν))}

omit [DecidableEq ν] in
lemma emitInvalidation (h : HostGood host groups) {outcome : ApplyOutcome ν}
    {sources : List (EngineOutcome ν)} (hrepresents : Represents outcome sources) :
    HostGood (host.emitInvalidation outcome)
      (System.noteGroup outcome.tables sources groups) := by
  have hadded : ∀ (names kept : List String) (table : String),
      table ∈ names.foldl add kept ↔ table ∈ kept ∨ table ∈ names := by
    intro names
    induction names with
    | nil => exact fun kept table => ⟨.inl, fun h => h.resolve_right (fun h => (nomatch h))⟩
    | cons name names ih =>
      intro kept table
      rw [List.foldl_cons, ih, mem_add, List.mem_cons, or_assoc]
  rw [System.noteGroup]
  constructor
  · simp only [Host.emitInvalidation]
    split
    · exact List.rel_append h.represents (.cons hrepresents .nil)
    · exact h.represents
  · intro table
    simp only [Host.emitInvalidation, hadded, h.tables]
    split
    · simp only [List.mem_append, List.mem_singleton, or_and_right, exists_or, exists_eq_left]
    · next hnone =>
      rw [List.length_eq_zero_iff.mp (Nat.eq_zero_of_not_pos hnone)]
      exact or_iff_left (fun h => (nomatch h))

omit [DecidableEq ν] in
lemma emitUnlessInTransaction (h : HostGood host groups) {outcome : ApplyOutcome ν}
    {sources : List (EngineOutcome ν)} (hrepresents : Represents outcome sources) :
    HostGood (host.emitUnlessInTransaction (some outcome))
      (if host.transactionActive then groups
        else System.noteGroup outcome.tables sources groups) := by
  rw [Host.emitUnlessInTransaction]
  cases hactive : host.transactionActive with
  | true => exact h
  | false =>
    rw [if_neg Bool.false_ne_true]
    by_cases htables : outcome.tables.length > 0
    · rw [if_pos ⟨rfl, htables⟩]
      exact h.emitInvalidation hrepresents
    · rw [if_neg (fun hand => htables hand.2), System.noteGroup, if_neg htables]
      exact h

end HostGood

omit [DecidableEq ν] in
lemma represents_parsed_all (results : List (EngineOutcome ν)) :
    List.Forall₂ Represents (results.map EngineOutcome.parsed)
      (results.map (fun source => [source])) := by
  induction results with
  | nil => exact .nil
  | cons source results ih => exact .cons (represents_parsed source) ih

lemma flatten_singletons {α : Type} (l : List α) : (l.map (fun a => [a])).flatten = l := by
  induction l with
  | nil => rfl
  | cons a l ih => rw [List.map_cons, List.flatten_cons, ih, List.singleton_append]

variable {numbers}

/-- A script's outcome stands for its statements, where their keys can be read; nowhere else is it made. -/
lemma execSql_spec {host : Host ν} {groups : List (List (EngineOutcome ν))}
    (h : HostGood host groups) (results : List (EngineOutcome ν)) :
    match host.execSql numbers (results.map EngineOutcome.parsed) with
    | .error _ => ¬AllReadable (results.map EngineOutcome.parsed)
    | .ok host' => AllReadable (results.map EngineOutcome.parsed) ∧
      HostGood host' (if host.transactionActive then groups
        else System.noteGroup (results.flatMap EngineOutcome.tables) results groups) := by
  have hmerge := ends_mergeOutcomes (results.map EngineOutcome.parsed)
    (mergedFrom_empty : MergedFrom numbers [] .empty)
  rw [List.nil_append] at hmerge
  rw [Host.execSql, Host.mergeScriptKeys]
  rcases hended : Effect.forEach (fun result : ApplyOutcome ν =>
    mergeChangedKeys numbers result.tables result.keys) (results.map EngineOutcome.parsed) .empty with
    ⟨error | _, merged⟩
  · exact hmerge.error hended
  · have hmerged := hmerge.ok hended
    refine ⟨fun table => (hmerged table).1, ?_⟩
    have htables : (results.map EngineOutcome.parsed).flatMap ApplyOutcome.tables =
        results.flatMap EngineOutcome.tables := by
      rw [List.flatMap_map]
      rfl
    have hlength : (distinct (results.flatMap EngineOutcome.tables)).length > 0 ↔
        (results.flatMap EngineOutcome.tables).length > 0 := by
      simp only [gt_iff_lt, List.length_pos_iff_exists_mem, mem_distinct]
    have hgroup : System.noteGroup (distinct (results.flatMap EngineOutcome.tables)) results groups =
        System.noteGroup (results.flatMap EngineOutcome.tables) results groups := by
      simp only [System.noteGroup, hlength]
    have hrepresents : Represents ⟨(results.map EngineOutcome.parsed).foldl
        (fun revision result => max revision result.revision) 0,
        distinct ((results.map EngineOutcome.parsed).flatMap ApplyOutcome.tables),
        finishChangedKeys merged⟩ (results.map (fun source => [source])).flatten :=
      represents_finish (represents_parsed_all results) hmerged
        (fun table => by rw [mem_distinct, List.mem_flatMap])
    rw [flatten_singletons] at hrepresents
    have hgood := h.emitUnlessInTransaction hrepresents
    dsimp only at hgood
    rw [htables, hgroup] at hgood
    rw [htables]
    exact hgood

/-- The event made of all that is pending stands for it, where its keys can be read; nowhere else is it
made. -/
lemma announce_spec {host : Host ν} {groups : List (List (EngineOutcome ν))}
    (h : HostGood host groups) :
    match host.announce numbers with
    | (.error _, _) => host.closed = false ∧ ¬AllReadable host.pendingOutcomes
    | (.ok none, host') => (host.closed = false → AllReadable host.pendingOutcomes) ∧
      HostGood host' groups
    | (.ok (some event), host') => AllReadable host.pendingOutcomes ∧
      event.event = .tablesChanged ∧ Represents event.payload groups.flatten ∧
      HostGood host' [] := by
  rw [Host.announce]
  dsimp only
  by_cases hidle : host.closed = true ∨ host.pendingTables.isEmpty = true
  · rw [if_pos hidle]
    refine ⟨fun hopen => ?_, h.represents, h.tables⟩
    rw [hopen, List.isEmpty_iff] at hidle
    have hnone := hidle.resolve_left Bool.false_ne_true
    intro table
    have hreports : reports host.pendingOutcomes table = [] := by
      rw [List.eq_nil_iff_forall_not_mem]
      intro report hreport
      obtain ⟨outcome, houtcome, htable, -⟩ := mem_reports.mp hreport
      have hmem := (h.tables table).mpr ⟨outcome, houtcome, htable⟩
      rw [hnone] at hmem
      nomatch hmem
    rw [hreports]
    exact readable_nil
  · rw [if_neg hidle]
    rw [not_or, Bool.not_eq_true] at hidle
    have hmerge := ends_mergeOutcomes host.pendingOutcomes
      (mergedFrom_empty : MergedFrom numbers [] .empty)
    rw [List.nil_append] at hmerge
    rcases hended : Effect.forEach (fun outcome : ApplyOutcome ν =>
      mergeChangedKeys numbers outcome.tables outcome.keys) host.pendingOutcomes .empty with
      ⟨error | _, merged⟩
    · exact ⟨hidle.1, hmerge.error hended⟩
    · have hmerged := hmerge.ok hended
      refine ⟨fun table => (hmerged table).1, rfl, ?_, .nil, fun table => ?_⟩
      · exact represents_finish h.represents hmerged
          (fun table => (List.mem_insertionSort _).trans (h.tables table))
      · exact ⟨fun hmem => (nomatch hmem), fun ⟨_, hmem, _⟩ => (nomatch hmem)⟩

/-! ## The page -/

/-- A notification that waits tells of what was received since the last delivery. -/
structure PendingGood (since : List (ApplyOutcome ν × List (EngineOutcome ν))) (resynced : Bool)
    (pendingKeys : PendingChangedKeys ν) (event : TablesChangedEvent ν) : Prop where
  reset : event.reset = resynced
  nothing : resynced = true → event.tables = [] ∧ event.keys = .empty
  tables : resynced = false → ∀ table,
    table ∈ event.tables ↔ ∃ received ∈ since, table ∈ received.1.tables
  keys : resynced = false → event.keys = finishChangedKeys pendingKeys

structure PageGood (numbers : NumberText ν) (run : PageRun ν) : Prop where
  numbered : Numbered run.page
  inbox : ∀ message ∈ run.inbox, message.1.event = .tablesChanged →
    Represents message.1.payload message.2
  since : ∀ received ∈ run.since, Represents received.1 received.2
  merged : run.resynced = false →
    MergedFrom numbers (run.since.map Prod.fst) run.page.pendingKeys
  idle : run.page.pendingNotification = none → run.since = [] ∧ run.resynced = false
  pending : ∀ event, run.page.pendingNotification = some event →
    PendingGood run.since run.resynced run.page.pendingKeys event
  deliveries : ∀ delivery ∈ run.deliveries, GoodDelivery delivery

omit [DecidableEq ν] in
lemma forall₂_since {since : List (ApplyOutcome ν × List (EngineOutcome ν))}
    (h : ∀ received ∈ since, Represents received.1 received.2) :
    List.Forall₂ Represents (since.map Prod.fst) (since.map Prod.snd) := by
  induction since with
  | nil => exact .nil
  | cons received since ih =>
    rw [List.forall_mem_cons] at h
    exact .cons h.1 (ih h.2)

lemma pageGood_start : PageGood numbers (PageRun.start : PageRun ν) where
  numbered := ⟨.nil, fun _ h => (nomatch h)⟩
  inbox := fun _ h => (nomatch h)
  since := fun _ h => (nomatch h)
  merged := fun _ => mergedFrom_empty
  idle := fun _ => ⟨rfl, rfl⟩
  pending := fun _ h => (nomatch h)
  deliveries := fun _ h => (nomatch h)

/-- What a waiting notification tells of is what it is to tell of. -/
lemma PageGood.goodDelivery {run : PageRun ν} (h : PageGood numbers run)
    {event : TablesChangedEvent ν} (hpending : run.page.pendingNotification = some event)
    {heard : List Subscription} {page' : Page ν} (hdelivers : Delivers event 0 heard page') :
    GoodDelivery ⟨event, heard, page'.subscriptions, (run.since.map Prod.snd).flatten, run.resynced,
      false⟩ := by
  have hgood := h.pending event hpending
  have hsince := forall₂_since h.since
  constructor
  · exact hgood.reset
  · intro hresynced table
    rw [hgood.tables hresynced]
    refine Iff.trans ?_ (mem_tables_of_represents hsince table)
    simp only [List.mem_map]
    constructor
    · rintro ⟨received, hmem, htable⟩
      exact ⟨received.1, ⟨received, hmem, rfl⟩, htable⟩
    · rintro ⟨_, ⟨received, hmem, rfl⟩, htable⟩
      exact ⟨received, hmem, htable⟩
  · intro hresynced table rows hrows
    have hkeys := hgood.keys hresynced
    dsimp only at hrows
    rw [hkeys] at hrows
    obtain ⟨entry, hentry, rfl⟩ := get_finish (get_of_own hrows)
    exact listedKeys_of_merged hsince (h.merged hresynced) hentry
  · exact hgood.nothing
  · exact hdelivers.once
  · exact hdelivers.concerned
  · exact fun subscription hmem => hdelivers.complete subscription hmem (Nat.zero_le _)
  · rfl

lemma PageGood.flush {run : PageRun ν} (h : PageGood numbers run) (reactions : List (List Reaction)) :
    PageGood numbers (run.flush reactions) := by
  rw [PageRun.flush, Page.flushNotifications]
  cases hpending : run.page.pendingNotification with
  | none => exact h
  | some event =>
    dsimp only
    by_cases hwaits : run.page.transactionActive = true ∨ run.page.closing = true
    · rw [if_pos hwaits]
      exact h
    · rw [if_neg hwaits]
      rw [not_or, Bool.not_eq_true] at hwaits
      have hnumbered : Numbered { run.page with
          pendingNotification := none, pendingKeys := (.empty : PendingChangedKeys ν) } :=
        ⟨h.numbered.sorted, h.numbered.lt_next⟩
      have hspec := deliver_spec event (run.page.nextSubscription + reactions.flatten.length + 1) 0
        reactions _ hnumbered (by dsimp only; omega)
      dsimp only at hspec ⊢
      revert hspec
      rcases Page.deliver event (run.page.nextSubscription + reactions.flatten.length + 1) 0 reactions
        { run.page with pendingNotification := none, pendingKeys := .empty } with ⟨heard, page'⟩
      rintro ⟨hdelivers, hreacted⟩
      have hkeys : page'.pendingKeys = .empty := hreacted.keys
      have hnotification : page'.pendingNotification = none := hreacted.notification
      rw [hwaits.1]
      refine ⟨hreacted.numbered hnumbered, h.inbox, fun _ hmem => (nomatch hmem), fun _ => ?_,
        fun _ => ⟨rfl, rfl⟩, fun event' hevent' => ?_, ?_⟩
      · dsimp only [PageRun.noteDelivery]
        rw [hkeys]
        exact mergedFrom_empty
      · dsimp only [PageRun.noteDelivery] at hevent'
        rw [hnotification] at hevent'
        nomatch hevent'
      · intro delivery hmem
        rcases List.mem_append.mp hmem with hold | hnew
        · exact h.deliveries delivery hold
        · rw [List.mem_singleton.mp hnew]
          exact h.goodDelivery hpending hdelivers

/-- A message whose keys the page can merge with those it holds. -/
def Fits (run : PageRun ν) (message : Message ν) : Prop :=
  run.page.closed = false → message.1.event = .tablesChanged → run.resynced = false →
    AllReadable (run.since.map Prod.fst ++ [message.1.payload])

/-- The page as it stands between noting an event and flushing what it has noted. -/
lemma receive_of_noted {run : PageRun ν} {message : Message ν}
    (hopen : run.page.closed = false) (reactions : List (List Reaction)) {reset : Bool}
    (hreset : (message.1.event = .resync ∨
      run.page.pendingNotification.any TablesChangedEvent.reset = true) ↔ reset = true)
    {merged : Except TypeError Unit × PendingChangedKeys ν}
    (hmerged : merged = if reset then (.ok (), .empty) else
      mergeChangedKeys numbers message.1.payload.tables message.1.payload.keys
        run.page.pendingKeys) :
    run.receive numbers message reactions =
      let page := { run.page with
        revision := max run.page.revision message.1.payload.revision
        pendingKeys := merged.2 }
      match merged.1 with
      | .error _ => (true, PageRun.noteMessage message { run with page })
      | .ok () => (false, PageRun.flush reactions (PageRun.noteMessage message { run with
          page := { page with
            pendingNotification := some (page.noteEvent message.1 reset) } })) := by
  obtain ⟨⟨event, payload⟩, sources⟩ := message
  have hnot : ¬run.page.closed = true := by
    rw [hopen]
    exact Bool.false_ne_true
  have hdecide : decide (event = .resync ∨
      run.page.pendingNotification.any TablesChangedEvent.reset = true) = reset :=
    (Bool.decide_congr hreset).trans Bool.decide_eq_true
  have hmerge : (if event = .resync ∨
      run.page.pendingNotification.any TablesChangedEvent.reset = true then (.ok (), .empty) else
      mergeChangedKeys numbers payload.tables payload.keys run.page.pendingKeys) = merged := by
    rw [hmerged]
    exact if_congr hreset rfl rfl
  rw [PageRun.receive, if_neg hnot, Page.onEvent]
  dsimp only
  rw [hmerge, hdecide]
  rcases merged with ⟨error | _, pendingKeys⟩
  · rfl
  · cases event with
    | tablesChanged => rfl
    | resync => rfl

/-- A page that is to have everything read again, whatever it was told before. -/
lemma PageGood.noteReset {run : PageRun ν} (h : PageGood numbers run)
    {since : List (ApplyOutcome ν × List (EngineOutcome ν))}
    (hsince : ∀ received ∈ since, Represents received.1 received.2) {resynced : Bool}
    (hresynced : resynced = true) (revision : Nat) (event : WorkerEvent ν) (page : Page ν) :
    PageGood numbers { run with
      page := { run.page with
        revision, pendingKeys := .empty, pendingNotification := some (page.noteEvent event true) }
      since, resynced } where
  numbered := ⟨h.numbered.sorted, h.numbered.lt_next⟩
  inbox := h.inbox
  since := hsince
  merged := by
    intro hfalse
    dsimp only at hfalse
    rw [hresynced] at hfalse
    nomatch hfalse
  idle := fun hnone => (nomatch hnone)
  pending := by
    rintro _ ⟨⟩
    have hnot : resynced ≠ false := by
      rw [hresynced]
      exact fun h => (nomatch h)
    exact ⟨hresynced.symm, fun _ => ⟨rfl, rfl⟩, fun h => absurd h hnot, fun h => absurd h hnot⟩
  deliveries := h.deliveries

/-- A page that adds an outcome to what it is to tell of. -/
lemma PageGood.noteChanges {run : PageRun ν} (h : PageGood numbers run)
    (hresynced : run.resynced = false) {payload : ApplyOutcome ν}
    {sources : List (EngineOutcome ν)} (hpayload : Represents payload sources)
    {pendingKeys : PendingChangedKeys ν}
    (hmerged : MergedFrom numbers (run.since.map Prod.fst ++ [payload]) pendingKeys)
    (revision : Nat) :
    PageGood numbers { run with
      page := { run.page with
        revision, pendingKeys
        pendingNotification := some (Page.noteEvent ⟨.tablesChanged, payload⟩ false
          { run.page with revision, pendingKeys }) }
      since := run.since ++ [(payload, sources)] } where
  numbered := ⟨h.numbered.sorted, h.numbered.lt_next⟩
  inbox := h.inbox
  since := by
    intro received hmem
    rcases List.mem_append.mp hmem with hold | hnew
    · exact h.since received hold
    · rw [List.mem_singleton.mp hnew]
      exact hpayload
  merged := by
    intro _
    rw [List.map_append]
    exact hmerged
  idle := fun hnone => (nomatch hnone)
  pending := by
    rintro _ ⟨⟩
    refine ⟨hresynced.symm, fun htrue => ?_, fun _ table => ?_, fun _ => rfl⟩
    · rw [hresynced] at htrue
      nomatch htrue
    · have hold : table ∈ run.page.pendingNotification.elim [] TablesChangedEvent.tables ↔
          ∃ received ∈ run.since, table ∈ received.1.tables := by
        cases hpending : run.page.pendingNotification with
        | none =>
          rw [(h.idle hpending).1]
          exact ⟨fun hmem => (nomatch hmem), fun ⟨_, hmem, _⟩ => (nomatch hmem)⟩
        | some event => exact (h.pending event hpending).tables hresynced table
      simp only [Page.noteEvent, Bool.false_eq_true, if_false, mem_distinct, List.mem_append, hold,
        List.mem_singleton, or_and_right, exists_or, exists_eq_left]
  deliveries := h.deliveries

/-- A page takes a message without throwing exactly where its keys can be read, and then stays good. -/
lemma PageGood.receive {run : PageRun ν} (h : PageGood numbers run) {message : Message ν}
    (hmessage : message.1.event = .tablesChanged → Represents message.1.payload message.2)
    (reactions : List (List Reaction)) :
    (Fits run message → (run.receive numbers message reactions).1 = false ∧
      PageGood numbers (run.receive numbers message reactions).2) ∧
    (¬Fits run message → (run.receive numbers message reactions).1 = true) := by
  by_cases hclosed : run.page.closed = true
  · have hdropped : run.receive numbers message reactions = (false, run) := if_pos hclosed
    rw [hdropped]
    refine ⟨fun _ => ⟨rfl, h⟩, fun hnot => absurd (fun hopen => ?_) hnot⟩
    rw [hclosed] at hopen
    nomatch hopen
  rw [Bool.not_eq_true] at hclosed
  have hany : run.page.pendingNotification.any TablesChangedEvent.reset = run.resynced := by
    cases hpending : run.page.pendingNotification with
    | none => exact (h.idle hpending).2.symm
    | some event => exact (h.pending event hpending).reset
  obtain ⟨⟨event, payload⟩, sources⟩ := message
  by_cases hreset : event = .resync ∨ run.resynced = true
  · -- everything is to be read again
    have hprop : (event = .resync ∨
        run.page.pendingNotification.any TablesChangedEvent.reset = true) ↔ true = true := by
      rw [hany]
      exact iff_of_true hreset rfl
    have hfits : Fits run (⟨event, payload⟩, sources) := by
      intro _ hevent hresynced
      rcases hreset with rfl | htrue
      · nomatch hevent
      · rw [hresynced] at htrue
        nomatch htrue
    rw [receive_of_noted hclosed reactions hprop rfl]
    refine ⟨fun _ => ⟨rfl, PageGood.flush ?_ reactions⟩, fun hnot => absurd hfits hnot⟩
    cases event with
    | resync => exact h.noteReset h.since rfl _ _ _
    | tablesChanged =>
      have hresynced : run.resynced = true := hreset.resolve_left (fun h => (nomatch h))
      refine h.noteReset (fun received hmem => ?_) hresynced _ _ _
      rcases List.mem_append.mp hmem with hold | hnew
      · exact h.since received hold
      · rw [List.mem_singleton.mp hnew]
        exact hmessage rfl
  · rw [not_or, Bool.not_eq_true] at hreset
    obtain ⟨hevent, hresynced⟩ := hreset
    cases event with
    | resync => exact absurd rfl hevent
    | tablesChanged =>
      have hprop : (EventName.tablesChanged = .resync ∨
          run.page.pendingNotification.any TablesChangedEvent.reset = true) ↔ false = true := by
        rw [hany, hresynced]
        exact or_iff_right hevent
      have hmerge := ends_mergeChangedKeys (h.merged hresynced) payload
      rw [receive_of_noted hclosed reactions hprop rfl]
      rcases hended : mergeChangedKeys numbers payload.tables payload.keys run.page.pendingKeys with
        ⟨error | _, pendingKeys⟩
      · have hnot := hmerge.error hended
        rw [if_neg Bool.false_ne_true]
        dsimp only
        exact ⟨fun hfits => absurd (hfits hclosed rfl hresynced) hnot, fun _ => rfl⟩
      · have hmerged := hmerge.ok hended
        rw [if_neg Bool.false_ne_true]
        dsimp only
        refine ⟨fun _ => ⟨rfl, PageGood.flush ?_ reactions⟩,
          fun hnot => absurd (fun _ _ _ table => (hmerged table).1) hnot⟩
        exact h.noteChanges hresynced (hmessage rfl) hmerged _

lemma PageGood.react {run : PageRun ν} (h : PageGood numbers run) (reaction : Reaction) :
    PageGood numbers { run with page := run.page.react reaction } := by
  have hreacted := reacted_react run.page reaction
  constructor
  · exact hreacted.numbered h.numbered
  · exact h.inbox
  · exact h.since
  · intro hresynced
    dsimp only
    rw [hreacted.keys]
    exact h.merged hresynced
  · intro hnone
    dsimp only at hnone
    rw [hreacted.notification] at hnone
    exact h.idle hnone
  · intro event hevent
    dsimp only at hevent ⊢
    rw [hreacted.notification] at hevent
    rw [hreacted.keys]
    exact h.pending event hevent
  · exact h.deliveries

lemma PageGood.transaction {run : PageRun ν} (h : PageGood numbers run) (active : Bool) :
    PageGood numbers { run with page := { run.page with transactionActive := active } } :=
  ⟨⟨h.numbered.sorted, h.numbered.lt_next⟩, h.inbox, h.since, h.merged, h.idle, h.pending,
    h.deliveries⟩

lemma PageGood.finishClose {run : PageRun ν} (h : PageGood numbers run) :
    PageGood numbers { run with page := run.page.finishClose, since := [], resynced := false } :=
  ⟨⟨.nil, fun _ hmem => (nomatch hmem)⟩, h.inbox, fun _ hmem => (nomatch hmem),
    fun _ => mergedFrom_empty, fun _ => ⟨rfl, rfl⟩, fun _ hevent => (nomatch hevent), h.deliveries⟩

/-- A page whose messages are some of these and others that stand for what they tell. -/
lemma PageGood.withInbox {run : PageRun ν} (h : PageGood numbers run) {inbox : List (Message ν)}
    (hinbox : ∀ message ∈ inbox, message ∈ run.inbox ∨ (message.1.event = .tablesChanged →
      Represents message.1.payload message.2)) : PageGood numbers { run with inbox } := by
  refine ⟨h.numbered, fun message hmem => ?_, h.since, h.merged, h.idle, h.pending, h.deliveries⟩
  rcases hinbox message hmem with hold | hnew
  · exact h.inbox message hold
  · exact hnew

/-! ## The system -/

structure SystemGood (numbers : NumberText ν) (s : System π ν) : Prop where
  host : HostGood s.host s.groups
  pages : ∀ p, PageGood numbers (s.pages p)
  threw : s.threw = false

/-- No merge has thrown, and every delivery was as it should be. -/
def Holds (s : System π ν) : Prop :=
  s.threw = false ∧ ∀ p, ∀ delivery ∈ (s.pages p).deliveries, GoodDelivery delivery

omit [DecidableEq ν] in
lemma hostGood_start : HostGood (Host.start : Host ν) [] :=
  ⟨.nil, fun _ => ⟨fun h => (nomatch h), fun ⟨_, h, _⟩ => (nomatch h)⟩⟩

lemma systemGood_start : SystemGood numbers (System.start : System π ν) :=
  ⟨hostGood_start, fun _ => pageGood_start, rfl⟩

omit [DecidableEq ν] in
lemma HostGood.emit {s : System π ν} (h : HostGood s.host s.groups) (outcome : EngineOutcome ν) :
    HostGood (s.emit outcome).host (s.emit outcome).groups :=
  h.emitInvalidation (represents_parsed outcome)

variable [DecidableEq π]

omit [DecidableEq ν] in
lemma pages_onPage {P : PageRun ν → Prop} {s : System π ν} (h : ∀ p, P (s.pages p)) {p : π}
    {change : PageRun ν → PageRun ν} (hchange : P (change (s.pages p))) :
    ∀ q, P ((s.onPage p change).pages q) := by
  intro q
  dsimp only [System.onPage]
  by_cases hq : q = p
  · subst hq
    rw [Function.update_self]
    exact hchange
  · rw [Function.update_of_ne hq]
    exact h q

/-- A step throws exactly where it is not fine, and otherwise leaves all good. -/
lemma SystemGood.step {s : System π ν} (h : SystemGood numbers s) (a : Action π ν) :
    (s.Fine a → SystemGood numbers (s.step numbers a)) ∧
      (¬s.Fine a → (s.step numbers a).threw = true) := by
  have hfine : ∀ {s' : System π ν}, s.Fine a → SystemGood numbers s' →
      (s.Fine a → SystemGood numbers s') ∧ (¬s.Fine a → s'.threw = true) :=
    fun hfine hgood => ⟨fun _ => hgood, fun hnot => absurd hfine hnot⟩
  have honPage : ∀ (p : π) (change : PageRun ν → PageRun ν),
      PageGood numbers (change (s.pages p)) → SystemGood numbers (s.onPage p change) :=
    fun p change hchange => ⟨h.host, pages_onPage h.pages hchange, h.threw⟩
  cases a with
  | executed result =>
    refine hfine trivial ?_
    cases result with
    | none => exact ⟨h.host, h.pages, h.threw⟩
    | some outcome =>
      exact ⟨h.host.emitUnlessInTransaction (represents_parsed outcome), h.pages, h.threw⟩
  | execSql results =>
    have hspec := @execSql_spec ν _ numbers _ _ h.host results
    rw [System.step]
    cases hran : s.host.execSql numbers (results.map EngineOutcome.parsed) with
    | error e =>
      rw [hran] at hspec
      exact ⟨fun hall => absurd hall hspec, fun _ => rfl⟩
    | ok host =>
      rw [hran] at hspec
      exact ⟨fun _ => ⟨hspec.2, h.pages, h.threw⟩, fun hnot => absurd hspec.1 hnot⟩
  | setSchema outcome =>
    refine hfine trivial ?_
    rw [System.step]
    split
    · exact h
    · exact ⟨h.host.emit outcome, h.pages, h.threw⟩
  | beginTransaction => exact hfine trivial ⟨⟨h.host.represents, h.host.tables⟩, h.pages, h.threw⟩
  | commitTransaction outcome =>
    refine hfine trivial ?_
    rw [System.step]
    split
    · have hemitted := h.host.emit outcome
      exact ⟨⟨hemitted.represents, hemitted.tables⟩, h.pages, h.threw⟩
    · exact h
  | rollbackTransaction =>
    exact hfine trivial ⟨⟨h.host.represents, h.host.tables⟩, h.pages, h.threw⟩
  | announce =>
    have hspec := @announce_spec ν _ numbers _ _ h.host
    rw [System.step]
    cases hscheduled : s.host.invalidationScheduled with
    | false =>
      rw [if_neg Bool.false_ne_true]
      refine hfine (fun htrue => ?_) h
      rw [hscheduled] at htrue
      nomatch htrue
    | true =>
      rw [if_pos rfl]
      rcases hmade : s.host.announce numbers with ⟨e | event, host⟩
      · rw [hmade] at hspec
        exact ⟨fun hall => absurd (hall hscheduled hspec.1) hspec.2, fun _ => rfl⟩
      · rw [hmade] at hspec
        cases event with
        | none => exact hfine (fun _ => hspec.1) ⟨hspec.2, h.pages, h.threw⟩
        | some event =>
          obtain ⟨hreads, hname, hrepresents, hhost⟩ := hspec
          refine hfine (fun _ _ => hreads) ⟨hhost, fun p => ?_, h.threw⟩
          refine (h.pages p).withInbox (fun message hmem => ?_)
          refine (List.mem_append.mp hmem).imp id (fun hnew _ => ?_)
          rw [List.mem_singleton.mp hnew]
          exact hrepresents.structuredClone
  | closeHost => exact hfine trivial ⟨⟨h.host.represents, h.host.tables⟩, h.pages, h.threw⟩
  | startHost => exact hfine trivial ⟨hostGood_start, h.pages, h.threw⟩
  | resync p revision =>
    refine hfine trivial ?_
    rw [System.step]
    refine honPage p _ ((h.pages p).withInbox (fun message hmem => ?_))
    refine (List.mem_append.mp hmem).imp id (fun hnew hchanged => ?_)
    rw [List.mem_singleton.mp hnew] at hchanged
    nomatch hchanged
  | lose p =>
    refine hfine trivial ?_
    rw [System.step]
    refine honPage p _ ((h.pages p).withInbox (fun message hmem => ?_))
    exact .inl (List.mem_of_mem_tail hmem)
  | receive p reactions =>
    rw [System.step]
    cases hinbox : (s.pages p).inbox with
    | nil =>
      refine hfine (fun message inbox hcons => ?_) h
      rw [hinbox] at hcons
      nomatch hcons
    | cons message inbox =>
      have hmessage := (h.pages p).inbox message (by rw [hinbox]; exact List.mem_cons_self)
      have hgood : PageGood numbers { s.pages p with inbox } :=
        (h.pages p).withInbox (fun other hmem => .inl (by
          rw [hinbox]
          exact List.mem_cons_of_mem _ hmem))
      obtain ⟨hfits, hthrows⟩ := hgood.receive hmessage reactions
      have hiff : s.Fine (.receive p reactions) ↔ Fits { s.pages p with inbox } message := by
        constructor
        · exact fun hall => hall message inbox hinbox
        · intro hfit other rest hcons
          rw [hinbox] at hcons
          rw [← (List.cons.inj hcons).1]
          exact hfit
      dsimp only
      rw [hiff]
      constructor
      · intro hfit
        obtain ⟨hquiet, hnext⟩ := hfits hfit
        refine ⟨h.host, ?_, ?_⟩
        · exact @pages_onPage π ν _ (PageGood numbers) s h.pages p (fun _ => _) hnext
        · dsimp only
          rw [hquiet, h.threw]
          rfl
      · intro hnot
        rw [hthrows hnot]
        exact Bool.or_true _
  | flush p reactions =>
    refine hfine trivial ?_
    rw [System.step]
    exact honPage p _ ((h.pages p).flush reactions)
  | react p reaction =>
    refine hfine trivial ?_
    rw [System.step]
    exact honPage p _ ((h.pages p).react reaction)
  | begin p =>
    refine hfine trivial ?_
    rw [System.step]
    exact honPage p _ ((h.pages p).transaction true)
  | finish p =>
    refine hfine trivial ?_
    rw [System.step]
    exact honPage p _ ((h.pages p).transaction false)
  | finishClose p =>
    refine hfine trivial ?_
    rw [System.step]
    exact honPage p _ (h.pages p).finishClose

lemma System.Reaches.good {s : System π ν} (h : System.Reaches numbers s) :
    SystemGood numbers s := by
  induction h with
  | start => exact systemGood_start
  | step a _ hfine ih => exact (ih.step a).1 hfine

/-- Over runs whose steps can all read the keys they merge, no merge throws and every delivery is as it
should be; and the first step that cannot throws. -/
theorem notifications_sound_and_complete {s : System π ν} (h : System.Reaches numbers s) :
    Holds s ∧ ∀ a : Action π ν, ¬s.Fine a → (s.step numbers a).threw = true := by
  have hgood := h.good
  exact ⟨⟨hgood.threw, fun p => (hgood.pages p).deliveries⟩, fun a => (hgood.step a).2⟩

end

/-! ## Runs that can and cannot read their keys -/

/-- Numbers as JSON writes them, for keys that are natural numbers. -/
def decimal : NumberText Nat where
  text n := JsonText.unitsOf (Structured.Json.format n)
  isNumber n := (Structured.Json.isNumber_format n).1
  injective := by
    intro m n h
    have hchars : Nat.toDigits 10 m = Nat.toDigits 10 n :=
      (Utf16.scalars_flatMap_units _).symm.trans
        ((congrArg Utf16.scalars h).trans (Utf16.scalars_flatMap_units _))
    rw [← @Nat.ofDigitChars_ten_toDigits m, hchars, Nat.ofDigitChars_ten_toDigits]

lemma allReadable_of_all {ν : Type} [DecidableEq ν] {outcomes : List (ApplyOutcome ν)}
    (h : (outcomes.all fun outcome => outcome.tables.all fun table =>
      !(outcome.keys.get table).isOther) = true) : AllReadable outcomes := by
  intro table i hi
  rw [Option.any_eq_true] at hi
  obtain ⟨report, hreport, hother⟩ := hi
  obtain ⟨outcome, houtcome, htable, rfl⟩ :=
    mem_reports.mp (List.mem_of_getElem? (Option.mem_def.mp hreport))
  have hnot := List.all_eq_true.mp (List.all_eq_true.mp h outcome houtcome) table htable
  rw [hother] at hnot
  nomatch hnot

/-- One row of a table is changed, and a page that listens is told. -/
def told : System Unit Nat :=
  [Action.react () (.subscribe none),
    .executed (some ⟨1, ["items"], InsertionMap.empty.set "items" [[("id", .number 7)]]⟩),
    .announce, .receive () []].foldl (System.step decimal) .start

lemma reaches_told : System.Reaches decimal told := by
  have hstart : System.Reaches decimal (System.start : System Unit Nat) := .start
  have hlistens := hstart.step (.react () (.subscribe none)) trivial
  have hchanges := hlistens.step (.executed (some
    ⟨1, ["items"], InsertionMap.empty.set "items" [[("id", .number 7)]]⟩)) trivial
  have hannounces := hchanges.step .announce (fun _ _ => allReadable_of_all rfl)
  refine hannounces.step (.receive () []) ?_
  rintro message inbox hinbox - - -
  rw [← (List.cons.inj hinbox).1]
  exact allReadable_of_all rfl

theorem notifications_sound_and_complete_told :
    Holds told ∧ (told.pages ()).deliveries.map
      (fun delivery => (delivery.event.tables, delivery.heard.length)) = [(["items"], 1)] :=
  ⟨(notifications_sound_and_complete reaches_told).1, rfl⟩

/-- A table named `constructor` is created, which reports the table as changed and lists no keys. -/
theorem not_always_sound_and_complete : ¬∀ actions : List (Action Unit Nat),
    Holds (actions.foldl (System.step decimal) .start) := by
  intro h
  have hthrew := (h [.executed (some ⟨1, ["constructor"], .empty⟩), .announce]).1
  exact Bool.noConfusion hthrew

end Changes
end TinyJoin
