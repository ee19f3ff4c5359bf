import TinyJoin.CacheOperations

/-! Publishing a candidate: its dirty pages written in runs, the device flushed, and its pages
installed as the committed view. -/
namespace TinyJoin
open PageDevice PageCache

section
variable {D : Type} [PageDevice D] {P : D → Prop} {cache : PageCache D} {m : PlainMap}

/-- The entry of a candidate's page once it belongs to the committed view. -/
def CacheEntry.installed (e : CacheEntry) : CacheEntry :=
  { e with owner := .committed, referenced := true }

/-- What re-keying the pages `ids` of a candidate leaves. -/
structure Rekeyed (cache : PageCache D) (candidate : Nat) (ids : List Nat) (c : PageCache D) :
    Prop where
  device : c.device = cache.device
  reservations : c.reservations = cache.reservations
  capacity : c.capacity = cache.capacity
  indexed : Indexed.Holds CacheEntry.key c.entries c.lookup
  length : c.entries.length = cache.entries.length
  hand : c.hand = cache.hand
  only : ∀ e ∈ c.entries,
    (e ∈ cache.entries ∧ ¬(e.owner = .candidate candidate ∧ e.id ∈ ids)) ∨
      ∃ f ∈ cache.entries, f.owner = .candidate candidate ∧ f.id ∈ ids ∧ e = f.installed
  kept : ∀ e ∈ cache.entries, e.owner ≠ .candidate candidate → e ∈ c.entries

omit [PageDevice D] in
lemma rekeyed_one (hidx : Indexed.Holds CacheEntry.key cache.entries cache.lookup)
    {candidate id : Nat} (hnone : cache.lookup.lookup (.committed, id) = none) :
    Rekeyed cache candidate [id] (rekey candidate id cache) := by
  rw [rekey]
  cases hlook : cache.lookup.lookup (.candidate candidate, id) with
  | none =>
    refine ⟨rfl, rfl, rfl, hidx, rfl, rfl, ?_, fun e he _ => he⟩
    intro e he
    refine Or.inl ⟨he, ?_⟩
    rintro ⟨howner, hid⟩
    refine hidx.lookup_eq_none_iff.mp hlook e he ?_
    rw [CacheEntry.key, howner, List.mem_singleton.mp hid]
  | some index =>
    obtain ⟨f, hf, hkey⟩ := hidx.getElem? hlook
    have howner : f.owner = .candidate candidate := congrArg Prod.fst hkey
    have hid : f.id = id := congrArg Prod.snd hkey
    dsimp only
    rw [hf]
    have hnew : f.installed.key = (.committed, id) := by
      rw [CacheEntry.key, CacheEntry.installed, hid]
    have hholds := hidx.replace hf (Or.inr (by rw [hnew]; exact hnone))
    rw [hkey, hnew] at hholds
    refine ⟨rfl, rfl, rfl, hholds, List.length_set, rfl, ?_, ?_⟩
    · intro e he
      obtain ⟨j, hj⟩ := List.mem_iff_getElem?.mp he
      rw [List.getElem?_set] at hj
      split at hj
      · rw [if_pos (List.getElem?_eq_some_iff.mp hf).1, Option.some.injEq] at hj
        exact Or.inr ⟨f, List.mem_of_getElem? hf, howner, by rw [hid]; exact List.mem_cons_self,
          hj.symm⟩
      · next hne =>
        refine Or.inl ⟨List.mem_of_getElem? hj, ?_⟩
        rintro ⟨heowner, heid⟩
        refine hne (hidx.index_unique hf hj ?_)
        rw [hkey, CacheEntry.key, heowner, List.mem_singleton.mp heid]
    · intro e he hother
      obtain ⟨j, hj⟩ := List.mem_iff_getElem?.mp he
      have hne : index ≠ j := by
        rintro rfl
        rw [hf, Option.some.injEq] at hj
        exact hother (hj ▸ howner)
      exact List.mem_of_getElem? ((List.getElem?_set_ne hne).trans hj)

omit [PageDevice D] in
lemma rekeyed_all (hidx : Indexed.Holds CacheEntry.key cache.entries cache.lookup)
    {candidate : Nat} {l : List (Nat × Bool)} (hnodup : (l.map Prod.fst).Nodup)
    (hnone : ∀ entry ∈ l, cache.lookup.lookup (.committed, entry.1) = none) :
    Rekeyed cache candidate (l.map Prod.fst)
      (l.foldl (fun cache entry => rekey candidate entry.1 cache) cache) := by
  induction l generalizing cache with
  | nil => exact ⟨rfl, rfl, rfl, hidx, rfl, rfl, fun e he => Or.inl ⟨he, by simp⟩, fun e he _ => he⟩
  | cons entry l ih =>
    rw [List.map_cons, List.nodup_cons] at hnodup
    have hone := @rekeyed_one D cache hidx candidate entry.1 (hnone entry List.mem_cons_self)
    have hrest := ih hone.indexed hnodup.2 (by
      intro other hother
      have hne : other.1 ≠ entry.1 := fun heq => hnodup.1 (heq ▸ List.mem_map_of_mem hother)
      rw [hone.indexed.lookup_eq_none_iff]
      intro e he hkey
      rcases hone.only e he with ⟨he, -⟩ | ⟨f, -, -, hfid, rfl⟩
      · exact hidx.lookup_eq_none_iff.mp (hnone other (List.mem_cons_of_mem _ hother)) e he hkey
      · have hid : f.id = other.1 := congrArg Prod.snd hkey
        exact hne (hid.symm.trans (List.mem_singleton.mp hfid)))
    refine ⟨hrest.device.trans hone.device, hrest.reservations.trans hone.reservations,
      hrest.capacity.trans hone.capacity, hrest.indexed, hrest.length.trans hone.length,
      hrest.hand.trans hone.hand, ?_,
      fun e he hother => hrest.kept e (hone.kept e he hother) hother⟩
    intro e he
    rcases hrest.only e he with ⟨he, hnot⟩ | ⟨f, hf, hfowner, hfid, rfl⟩
    · rcases hone.only e he with ⟨he, hnot'⟩ | ⟨g, hg, hgowner, hgid, rfl⟩
      · refine Or.inl ⟨he, ?_⟩
        rintro ⟨howner, hid⟩
        rcases List.mem_cons.mp hid with heq | hid
        · exact hnot' ⟨howner, by rw [heq]; exact List.mem_cons_self⟩
        · exact hnot ⟨howner, hid⟩
      · refine Or.inr ⟨g, hg, hgowner, ?_, rfl⟩
        rw [List.mem_singleton.mp hgid]
        exact List.mem_cons_self
    · rcases hone.only f hf with ⟨hf, -⟩ | ⟨g, -, -, -, rfl⟩
      · exact Or.inr ⟨f, hf, hfowner, List.mem_cons_of_mem _ hfid, rfl⟩
      · cases hfowner

/-- Forgetting cached committed pages one after another. -/
lemma represents_removeAll (ids : List Nat) (h : Represents P cache m) :
    let c := ids.foldl (fun cache id => removeEntry (.committed, id) cache) cache
    Represents P c m ∧ c.device = cache.device ∧ c.reservations = cache.reservations ∧
      ∀ e, e ∈ c.entries ↔ e ∈ cache.entries ∧ ∀ id ∈ ids, e.key ≠ (.committed, id) := by
  induction ids generalizing cache with
  | nil => exact ⟨h, rfl, rfl, fun e => by simp⟩
  | cons id ids ih =>
    have hrem := removed_removeEntry h.indexed h.hand (.committed, id)
    obtain ⟨hrep, hdev, hres, hmem⟩ := ih (represents_removeCommitted h id)
    refine ⟨hrep, hdev.trans hrem.device, hres.trans hrem.reservations, ?_⟩
    intro e
    rw [List.foldl_cons, hmem e, hrem.mem e]
    simp only [List.mem_cons, forall_eq_or_imp]
    tauto

/-- Nothing a candidate cached is dirty, so all it wrote is on the device, sealed. -/
lemma Represents.clean_candidate (h : Represents P cache m) {candidate : Nat}
    (hclean : cache.hasDirtyPages candidate = false) :
    (∀ e ∈ cache.entries, e.owner = .candidate candidate → e.dirty = false) ∧
      ∀ id page, m.reserved id = some (candidate, some page) →
        (pages cache.device)[id]? = some (sealPage page) := by
  have hentry : ∀ e ∈ cache.entries, e.owner = .candidate candidate → e.dirty = false := by
    intro e he howner
    have hshow := h.shown e he
    rw [Shows, howner] at hshow
    obtain ⟨page, hr, -⟩ := hshow
    obtain ⟨index, hindex⟩ := List.mem_iff_getElem?.mp he
    have hlook := h.indexed.lookup_key hindex
    rw [CacheEntry.key, howner] at hlook
    have hmem := (mem_candidateIds h candidate e.id true).mpr ⟨some page, hr, rfl⟩
    have hno := List.any_eq_false.mp hclean _ hmem
    simpa [hlook, hindex] using hno
  refine ⟨hentry, ?_⟩
  intro id page hr
  rcases h.held id candidate page hr with hat | ⟨e, he, hkey, hdirty⟩
  · exact hat
  · rw [hentry e he (congrArg Prod.fst hkey)] at hdirty
    cases hdirty

lemma Represents.not_dirty (h : Represents P cache m) {candidate : Nat}
    (hclean : ∀ e ∈ cache.entries, e.owner = .candidate candidate → e.dirty = false) :
    cache.hasDirtyPages candidate = false := by
  rw [hasDirtyPages, List.any_eq_false]
  intro entry _
  rcases hlook : cache.lookup.lookup (.candidate candidate, entry.1) with _ | index
  · simp [hlook]
  · obtain ⟨e, he, hkey⟩ := h.indexed.getElem? hlook
    simp [hlook, he, hclean e (List.mem_of_getElem? he) (congrArg Prod.fst hkey)]

/-- The pages a commit may publish: those already allocated and those its candidate reserved. -/
def PlainMap.Publishable (m : PlainMap) (candidate : Nat) (next : AllocationBitmap) : Prop :=
  ∀ id, next.allocates id = true →
    m.active.allocates id = true ∨ ∃ old, m.reserved id = some (candidate, old)

/-- The cache once a candidate's pages are the committed view. -/
def installedCache (candidate : Nat) (activeBitmap nextBitmap : AllocationBitmap)
    (cache : PageCache D) : PageCache D :=
  let removed := (activeBitmap.allocatedSince nextBitmap (pageCount cache.device)).foldl
    (fun cache id => removeEntry (.committed, id) cache) cache
  let rekeyed := (removed.candidateIds candidate).foldl
    (fun cache entry => rekey candidate entry.1 cache) removed
  { rekeyed with
    reservations := Indexed.retain rekeyed.reservations
      (fun _ reservation => reservation.candidate ≠ candidate) }

lemma represents_install (h : Represents P cache m) {candidate : Nat} {next : AllocationBitmap}
    (hpub : m.Publishable candidate next) (hclean : cache.hasDirtyPages candidate = false)
    (hwritten : ∀ id, m.reserved id ≠ some (candidate, none))
    (hnext : ∀ id old, m.reserved id = some (candidate, old) → next.allocates id = true) :
    Represents P (installedCache candidate m.active next cache) (m.install candidate next) ∧
      (installedCache candidate m.active next cache).device = cache.device ∧
      ∀ e ∈ (installedCache candidate m.active next cache).entries, e.owner = .committed →
        ∃ f ∈ cache.entries, f.id = e.id ∧ f.bytes = e.bytes ∧
          (f.owner = .committed ∨ f.owner = .candidate candidate ∧ f.dirty = false) := by
  obtain ⟨hentry, hdevice⟩ := h.clean_candidate hclean
  rw [installedCache]
  obtain ⟨h₁, hdev₁, hres₁, hmem₁⟩ := represents_removeAll
    (m.active.allocatedSince next (pageCount cache.device)) h
  generalize (m.active.allocatedSince next (pageCount cache.device)).foldl
    (fun cache id => removeEntry (.committed, id) cache) cache = c₁ at h₁ hdev₁ hres₁ hmem₁
  dsimp only
  have hids : ∀ id, id ∈ (c₁.candidateIds candidate).map Prod.fst ↔
      ∃ old, m.reserved id = some (candidate, old) := by
    intro id
    rw [List.mem_map]
    constructor
    · rintro ⟨⟨i, w⟩, hmem, rfl⟩
      obtain ⟨old, hr, -⟩ := (mem_candidateIds h₁ _ _ _).mp hmem
      exact ⟨old, hr⟩
    · rintro ⟨old, hr⟩
      exact ⟨(id, old.isSome), (mem_candidateIds h₁ _ _ _).mpr ⟨old, hr, rfl⟩, rfl⟩
  have hkey := @rekeyed_all D c₁ h₁.indexed candidate (c₁.candidateIds candidate)
    (nodup_candidateIds c₁ candidate) (by
      intro entry hmem
      obtain ⟨old, hr, -⟩ := (mem_candidateIds h₁ candidate entry.1 entry.2).mp hmem
      exact h₁.lookup_committed (h.fresh _ _ hr).2.2)
  generalize (c₁.candidateIds candidate).foldl
    (fun cache entry => rekey candidate entry.1 cache) c₁ = c₂ at hkey
  -- a candidate's page is neither committed before nor free afterwards
  have hmine : ∀ id page, m.reserved id = some (candidate, some page) →
      (m.install candidate next).committed id = some (sealPage page) := by
    intro id page hr
    rw [PlainMap.install]
    dsimp only
    rw [if_pos ⟨(h.fresh _ _ hr).1, hnext id _ hr⟩, hr]
  have hnotmine : ∀ id page, m.committed id = some page → next.allocates id = true →
      (m.install candidate next).committed id = some page := by
    intro id page hpage hin
    have hlow := ((h.domain id).mp (by rw [hpage]; rfl)).1
    have hfree : m.reserved id = none := by
      cases hr : m.reserved id with
      | none => rfl
      | some r =>
        rw [h.not_committed_of_reserved hr] at hpage
        cases hpage
    rw [PlainMap.install]
    dsimp only
    rw [if_pos ⟨hlow, hin⟩, hfree]
    exact hpage
  -- every entry left is committed, or another candidate's
  have hentries : ∀ e ∈ c₂.entries, Shows (m.install candidate next) e ∧
      (e.owner = .committed → ∃ f ∈ cache.entries, f.id = e.id ∧ f.bytes = e.bytes ∧
        (f.owner = .committed ∨ f.owner = .candidate candidate ∧ f.dirty = false)) := by
    intro e he
    rcases hkey.only e he with ⟨he, hnot⟩ | ⟨f, hf, hfowner, -, rfl⟩
    · obtain ⟨he, hkept⟩ := (hmem₁ e).mp he
      have hshow := h.shown e he
      cases howner : e.owner with
      | committed =>
        rw [Shows, howner] at hshow
        refine ⟨?_, fun _ => ⟨e, he, rfl, rfl, Or.inl howner⟩⟩
        rw [Shows, howner]
        refine ⟨hshow.1, hshow.2.1, hnotmine _ _ hshow.2.2 ?_⟩
        by_contra hout
        refine hkept e.id (AllocationBitmap.mem_allocatedSince.mpr ⟨?_, ?_, ?_⟩) ?_
        · exact Represents.lt_pageCount (h.stored _ _ hshow.2.2)
        · exact ((h.domain e.id).mp (by rw [hshow.2.2]; rfl)).2
        · simpa using hout
        · rw [CacheEntry.key, howner]
      | candidate k =>
        rw [Shows, howner] at hshow
        obtain ⟨page, hr, hrest⟩ := hshow
        refine ⟨?_, fun hc => absurd hc (by simp)⟩
        rw [Shows, howner]
        refine ⟨page, ?_, hrest⟩
        have hk : k ≠ candidate := by
          rintro rfl
          exact hnot ⟨howner, (hids e.id).mpr ⟨_, hr⟩⟩
        rw [PlainMap.install, PlainMap.invalidate]
        dsimp only
        rw [hr, Option.filter_some, if_pos (by simpa using hk)]
    · have hf₀ := ((hmem₁ f).mp hf).1
      have hshow := h.shown f hf₀
      rw [Shows, hfowner] at hshow
      obtain ⟨page, hr, hbytes, hdirty⟩ := hshow
      have hclean := hentry f hf₀ hfowner
      have hsealed : f.unsealed = false := by
        cases hu : f.unsealed with
        | false => rfl
        | true =>
          rw [hdirty hu] at hclean
          cases hclean
      refine ⟨⟨hclean, hsealed, ?_⟩, fun _ => ⟨f, hf₀, rfl, rfl, Or.inr ⟨hfowner, hclean⟩⟩⟩
      rw [hsealed] at hbytes
      rw [CacheEntry.installed]
      dsimp only
      rw [hbytes]
      exact hmine _ _ hr
  have hdev : c₂.device = cache.device := hkey.device.trans hdev₁
  refine ⟨⟨?_, hkey.indexed, ?_, ?_, ?_, ?_, ?_, ?_, ?_, ?_, ?_, fun e he => (hentries e he).1, ?_⟩,
    hdev, fun e he => (hentries e he).2⟩
  · exact hdev ▸ h.dense
  · rw [hkey.length, hkey.capacity]
    exact h₁.bounded
  · rw [hkey.capacity]
    exact h₁.room
  · rw [hkey.hand, hkey.length]
    exact h₁.hand
  · intro id
    rw [Indexed.lookup_retain, hkey.reservations, h₁.reservations, PlainMap.install,
      PlainMap.invalidate]
    dsimp only
    cases hr : m.reserved id with
    | none => rfl
    | some r =>
      rw [Option.map_some, Option.filter_some, Option.filter_some]
      split <;> rfl
  · intro i j r r' hi hj
    exact h.single i j r r' (PlainMap.invalidate_reserved.mp hi).1
      (PlainMap.invalidate_reserved.mp hj).1
  · intro id r hr
    obtain ⟨hr, hother⟩ := PlainMap.invalidate_reserved.mp hr
    obtain ⟨hlow, hmax, hfree⟩ := h.fresh id r hr
    refine ⟨hlow, hmax, ?_⟩
    by_contra hin
    rcases hpub id (Bool.eq_true_of_not_eq_false hin) with hactive | ⟨old, hmine⟩
    · rw [hfree] at hactive
      cases hactive
    · rw [hr, Option.some.injEq] at hmine
      exact hother (by rw [hmine])
  · intro id
    constructor
    · intro hsome
      rw [PlainMap.install] at hsome
      dsimp only at hsome
      split at hsome
      · assumption
      · cases hsome
    · rintro ⟨hlow, hin⟩
      rcases hpub id hin with hactive | ⟨old, hr⟩
      · obtain ⟨page, hpage⟩ := Option.isSome_iff_exists.mp ((h.domain id).mpr ⟨hlow, hactive⟩)
        rw [hnotmine id page hpage hin]
        rfl
      · cases old with
        | none => exact absurd hr (hwritten id)
        | some page =>
          rw [hmine id page hr]
          rfl
  · rw [hdev]
    exact h.metadata
  · intro id page hpage
    rw [hdev]
    rw [PlainMap.install] at hpage
    dsimp only at hpage
    split at hpage
    · next hin =>
      rcases hpub id hin.2 with hactive | ⟨old, hr⟩
      · have hfree : m.reserved id = none := by
          cases hr : m.reserved id with
          | none => rfl
          | some r =>
            rw [(h.fresh id r hr).2.2] at hactive
            cases hactive
        rw [hfree] at hpage
        exact h.stored id page hpage
      · cases old with
        | none => exact absurd hr (hwritten id)
        | some last =>
          rw [hr, Option.some.injEq] at hpage
          rw [← hpage]
          exact hdevice id last hr
    · cases hpage
  · intro id k page hr
    obtain ⟨hr, hother⟩ := PlainMap.invalidate_reserved.mp hr
    rw [hdev]
    rcases h.held id k page hr with hat | ⟨e, he, hekey, hdirty⟩
    · exact Or.inl hat
    · refine Or.inr ⟨e, hkey.kept e ((hmem₁ e).mpr ⟨he, ?_⟩) ?_, hekey, hdirty⟩
      · rw [hekey]
        intro _ _ heq
        cases congrArg Prod.fst heq
      · rw [show e.owner = .candidate k from congrArg Prod.fst hekey]
        exact fun heq => hother (Owner.candidate.inj heq)

/-- What installing a candidate checks. -/
def Installable (cache : PageCache D) (m : PlainMap) (candidate : Nat) (next : AllocationBitmap) :
    Prop :=
  cache.hasDirtyPages candidate = false ∧ .candidate candidate ∉ cache.unflushedOwners ∧
    (∀ id, m.reserved id ≠ some (candidate, none)) ∧
    ∀ id old, m.reserved id = some (candidate, old) → next.allocates id = true

lemma ends_installCandidate (h : Represents P cache m) {candidate : Nat}
    {next : AllocationBitmap} :
    (installCandidate candidate m.active next).Ends cache
      (fun _ c => c = installedCache candidate m.active next cache ∧
        Installable cache m candidate next)
      (fun _ c => c = cache ∧ ¬Installable cache m candidate next) := by
  rw [installCandidate, Effect.ends_bind, Effect.ends_get]
  by_cases hflushed : cache.hasDirtyPages candidate = true ∨
      cache.unflushedOwners.contains (.candidate candidate) = true
  · rw [if_pos hflushed]
    refine ⟨rfl, fun hok => ?_⟩
    rcases hflushed with hdirty | hunflushed
    · rw [hok.1] at hdirty
      cases hdirty
    · exact hok.2.1 (List.contains_iff_mem.mp hunflushed)
  rw [if_neg hflushed, if_neg]
  · have hclean : cache.hasDirtyPages candidate = false := by
      simpa using (not_or.mp hflushed).1
    have hsynced : .candidate candidate ∉ cache.unflushedOwners :=
      fun hmem => (not_or.mp hflushed).2 (List.contains_iff_mem.mpr hmem)
    rcases hfind : (cache.candidateIds candidate).find? (fun entry => !entry.2) with _ | entry
    · have hwritten : ∀ id, m.reserved id ≠ some (candidate, none) := by
        intro id hr
        have hmem := (mem_candidateIds h candidate id false).mpr ⟨none, hr, rfl⟩
        exact List.find?_eq_none.mp hfind _ hmem rfl
      simp only [hfind]
      rw [Effect.ends_bind]
      refine (@Effect.ends_forEach_all _ _ _ _ _ (fun c => c = cache)
        (fun entry => next.allocates entry.1 = true)
        (fun _ c => c = cache ∧ ¬Installable cache m candidate next) _ rfl ?_).mono ?_
        (fun _ _ he => he)
      · rintro ⟨id, written⟩ hmem _ rfl
        obtain ⟨old, hr, -⟩ := (mem_candidateIds h candidate id written).mp hmem
        rw [AllocationBitmap.isAllocated_of_lt _ (h.fresh id _ hr).2.1, Effect.ends_bind,
          Effect.ends_ofExcept_ok]
        by_cases hin : next.allocates id = true
        · rw [if_neg (not_not.mpr hin)]
          exact ⟨rfl, hin⟩
        · rw [if_pos hin]
          exact ⟨rfl, fun hok => hin (hok.2.2.2 id old hr)⟩
      · rintro _ _ ⟨rfl, hnext⟩
        refine ⟨rfl, hclean, hsynced, hwritten, ?_⟩
        intro id old hr
        exact hnext (id, old.isSome) ((mem_candidateIds h candidate id _).mpr ⟨old, hr, rfl⟩)
    · have hunwritten := List.find?_some hfind
      obtain ⟨old, hr, hold⟩ := (mem_candidateIds h candidate entry.1 entry.2).mp
        (List.mem_of_find?_eq_some hfind)
      simp only [hfind]
      refine ⟨rfl, fun hok => hok.2.2.1 entry.1 ?_⟩
      cases old with
      | none => exact hr
      | some page =>
        rw [hold] at hunwritten
        cases hunwritten
  · -- a reserved page is free in the active bitmap, so it is not cached as committed
    intro hany
    obtain ⟨entry, hmem, hsome⟩ := List.any_eq_true.mp hany
    obtain ⟨old, hr, -⟩ := (mem_candidateIds h candidate entry.1 entry.2).mp hmem
    rw [h.lookup_committed (h.fresh _ _ hr).2.2] at hsome
    cases hsome

/-! Writing a candidate's dirty pages in runs of consecutive pages. -/

/-- Every cached page keeps its slot, and none becomes dirty. -/
def Settled (cache c : PageCache D) : Prop :=
  ∀ (j : Nat) (e : CacheEntry), c.entries[j]? = some e →
    ∃ e₀, cache.entries[j]? = some e₀ ∧ e.key = e₀.key ∧ (e.dirty = true → e₀.dirty = true)

omit [PageDevice D] in
lemma Settled.refl (cache : PageCache D) : Settled cache cache :=
  fun _ e he => ⟨e, he, rfl, fun hd => hd⟩

omit [PageDevice D] in
lemma Settled.trans {a b c : PageCache D} (h : Settled a b) (h' : Settled b c) : Settled a c := by
  intro j e he
  obtain ⟨e₁, he₁, hkey₁, hdirty₁⟩ := h' j e he
  obtain ⟨e₀, he₀, hkey₀, hdirty₀⟩ := h j e₁ he₁
  exact ⟨e₀, he₀, hkey₁.trans hkey₀, fun hd => hdirty₀ (hdirty₁ hd)⟩

omit [PageDevice D] in
lemma settled_setEntry {index : Nat} {e e' : CacheEntry} (he : cache.entries[index]? = some e)
    (hkey : e'.key = e.key) (hdirty : e'.dirty = true → e.dirty = true) :
    Settled cache (PageCache.setEntry index e' cache) := by
  intro j f hf
  rw [PageCache.setEntry, List.getElem?_set] at hf
  split at hf
  · next heq =>
    rw [if_pos (List.getElem?_eq_some_iff.mp he).1, Option.some.injEq] at hf
    subst hf
    exact ⟨e, heq ▸ he, hkey, hdirty⟩
  · exact ⟨f, hf, rfl, fun hd => hd⟩

omit [PageDevice D] in
/-- A clean entry stays clean. -/
lemma Settled.clean {c : PageCache D} (h : Settled cache c) {j : Nat} {e e' : CacheEntry}
    (he : cache.entries[j]? = some e) (hclean : e.dirty = false) (he' : c.entries[j]? = some e') :
    e'.dirty = false := by
  obtain ⟨e₀, he₀, -, hdirty⟩ := h j e' he'
  rw [he, Option.some.injEq] at he₀
  cases hd : e'.dirty with
  | false => rfl
  | true =>
    rw [← he₀, hclean] at hdirty
    exact (nomatch hdirty hd)

/-- What writing back does to the cache when it returns. -/
structure WrittenBack (cache c : PageCache D) : Prop where
  index : SameIndex cache c
  settled : Settled cache c

omit [PageDevice D] in
lemma WrittenBack.refl (cache : PageCache D) : WrittenBack cache cache :=
  ⟨SameIndex.refl _, Settled.refl _⟩

omit [PageDevice D] in
lemma WrittenBack.trans {a b c : PageCache D} (h : WrittenBack a b) (h' : WrittenBack b c) :
    WrittenBack a c :=
  ⟨h.index.trans h'.index, h.settled.trans h'.settled⟩

/-- Marking entries clean whose sealed pages are on the device. -/
lemma ends_markWritten (run : List Nat) (h : Represents P cache m)
    (hrun : ∀ index ∈ run, ∃ e, cache.entries[index]? = some e ∧ e.unsealed = false ∧
      ∀ k page, m.reserved e.id = some (k, some page) →
        (pages cache.device)[e.id]? = some (sealPage page)) :
    (Effect.forEach markWritten run).Ends cache
      (fun _ c => Represents P c m ∧ WrittenBack cache c ∧ c.device = cache.device ∧
        (∀ index ∈ run, ∀ e, c.entries[index]? = some e → e.dirty = false) ∧
        ∀ index, index ∉ run → c.entries[index]? = cache.entries[index]?)
      (fun _ _ => False) := by
  induction run generalizing cache with
  | nil =>
    exact ⟨h, WrittenBack.refl _, rfl, fun _ hmem => absurd hmem List.not_mem_nil, fun _ _ => rfl⟩
  | cons index run ih =>
    obtain ⟨e, he, hsealed, hat⟩ := hrun index List.mem_cons_self
    rw [Effect.forEach, Effect.ends_bind, markWritten, Effect.ends_bind]
    refine ends_entryAt he ?_
    rw [Effect.ends_bind, Effect.ends_modify, Effect.ends_modify]
    have hmarked := represents_addUnflushed (represents_clean h he hsealed hat) e.owner
    obtain ⟨hdev, hent, hlook, hres, hcap, -⟩ := addUnflushed_fields e.owner
      (PageCache.setEntry index { e with dirty := false } cache)
    have hback : WrittenBack cache (PageCache.setEntry index { e with dirty := false } cache) :=
      ⟨sameIndex_setEntry he (fun _ => ⟨rfl, rfl⟩),
        settled_setEntry he rfl (fun hd => absurd hd Bool.false_ne_true)⟩
    generalize addUnflushed e.owner (PageCache.setEntry index { e with dirty := false } cache) = c₁
      at hmarked hdev hent hlook hres hcap ⊢
    have hstep : WrittenBack cache c₁ := by
      refine ⟨⟨hlook.trans hback.index.lookup, hres.trans hback.index.reservations,
        hcap.trans hback.index.capacity, ?_, ?_⟩, ?_⟩
      · rw [hent]
        exact hback.index.length
      · rw [CommittedFrom, hent]
        exact hback.index.committed
      · rw [Settled, hent]
        exact hback.settled
    have hself : c₁.entries[index]? = some { e with dirty := false } := by
      rw [hent]
      exact List.getElem?_set_self (List.getElem?_eq_some_iff.mp he).1
    refine (ih hmarked ?_).mono ?_ (fun _ _ hf => hf)
    · intro j hj
      rw [hdev, hent]
      obtain ⟨f, hf, hfsealed, hfat⟩ := hrun j (List.mem_cons_of_mem _ hj)
      by_cases hji : index = j
      · subst hji
        exact ⟨_, List.getElem?_set_self (List.getElem?_eq_some_iff.mp he).1, hsealed, hat⟩
      · exact ⟨f, (List.getElem?_set_ne hji).trans hf, hfsealed, hfat⟩
    · rintro _ c ⟨hc, hrest, hdevice, hclean, hkept⟩
      refine ⟨hc, hstep.trans hrest, hdevice.trans hdev, ?_, ?_⟩
      · intro j hj f hf
        rcases List.mem_cons.mp hj with rfl | hj
        · exact hrest.settled.clean hself rfl hf
        · exact hclean j hj f hf
      · intro j hj
        obtain ⟨hne, hj⟩ := not_or.mp (fun hmem => hj (List.mem_cons.mpr hmem))
        rw [hkept j hj, hent]
        exact List.getElem?_set_ne (Ne.symm hne)

/-- A run of slots that hold consecutive dirty pages from `first`, sealed, with their bytes. -/
structure RunHolds (entries : List CacheEntry) (run : List Nat) (bytes : List PageBytes)
    (first : Nat) : Prop where
  length : bytes.length = run.length
  slot : ∀ i index, run[i]? = some index → ∃ e, entries[index]? = some e ∧ e.dirty = true ∧
    e.unsealed = false ∧ e.id = first + i ∧ bytes[i]? = some e.bytes

lemma RunHolds.seal {entries : List CacheEntry} {run : List Nat} {bytes : List PageBytes}
    {first index : Nat} {e : CacheEntry} (h : RunHolds entries run bytes first)
    (he : entries[index]? = some e) :
    RunHolds (entries.set index e.withSeal) run bytes first := by
  refine ⟨h.length, ?_⟩
  intro i j hj
  obtain ⟨f, hf, hdirty, hsealed, hid, hbytes⟩ := h.slot i j hj
  by_cases hij : index = j
  · subst hij
    rw [he, Option.some.injEq] at hf
    subst hf
    have hsame : e.withSeal = e := by
      rw [CacheEntry.withSeal, hsealed]
      rfl
    exact ⟨e, by rw [hsame, List.getElem?_set_self (List.getElem?_eq_some_iff.mp he).1], hdirty,
      hsealed, hid, hbytes⟩
  · exact ⟨f, (List.getElem?_set_ne hij).trans hf, hdirty, hsealed, hid, hbytes⟩

lemma RunHolds.push {entries : List CacheEntry} {run : List Nat} {bytes : List PageBytes}
    {first index : Nat} {e : CacheEntry} (h : RunHolds entries run bytes first)
    (he : entries[index]? = some e) (hdirty : e.dirty = true) (hsealed : e.unsealed = false)
    (hid : e.id = first + run.length) :
    RunHolds entries (run ++ [index]) (bytes ++ [e.bytes]) first := by
  refine ⟨by simp [h.length], ?_⟩
  intro i j hj
  rcases Nat.lt_trichotomy i run.length with hlt | heq | hgt
  · rw [List.getElem?_append_left hlt] at hj
    obtain ⟨f, hf, hfdirty, hfsealed, hfid, hbytes⟩ := h.slot i j hj
    refine ⟨f, hf, hfdirty, hfsealed, hfid, ?_⟩
    rw [List.getElem?_append_left (by rw [h.length]; exact hlt)]
    exact hbytes
  · subst heq
    rw [List.getElem?_append_right (Nat.le_refl _), Nat.sub_self, List.getElem?_cons_zero,
      Option.some.injEq] at hj
    subst hj
    refine ⟨e, he, hdirty, hsealed, hid, ?_⟩
    rw [List.getElem?_append_right (by rw [h.length]), h.length, Nat.sub_self,
      List.getElem?_cons_zero]
  · rw [List.getElem?_eq_none (by simp; omega)] at hj
    cases hj

/-- Writing a run changes nothing in the map, and leaves its pages clean. -/
lemma ends_writeRun (hP : DenseClosed P) (h : Represents P cache m) {run : List Nat}
    {bytes : List PageBytes} {first : Nat} (hrun : RunHolds cache.entries run bytes first) :
    (writeRun run bytes).Ends cache
      (fun _ c => Represents P c m ∧ WrittenBack cache c ∧
        (∀ index ∈ run, ∀ e, c.entries[index]? = some e → e.dirty = false) ∧
        (∀ index, index ∉ run → c.entries[index]? = cache.entries[index]?) ∧
        (Healthy cache.device → Healthy c.device))
      (fun _ c => Represents P c m ∧ SameIndex cache c ∧ ¬Healthy cache.device) := by
  rw [writeRun]
  cases run with
  | nil =>
    exact ⟨h, WrittenBack.refl _, fun _ hmem => (nomatch hmem), fun _ _ => rfl, fun hh => hh⟩
  | cons index run =>
    -- the page of each slot of the run
    have hpage : ∀ i j, (index :: run)[i]? = some j → ∃ e k page, cache.entries[j]? = some e ∧
        e.dirty = true ∧ e.unsealed = false ∧ e.id = first + i ∧
        m.reserved e.id = some (k, some page) ∧ bytes[i]? = some (sealPage page) := by
      intro i j hj
      obtain ⟨e, he, hdirty, hsealed, hid, hbytes⟩ := hrun.slot i j hj
      have hmem := List.mem_of_getElem? he
      obtain ⟨k, page, howner, hr⟩ := h.dirty_reserved hmem hdirty
      refine ⟨e, k, page, he, hdirty, hsealed, hid, hr, ?_⟩
      have hshow := h.shown e hmem
      have hseal := Represents.bytes_withSeal hshow howner hr
      rw [CacheEntry.withSeal, hsealed] at hseal
      rw [hbytes]
      exact congrArg some hseal
    obtain ⟨e, -, -, he, -, -, hid, -, -⟩ := hpage 0 index rfl
    have hlast : first + bytes.length ≤ maxPageCount := by
      obtain ⟨f, k, page, -, -, -, hfid, hr, -⟩ := hpage run.length
        ((index :: run)[run.length]) (List.getElem?_eq_getElem (by simp))
      have hmax := (h.fresh _ _ hr).2.1
      have hlen := hrun.length
      rw [List.length_cons] at hlen
      omega
    have hpos : 0 < bytes.length := by
      rw [hrun.length]
      exact Nat.succ_pos _
    rw [List.head?_cons]
    dsimp only
    rw [Effect.ends_bind]
    refine ends_entryAt he ?_
    rw [Effect.ends_bind, hid, Nat.add_zero]
    refine (ends_writePlaceholders hP _ h.dense _).mono ?_ ?_
    · rintro _ c ⟨d, rfl, hd, hcount, hle, hkept, hhealthy⟩
      have h₁ := h.withDevice hd hle (fun k _ hk _ => hkept k hk)
      rw [Effect.ends_bind, onDevice, Effect.ends_focus]
      -- only the run's own pages, which are dirty in the cache, are written
      have houtside : ∀ k, (∀ f ∈ cache.entries, f.dirty = true → f.id ≠ k) →
          k < first ∨ first + bytes.length ≤ k := by
        intro k hclean
        by_contra hin
        have hlt : k - first < (index :: run).length := by
          rw [← hrun.length]
          omega
        obtain ⟨f, -, -, hf, hdirty, -, hfid, -, -⟩ := hpage (k - first) _
          (List.getElem?_eq_getElem hlt)
        exact hclean f (List.mem_of_getElem? hf) hdirty (by omega)
      refine ((hP.writePages d first bytes hd hcount).and
        (writePages_ends d first bytes)).mono ?_ ?_
      · rintro _ d' ⟨hd', -, hpages, hhealthy'⟩
        have h₂ := h₁.withDevice hd'
          (by rw [pageCount, pageCount, hpages]; exact Bytes.length_put_le hcount)
          (fun k _ _ hclean => by rw [hpages]; exact Bytes.getElem?_put hcount (houtside k hclean))
        refine (ends_markWritten (index :: run) h₂ ?_).mono ?_ (fun _ _ hf => hf.elim)
        · intro j hj
          obtain ⟨i, hi⟩ := List.mem_iff_getElem?.mp hj
          obtain ⟨f, k, page, hf, -, hsealed, hfid, hr, hbytes⟩ := hpage i j hi
          refine ⟨f, hf, hsealed, ?_⟩
          intro k' page' hr'
          rw [hr, Option.some.injEq, Prod.mk.injEq, Option.some.injEq] at hr'
          have hlt : i < bytes.length := (List.getElem?_eq_some_iff.mp hbytes).1
          rw [hpages, hfid, Bytes.getElem?_put_run hcount hlt, hbytes, hr'.2]
        · rintro _ c ⟨hc, hback, hdev, hclean, hkept⟩
          refine ⟨hc, ⟨⟨hback.index.lookup, hback.index.reservations, hback.index.capacity,
            hback.index.length, hback.index.committed⟩, hback.settled⟩, hclean, hkept, ?_⟩
          rw [hdev]
          exact fun hh => hhealthy' (hhealthy hh)
      · rintro _ d' ⟨hd', hlen, hother, hsick⟩
        refine ⟨h₁.withDevice hd' hlen (fun k _ _ hclean => hother k (houtside k hclean)),
          (SameIndex.refl cache).withDevice d', ?_⟩
        exact fun hh => hsick ⟨hhealthy hh, List.ne_nil_of_length_pos hpos, hcount, hlast⟩
    · rintro _ c ⟨d, rfl, hd, hle, hkept, hsick⟩
      refine ⟨h.withDevice hd hle (fun k _ hk _ => hkept k hk), (SameIndex.refl cache).withDevice d,
        ?_⟩
      exact fun hh => hsick ⟨hh, by omega⟩

omit [PageDevice D] in
lemma ends_followsRun {run : List Nat} {bytes : List PageBytes} {first : Nat}
    (hrun : RunHolds cache.entries run bytes first) (id : Nat) :
    (followsRun run id).Ends cache
      (fun follows c => c = cache ∧ (follows = true → id = first + run.length))
      (fun _ _ => False) := by
  rw [followsRun]
  rcases hlast : run.getLast? with _ | last
  · exact ⟨rfl, fun hf => (nomatch hf)⟩
  · obtain ⟨init, rfl⟩ := List.getLast?_eq_some_iff.mp hlast
    obtain ⟨e, he, -, -, hid, -⟩ := hrun.slot init.length last (by simp)
    dsimp only
    rw [Effect.ends_bind]
    refine ends_entryAt he ⟨rfl, ?_⟩
    rw [beq_iff_eq, List.length_append, List.length_singleton, hid]
    intro heq
    omega

/-- Writing a candidate's pages changes nothing in the map and leaves the pages named clean. -/
lemma ends_writeCandidateLoop (hP : DenseClosed P) (owner : Owner) (ids : List Nat)
    (h : Represents P cache m) {run : List Nat} {bytes : List PageBytes} {first : Nat}
    (hrun : RunHolds cache.entries run bytes first) (hnodup : ids.Nodup)
    (hahead : ∀ index ∈ run, ∀ e, cache.entries[index]? = some e → e.id ∉ ids) :
    (writeCandidateLoop owner ids run bytes).Ends cache
      (fun _ c => Represents P c m ∧ WrittenBack cache c ∧
        (∀ index ∈ run, ∀ e, c.entries[index]? = some e → e.dirty = false) ∧
        (∀ e ∈ c.entries, e.owner = owner → e.id ∈ ids → e.dirty = false) ∧
        (Healthy cache.device → Healthy c.device))
      (fun _ c => Represents P c m ∧ SameIndex cache c ∧ ¬Healthy cache.device) := by
  induction ids generalizing cache run bytes first with
  | nil =>
    rw [writeCandidateLoop]
    refine (ends_writeRun hP h hrun).mono ?_ (fun _ _ he => he)
    rintro _ c ⟨hc, hback, hclean, -, hhealthy⟩
    exact ⟨hc, hback, hclean, fun _ _ _ hmem => (nomatch hmem), hhealthy⟩
  | cons id rest ih =>
    obtain ⟨hid, hnodup⟩ := List.nodup_cons.mp hnodup
    rw [writeCandidateLoop, Effect.ends_bind, Effect.ends_get]
    -- a page that is clean here stays clean to the end
    have hskip : (∀ e ∈ cache.entries, e.key = (owner, id) → e.dirty = false) →
        (writeCandidateLoop owner rest run bytes).Ends cache
          (fun _ c => Represents P c m ∧ WrittenBack cache c ∧
            (∀ index ∈ run, ∀ e, c.entries[index]? = some e → e.dirty = false) ∧
            (∀ e ∈ c.entries, e.owner = owner → e.id ∈ id :: rest → e.dirty = false) ∧
            (Healthy cache.device → Healthy c.device))
          (fun _ c => Represents P c m ∧ SameIndex cache c ∧ ¬Healthy cache.device) := by
      intro hclean
      refine (ih h hrun hnodup (fun j hj e he hmem =>
        hahead j hj e he (List.mem_cons_of_mem _ hmem))).mono ?_ (fun _ _ he => he)
      rintro _ c ⟨hc, hback, hdone, hrest, hhealthy⟩
      refine ⟨hc, hback, hdone, ?_, hhealthy⟩
      intro e he howner hid
      rcases List.mem_cons.mp hid with hid | hid
      · obtain ⟨j, hj⟩ := List.mem_iff_getElem?.mp he
        obtain ⟨e₀, he₀, hkey, -⟩ := hback.settled j e hj
        exact hback.settled.clean he₀ (hclean e₀ (List.mem_of_getElem? he₀)
          (by rw [← hkey, CacheEntry.key, howner, hid])) hj
      · exact hrest e he howner hid
    rcases hlook : cache.lookup.lookup (owner, id) with _ | index
    · dsimp only
      refine hskip ?_
      intro e he hkey
      exact absurd hkey (h.indexed.lookup_eq_none_iff.mp hlook e he)
    dsimp only
    obtain ⟨e, he, hkey⟩ := h.indexed.getElem? hlook
    have heid : e.id = id := congrArg Prod.snd hkey
    obtain ⟨hsid, -, hdirt, huns⟩ := Represents.withSeal_fields e
    rw [Effect.ends_bind]
    refine ends_entryAt he ?_
    by_cases hdirty : e.dirty = true
    · rw [if_neg (not_not.mpr hdirty), Effect.ends_bind]
      -- the slot joins a run, old or new, and the run is clean in the end
      have hjoin : ∀ {c : PageCache D} {run' : List Nat} {bytes' : List PageBytes} {first' : Nat}
          {f : CacheEntry}, Represents P c m → WrittenBack cache c →
          (Healthy cache.device → Healthy c.device) → c.entries[index]? = some f →
          RunHolds c.entries run' bytes' first' → index ∈ run' → (∀ j ∈ run', j ∈ run ∨ j = index) →
          (∀ j ∈ run, j ∈ run' ∨ ∀ g, c.entries[j]? = some g → g.dirty = false) →
          (writeCandidateLoop owner rest run' bytes').Ends c
            (fun _ c => Represents P c m ∧ WrittenBack cache c ∧
              (∀ index ∈ run, ∀ e, c.entries[index]? = some e → e.dirty = false) ∧
              (∀ e ∈ c.entries, e.owner = owner → e.id ∈ id :: rest → e.dirty = false) ∧
              (Healthy cache.device → Healthy c.device))
            (fun _ c => Represents P c m ∧ SameIndex cache c ∧ ¬Healthy cache.device) := by
        intro c run' bytes' first' f hc hback hhealthy hf hrun' hin honly hold
        refine (ih hc hrun' hnodup ?_).mono ?_ ?_
        · intro j hj g hg
          obtain ⟨g₀, hg₀, hgkey, -⟩ := hback.settled j g hg
          have hgid : g.id = g₀.id := congrArg Prod.snd hgkey
          rw [hgid]
          rcases honly j hj with hj | rfl
          · exact fun hmem => hahead j hj g₀ hg₀ (List.mem_cons_of_mem _ hmem)
          · rw [he, Option.some.injEq] at hg₀
            rw [← hg₀, heid]
            exact hid
        · rintro _ c' ⟨hc', hback', hdone, hrest, hhealthy'⟩
          refine ⟨hc', hback.trans hback', ?_, ?_, fun hh => hhealthy' (hhealthy hh)⟩
          · intro j hj g hg
            rcases hold j hj with hj | hcleaned
            · exact hdone j hj g hg
            · obtain ⟨g₀, hg₀, -, -⟩ := hback'.settled j g hg
              exact hback'.settled.clean hg₀ (hcleaned g₀ hg₀) hg
          · intro g hg howner hid
            rcases List.mem_cons.mp hid with hid | hid
            · obtain ⟨j, hj⟩ := List.mem_iff_getElem?.mp hg
              have hgkey : g.key = (owner, id) := by rw [CacheEntry.key, howner, hid]
              have hjlook := hc'.indexed.lookup_key hj
              rw [hgkey, hback'.index.lookup, hback.index.lookup, hlook, Option.some.injEq]
                at hjlook
              subst hjlook
              exact hdone index hin g hj
            · exact hrest g hg howner hid
        · rintro _ c' ⟨hc', hsame, hsick⟩
          exact ⟨hc', hback.index.trans hsame, fun hh => hsick (hhealthy hh)⟩
      -- sealing the entry where it stands
      have hsealed : ∀ {c : PageCache D} {f : CacheEntry}, Represents P c m →
          c.entries[index]? = some f →
          Represents P (PageCache.setEntry index f.withSeal c) m ∧
            WrittenBack c (PageCache.setEntry index f.withSeal c) ∧
            (PageCache.setEntry index f.withSeal c).entries[index]? = some f.withSeal := by
        intro c f hc hf
        have hshow := hc.shown f (List.mem_of_getElem? hf)
        obtain ⟨-, hown, hdirt, -⟩ := Represents.withSeal_fields f
        refine ⟨hc.setEntry hf (Represents.key_withSeal f) (Represents.shows_withSeal hshow)
          (fun hd => Or.inl (hdirt.trans hd)), ⟨sameIndex_setEntry hf ?_,
            settled_setEntry hf (Represents.key_withSeal f) (fun hd => hdirt ▸ hd)⟩,
          List.getElem?_set_self (List.getElem?_eq_some_iff.mp hf).1⟩
        intro hcommitted
        rw [hown] at hcommitted
        rw [Shows, hcommitted] at hshow
        refine ⟨(Represents.key_withSeal f).symm, ?_⟩
        rw [CacheEntry.withSeal, hshow.2.1]
        rfl
      refine (ends_followsRun hrun id).mono ?_ (fun _ _ hf => hf.elim)
      rintro follows _ ⟨rfl, hfollows⟩
      split
      · rw [Effect.ends_bind]
        refine (ends_writeRun hP h hrun).mono ?_ (fun _ _ he => he)
        rintro _ c ⟨hc, hback, hclean, hkept, hhealthy⟩
        -- the page is not one of the run's, so it is dirty still
        have hf : c.entries[index]? = some e := by
          rw [hkept index (fun hmem => hahead index hmem e he (by rw [heid]; simp))]
          exact he
        rw [Effect.ends_bind]
        refine ends_entryAt hf ?_
        rw [Effect.ends_bind, Effect.ends_modify]
        obtain ⟨hrep, hset, hslot⟩ := hsealed hc hf
        have hnew : RunHolds (PageCache.setEntry index e.withSeal c).entries [] [] id :=
          ⟨rfl, fun i j hj => by simp at hj⟩
        refine hjoin hrep (hback.trans hset) hhealthy hslot
          (hnew.push hslot (hdirt.trans hdirty) huns (hsid.trans heid)) List.mem_cons_self
          (fun j hj => Or.inr (List.mem_singleton.mp hj)) ?_
        intro j hj
        refine Or.inr ?_
        intro g hg
        obtain ⟨g₀, hg₀, -, -⟩ := hset.settled j g hg
        exact hset.settled.clean hg₀ (hclean j hj g₀ hg₀) hg
      · next hcont =>
        rw [Effect.ends_bind, Effect.ends_modify]
        obtain ⟨hrep, hset, hslot⟩ := hsealed h he
        have hfol : follows = true := by
          by_contra hno
          exact hcont (Or.inl hno)
        refine hjoin hrep hset (fun hh => hh) hslot ((hrun.seal he).push hslot
          (hdirt.trans hdirty) huns ?_) (List.mem_append_right _ List.mem_cons_self) ?_
          (fun j hj => Or.inl (List.mem_append_left _ hj))
        · rw [hsid, ← hfollows hfol]
          exact heid
        · intro j hj
          exact (List.mem_append.mp hj).imp_right List.mem_singleton.mp
    · rw [if_pos hdirty]
      refine hskip ?_
      intro f hf hfkey
      obtain ⟨j, hj⟩ := List.mem_iff_getElem?.mp hf
      have hji := h.indexed.index_unique hj he (hfkey.trans hkey.symm)
      subst hji
      rw [he, Option.some.injEq] at hj
      rw [← hj]
      simpa using hdirty

lemma ends_writeCandidatePages (hP : DenseClosed P) (h : Represents P cache m) (candidate : Nat)
    {ids : List Nat} (hids : ids.Pairwise (· < ·)) :
    (writeCandidatePages candidate ids).Ends cache
      (fun _ c => Represents P c m ∧ WrittenBack cache c ∧
        (∀ e ∈ c.entries, e.owner = .candidate candidate → e.id ∈ ids → e.dirty = false) ∧
        (Healthy cache.device → Healthy c.device))
      (fun _ c => Represents P c m ∧ SameIndex cache c ∧ ¬Healthy cache.device) := by
  have hnone : RunHolds cache.entries [] [] 0 := ⟨rfl, fun i j hj => by simp at hj⟩
  refine (ends_writeCandidateLoop hP (.candidate candidate) ids h hnone
    (hids.imp (fun hlt => Nat.ne_of_lt hlt)) (fun _ hj => (nomatch hj))).mono ?_
    (fun _ _ he => he)
  rintro _ c ⟨hc, hback, -, hclean, hhealthy⟩
  exact ⟨hc, hback, hclean, hhealthy⟩

lemma ends_flushDevice (hP : DenseClosed P) (h : Represents P cache m) :
    flushDevice.Ends cache
      (fun _ c => ∃ d, c = { cache with device := d, unflushedOwners := [] } ∧ Represents P c m ∧
        pages d = pages cache.device ∧ (Healthy cache.device → Healthy d))
      (fun _ c => ∃ d, c = { cache with device := d } ∧ Represents P c m ∧
        pages d = pages cache.device ∧ ¬Healthy cache.device) := by
  rw [flushDevice, Effect.ends_bind, onDevice, Effect.ends_focus]
  refine ((hP.flush cache.device h.dense).and (flush_ends cache.device)).mono ?_ ?_
  · rintro _ d ⟨hd, hpages, hhealthy⟩
    have h₁ := h.withDevice hd (by rw [pageCount, pageCount, hpages]) (fun k _ _ _ => by rw [hpages])
    exact ⟨d, rfl, h₁.withUnflushed [], hpages, hhealthy⟩
  · rintro _ d ⟨hd, hpages, hsick⟩
    have h₁ := h.withDevice hd (by rw [pageCount, pageCount, hpages]) (fun k _ _ _ => by rw [hpages])
    exact ⟨d, rfl, h₁, hpages, hsick⟩

/-- Writing a metadata page beside the cache. -/
lemma ends_writeMetadata (hP : DenseClosed P) (h : Represents P cache m) {id : Nat}
    (hid : id < firstDataPageId) (page : PageBytes) :
    (onDevice (writePage id page)).Ends cache
      (fun _ c => ∃ d, c = { cache with device := d } ∧ Represents P c m ∧
        pages d = Bytes.put (pages cache.device) id [page] ∧ (Healthy cache.device → Healthy d))
      (fun _ c => ∃ d, c = { cache with device := d } ∧ Represents P c m ∧
        (∀ k, k ≠ id → (pages d)[k]? = (pages cache.device)[k]?) ∧ ¬Healthy cache.device) := by
  have hcount : id ≤ pageCount cache.device :=
    Nat.le_of_lt (Nat.lt_of_lt_of_le hid h.metadata)
  rw [onDevice, Effect.ends_focus]
  refine ((hP.write cache.device id page h.dense hcount).and
    (writePage_ends cache.device id page)).mono ?_ ?_
  · rintro _ d ⟨hd, -, hpages, hhealthy⟩
    refine ⟨d, rfl, h.withDevice hd ?_ ?_, hpages, hhealthy⟩
    · rw [pageCount, pageCount, hpages]
      exact Bytes.length_put_le hcount
    · intro k hk _ _
      rw [hpages]
      exact Bytes.getElem?_put hcount (Or.inr (by simp only [List.length_singleton]; omega))
  · rintro _ d ⟨hd, hlen, hother, hsick⟩
    refine ⟨d, rfl, h.withDevice hd hlen (fun k hk _ _ => hother k (by omega)), hother, ?_⟩
    refine fun hh => hsick ⟨hh, hcount, Nat.lt_trans hid ?_⟩
    decide

/-- A clean or evicted page's checksum is that of the page its candidate last wrote. -/
lemma ends_candidatePageChecksum (hP : DenseClosed P) (h : Represents P cache m)
    {candidate id : Nat} {last : PageBytes} (hr : m.reserved id = some (candidate, some last))
    (hclean : ∀ e ∈ cache.entries, e.key = (.candidate candidate, id) → e.dirty = false) :
    (candidatePageChecksum candidate id).Ends cache
      (fun checksum c => checksum = computeChecksum last.bytes ∧
        ∃ d, c = { cache with device := d } ∧ Represents P c m ∧ pages d = pages cache.device ∧
          (Healthy cache.device → Healthy d))
      (fun _ c => ∃ d, c = { cache with device := d } ∧ Represents P c m ∧
        ¬(Healthy cache.device ∧ Page.verify (sealPage last).bytes = .ok ())) := by
  rw [candidatePageChecksum, Effect.ends_bind, Effect.ends_get, Effect.ends_bind,
    h.ensureReservedBy_ok hr, Effect.ends_ofExcept_ok]
  rcases hlook : cache.lookup.lookup (.candidate candidate, id) with _ | index
  · have hat := h.on_device hr hlook
    simp only [hlook]
    rw [Effect.ends_bind, onDevice, Effect.ends_focus]
    refine ((hP.read cache.device id h.dense).and (readPage_ends cache.device id)).mono ?_ ?_
    · rintro page d ⟨hd, hpages, hpage, hhealthy⟩
      rw [hat, Option.some.injEq] at hpage
      have h₁ : Represents P { cache with device := d } m :=
        h.withDevice hd (by rw [pageCount, pageCount, hpages]) (fun k _ _ _ => by rw [hpages])
      rw [Effect.ends_bind, Effect.ends_ofExcept, ← hpage]
      refine ⟨?_, ?_⟩
      · rintro ⟨⟩ -
        exact ⟨pageChecksum_sealPage last, d, rfl, h₁, hpages, hhealthy⟩
      · intro e herr
        refine ⟨d, rfl, h₁, ?_⟩
        rintro ⟨-, hok⟩
        rw [hok] at herr
        cases herr
    · rintro _ d ⟨hd, hpages, hsick⟩
      have h₁ : Represents P { cache with device := d } m :=
        h.withDevice hd (by rw [pageCount, pageCount, hpages]) (fun k _ _ _ => by rw [hpages])
      exact ⟨d, rfl, h₁, fun hh => hsick ⟨hh.1, Represents.lt_pageCount hat⟩⟩
  · obtain ⟨e, he, hkey⟩ := h.indexed.getElem? hlook
    have howner : e.owner = .candidate candidate := congrArg Prod.fst hkey
    have hid : e.id = id := congrArg Prod.snd hkey
    have hdirty := hclean e (List.mem_of_getElem? he) hkey
    have hshow := h.shown e (List.mem_of_getElem? he)
    rw [Shows, howner] at hshow
    obtain ⟨page, hpage, hbytes, hunsealed⟩ := hshow
    rw [hid, hr, Option.some.injEq, Prod.mk.injEq, Option.some.injEq] at hpage
    have hsealed : e.unsealed = false := by
      cases hu : e.unsealed with
      | false => rfl
      | true =>
        rw [hunsealed hu] at hdirty
        cases hdirty
    simp only [hlook]
    rw [Effect.ends_bind]
    refine ends_entryAt he ?_
    rw [if_neg (by simp [hdirty, hsealed])]
    refine ⟨?_, cache.device, rfl, h, rfl, fun hh => hh⟩
    rw [hbytes, hsealed, ← hpage.2]
    exact pageChecksum_sealPage last

end
end TinyJoin
