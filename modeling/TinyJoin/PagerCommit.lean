import TinyJoin.PagerInvariant

/-! Ending a transaction: what an abandoned candidate leaves, what a commit does before it attempts
the superblock and from there on, and that on a healthy device it succeeds. -/
namespace TinyJoin
open PageDevice PageCache

section
variable {D : Type} [PageDevice D] {P : D → Prop} {m : PlainMap}

/-- No cached page and no reservation belongs to a candidate. -/
def Pager.Clear (p : Pager D) (candidate : Nat) : Prop :=
  (∀ e ∈ p.cache.entries, e.owner ≠ .candidate candidate) ∧
    ∀ id r, p.cache.reservations.lookup id = some r → r.candidate ≠ candidate

lemma Pager.Sound.clear {p : Pager D} (h : p.Sound P m) (hquiet : m.Quiet) (candidate : Nat) :
    p.Clear candidate := by
  refine ⟨?_, ?_⟩
  · intro e he howner
    have hshow := h.represents.shown e he
    rw [Shows, howner] at hshow
    obtain ⟨page, hr, -⟩ := hshow
    rw [hquiet] at hr
    cases hr
  · intro id r hr
    rw [h.represents.reservations, hquiet] at hr
    cases hr

namespace PagerWriteTransaction
variable {t : PagerWriteTransaction D}

/-- An abandoned transaction leaves the committed pages, and nothing reserved. -/
lemma Sound.abandon (h : t.Sound P m) :
    t.abandon.pager.Sound P (m.invalidate t.candidate) ∧ (m.invalidate t.candidate).Quiet := by
  obtain ⟨hrep, -, hfrom⟩ := represents_invalidate h.pager.represents t.candidate
  refine ⟨⟨hrep, h.pager.active, h.pager.verified_from hfrom, h.pager.valid, h.pager.covers⟩, ?_⟩
  intro id
  rcases hr : (m.invalidate t.candidate).reserved id with _ | r
  · rfl
  · obtain ⟨hr, hne⟩ := PlainMap.invalidate_reserved.mp hr
    exact absurd (h.owner id r hr) hne

/-- The pages a candidate allocated are those it reserved. -/
lemma Sound.mem_newPages (h : t.Sound P m) (id : Nat) : id ∈ t.newPages ↔ t.isNew id = true := by
  rw [newPages, AllocationBitmap.mem_allocatedSince, isNew]
  constructor
  · rintro ⟨-, hnext, hactive⟩
    rw [hnext, hactive]
    rfl
  · intro hnew
    refine ⟨h.newEnd id hnew, ?_⟩
    simpa using hnew

lemma Sound.written_iff (h : t.Sound P m) :
    t.newPages.filter (fun id => !t.pager.cache.candidatePageWritten t.candidate id) = [] ↔
      ∀ id, m.reserved id ≠ some (t.candidate, none) := by
  rw [List.filter_eq_nil_iff]
  have hwritten : ∀ id old, m.reserved id = some (t.candidate, old) →
      t.pager.cache.candidatePageWritten t.candidate id = old.isSome := by
    intro id old hr
    rw [candidatePageWritten, h.pager.represents.reservations, hr]
    simp
  constructor
  · intro hall id hr
    have hnew := h.isNew_of_reserved hr
    have := hall id ((h.mem_newPages id).mpr hnew)
    rw [hwritten id none hr] at this
    exact this rfl
  · intro hall id hmem hunwritten
    obtain ⟨old, hr⟩ := h.reserved_of_new ((h.mem_newPages id).mp hmem)
    rw [hwritten id old hr] at hunwritten
    cases old with
    | none => exact hall id hr
    | some last => cases hunwritten

/-- The hash of pages by the checksums of what a candidate last wrote. -/
def hashOf (m : PlainMap) (hash : UInt64) (ids : List Nat) : UInt64 :=
  ids.foldl (fun hash id => CommitHash.page hash id
    (match m.reserved id with
    | some (_, some last) => computeChecksum last.bytes
    | _ => 0)) hash

lemma ends_hashPages (hP : DenseClosed P) {candidate : Nat} (ids : List Nat) (hash : UInt64)
    {cache : PageCache D} (h : Represents P cache m)
    (hids : ∀ id ∈ ids, ∃ last, m.reserved id = some (candidate, some last) ∧
      Page.verify (sealPage last).bytes = .ok ())
    (hclean : ∀ e ∈ cache.entries, e.owner = .candidate candidate → e.id ∈ ids →
      e.dirty = false) :
    (hashPages candidate ids hash).Ends cache
      (fun result c => result = hashOf m hash ids ∧
        ∃ d, c = { cache with device := d } ∧ Represents P c m ∧ pages d = pages cache.device ∧
          (Healthy cache.device → Healthy d))
      (fun _ c => ∃ d, c = { cache with device := d } ∧ Represents P c m ∧
        ¬Healthy cache.device) := by
  induction ids generalizing cache hash with
  | nil => exact ⟨rfl, cache.device, rfl, h, rfl, fun hh => hh⟩
  | cons id ids ih =>
    obtain ⟨last, hr, hverify⟩ := hids id List.mem_cons_self
    rw [hashPages, Effect.ends_bind]
    refine (ends_candidatePageChecksum hP h hr ?_).mono ?_ ?_
    · intro e he hkey
      have hid : e.id = id := congrArg Prod.snd hkey
      exact hclean e he (congrArg Prod.fst hkey) (by rw [hid]; exact List.mem_cons_self)
    · rintro checksum c ⟨rfl, d, rfl, hc, hpages, hhealthy⟩
      refine (ih _ hc (fun k hk => hids k (List.mem_cons_of_mem _ hk))
        (fun e he howner hk => hclean e he howner (List.mem_cons_of_mem _ hk))).mono ?_ ?_
      · rintro result c' ⟨rfl, d', rfl, hc', hpages', hhealthy'⟩
        refine ⟨?_, d', rfl, hc', hpages'.trans hpages, fun hh => hhealthy' (hhealthy hh)⟩
        rw [hashOf, hashOf, List.foldl_cons, hr]
      · rintro _ c' ⟨d', rfl, hc', hsick⟩
        exact ⟨d', rfl, hc', fun hh => hsick (hhealthy hh)⟩
    · rintro _ c ⟨d, rfl, hc, hsick⟩
      exact ⟨d, rfl, hc, fun hh => hsick ⟨hh, hverify⟩⟩

lemma ends_writeChunks (hP : DenseClosed P) (pending : PendingMetadata)
    (chunks : List (Fin bitmapChunkCount)) {cache : PageCache D} (h : Represents P cache m) :
    (Effect.forEach (writeChunk pending) chunks).Ends cache
      (fun _ c => ∃ d, c = { cache with device := d } ∧ Represents P c m ∧
        (Healthy cache.device → Healthy d))
      (fun _ c => ∃ d, c = { cache with device := d } ∧ Represents P c m ∧
        ¬Healthy cache.device) := by
  induction chunks generalizing cache with
  | nil => exact ⟨cache.device, rfl, h, fun hh => hh⟩
  | cons chunk chunks ih =>
    rw [Effect.forEach, Effect.ends_bind, writeChunk]
    split
    · refine (ends_writeMetadata hP h (bitmapSlot_pageId_lt _ chunk) _).mono ?_ ?_
      · rintro _ c ⟨d, rfl, hc, -, hhealthy⟩
        refine (ih hc).mono ?_ ?_
        · rintro _ c' ⟨d', rfl, hc', hhealthy'⟩
          exact ⟨d', rfl, hc', fun hh => hhealthy' (hhealthy hh)⟩
        · rintro _ c' ⟨d', rfl, hc', hsick⟩
          exact ⟨d', rfl, hc', fun hh => hsick (hhealthy hh)⟩
      · rintro _ c ⟨d, rfl, hc, -, hsick⟩
        exact ⟨d, rfl, hc, hsick⟩
    · exact ih h

end PagerWriteTransaction

namespace PagerWriteTransaction
variable {t : PagerWriteTransaction D}

/-- Before the superblock is attempted, a commit leaves the map and the active root as they are. On
a healthy device it gets there once every page is written and the metadata is valid. -/
lemma ends_prepareCommit (hP : DenseClosed P) (h : t.Sound P m) (revision : Nat) (hash : UInt64)
    (root : Option Nat) :
    (prepareCommit revision hash root).Ends t
      (fun r t' => ∃ c, t' = t.withCache c ∧ (t.withCache c).Sound P m ∧
        (∀ id, m.reserved id ≠ some (t.candidate, none)) ∧
        c.hasDirtyPages t.candidate = false ∧
        r.1.allocationBitmap = t.nextBitmap ∧ r.1.superblock.validate = .ok () ∧
        r.1.superblock.validateBitmap t.nextBitmap = .ok () ∧
        (Healthy t.pager.cache.device → Healthy c.device))
      (fun _ t' => ∃ c, t' = t.withCache c ∧ (t.withCache c).Sound P m ∧
        ¬(Healthy t.pager.cache.device ∧ (∀ id, m.reserved id ≠ some (t.candidate, none)) ∧
          revision ≤ maxDatabaseRevision ∧
          ∃ pending, buildNextMetadata t.pager.active revision hash root t.nextBitmap =
            .ok pending)) := by
  have hself : t = t.withCache t.pager.cache := rfl
  rw [prepareCommit, Effect.ends_bind, Effect.ends_get, Effect.ends_bind, Effect.ends_ofExcept]
  refine ⟨?_, ?_⟩
  · intro _ hrevision
    dsimp only
    split
    · next hunwritten =>
      exact ⟨_, hself, h, fun hh => hunwritten (h.written_iff.mpr hh.2.1)⟩
    next hwritten =>
    have hwritten := h.written_iff.mp (not_not.mp hwritten)
    rw [Effect.ends_bind, Effect.ends_ofExcept]
    refine ⟨?_, ?_⟩
    · intro pending hpending
      obtain ⟨hvalid, hcovers, hbitmap, -, -⟩ := buildNextMetadata_eq_ok hpending
      rw [Effect.ends_bind]
      refine ends_onCache ?_
      have hpairs : t.newPages.Pairwise (· < ·) :=
        AllocationBitmap.pairwise_allocatedSince _ _ _
      refine (ends_writeCandidatePages hP h.pager.represents t.candidate hpairs).mono ?_ ?_
      · rintro _ c ⟨hc, hback, hclean, hhealthy⟩
        have hs : (t.withCache c).Sound P m :=
          h.sameMap hc (h.pager.verified_from hback.index.committed)
        rw [Effect.ends_bind]
        refine ends_onCache ?_
        refine (@ends_hashPages D _ P m hP t.candidate t.newPages _ c hc ?_ ?_).mono ?_ ?_
        · intro id hid
          obtain ⟨old, hr⟩ := h.reserved_of_new ((h.mem_newPages id).mp hid)
          cases old with
          | none => exact absurd hr (hwritten id)
          | some last =>
            obtain ⟨page, hpage, -⟩ := h.encoded id _ last hr
            exact ⟨last, hr, Page.verify_sealPage hpage⟩
        · exact hclean
        · rintro commitHash c' ⟨-, d, rfl, hc', hpages, hhealthy'⟩
          have hs' := hs.sameMap hc' hs.pager.verified
          -- neither check of the superblock reads its commit hash
          have hvalid' : ({ pending.superblock with commitHash := commitHash } :
            Superblock).validate = .ok () := hvalid
          have hcovers' : ({ pending.superblock with commitHash := commitHash } :
            Superblock).validateBitmap t.nextBitmap = .ok () := hcovers
          rw [Effect.ends_bind, hbitmap, Superblock.encodePage_of_valid hvalid' hcovers',
            Effect.ends_ofExcept_ok, Effect.ends_bind]
          refine ends_onCache ?_
          refine (ends_writeChunks hP pending _ hc').mono ?_ ?_
          · rintro _ c'' ⟨d', rfl, hc'', hhealthy''⟩
            refine ⟨_, rfl, hs'.sameMap hc'' hs'.pager.verified, hwritten, ?_, rfl, hvalid,
              hcovers, fun hh => hhealthy'' (hhealthy' (hhealthy hh))⟩
            refine hc''.not_dirty ?_
            intro e he howner
            have hshow := hc''.shown e he
            rw [TinyJoin.Shows, howner] at hshow
            obtain ⟨page, hr, -⟩ := hshow
            exact hclean e he howner ((h.mem_newPages e.id).mpr (h.isNew_of_reserved hr))
          · rintro _ c'' ⟨d', rfl, hc'', hsick⟩
            exact ⟨_, rfl, hs'.sameMap hc'' hs'.pager.verified,
              fun hh => hsick (hhealthy' (hhealthy hh.1))⟩
        · rintro _ c' ⟨d, rfl, hc', hsick⟩
          exact ⟨_, rfl, hs.sameMap hc' hs.pager.verified, fun hh => hsick (hhealthy hh.1)⟩
      · rintro _ c ⟨hc, hsame, hsick⟩
        exact ⟨_, rfl, h.sameMap hc (h.pager.verified_from hsame.committed), fun hh => hsick hh.1⟩
    · intro e herr
      refine ⟨_, hself, h, ?_⟩
      rintro ⟨-, -, -, pending, hpending⟩
      rw [hpending] at herr
      cases herr
  · intro e herr
    refine ⟨_, hself, h, ?_⟩
    rintro ⟨-, -, hle, -⟩
    rw [validateDatabaseRevision, if_pos hle] at herr
    cases herr

/-- What a transaction that failed from the superblock on leaves: a pager that must be reopened. -/
structure Poisoned (P : D → Prop) (t : PagerWriteTransaction D) (m : PlainMap)
    (t' : PagerWriteTransaction D) : Prop where
  finished : t'.finished = true
  recoveryRequired : t'.pager.recoveryRequired = true
  sound : t'.pager.Sound P (m.invalidate t.candidate)
  quiet : (m.invalidate t.candidate).Quiet

lemma poisoned_fail (h : t.Sound P m) {α : Type} (stage : String) (error : EngineError)
    {Q : α → PagerWriteTransaction D → Prop} :
    (failAfterSuperblock stage error : Op (PagerWriteTransaction D) α).Ends t Q
      (fun _ t' => Poisoned P t m t') := by
  rw [failAfterSuperblock, Effect.ends_bind, Effect.ends_modify, Effect.ends_bind,
    Effect.ends_modify]
  obtain ⟨hsound, hquiet⟩ := h.abandon
  exact ⟨rfl, rfl, ⟨hsound.represents, hsound.active, hsound.verified, hsound.valid,
    hsound.covers⟩, hquiet⟩

/-- The pages of the candidate, once installed, are verified as if they had been loaded. -/
lemma Sound.verified_installed (h : t.Sound P m) {cache : PageCache D}
    (hfrom : ∀ e ∈ cache.entries, e.owner = .committed →
      ∃ f ∈ t.pager.cache.entries, f.id = e.id ∧ f.bytes = e.bytes ∧
        (f.owner = .committed ∨ f.owner = .candidate t.candidate ∧ f.dirty = false)) :
    ∀ e ∈ cache.entries, e.owner = .committed → verifyExpectedPage e.id e.bytes = .ok () := by
  intro e he howner
  obtain ⟨f, hf, hid, hbytes, hsource⟩ := hfrom e he howner
  rw [← hid, ← hbytes]
  rcases hsource with hcommitted | ⟨hcandidate, hclean⟩
  · exact h.pager.verified f hf hcommitted
  · have hshow := h.pager.represents.shown f hf
    rw [TinyJoin.Shows, hcandidate] at hshow
    obtain ⟨last, hr, hlast, hdirty⟩ := hshow
    have hsealed : f.unsealed = false := by
      cases hu : f.unsealed with
      | false => rfl
      | true =>
        rw [hdirty hu] at hclean
        cases hclean
    obtain ⟨page, hpage, hpid⟩ := h.encoded f.id _ last hr
    rw [hlast, hsealed, ← hpid]
    exact verifyExpectedPage_sealPage hpage

lemma Sound.publishable (h : t.Sound P m) : m.Publishable t.candidate t.nextBitmap := by
  intro id hin
  rcases hactive : m.active.allocates id with _ | _
  · refine Or.inr (h.reserved_of_new ?_)
    rw [isNew, hin, activeBitmap, ← h.pager.active, hactive]
    rfl
  · exact Or.inl rfl

/-- What a published commit leaves. -/
structure Published (P : D → Prop) (t : PagerWriteTransaction D) (m : PlainMap)
    (root : RecoveredMetadata) (t' : PagerWriteTransaction D) : Prop where
  finished : t'.finished = true
  usable : t'.pager.recoveryRequired = false
  active : t'.pager.active = root
  nextCandidateId : t'.pager.nextCandidateId = t.pager.nextCandidateId
  sound : t'.pager.Sound P (m.install t.candidate t.nextBitmap)
  quiet : (m.install t.candidate t.nextBitmap).Quiet
  healthy : Healthy t.pager.cache.device → Healthy t'.pager.cache.device

/-- From the superblock on, a commit publishes the candidate or poisons the pager. -/
lemma ends_publish (hP : DenseClosed P) (h : t.Sound P m) {root : RecoveredMetadata}
    (page : PageBytes) (hwritten : ∀ id, m.reserved id ≠ some (t.candidate, none))
    (hclean : t.pager.cache.hasDirtyPages t.candidate = false)
    (hbitmap : root.allocationBitmap = t.nextBitmap) (hvalid : root.superblock.validate = .ok ())
    (hcovers : root.superblock.validateBitmap t.nextBitmap = .ok ()) :
    (publish root page).Ends t (fun _ t' => Published P t m root t')
      (fun _ t' => Poisoned P t m t' ∧ ¬Healthy t.pager.cache.device) := by
  rw [publish, Effect.ends_bind, Effect.ends_orElse]
  refine ends_onCache ((ends_writeMetadata hP h.pager.represents (superblockSlot_pageId_lt _)
    page).mono ?_ ?_)
  · rintro _ c ⟨d, rfl, hc, -, hhealthy⟩
    have h₁ := h.sameMap hc h.pager.verified
    rw [Effect.ends_bind, Effect.ends_orElse]
    refine ends_onCache ((ends_flushDevice hP hc).mono ?_ ?_)
    · rintro _ c ⟨d', rfl, hc', -, hhealthy'⟩
      have h₂ := h.sameMap hc' h.pager.verified
      rw [Effect.ends_bind, Effect.ends_get, Effect.ends_bind, Effect.ends_orElse]
      refine ends_onCache ?_
      have hactive : t.activeBitmap = m.active := h.pager.active.symm
      change (installCandidate t.candidate t.activeBitmap root.allocationBitmap).Ends _ _ _
      rw [hactive, hbitmap]
      refine (ends_installCandidate hc').mono ?_ ?_
      · rintro _ c ⟨rfl, hok⟩
        obtain ⟨hrep, hdev, hfrom⟩ := represents_install hc' h.publishable hok.1 hok.2.2.1
          hok.2.2.2
        rw [Effect.ends_modify]
        refine ⟨rfl, h.usable, rfl, rfl, ⟨hrep, hbitmap.symm, h₂.verified_installed hfrom, hvalid,
          hbitmap ▸ hcovers⟩, ?_, ?_⟩
        · intro id
          rcases hr : (m.install t.candidate t.nextBitmap).reserved id with _ | r
          · rfl
          · obtain ⟨hr, hne⟩ := PlainMap.invalidate_reserved.mp hr
            exact absurd (h.owner id r hr) hne
        · intro hh
          change Healthy (installedCache t.candidate m.active t.nextBitmap _).device
          rw [hdev]
          exact hhealthy' (hhealthy hh)
      · rintro e c ⟨rfl, hno⟩
        -- the checks of the installation cannot fail here
        refine absurd ⟨hclean, by simp, hwritten, ?_⟩ hno
        intro id old hr
        have hnew := h.isNew_of_reserved hr
        rw [isNew, Bool.and_eq_true] at hnew
        exact hnew.1
    · rintro e c ⟨d', rfl, hc', -, hsick⟩
      refine (poisoned_fail (h₁.sameMap hc' h₁.pager.verified) _ e).mono (fun _ _ hq => hq) ?_
      intro _ t' hpoisoned
      exact ⟨⟨hpoisoned.finished, hpoisoned.recoveryRequired, hpoisoned.sound, hpoisoned.quiet⟩,
        fun hh => hsick (hhealthy hh)⟩
  · rintro e c ⟨d, rfl, hc, -, hsick⟩
    refine (poisoned_fail (h.sameMap hc h.pager.verified) _ e).mono (fun _ _ hq => hq) ?_
    intro _ t' hpoisoned
    exact ⟨⟨hpoisoned.finished, hpoisoned.recoveryRequired, hpoisoned.sound, hpoisoned.quiet⟩,
      hsick⟩

end PagerWriteTransaction
end
end TinyJoin
