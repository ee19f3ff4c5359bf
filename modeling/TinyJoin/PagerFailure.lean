import TinyJoin.PagerReads

/-! Failure atomicity of a page commit, over every run of transactions: a failure before the
superblock leaves the pager as it was, one from the superblock on refuses everything until the
device is reopened, and no failure leaves anything of the candidate. -/
namespace TinyJoin
open PageDevice PageCache

/-- What a transaction does to its pager before it ends. -/
inductive TransactionOp
  | allocate
  | write (page : Page)
  | read (id : Nat)
  | freeShared (id : Nat)
  | release (id : Nat)
  | markFailed
  | markBtreeMutated (treeId : Nat)

section
variable {D : Type} [PageDevice D] {P : D → Prop} {m : PlainMap}

def TransactionOp.run : TransactionOp → Op (PagerWriteTransaction D) Unit
  | .allocate => do
    let _ ← PagerWriteTransaction.allocatePage
    pure ()
  | .write page => PagerWriteTransaction.writeNewPage page
  | .read id => do
    let _ ← PagerWriteTransaction.readPage id
    pure ()
  | .freeShared id => PagerWriteTransaction.freeSharedPage id
  | .release id => PagerWriteTransaction.releaseNewPage id
  | .markFailed => Effect.modify PagerWriteTransaction.markFailed
  | .markBtreeMutated treeId => PagerWriteTransaction.markBtreeMutated treeId

/-- The open transactions of a pager: one begun, and any operations since, failed ones among
them. -/
inductive Pager.Opens (p : Pager D) : PagerWriteTransaction D → Prop
  | begun {t : PagerWriteTransaction D} : p.beginWrite = .ok t → Opens p t
  | step {t : PagerWriteTransaction D} (op : TransactionOp) : Opens p t → Opens p (op.run t).2

/-- The pagers that opening a device, reading and any ends of transactions lead to. -/
inductive Pager.Reached : Pager D → Prop
  | opened {d : D} {capacity : Nat} {p : Pager D} :
    Pager.withCacheCapacity d capacity = .ok p → Reached p
  | read {p : Pager D} (id : Nat) : Reached p → Reached (Pager.readPage id p).2
  | abort {p : Pager D} {t : PagerWriteTransaction D} : Reached p → p.Opens t → Reached t.abort
  | drop {p : Pager D} {t : PagerWriteTransaction D} : Reached p → p.Opens t → Reached t.drop
  | commit {p : Pager D} {t : PagerWriteTransaction D} (revision : Nat) (hash : UInt64)
    (root : Option Nat) : Reached p → p.Opens t → Reached (t.commit revision hash root).2

namespace PagerWriteTransaction
variable {t : PagerWriteTransaction D}

/-- The commit gets as far as writing the inactive superblock. -/
def AttemptsSuperblock (t : PagerWriteTransaction D) (revision : Nat) (hash : UInt64)
    (root : Option Nat) : Prop :=
  t.ensureOpen = .ok () ∧ ∃ result t', prepareCommit revision hash root t = (.ok result, t')

/-- A pager as it was before a transaction that left nothing behind. -/
structure Undone (P : D → Prop) (t : PagerWriteTransaction D) (m : PlainMap) (p : Pager D) :
    Prop where
  sound : p.Sound P (m.invalidate t.candidate)
  quiet : (m.invalidate t.candidate).Quiet
  usable : p.recoveryRequired = false
  active : p.active = t.pager.active
  nextCandidateId : p.nextCandidateId = t.pager.nextCandidateId

lemma Sound.undone_abandon (h : t.Sound P m) : Undone P t m t.abandon.pager := by
  obtain ⟨hsound, hquiet⟩ := h.abandon
  exact ⟨hsound, hquiet, h.usable, rfl, rfl⟩

lemma Sound.drop_eq (h : t.Sound P m) : t.drop = t.abandon.pager := by
  rw [drop, h.unfinished]
  rfl

/-- A commit that stops before the superblock undoes the transaction; one that attempts it
publishes or poisons. On a healthy device every commit of written pages and valid metadata
publishes. -/
lemma commit_cases (hP : DenseClosed P) (h : t.Sound P m) (revision : Nat) (hash : UInt64)
    (root : Option Nat) :
    (¬t.AttemptsSuperblock revision hash root ∧
      (∃ e, (t.commit revision hash root).1 = .error e) ∧
      Undone P t m (t.commit revision hash root).2 ∧
      ¬(Healthy t.pager.cache.device ∧ t.failed = false ∧
        (∀ id, m.reserved id ≠ some (t.candidate, none)) ∧ revision ≤ maxDatabaseRevision ∧
        ∃ pending, buildNextMetadata t.pager.active revision hash root t.nextBitmap =
          .ok pending)) ∨
    (t.AttemptsSuperblock revision hash root ∧
      (((t.commit revision hash root).1 = .ok () ∧
        (t.commit revision hash root).2.recoveryRequired = false ∧
        (t.commit revision hash root).2.Sound P (m.install t.candidate t.nextBitmap) ∧
        (m.install t.candidate t.nextBitmap).Quiet) ∨
      ((∃ e, (t.commit revision hash root).1 = .error e) ∧
        (t.commit revision hash root).2.recoveryRequired = true ∧
        (t.commit revision hash root).2.Sound P (m.invalidate t.candidate) ∧
        (m.invalidate t.candidate).Quiet ∧ ¬Healthy t.pager.cache.device))) := by
  rcases hopen : t.ensureOpen with e | ⟨⟩
  · have hsteps : commitSteps revision hash root t = (.error e, t) := by
      simp only [commitSteps, bind, Effect.get, Effect.ofExcept, hopen]
    refine Or.inl ⟨fun hattempt => ?_, ?_⟩
    · rw [hattempt.1] at hopen
      cases hopen
    · rw [commit, hsteps]
      dsimp only
      rw [h.drop_eq]
      refine ⟨⟨e, rfl⟩, h.undone_abandon, ?_⟩
      rintro ⟨-, hfailed, -⟩
      rw [h.ensureOpen_ok hfailed] at hopen
      cases hopen
  · rcases hprep : prepareCommit revision hash root t with ⟨e | ⟨published, page⟩, t₁⟩
    · have hsteps : commitSteps revision hash root t = (.error e, t₁.abandon) := by
        simp only [commitSteps, bind, Effect.get, Effect.ofExcept, hopen, Effect.orElse, hprep,
          failBeforeSuperblock, Effect.modify, Effect.fail]
      obtain ⟨c, rfl, hsound, hno⟩ := (ends_prepareCommit hP h revision hash root).error hprep
      refine Or.inl ⟨?_, ?_⟩
      · rintro ⟨-, result, t', hok⟩
        rw [hprep] at hok
        cases hok
      · rw [commit, hsteps]
        have hundone := hsound.undone_abandon
        refine ⟨⟨e, rfl⟩, ⟨hundone.sound, hundone.quiet, hundone.usable, hundone.active,
          hundone.nextCandidateId⟩, fun hh => hno ⟨hh.1, hh.2.2⟩⟩
    · have hsteps : commitSteps revision hash root t = publish published page t₁ := by
        simp only [commitSteps, bind, Effect.get, Effect.ofExcept, hopen, Effect.orElse, hprep]
      obtain ⟨c, rfl, hsound, hwritten, hclean, hbitmap, hvalid, hcovers, hhealthy⟩ :=
        (ends_prepareCommit hP h revision hash root).ok hprep
      have hpublish := ends_publish hP hsound page hwritten hclean hbitmap hvalid hcovers
      refine Or.inr ⟨⟨hopen, _, _, hprep⟩, ?_⟩
      rw [commit, hsteps]
      rcases hrun : publish published page (t.withCache c) with ⟨e | ⟨⟩, t₂⟩
      · obtain ⟨hpoisoned, hsick⟩ := hpublish.error hrun
        dsimp only
        rw [drop, hpoisoned.finished]
        exact Or.inr ⟨⟨e, rfl⟩, hpoisoned.recoveryRequired, hpoisoned.sound, hpoisoned.quiet,
          fun hh => hsick (hhealthy hh)⟩
      · have hpublished := hpublish.ok hrun
        dsimp only
        rw [drop, hpublished.finished]
        exact Or.inl ⟨rfl, hpublished.usable, hpublished.sound, hpublished.quiet⟩

/-- A page operation changes what the candidate holds and nothing of the committed pages. -/
lemma Sound.run (hP : DenseClosed P) (h : t.Sound P m) (op : TransactionOp) :
    ∃ m', (op.run t).2.Sound P m' ∧ m'.committed = m.committed ∧ t.SameBase (op.run t).2 := by
  refine @Effect.final_of_ends _ _ _ (op.run) t
    (fun t' => ∃ m', t'.Sound P m' ∧ m'.committed = m.committed ∧ t.SameBase t') ?_
  cases op with
  | allocate =>
    rw [TransactionOp.run, Effect.ends_bind]
    refine (ends_allocatePage h).mono ?_ ?_
    · rintro id t' ⟨hs, hframed, -⟩
      exact ⟨_, hs, PlainMap.reserve_committed m t.candidate id, hframed.toSameBase⟩
    · rintro _ t' ⟨hs, hframed, -⟩
      exact ⟨m, hs, rfl, hframed.toSameBase⟩
  | write page =>
    refine (ends_writeNewPage hP h page).mono ?_ ?_
    · rintro _ t' ⟨raw, -, -, hs, hframed, -⟩
      exact ⟨_, hs, rfl, hframed.toSameBase⟩
    · rintro _ t' ⟨hs, hframed, -⟩
      exact ⟨m, hs, rfl, hframed.toSameBase⟩
  | read id =>
    rw [TransactionOp.run, Effect.ends_bind]
    refine (ends_readPage hP h id).mono ?_ ?_
    · rintro _ t' ⟨-, -, hs, hframed, -⟩
      exact ⟨m, hs, rfl, hframed.toSameBase⟩
    · rintro _ t' ⟨hs, hframed, -⟩
      exact ⟨m, hs, rfl, hframed.toSameBase⟩
  | freeShared id =>
    refine (ends_freeSharedPage h id).mono ?_ ?_
    · rintro _ t' ⟨hs, hframed, -⟩
      exact ⟨m, hs, rfl, hframed.toSameBase⟩
    · rintro _ t' rfl
      exact ⟨m, h, rfl, SameBase.refl t'⟩
  | release id =>
    refine (ends_releaseNewPage h id).mono ?_ ?_
    · rintro _ t' ⟨hs, hframed, -⟩
      exact ⟨_, hs, rfl, hframed.toSameBase⟩
    · rintro _ t' rfl
      exact ⟨m, h, rfl, SameBase.refl t'⟩
  | markFailed => exact ⟨m, { h with }, rfl, ⟨rfl, rfl, rfl⟩⟩
  | markBtreeMutated treeId =>
    rw [TransactionOp.run, markBtreeMutated, Effect.ends_bind, Effect.ends_get]
    refine ends_ensureOpen ?_ (fun _ _ => ⟨m, h, rfl, SameBase.refl t⟩)
    intro _
    dsimp only
    split
    · exact ⟨m, h, rfl, SameBase.refl t⟩
    · exact ⟨m, { h with }, rfl, ⟨rfl, rfl, rfl⟩⟩

end PagerWriteTransaction

open PagerWriteTransaction

namespace Pager
variable {p : Pager D} {t : PagerWriteTransaction D}

omit [PageDevice D] in
lemma beginWrite_eq_ok (h : p.beginWrite = .ok t) :
    p.recoveryRequired = false ∧ t = p.begun p.nextCandidateId := by
  obtain ⟨⟨⟩, husable, h⟩ := Except.bind_eq_ok.mp h
  rw [ensureUsable] at husable
  split at husable
  · cases husable
  next hnot =>
  split at h
  · cases h
  · cases h
    exact ⟨by simpa using hnot, rfl⟩

/-- A transaction begins with nothing allocated but what the active root holds. -/
lemma Sound.begun (h : p.Sound P m) (hquiet : m.Quiet) (husable : p.recoveryRequired = false)
    (candidate : Nat) : (p.begun candidate).Sound P m where
  pager := ⟨h.represents, h.active, h.verified, h.valid, h.covers⟩
  reserved id := by
    rw [hquiet id, isNew]
    change false = (p.active.allocationBitmap.allocates id &&
      !p.active.allocationBitmap.allocates id)
    rw [Bool.and_not_self]
  owner id r hr := by
    rw [hquiet id] at hr
    cases hr
  newEnd id hnew := by
    change (p.active.allocationBitmap.allocates id &&
      !p.active.allocationBitmap.allocates id) = true at hnew
    rw [Bool.and_not_self] at hnew
    cases hnew
  encoded id k last hr := by
    rw [hquiet id] at hr
    cases hr
  metadata := (Superblock.validateBitmap_eq_ok.mp h.covers).2.2.1
  usable := husable
  unfinished := rfl

/-- What holds of every transaction open on a pager: it shows the pager's own committed pages. -/
lemma Opens.sound (hP : DenseClosed P) (h : p.Sound P m) (hquiet : m.Quiet) (hopens : p.Opens t) :
    ∃ m', t.Sound P m' ∧ m'.committed = m.committed ∧ t.pager.active = p.active ∧
      p.recoveryRequired = false := by
  induction hopens with
  | begun hbegun =>
    obtain ⟨husable, rfl⟩ := beginWrite_eq_ok hbegun
    exact ⟨m, h.begun hquiet husable _, rfl, rfl, husable⟩
  | step op _ ih =>
    obtain ⟨m₁, hs₁, hcommitted₁, hactive₁, husable⟩ := ih
    obtain ⟨m₂, hs₂, hcommitted₂, hbase⟩ := hs₁.run hP op
    exact ⟨m₂, hs₂, hcommitted₂.trans hcommitted₁, hbase.active.trans hactive₁, husable⟩

/-- Between transactions a pager is sound, with nothing reserved. -/
lemma Reached.sound (h : p.Reached) : ∃ m, p.Sound (fun _ => True) m ∧ m.Quiet := by
  induction h with
  | opened hopened => exact ⟨_, (sound_withCacheCapacity hopened).1, fun _ => rfl⟩
  | @read p id _ ih =>
    obtain ⟨m, hs, hquiet⟩ := ih
    refine ⟨m, ?_, hquiet⟩
    refine @Effect.final_of_ends _ _ _ (Pager.readPage id) p (fun p' => p'.Sound _ m)
      ((ends_readPage denseClosed_true hs id).mono ?_ ?_)
    · rintro _ _ ⟨c, rfl, hs', -⟩
      exact hs'
    · rintro _ _ ⟨c, rfl, hs', -⟩
      exact hs'
  | abort _ hopens ih =>
    obtain ⟨m, hs, hquiet⟩ := ih
    obtain ⟨m', hs', -⟩ := hopens.sound denseClosed_true hs hquiet
    exact ⟨_, hs'.abandon⟩
  | @drop p t _ hopens ih =>
    obtain ⟨m, hs, hquiet⟩ := ih
    obtain ⟨m', hs', -⟩ := hopens.sound denseClosed_true hs hquiet
    rw [hs'.drop_eq]
    exact ⟨_, hs'.abandon⟩
  | commit revision hash root _ hopens ih =>
    obtain ⟨m, hs, hquiet⟩ := ih
    obtain ⟨m', hs', -⟩ := hopens.sound denseClosed_true hs hquiet
    rcases commit_cases denseClosed_true hs' revision hash root with
      ⟨-, -, hundone, -⟩ | ⟨-, ⟨-, -, hpublished, hquiet'⟩ | ⟨-, -, hpoisoned, hquiet', -⟩⟩
    · exact ⟨_, hundone.sound, hundone.quiet⟩
    · exact ⟨_, hpublished, hquiet'⟩
    · exact ⟨_, hpoisoned, hquiet'⟩

/-- The pager after reads of the pages `ids` in turn. -/
def afterReads (p : Pager D) (ids : List Nat) : Pager D :=
  ids.foldl (fun p id => (Pager.readPage id p).2) p

/-- Reading page `id` gives `r`, unless the device refuses to read it. -/
def ReadsAs (p : Pager D) (id : Nat) (r : Result Page) : Prop :=
  (Pager.readPage id p).1 = r ∨
    ∃ e, (Pager.readPage id p).1 = .error e ∧ (PageDevice.readPage id p.cache.device).1 = .error e

lemma Sound.readsAs (hP : DenseClosed P) (h : p.Sound P m) (hquiet : m.Quiet) (id : Nat) :
    p.ReadsAs id (p.expected m id) := by
  rcases hread : Pager.readPage id p with ⟨e | page, p'⟩
  · obtain ⟨c, rfl, -, hwhy⟩ := (ends_readPage hP h id).error hread
    rcases hwhy with hexpected | hreserved | hrefused
    · exact Or.inl (by rw [hread, hexpected])
    · exact absurd hquiet hreserved
    · exact Or.inr ⟨e, by rw [hread], hrefused⟩
  · obtain ⟨c, rfl, -, hexpected⟩ := (ends_readPage hP h id).ok hread
    exact Or.inl (by rw [hread, hexpected])

lemma Sound.afterReads (hP : DenseClosed P) (h : p.Sound P m) (ids : List Nat) :
    (p.afterReads ids).Sound P m ∧ (p.afterReads ids).active = p.active ∧
      (p.afterReads ids).recoveryRequired = p.recoveryRequired := by
  induction ids generalizing p with
  | nil => exact ⟨h, rfl, rfl⟩
  | cons id ids ih =>
    have hstep : (Pager.readPage id p).2.Sound P m ∧ (Pager.readPage id p).2.active = p.active ∧
        (Pager.readPage id p).2.recoveryRequired = p.recoveryRequired := by
      refine @Effect.final_of_ends _ _ _ (Pager.readPage id) p (fun p' => p'.Sound P m ∧
        p'.active = p.active ∧ p'.recoveryRequired = p.recoveryRequired)
        ((ends_readPage hP h id).mono ?_ ?_)
      · rintro _ _ ⟨c, rfl, hs, -⟩
        exact ⟨hs, rfl, rfl⟩
      · rintro _ _ ⟨c, rfl, hs, -⟩
        exact ⟨hs, rfl, rfl⟩
    obtain ⟨hs, hactive, hrequired⟩ := ih hstep.1
    exact ⟨hs, hactive.trans hstep.2.1, hrequired.trans hstep.2.2⟩

/-- A usable pager with the same active root and committed pages reads the same, however many reads
came before. -/
lemma readsAs_same (hP : DenseClosed P) {p p' : Pager D} {m m' : PlainMap} (h : p.Sound P m)
    (hquiet : m.Quiet) (h' : p'.Sound P m') (hquiet' : m'.Quiet) (hactive : p'.active = p.active)
    (hrequired : p'.recoveryRequired = p.recoveryRequired) (hsame : m'.committed = m.committed)
    (id : Nat) : ∃ r, ∀ ids, (p.afterReads ids).ReadsAs id r ∧ (p'.afterReads ids).ReadsAs id r := by
  refine ⟨p.expected m id, ?_⟩
  intro ids
  obtain ⟨hs, hactive₁, hrequired₁⟩ := h.afterReads hP ids
  obtain ⟨hs', hactive₂, hrequired₂⟩ := h'.afterReads hP ids
  have hread := hs.readsAs hP hquiet id
  have hread' := hs'.readsAs hP hquiet' id
  rw [expected, ensureUsable] at hread hread' ⊢
  rw [hactive₁, hrequired₁] at hread
  rw [hactive₂, hrequired₂, hactive, hrequired, hsame] at hread'
  exact ⟨hread, hread'⟩

/-- While pages, candidate numbers and generations last and the device does not fail, a new
transaction allocates a page, writes it and commits, whatever page it is and whatever root, of the
pages allocated, it publishes. -/
def CommitsAgain (p : Pager D) : Prop :=
  Healthy p.cache.device → p.nextCandidateId + 1 < 2 ^ 64 →
  p.active.superblock.generation + 1 < 2 ^ 64 →
  (∃ id, firstDataPageId ≤ id ∧ id < maxPageCount ∧
    p.active.allocationBitmap.allocates id = false) →
  ∃ t id t₁, p.beginWrite = .ok t ∧ allocatePage t = (.ok id, t₁) ∧
    ∀ page : Page, page.Valid → page.id = id → ∃ t₂, writeNewPage page t₁ = (.ok (), t₂) ∧
      ∀ revision hash root, p.active.superblock.databaseRevision ≤ revision →
        revision ≤ maxDatabaseRevision →
        (∀ k, root = some k → k = id ∨
          firstDataPageId ≤ k ∧ p.active.allocationBitmap.allocates k = true) →
        (t₂.commit revision hash root).1 = .ok ()

omit [PageDevice D] in
lemma beginWrite_of_usable (husable : p.recoveryRequired = false)
    (hid : p.nextCandidateId + 1 < 2 ^ 64) :
    p.beginWrite = .ok (p.begun p.nextCandidateId) := by
  rw [beginWrite, ensureUsable, husable]
  exact if_neg (Nat.not_le.mpr hid)

/-- The first page a transaction selects is on the device or the next one after it. -/
lemma Sound.selectPage_begun (h : p.Sound P m) (candidate : Nat)
    (hfree : ∃ id, firstDataPageId ≤ id ∧ id < maxPageCount ∧
      p.active.allocationBitmap.allocates id = false) :
    ∃ id, (p.begun candidate).selectPage = some id ∧ id ≤ pageCount p.cache.device ∧
      firstDataPageId ≤ id := by
  obtain ⟨k, hlow, hmax, hk⟩ := hfree
  rcases hfirst : p.active.allocationBitmap.firstFree p.active.allocationBitmap firstDataPageId
    maxPageCount with _ | id
  · have := AllocationBitmap.firstFree_eq_none hfirst hlow hmax hmax
    rw [hk] at this
    exact absurd this (by simp)
  · obtain ⟨hge, -, -, -, hbefore⟩ := AllocationBitmap.firstFree_eq_some hfirst
    have hselect : (p.begun candidate).selectPage = some id := by
      rw [selectPage]
      have hsearch : (p.begun candidate).activeBitmap.firstFree (p.begun candidate).nextBitmap
          (p.begun candidate).nextAllocationPageId maxPageCount = some id := hfirst
      rw [hsearch]
    refine ⟨id, hselect, ?_, hge⟩
    by_contra hpast
    -- the page one past the end would be allocated, and so stored on the device
    have hin : m.active.allocates (pageCount p.cache.device) = true := by
      rw [h.active]
      rcases hbefore _ h.represents.metadata (by omega) with hin | hin
      · exact hin
      · exact hin
    obtain ⟨page, hpage⟩ := Option.isSome_iff_exists.mp
      ((h.represents.domain _).mpr ⟨h.represents.metadata, hin⟩)
    exact absurd (Represents.lt_pageCount (h.represents.stored _ _ hpage)) (Nat.lt_irrefl _)

lemma Sound.commitsAgain (hP : DenseClosed P) (h : p.Sound P m) (hquiet : m.Quiet)
    (husable : p.recoveryRequired = false) : p.CommitsAgain := by
  intro hhealthy hcandidate hgeneration hfree
  obtain ⟨k, hselect, hend, hlow⟩ := h.selectPage_begun p.nextCandidateId hfree
  have hs := h.begun hquiet husable p.nextCandidateId
  rcases hallocate : allocatePage (p.begun p.nextCandidateId) with ⟨e | id, t₁⟩
  · obtain ⟨-, -, -, hno⟩ := (ends_allocatePage hs).error hallocate
    exact absurd ⟨rfl, k, hselect, Nat.le_trans hend (Nat.le_max_left _ _), hlow⟩ hno
  obtain ⟨hs₁, hframed₁, hactive, -, hid, -, hnext₁, hhealthy₁⟩ :=
    (ends_allocatePage hs).ok hallocate
  have hnone : m.reserved id = none := hquiet id
  have hnew : t₁.isNew id = true := by
    rw [isNew, activeBitmap, hframed₁.active, hnext₁ id, if_pos rfl]
    change (true && !p.active.allocationBitmap.allocates id) = true
    rw [show p.active.allocationBitmap.allocates id = false from hactive]
    rfl
  refine ⟨_, id, t₁, beginWrite_of_usable husable hcandidate, hallocate, ?_⟩
  rintro page hvalid rfl
  rcases hwrite : writeNewPage page t₁ with ⟨e | ⟨⟩, t₂⟩
  · obtain ⟨-, -, -, hno⟩ := (ends_writeNewPage hP hs₁ page).error hwrite
    exact absurd ⟨hhealthy₁ hhealthy, hframed₁.failed, hnew, hvalid⟩ hno
  obtain ⟨raw, -, -, hs₂, hframed₂, hnext₂, hhealthy₂⟩ :=
    (ends_writeNewPage hP hs₁ page).ok hwrite
  refine ⟨t₂, rfl, ?_⟩
  intro revision hash root hforward hrevision hroot
  have hactive₂ : t₂.pager.active = p.active := hframed₂.active.trans hframed₁.active
  have hallocates : ∀ k, t₂.nextBitmap.allocates k =
      if k = page.id then true else p.active.allocationBitmap.allocates k := by
    intro k
    rw [hnext₂, hnext₁ k]
    rfl
  have hwritten : ∀ k, ((m.reserve (p.begun p.nextCandidateId).candidate page.id).write
      t₁.candidate page.id raw).reserved k ≠ some (t₂.candidate, none) := by
    intro k hk
    by_cases hkid : k = page.id
    · subst hkid
      rw [PlainMap.write_reserved_self, Option.some.injEq, Prod.mk.injEq] at hk
      cases hk.2
    · rw [PlainMap.write_reserved_of_ne _ _ _ hkid, PlainMap.reserved_reserve hnone,
        if_neg hkid, hquiet k] at hk
      cases hk
  have hpending := @buildNextMetadata_of_valid t₂.pager.active revision hash root t₂.nextBitmap
    (by rw [hactive₂]; exact h.valid) (by rw [hactive₂]; exact h.covers)
    (by rw [hactive₂]; exact hgeneration) (by rw [hactive₂]; exact hforward) hrevision
    hs₂.metadata (by
      intro k hk
      rw [hallocates k]
      rcases hroot k hk with rfl | ⟨hklow, hkin⟩
      · exact ⟨hid, if_pos rfl⟩
      · rw [hkin, ite_self]
        exact ⟨hklow, rfl⟩)
  have hready : Healthy t₂.pager.cache.device := hhealthy₂ (hhealthy₁ hhealthy)
  rcases commit_cases hP hs₂ revision hash root with
    ⟨-, -, -, hno⟩ | ⟨-, ⟨hok, -⟩ | ⟨-, -, -, -, hsick⟩⟩
  · exact absurd ⟨hready, hframed₂.failed.trans hframed₁.failed, hwritten, hrevision, hpending⟩ hno
  · exact hok
  · exact absurd hready hsick

/-- A pager that must be reopened answers nothing and begins nothing, and stays as it is. -/
lemma refused_of_recoveryRequired (hrequired : p.recoveryRequired = true) :
    (∀ id, Pager.readPage id p = (.error (recoveryRequiredError
      "The previous metadata publication had an unknown outcome"), p)) ∧
    p.beginWrite = .error (recoveryRequiredError
      "The previous metadata publication had an unknown outcome") := by
  have hfast : ∀ id, p.fastIndex id = none := by
    intro id
    rw [fastIndex, hrequired]
    simp
  refine ⟨?_, ?_⟩
  · intro id
    simp only [Pager.readPage, bind, Effect.get, hfast id, readPageChecked, Effect.ofExcept,
      ensureUsable, hrequired, if_true]
  · rw [beginWrite, ensureUsable, hrequired]
    rfl

/-- Failure atomicity of a page commit. -/
theorem commit_failure_is_atomic (hreached : p.Reached) (hopens : p.Opens t) (revision : Nat)
    (hash : UInt64) (root : Option Nat) :
    let p' := (t.commit revision hash root).2
    ((∃ e, (t.commit revision hash root).1 = .error e) →
      (¬t.AttemptsSuperblock revision hash root →
        p'.recoveryRequired = false ∧ p'.active = p.active ∧
        (∀ id, ∃ r, ∀ ids, (p.afterReads ids).ReadsAs id r ∧ (p'.afterReads ids).ReadsAs id r) ∧
        p'.CommitsAgain) ∧
      (t.AttemptsSuperblock revision hash root →
        p'.recoveryRequired = true ∧
        (∀ id, Pager.readPage id p' = (.error (recoveryRequiredError
          "The previous metadata publication had an unknown outcome"), p')) ∧
        p'.beginWrite = .error (recoveryRequiredError
          "The previous metadata publication had an unknown outcome")) ∧
      p'.Clear t.candidate) ∧
    t.abort.Clear t.candidate ∧ t.drop.Clear t.candidate := by
  obtain ⟨m, hs, hquiet⟩ := hreached.sound
  obtain ⟨m', hs', hcommitted, hactive, husable⟩ := hopens.sound denseClosed_true hs hquiet
  have habandoned : t.abandon.pager.Clear t.candidate :=
    hs'.abandon.1.clear hs'.abandon.2 t.candidate
  refine ⟨?_, habandoned, by rw [hs'.drop_eq]; exact habandoned⟩
  rintro ⟨e, herror⟩
  rcases commit_cases denseClosed_true hs' revision hash root with
    ⟨hbefore, -, hundone, -⟩ | ⟨hattempt, ⟨hok, -⟩ | ⟨-, hrequired, hpoisoned, hquiet', -⟩⟩
  · refine ⟨fun _ => ⟨hundone.usable, hundone.active.trans hactive, ?_,
      hundone.sound.commitsAgain denseClosed_true hundone.quiet hundone.usable⟩,
      fun hattempt => absurd hattempt hbefore, hundone.sound.clear hundone.quiet _⟩
    exact readsAs_same denseClosed_true hs hquiet hundone.sound hundone.quiet
      (hundone.active.trans hactive) (hundone.usable.trans husable.symm) hcommitted
  · rw [hok] at herror
    cases herror
  · exact ⟨fun hbefore => absurd hattempt hbefore,
      fun _ => ⟨hrequired, refused_of_recoveryRequired hrequired⟩,
      hpoisoned.clear hquiet' _⟩

/-- A page allocated and never written stops a commit on a new database before its superblock. -/
theorem commit_failure_is_atomic_unwritten :
    ∃ (p : Pager MemoryPageDevice) (t : PagerWriteTransaction MemoryPageDevice),
      Pager.withCacheCapacity ⟨[], 0⟩ pageSize = .ok p ∧ p.Opens t ∧
      (∃ e, (t.commit 0 0 none).1 = .error e) ∧ (t.commit 0 0 none).2.active = p.active ∧
      (t.commit 0 0 none).2.CommitsAgain := by
  obtain ⟨p, hopened, hactive, hid, -⟩ := @withCacheCapacity_empty MemoryPageDevice _ ⟨[], 0⟩
    pageSize trivial rfl (by decide)
  obtain ⟨hs, husable⟩ := sound_withCacheCapacity hopened
  have hbegin : p.beginWrite = .ok (p.begun p.nextCandidateId) :=
    beginWrite_of_usable husable (by rw [hid]; decide)
  have hreached : p.Reached := .opened hopened
  have hopens : p.Opens ((TransactionOp.allocate).run (p.begun p.nextCandidateId)).2 :=
    .step .allocate (.begun hbegin)
  have hb := hs.begun (fun _ => rfl) husable p.nextCandidateId
  obtain ⟨k, hselect, hend, hlow⟩ := hs.selectPage_begun p.nextCandidateId
    ⟨firstDataPageId, Nat.le_refl _, by decide, by rw [hactive]; simp⟩
  refine ⟨p, _, hopened, hopens, ?_⟩
  rcases hallocate : allocatePage (p.begun p.nextCandidateId) with ⟨e | id, t₁⟩
  · obtain ⟨-, -, -, hno⟩ := (ends_allocatePage hb).error hallocate
    exact absurd ⟨rfl, k, hselect, Nat.le_trans hend (Nat.le_max_left _ _), hlow⟩ hno
  have hrun : ((TransactionOp.allocate).run (p.begun p.nextCandidateId)).2 = t₁ := by
    simp only [TransactionOp.run, bind, hallocate, pure]
  rw [hrun] at hopens ⊢
  obtain ⟨hs₁, hframed, -⟩ := (ends_allocatePage hb).ok hallocate
  -- the page is reserved and not written
  have hunwritten : (PlainMap.reserve (PlainMap.initial p.active.allocationBitmap
      (pages p.cache.device)) (p.begun p.nextCandidateId).candidate id).reserved id =
      some (t₁.candidate, none) := by
    rw [hframed.candidate, PlainMap.reserved_reserve rfl, if_pos rfl]
  have hfailed : ∃ e, (t₁.commit 0 0 none).1 = .error e ∧ ¬t₁.AttemptsSuperblock 0 0 none := by
    rcases commit_cases denseClosed_true hs₁ 0 0 none with ⟨hbefore, ⟨e, he⟩, -⟩ | ⟨hattempt, -⟩
    · exact ⟨e, he, hbefore⟩
    · obtain ⟨-, result, t', hprepared⟩ := hattempt
      obtain ⟨c, -, -, hwritten, -⟩ := (ends_prepareCommit denseClosed_true hs₁ 0 0 none).ok
        hprepared
      exact absurd hunwritten (hwritten id)
  obtain ⟨e, herror, hbefore⟩ := hfailed
  obtain ⟨hfail, -, -⟩ := commit_failure_is_atomic hreached hopens 0 0 none
  obtain ⟨-, hsame, -, hagain⟩ := (hfail ⟨e, herror⟩).1 hbefore
  exact ⟨⟨e, herror⟩, hsame, hagain⟩

end Pager
end
end TinyJoin
