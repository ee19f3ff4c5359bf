import TinyJoin.PagerFailure

/-! What an allocation of a write transaction returns, after any operations of it: a page that neither
the active root nor the candidate allocates, until every data page is taken. The file stays dense,
since the search never starts past its end. -/
namespace TinyJoin
open PageDevice PageCache

section
variable {D : Type} [PageDevice D] {P : D → Prop} {m : PlainMap}

/-- A device keeps the pages it has. -/
lemma denseClosed_pageCount (n : Nat) : DenseClosed (fun d : D => n ≤ pageCount d) where
  read d id h := (readPage_ends d id).mono
    (fun _ d' hd' => by rw [pageCount, hd'.1]; exact h)
    (fun _ d' hd' => by rw [pageCount, hd'.1]; exact h)
  write d id page h _ := by
    refine (writePage_ends d id page).mono ?_ (fun _ d' hd' => Nat.le_trans h hd'.1)
    rintro _ d' ⟨hid, hpages, -⟩
    rw [pageCount, hpages]
    exact Nat.le_trans h (Bytes.length_put_le hid)
  writePages d first run h _ := by
    refine (writePages_ends d first run).mono ?_ (fun _ d' hd' => Nat.le_trans h hd'.1)
    rintro _ d' ⟨hfirst, hpages, -⟩
    rw [pageCount, hpages]
    exact Nat.le_trans h (Bytes.length_put_le hfirst)
  flush d h := (flush_ends d).mono
    (fun _ d' hd' => by rw [pageCount, hd'.1]; exact h)
    (fun _ d' hd' => by rw [pageCount, hd'.1]; exact h)

namespace PagerWriteTransaction
variable {t t' : PagerWriteTransaction D} {id : Nat}

/-- The end of the file, counting the pages allocated past it. -/
def fileEnd (t : PagerWriteTransaction D) : Nat :=
  max (pageCount t.pager.cache.device) t.newPageEnd

/-- The next search starts on a data page, in the file or right behind it. -/
structure Searches (t : PagerWriteTransaction D) : Prop where
  lower : firstDataPageId ≤ t.nextAllocationPageId
  upper : t.nextAllocationPageId ≤ t.fileEnd

/-- The state of a transaction stands on any property that its device has. -/
lemma Sound.on {Q : D → Prop} (h : t.Sound P m) (hdevice : Q t.pager.cache.device) : t.Sound Q m where
  pager := { h.pager with represents := { h.pager.represents with dense := hdevice } }
  reserved := h.reserved
  owner := h.owner
  newEnd := h.newEnd
  encoded := h.encoded
  metadata := h.metadata
  usable := h.usable
  unfinished := h.unfinished

/-- Whatever a transaction does, the pages of the file stay. -/
lemma Sound.pageCount_le (h : t.Sound P m) (op : TransactionOp) :
    pageCount t.pager.cache.device ≤ pageCount (op.run t).2.pager.cache.device := by
  obtain ⟨m', h', -⟩ := (h.on (Nat.le_refl _)).run
    (denseClosed_pageCount (pageCount t.pager.cache.device)) op
  exact h'.pager.represents.dense

/-- Every page either root allocates is in the file. -/
lemma Sound.lt_fileEnd (h : t.Sound P m)
    (hin : t.activeBitmap.allocates id = true ∨ t.nextBitmap.allocates id = true) :
    id < t.fileEnd := by
  have hstored : t.activeBitmap.allocates id = true → id < t.fileEnd := by
    intro hactive
    have hactive : m.active.allocates id = true := by
      rw [h.pager.active]
      exact hactive
    refine Nat.lt_of_lt_of_le ?_ (Nat.le_max_left _ _)
    by_cases hlow : firstDataPageId ≤ id
    · obtain ⟨page, hpage⟩ := Option.isSome_iff_exists.mp
        ((h.pager.represents.domain id).mpr ⟨hlow, hactive⟩)
      exact Represents.lt_pageCount (h.pager.represents.stored id page hpage)
    · exact Nat.lt_of_lt_of_le (Nat.not_le.mp hlow) h.pager.represents.metadata
  cases hactive : t.activeBitmap.allocates id with
  | true => exact hstored hactive
  | false =>
    have hnew : t.isNew id = true := by
      rw [isNew, hactive, hin.resolve_left (by rw [hactive]; exact Bool.false_ne_true)]
      rfl
    exact Nat.lt_of_lt_of_le (h.newEnd id hnew) (Nat.le_max_right _ _)

/-- The page selected is a data page, in the file or right behind it. -/
lemma Sound.selectPage_dense (h : t.Sound P m) (hs : t.Searches) (hselect : t.selectPage = some id) :
    firstDataPageId ≤ id ∧ id ≤ t.fileEnd := by
  rw [selectPage] at hselect
  split at hselect
  · next hfirst =>
    obtain rfl := Option.some.inj hselect
    obtain ⟨hge, -, -, -, hbefore⟩ := AllocationBitmap.firstFree_eq_some hfirst
    refine ⟨Nat.le_trans hs.lower hge, ?_⟩
    -- were it further on, the page right behind the file would be allocated
    by_contra hpast
    exact absurd (h.lt_fileEnd (hbefore t.fileEnd hs.upper (Nat.not_le.mp hpast)))
      (Nat.lt_irrefl _)
  · obtain ⟨hge, hlt, -⟩ := AllocationBitmap.firstFree_eq_some hselect
    have hupper := hs.upper
    exact ⟨hge, by omega⟩

omit [PageDevice D] in
/-- No page is selected only when every data page is taken. -/
lemma selectPage_eq_none (hselect : t.selectPage = none) (hlow : firstDataPageId ≤ id)
    (hmax : id < maxPageCount) :
    t.activeBitmap.allocates id = true ∨ t.nextBitmap.allocates id = true := by
  rw [selectPage] at hselect
  split at hselect
  · cases hselect
  · next hfirst =>
    by_cases hstart : t.nextAllocationPageId ≤ id
    · exact AllocationBitmap.firstFree_eq_none hfirst hstart hmax hmax
    · exact AllocationBitmap.firstFree_eq_none hselect hlow (Nat.not_le.mp hstart) hmax

/-- What one allocation does, whatever it is asked after: it takes the page selected, and is refused
only by a failed transaction or a full database. -/
lemma ends_allocatePage_searches (h : t.Sound P m) (hs : t.Searches) : allocatePage.Ends t
    (fun id t' => t.selectPage = some id ∧ t'.Searches)
    (fun e t' => t' = t ∧ (t.failed = true ∧ t.ensureOpen = .error e ∨
      e = databaseFull ∧ t.selectPage = none)) := by
  rw [allocatePage, Effect.ends_bind, Effect.ends_get]
  refine ends_ensureOpen ?_ ?_
  · intro hfailed
    cases hselect : t.selectPage with
    | none => exact ⟨rfl, .inr ⟨rfl, rfl⟩⟩
    | some id =>
      obtain ⟨hlow, hend⟩ := h.selectPage_dense hs hselect
      obtain ⟨hactive, -⟩ := selectPage_free hselect
      have hmax := selectPage_lt hselect
      have hact : t.activeBitmap = m.active := h.pager.active.symm
      have hend' : id ≤ max (pageCount t.pager.cache.device) t.newPageEnd := hend
      dsimp only
      rw [Effect.ends_bind, Effect.ends_modify, if_neg (Nat.not_lt.mpr hend'), Effect.ends_bind]
      refine ends_onCache ?_
      rw [hact]
      refine (ends_reserveCandidatePage h.pager.represents t.candidate id).mono ?_ ?_
      · rintro _ c ⟨-, -, -, hdevice⟩
        rw [Effect.ends_bind]
        refine (ends_setNextBitmap true hlow hmax).mono ?_ (fun _ _ hf => hf.elim)
        rintro _ t' ⟨bitmap, rfl, -⟩
        rw [Effect.ends_bind, Effect.ends_modify]
        refine ⟨rfl, ?_, ?_⟩
        · change firstDataPageId ≤ if id + 1 = maxPageCount then firstDataPageId else id + 1
          split
          · exact Nat.le_refl _
          · omega
        · change (if id + 1 = maxPageCount then firstDataPageId else id + 1) ≤
            max (pageCount c.device) (max t.newPageEnd (id + 1))
          split <;> omega
      · rintro _ c ⟨-, hno⟩
        exact absurd ⟨hlow, hmax, hact ▸ hactive, h.owner⟩ hno
  · intro e herror
    refine ⟨rfl, .inl ⟨?_, herror⟩⟩
    cases hfailed : t.failed with
    | true => rfl
    | false =>
      rw [h.ensureOpen_ok hfailed] at herror
      cases herror

/-- The transaction keeps where its next search starts and how far the new pages reach. -/
def SameSearch (t t' : PagerWriteTransaction D) : Prop :=
  t'.nextAllocationPageId = t.nextAllocationPageId ∧ t'.newPageEnd = t.newPageEnd

omit [PageDevice D] in
lemma sameSearch_refl (t : PagerWriteTransaction D) : t.SameSearch t := ⟨rfl, rfl⟩

omit [PageDevice D] in
lemma sameSearch_onCache {α : Type} (action : Op (PageCache D) α) :
    (onCache action).Ends t (fun _ t' => t.SameSearch t') (fun _ t' => t.SameSearch t') :=
  Effect.ends_of_final ⟨rfl, rfl⟩

omit [PageDevice D] in
lemma sameSearch_setNextBitmap (id : Nat) (allocated : Bool) :
    (setNextBitmap id allocated).Ends t (fun _ t' => t.SameSearch t')
      (fun _ t' => t.SameSearch t') := by
  rw [setNextBitmap, Effect.ends_bind, Effect.ends_get, Effect.ends_bind, Effect.ends_ofExcept]
  exact ⟨fun _ _ => ⟨rfl, rfl⟩, fun _ _ => ⟨rfl, rfl⟩⟩

/-- Where an operation other than an allocation leaves the next search: it may go back, to a data
page released. -/
def SearchesFrom (t t' : PagerWriteTransaction D) : Prop :=
  t'.newPageEnd = t.newPageEnd ∧ t'.nextAllocationPageId ≤ t.nextAllocationPageId ∧
    (firstDataPageId ≤ t.nextAllocationPageId → firstDataPageId ≤ t'.nextAllocationPageId)

omit [PageDevice D] in
lemma SameSearch.searchesFrom (h : t.SameSearch t') : t.SearchesFrom t' :=
  ⟨h.2, Nat.le_of_eq h.1, fun hlow => h.1 ▸ hlow⟩

lemma searchesFrom_run (op : TransactionOp) (hop : op ≠ .allocate) :
    t.SearchesFrom (op.run t).2 := by
  refine @Effect.final_of_ends _ _ _ op.run t (fun t' => t.SearchesFrom t') ?_
  cases op with
  | allocate => exact absurd rfl hop
  | write page =>
    rw [TransactionOp.run, writeNewPage, Effect.ends_bind, Effect.ends_get]
    refine ends_ensureOpen (fun _ => ?_) (fun _ _ => (sameSearch_refl t).searchesFrom)
    split
    · exact (sameSearch_refl t).searchesFrom
    · rw [Effect.ends_bind, Effect.ends_ofExcept]
      refine ⟨fun bytes _ => ?_, fun _ _ => (sameSearch_refl t).searchesFrom⟩
      exact (sameSearch_onCache _).mono (fun _ _ h => h.searchesFrom) (fun _ _ h => h.searchesFrom)
  | read id =>
    rw [TransactionOp.run, readPage, Effect.ends_bind, Effect.ends_bind, Effect.ends_get]
    refine ends_ensureOpen (fun _ => ?_) (fun _ _ => (sameSearch_refl t).searchesFrom)
    rw [Effect.ends_bind, Effect.ends_ofExcept]
    refine ⟨fun _ _ => ?_, fun _ _ => (sameSearch_refl t).searchesFrom⟩
    rw [Effect.ends_bind, Effect.ends_ofExcept]
    refine ⟨fun allocated _ => ?_, fun _ _ => (sameSearch_refl t).searchesFrom⟩
    split
    · exact (sameSearch_refl t).searchesFrom
    · rw [Effect.ends_bind]
      refine (sameSearch_onCache _).mono (fun bytes t' h => ?_) (fun _ _ h => h.searchesFrom)
      rw [Effect.ends_ofExcept]
      exact ⟨fun _ _ => h.searchesFrom, fun _ _ => h.searchesFrom⟩
  | freeShared id =>
    rw [TransactionOp.run, freeSharedPage, Effect.ends_bind, Effect.ends_get]
    refine ends_ensureOpen (fun _ => ?_) (fun _ _ => (sameSearch_refl t).searchesFrom)
    rw [Effect.ends_bind, Effect.ends_ofExcept]
    refine ⟨fun _ _ => ?_, fun _ _ => (sameSearch_refl t).searchesFrom⟩
    split
    · exact (sameSearch_refl t).searchesFrom
    · split
      · exact (sameSearch_refl t).searchesFrom
      · exact (sameSearch_setNextBitmap id false).mono (fun _ _ h => h.searchesFrom)
          (fun _ _ h => h.searchesFrom)
  | release id =>
    rw [TransactionOp.run, releaseNewPage, Effect.ends_bind, Effect.ends_get]
    refine ends_ensureOpen (fun _ => ?_) (fun _ _ => (sameSearch_refl t).searchesFrom)
    rw [Effect.ends_bind, Effect.ends_ofExcept]
    refine ⟨fun _ hdata => ?_, fun _ _ => (sameSearch_refl t).searchesFrom⟩
    split
    · exact (sameSearch_refl t).searchesFrom
    · rw [Effect.ends_bind]
      refine (sameSearch_onCache _).mono (fun _ t₁ h₁ => ?_) (fun _ _ h => h.searchesFrom)
      rw [Effect.ends_bind]
      refine (sameSearch_setNextBitmap id false).mono (fun _ t₂ h₂ => ?_) (fun _ t₂ h₂ => ?_)
      · rw [Effect.ends_modify]
        have hsame : t₂.nextAllocationPageId = t.nextAllocationPageId := h₂.1.trans h₁.1
        refine ⟨h₂.2.trans h₁.2, ?_, fun hlow => ?_⟩
        · change min t₂.nextAllocationPageId id ≤ _
          rw [hsame]
          exact Nat.min_le_left _ _
        · change firstDataPageId ≤ min t₂.nextAllocationPageId id
          rw [hsame]
          exact Nat.le_min.mpr ⟨hlow, (ensureDataPage_eq_ok hdata).1⟩
      · exact SameSearch.searchesFrom ⟨h₂.1.trans h₁.1, h₂.2.trans h₁.2⟩
  | markFailed => exact (sameSearch_refl t).searchesFrom
  | markBtreeMutated treeId =>
    rw [TransactionOp.run, markBtreeMutated, Effect.ends_bind, Effect.ends_get]
    refine ends_ensureOpen (fun _ => ?_) (fun _ _ => (sameSearch_refl t).searchesFrom)
    dsimp only
    split
    · exact (sameSearch_refl t).searchesFrom
    · exact SameSearch.searchesFrom ⟨rfl, rfl⟩

/-- Every operation keeps the next search within the file. -/
lemma Searches.run (h : t.Sound P m) (hs : t.Searches) (op : TransactionOp) :
    (op.run t).2.Searches := by
  by_cases hop : op = .allocate
  · subst hop
    refine @Effect.final_of_ends _ _ _ (TransactionOp.run .allocate) t
      (fun t' : PagerWriteTransaction D => t'.Searches) ?_
    rw [TransactionOp.run, Effect.ends_bind]
    exact (ends_allocatePage_searches h hs).mono (fun _ _ h' => h'.2) (fun _ _ h' => h'.1 ▸ hs)
  · obtain ⟨hnew, hnext, hlow⟩ := searchesFrom_run (t := t) op hop
    have hcount := h.pageCount_le op
    refine ⟨hlow hs.lower, Nat.le_trans hnext (Nat.le_trans hs.upper ?_)⟩
    rw [fileEnd, fileEnd, hnew]
    omega

/-- The pages held after an operation, of those held before it: an allocation that succeeds adds its
page, and a release that succeeds takes its page away. -/
def heldAfter (t : PagerWriteTransaction D) (held : List Nat) : TransactionOp → List Nat
  | .allocate =>
    match (allocatePage t).1 with
    | .ok id => id :: held
    | .error _ => held
  | .release id =>
    match (releaseNewPage id t).1 with
    | .ok _ => held.erase id
    | .error _ => held
  | _ => held

/-- The pages held are those that the candidate's bitmap has and the active one has not. -/
structure Holds (t : PagerWriteTransaction D) (held : List Nat) : Prop where
  nodup : held.Nodup
  mem_iff : ∀ id, id ∈ held ↔ t.isNew id = true

omit [PageDevice D] in
/-- An operation that changes neither bitmap at a new page keeps what is held. -/
lemma Holds.congr {held : List Nat} (h : t.Holds held) (hactive : t'.activeBitmap = t.activeBitmap)
    (hnext : ∀ k, t.activeBitmap.allocates k = false →
      t'.nextBitmap.allocates k = t.nextBitmap.allocates k) : t'.Holds held where
  nodup := h.nodup
  mem_iff k := by
    rw [h.mem_iff k, isNew, isNew, hactive]
    cases hk : t.activeBitmap.allocates k with
    | true => rw [Bool.not_true, Bool.and_false, Bool.and_false]
    | false => rw [hnext k hk]

lemma Holds.run (hP : DenseClosed P) (h : t.Sound P m) {held : List Nat} (hheld : t.Holds held)
    (op : TransactionOp) : (op.run t).2.Holds (heldAfter t held op) := by
  cases op with
  | allocate =>
    rw [heldAfter]
    have hends := ends_allocatePage h
    rcases hrun : allocatePage t with ⟨e | id, t'⟩
    · obtain ⟨-, hframed, hnext, -⟩ := hends.error hrun
      have hsame : (TransactionOp.allocate.run t).2 = t' := by
        simp only [TransactionOp.run, bind, hrun]
      rw [hsame]
      exact hheld.congr (congrArg RecoveredMetadata.allocationBitmap hframed.active)
        (fun k _ => by rw [hnext])
    · obtain ⟨-, hframed, hactive, hfree, -, -, hnext, -⟩ := hends.ok hrun
      have hsame : (TransactionOp.allocate.run t).2 = t' := by
        simp only [TransactionOp.run, bind, hrun, pure]
      have hbase : t'.activeBitmap = t.activeBitmap :=
        congrArg RecoveredMetadata.allocationBitmap hframed.active
      rw [hsame]
      constructor
      · refine List.nodup_cons.mpr ⟨fun hmem => ?_, hheld.nodup⟩
        have hnew := (hheld.mem_iff id).mp hmem
        rw [isNew, hfree, Bool.false_and] at hnew
        cases hnew
      · intro k
        rw [List.mem_cons, hheld.mem_iff k, isNew, isNew, hbase, hnext k]
        by_cases hk : k = id
        · subst hk
          rw [if_pos rfl, hactive]
          exact ⟨fun _ => rfl, fun _ => .inl rfl⟩
        · rw [if_neg hk]
          exact ⟨fun h => h.resolve_left hk, .inr⟩
  | release id =>
    rw [heldAfter]
    have hends := ends_releaseNewPage h id
    rcases hrun : releaseNewPage id t with ⟨e | ⟨⟩, t'⟩
    · have hkept := hends.error hrun
      have hsame : ((TransactionOp.release id).run t).2 = t := by
        rw [TransactionOp.run, hrun]
        exact hkept
      rw [hsame]
      exact hheld
    · obtain ⟨-, hframed, hnew, hnext⟩ := hends.ok hrun
      have hsame : ((TransactionOp.release id).run t).2 = t' := by
        rw [TransactionOp.run, hrun]
      have hbase : t'.activeBitmap = t.activeBitmap :=
        congrArg RecoveredMetadata.allocationBitmap hframed.active
      rw [hsame]
      constructor
      · exact hheld.nodup.erase id
      · intro k
        rw [hheld.nodup.mem_erase_iff, hheld.mem_iff k, isNew, isNew, hbase, hnext k]
        by_cases hk : k = id
        · rw [if_pos hk]
          exact iff_of_false (fun h => h.1 hk) Bool.false_ne_true
        · rw [if_neg hk]
          exact ⟨fun h => h.2, fun h => ⟨hk, h⟩⟩
  | write page =>
    refine @Effect.final_of_ends _ _ _ (TransactionOp.write page).run t
      (fun t' : PagerWriteTransaction D => t'.Holds held) ?_
    refine (ends_writeNewPage hP h page).mono ?_ ?_
    · rintro _ t' ⟨raw, -, -, -, hframed, hnext, -⟩
      exact hheld.congr (congrArg RecoveredMetadata.allocationBitmap hframed.active)
        (fun k _ => by rw [hnext])
    · rintro _ t' ⟨-, hframed, hnext, -⟩
      exact hheld.congr (congrArg RecoveredMetadata.allocationBitmap hframed.active)
        (fun k _ => by rw [hnext])
  | read id =>
    refine @Effect.final_of_ends _ _ _ (TransactionOp.read id).run t
      (fun t' : PagerWriteTransaction D => t'.Holds held) ?_
    rw [TransactionOp.run, Effect.ends_bind]
    refine (ends_readPage hP h id).mono ?_ ?_
    · rintro _ t' ⟨-, -, -, hframed, hnext, -⟩
      exact hheld.congr (congrArg RecoveredMetadata.allocationBitmap hframed.active)
        (fun k _ => by rw [hnext])
    · rintro _ t' ⟨-, hframed, hnext, -⟩
      exact hheld.congr (congrArg RecoveredMetadata.allocationBitmap hframed.active)
        (fun k _ => by rw [hnext])
  | freeShared id =>
    refine @Effect.final_of_ends _ _ _ (TransactionOp.freeShared id).run t
      (fun t' : PagerWriteTransaction D => t'.Holds held) ?_
    refine (ends_freeSharedPage h id).mono ?_ ?_
    · rintro _ t' ⟨-, hframed, hactive, -, hnext⟩
      refine hheld.congr (congrArg RecoveredMetadata.allocationBitmap hframed.active)
        (fun k hk => ?_)
      rw [hnext k, if_neg]
      rintro rfl
      rw [hactive] at hk
      cases hk
    · rintro _ t' rfl
      exact hheld
  | markFailed => exact hheld.congr rfl (fun _ _ => rfl)
  | markBtreeMutated treeId =>
    refine @Effect.final_of_ends _ _ _ (TransactionOp.markBtreeMutated treeId).run t
      (fun t' : PagerWriteTransaction D => t'.Holds held) ?_
    rw [TransactionOp.run, markBtreeMutated, Effect.ends_bind, Effect.ends_get]
    refine ends_ensureOpen (fun _ => ?_) (fun _ _ => hheld)
    dsimp only
    split
    · exact hheld
    · exact hheld.congr rfl (fun _ _ => rfl)

end PagerWriteTransaction

open PagerWriteTransaction

namespace Pager
variable {p : Pager D} {t : PagerWriteTransaction D} {held : List Nat}

/-- The open transactions of a pager, each with the pages that it allocated and has not released. -/
inductive OpensHolding (p : Pager D) : PagerWriteTransaction D → List Nat → Prop
  | begun {t : PagerWriteTransaction D} : p.beginWrite = .ok t → OpensHolding p t []
  | step {t : PagerWriteTransaction D} {held : List Nat} (op : TransactionOp) :
    OpensHolding p t held → OpensHolding p (op.run t).2 (heldAfter t held op)

lemma OpensHolding.opens (h : p.OpensHolding t held) : p.Opens t := by
  induction h with
  | begun hbegun => exact .begun hbegun
  | step op _ ih => exact .step op ih

/-- What a run of operations keeps: what is held, and where the next search starts. -/
lemma OpensHolding.holds (hs : p.Sound P m) (hquiet : m.Quiet) (hP : DenseClosed P)
    (h : p.OpensHolding t held) : t.Holds held ∧ t.Searches := by
  induction h with
  | begun hbegun =>
    obtain ⟨-, rfl⟩ := beginWrite_eq_ok hbegun
    refine ⟨⟨List.nodup_nil, fun id => ?_⟩, Nat.le_refl _, ?_⟩
    · change id ∈ ([] : List Nat) ↔ (p.active.allocationBitmap.allocates id &&
        !p.active.allocationBitmap.allocates id) = true
      rw [Bool.and_not_self]
      exact ⟨fun hmem => (nomatch hmem), fun hnew => (nomatch hnew)⟩
    · exact Nat.le_trans hs.represents.metadata (Nat.le_max_left _ _)
  | step op hopens ih =>
    obtain ⟨m', hs', -⟩ := hopens.opens.sound hP hs hquiet
    exact ⟨ih.1.run hP hs' op, ih.2.run hs' op⟩

omit [PageDevice D] in
/-- An open transaction of a usable pager is refused only once it has failed. -/
lemma ensureOpen_eq_error {e : EngineError} (hfailed : t.failed = true)
    (hunfinished : t.finished = false) (h : t.ensureOpen = .error e) :
    e = ⟨"TRANSACTION_FAILED", "The page transaction encountered an error and must be aborted"⟩ := by
  rw [ensureOpen, if_neg (by rw [hunfinished]; exact Bool.false_ne_true), if_pos hfailed] at h
  exact (Except.error.inj h).symm

/-- The allocator is sound and complete. -/
theorem allocator_is_sound_and_complete (hreached : p.Reached) (hopens : p.OpensHolding t held) :
    held.Nodup ∧
    (∀ id, id ∈ held ↔ t.nextBitmap.allocates id = true ∧ t.activeBitmap.allocates id = false) ∧
    (∀ id, id ∈ t.newPages ↔ id ∈ held) ∧
    t.nextBitmap.allocatedPageCount = Bitmap.count t.nextBitmap.bits ∧
    t.activeBitmap.allocatedPageCount = Bitmap.count t.activeBitmap.bits ∧
    (∀ id t', allocatePage t = (.ok id, t') → firstDataPageId ≤ id ∧ id < maxPageCount ∧
      t.activeBitmap.allocates id = false ∧ t.nextBitmap.allocates id = false ∧ id ∉ held) ∧
    ∀ e t', allocatePage t = (.error e, t') →
      t.failed = true ∧ e = ⟨"TRANSACTION_FAILED",
        "The page transaction encountered an error and must be aborted"⟩ ∨
      e = databaseFull ∧ ∀ id, firstDataPageId ≤ id → id < maxPageCount →
        t.activeBitmap.allocates id = true ∨ t.nextBitmap.allocates id = true := by
  obtain ⟨m, hs, hquiet⟩ := hreached.sound
  obtain ⟨m', hs', -⟩ := hopens.opens.sound denseClosed_true hs hquiet
  obtain ⟨hheld, hsearches⟩ := hopens.holds hs hquiet denseClosed_true
  have hmem : ∀ id, id ∈ held ↔
      t.nextBitmap.allocates id = true ∧ t.activeBitmap.allocates id = false := by
    intro id
    rw [hheld.mem_iff, isNew, Bool.and_eq_true, Bool.not_eq_true']
  refine ⟨hheld.nodup, hmem, fun id => (hs'.mem_newPages id).trans (hheld.mem_iff id).symm,
    t.nextBitmap.allocated_eq, t.activeBitmap.allocated_eq, ?_, ?_⟩
  · intro id t' hallocate
    obtain ⟨-, -, hactive, hnext, hlow, hmax, -⟩ := (ends_allocatePage hs').ok hallocate
    refine ⟨hlow, hmax, hactive, hnext, fun hid => ?_⟩
    rw [((hmem id).mp hid).1] at hnext
    cases hnext
  · intro e t' hallocate
    obtain ⟨-, ⟨hfailed, herror⟩ | ⟨rfl, hnone⟩⟩ :=
      (ends_allocatePage_searches hs' hsearches).error hallocate
    · exact .inl ⟨hfailed, ensureOpen_eq_error hfailed hs'.unfinished herror⟩
    · exact .inr ⟨rfl, fun id hlow hmax => selectPage_eq_none hnone hlow hmax⟩

/-- On a new database, a transaction that allocated one page has it alone as its new page. -/
theorem allocator_is_sound_and_complete_one_page :
    ∃ (p : Pager MemoryPageDevice) (t : PagerWriteTransaction MemoryPageDevice) (id : Nat),
      Pager.withCacheCapacity ⟨[], 0⟩ pageSize = .ok p ∧ p.OpensHolding t [id] ∧
      (∀ k, k ∈ t.newPages ↔ k = id) ∧ t.activeBitmap.allocates id = false := by
  obtain ⟨p, hopened, hactive, hid, -⟩ := @withCacheCapacity_empty MemoryPageDevice _ ⟨[], 0⟩
    pageSize trivial rfl (by decide)
  obtain ⟨hs, husable⟩ := sound_withCacheCapacity hopened
  have hbegin : p.beginWrite = .ok (p.begun p.nextCandidateId) :=
    beginWrite_of_usable husable (by rw [hid]; decide)
  have hb := hs.begun (fun _ => rfl) husable p.nextCandidateId
  obtain ⟨k, hselect, hend, hlow⟩ := hs.selectPage_begun p.nextCandidateId
    ⟨firstDataPageId, Nat.le_refl _, by decide, by rw [hactive]; simp⟩
  rcases hallocate : allocatePage (p.begun p.nextCandidateId) with ⟨e | id, t₁⟩
  · obtain ⟨-, -, -, hno⟩ := (ends_allocatePage hb).error hallocate
    exact absurd ⟨rfl, k, hselect, Nat.le_trans hend (Nat.le_max_left _ _), hlow⟩ hno
  have hheld : heldAfter (p.begun p.nextCandidateId) [] .allocate = [id] := by
    rw [heldAfter, hallocate]
  have hopens : p.OpensHolding ((TransactionOp.allocate).run (p.begun p.nextCandidateId)).2 [id] :=
    hheld ▸ .step .allocate (.begun hbegin)
  obtain ⟨-, hmem, hnew, -⟩ := allocator_is_sound_and_complete (.opened hopened) hopens
  refine ⟨p, _, id, hopened, hopens, fun k => (hnew k).trans List.mem_singleton, ?_⟩
  exact ((hmem id).mp (List.mem_singleton_self id)).2

end Pager
end
end TinyJoin
