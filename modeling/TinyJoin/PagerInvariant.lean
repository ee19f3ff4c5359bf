import TinyJoin.CachePublish
import TinyJoin.Pager

/-! What holds of a pager between its transactions, and of an open transaction: the cache stands
for the active root's pages and the candidate's, and every page it would return was verified. -/
namespace TinyJoin
open PageDevice PageCache

/-- A page this engine encoded for page `id` passes the checks of a read, once sealed. -/
lemma verifyExpectedPage_sealPage {page : Page} {raw : PageBytes}
    (h : page.encodeUnsealed = .ok raw) : verifyExpectedPage page.id (sealPage raw) = .ok () := by
  rw [verifyExpectedPage, Page.verify_sealPage h, Page.decodeVerified_sealPage h]
  exact if_neg (not_not.mpr rfl)

lemma decodeVerified_of_verify {id : Nat} {bytes : PageBytes}
    (h : verifyExpectedPage id bytes = .ok ()) :
    ∃ page, Page.decodeVerified bytes.bytes = .ok page ∧ page.id = id := by
  rw [verifyExpectedPage] at h
  cases hv : Page.verify bytes.bytes with
  | error e =>
    rw [hv] at h
    cases h
  | ok u =>
    rw [hv] at h
    cases hd : Page.decodeVerified bytes.bytes with
    | error e =>
      rw [hd] at h
      cases h
    | ok page =>
      rw [hd] at h
      simp only [bind, Except.bind] at h
      split at h
      · cases h
      · next hid => exact ⟨page, rfl, not_not.mp hid⟩

lemma ensureDataPage_eq_ok {id : Nat} (h : ensureDataPage id = .ok ()) :
    firstDataPageId ≤ id ∧ id < maxPageCount := by
  rw [ensureDataPage] at h
  split at h
  · cases h
  · next hin => exact not_not.mp hin

lemma ensureDataPage_of_mem {id : Nat} (hlow : firstDataPageId ≤ id) (hmax : id < maxPageCount) :
    ensureDataPage id = .ok () := by
  rw [ensureDataPage, if_neg (not_not.mpr ⟨hlow, hmax⟩)]

section
variable {D : Type} [PageDevice D]

/-- The cache stands for `m`, whose committed pages are those of the active root; the committed
pages it holds were verified as they entered. -/
structure Pager.Sound (P : D → Prop) (pager : Pager D) (m : PlainMap) : Prop where
  represents : Represents P pager.cache m
  active : m.active = pager.active.allocationBitmap
  verified : ∀ e ∈ pager.cache.entries, e.owner = .committed →
    verifyExpectedPage e.id e.bytes = .ok ()
  valid : pager.active.superblock.validate = .ok ()
  covers : pager.active.superblock.validateBitmap pager.active.allocationBitmap = .ok ()

namespace Pager.Sound
variable {P : D → Prop} {p : Pager D} {m : PlainMap}

/-- Committed pages that were cached before or verified just now. -/
lemma verified_loaded (h : p.Sound P m) {id : Nat} {cache : PageCache D}
    (hfrom : ∀ e ∈ cache.entries, e.owner = .committed →
      (∃ f ∈ p.cache.entries, f.key = e.key ∧ f.bytes = e.bytes) ∨
        (e.id = id ∧ verifyExpectedPage id e.bytes = .ok ())) :
    ∀ e ∈ cache.entries, e.owner = .committed → verifyExpectedPage e.id e.bytes = .ok () := by
  intro e he howner
  rcases hfrom e he howner with ⟨f, hf, hkey, hbytes⟩ | ⟨rfl, hok⟩
  · have hid : f.id = e.id := congrArg Prod.snd hkey
    rw [← hid, ← hbytes]
    exact h.verified f hf ((congrArg Prod.fst hkey).trans howner)
  · exact hok

lemma verified_from (h : p.Sound P m) {cache : PageCache D} (hfrom : CommittedFrom p.cache cache) :
    ∀ e ∈ cache.entries, e.owner = .committed → verifyExpectedPage e.id e.bytes = .ok () :=
  @verified_loaded D _ P p m h 0 cache (fun e he howner => Or.inl (hfrom e he howner))

/-- A committed page that a read returned was verified, now or when it entered the cache. -/
lemma verified_read (h : p.Sound P m) {id : Nat} {page : PageBytes}
    (hsource : (∃ f ∈ p.cache.entries, f.key = (.committed, id) ∧ f.bytes = page) ∨
      verifyExpectedPage id page = .ok ()) : verifyExpectedPage id page = .ok () := by
  rcases hsource with ⟨f, hf, hkey, hbytes⟩ | hok
  · have hid : f.id = id := congrArg Prod.snd hkey
    rw [← hid, ← hbytes]
    exact h.verified f hf (congrArg Prod.fst hkey)
  · exact hok

end Pager.Sound

/-- An open transaction: the pages reserved are those it allocated, and what it wrote to each is a
page encoded for it. -/
structure PagerWriteTransaction.Sound (P : D → Prop) (t : PagerWriteTransaction D)
    (m : PlainMap) : Prop where
  pager : t.pager.Sound P m
  reserved : ∀ id, (m.reserved id).isSome = t.isNew id
  owner : ∀ id r, m.reserved id = some r → r.1 = t.candidate
  newEnd : ∀ id, t.isNew id = true → id < t.newPageEnd
  encoded : ∀ id k last, m.reserved id = some (k, some last) →
    ∃ page : Page, page.encodeUnsealed = .ok last ∧ page.id = id
  metadata : ∀ id, id < firstDataPageId → t.nextBitmap.allocates id = true
  usable : t.pager.recoveryRequired = false
  unfinished : t.finished = false

/-- What the operations of a transaction leave as it was. -/
structure PagerWriteTransaction.SameBase (t t' : PagerWriteTransaction D) : Prop where
  active : t'.pager.active = t.pager.active
  candidate : t'.candidate = t.candidate
  nextCandidateId : t'.pager.nextCandidateId = t.pager.nextCandidateId

/-- What the operations on pages leave as it was. -/
structure PagerWriteTransaction.Framed (t t' : PagerWriteTransaction D) : Prop
    extends t.SameBase t' where
  failed : t'.failed = t.failed
  btreeVersions : t'.btreeVersions = t.btreeVersions

namespace PagerWriteTransaction
variable {P : D → Prop} {t : PagerWriteTransaction D} {m : PlainMap}

omit [PageDevice D] in
lemma SameBase.refl (t : PagerWriteTransaction D) : SameBase t t := ⟨rfl, rfl, rfl⟩

omit [PageDevice D] in
lemma SameBase.trans {a b c : PagerWriteTransaction D} (h : SameBase a b) (h' : SameBase b c) :
    SameBase a c :=
  ⟨h'.active.trans h.active, h'.candidate.trans h.candidate,
    h'.nextCandidateId.trans h.nextCandidateId⟩

omit [PageDevice D] in
lemma Framed.refl (t : PagerWriteTransaction D) : Framed t t := ⟨SameBase.refl t, rfl, rfl⟩

omit [PageDevice D] in
lemma Framed.trans {a b c : PagerWriteTransaction D} (h : Framed a b) (h' : Framed b c) :
    Framed a c :=
  ⟨h.toSameBase.trans h'.toSameBase, h'.failed.trans h.failed,
    h'.btreeVersions.trans h.btreeVersions⟩

/-- A transaction whose cache changed but which stands for what it stood for. -/
def withCache (t : PagerWriteTransaction D) (cache : PageCache D) : PagerWriteTransaction D :=
  { t with pager := { t.pager with cache := cache } }

omit [PageDevice D] in
@[simp] lemma isNew_withCache (cache : PageCache D) (id : Nat) :
    (t.withCache cache).isNew id = t.isNew id := rfl

lemma Sound.isNew_data (h : t.Sound P m) {id : Nat} (hnew : t.isNew id = true) :
    firstDataPageId ≤ id ∧ id < maxPageCount ∧ m.active.allocates id = false := by
  rw [← h.reserved id, Option.isSome_iff_exists] at hnew
  obtain ⟨r, hr⟩ := hnew
  exact h.pager.represents.fresh id r hr

lemma Sound.reserved_of_new (h : t.Sound P m) {id : Nat} (hnew : t.isNew id = true) :
    ∃ old, m.reserved id = some (t.candidate, old) := by
  rw [← h.reserved id, Option.isSome_iff_exists] at hnew
  obtain ⟨r, hr⟩ := hnew
  exact ⟨r.2, by rw [hr, ← h.owner id r hr]⟩

lemma Sound.isNew_of_reserved (h : t.Sound P m) {id : Nat} {r : Nat × Option PageBytes}
    (hr : m.reserved id = some r) : t.isNew id = true := by
  rw [← h.reserved id, hr]
  rfl

/-- Replacing the cache by one that stands for another map with the same committed pages. -/
lemma Sound.withCache (h : t.Sound P m) {cache : PageCache D} {m' : PlainMap}
    (hrep : Represents P cache m') (hactive : m'.active = m.active)
    (hverified : ∀ e ∈ cache.entries, e.owner = .committed →
      verifyExpectedPage e.id e.bytes = .ok ())
    (hreserved : ∀ id, (m'.reserved id).isSome = t.isNew id)
    (howner : ∀ id r, m'.reserved id = some r → r.1 = t.candidate)
    (hencoded : ∀ id k last, m'.reserved id = some (k, some last) →
      ∃ page : Page, page.encodeUnsealed = .ok last ∧ page.id = id) :
    (t.withCache cache).Sound P m' where
  pager := ⟨hrep, hactive.trans h.pager.active, hverified, h.pager.valid, h.pager.covers⟩
  reserved := hreserved
  owner := howner
  newEnd := h.newEnd
  encoded := hencoded
  metadata := h.metadata
  usable := h.usable
  unfinished := h.unfinished

/-- Replacing the cache by one that stands for the same map. -/
lemma Sound.sameMap (h : t.Sound P m) {cache : PageCache D} (hrep : Represents P cache m)
    (hverified : ∀ e ∈ cache.entries, e.owner = .committed →
      verifyExpectedPage e.id e.bytes = .ok ()) : (t.withCache cache).Sound P m :=
  h.withCache hrep rfl hverified h.reserved h.owner h.encoded

lemma Sound.ensureOpen_ok (h : t.Sound P m) (hfailed : t.failed = false) :
    t.ensureOpen = .ok () := by
  rw [ensureOpen, h.unfinished, hfailed, Pager.ensureUsable, h.usable]
  rfl

omit [PageDevice D] in
lemma failed_of_ensureOpen (h : t.ensureOpen = .ok ()) : t.failed = false := by
  rw [ensureOpen] at h
  split at h
  · cases h
  · split at h
    · cases h
    · next hfailed => simpa using hfailed

omit [PageDevice D] in
lemma framed_withCache (t : PagerWriteTransaction D) (cache : PageCache D) :
    Framed t (t.withCache cache) :=
  ⟨⟨rfl, rfl, rfl⟩, rfl, rfl⟩

omit [PageDevice D] in
/-- An operation on the cache, as one on the transaction. -/
lemma ends_onCache {α : Type} {action : Op (PageCache D) α} {Q : α → PagerWriteTransaction D → Prop}
    {E : EngineError → PagerWriteTransaction D → Prop}
    (h : action.Ends t.pager.cache (fun a c => Q a (t.withCache c)) (fun e c => E e (t.withCache c))) :
    (onCache action).Ends t Q E :=
  Effect.ends_focus.mpr h

omit [PageDevice D] in
lemma ends_ensureOpen {α : Type} {f : Op (PagerWriteTransaction D) α}
    {Q : α → PagerWriteTransaction D → Prop} {E : EngineError → PagerWriteTransaction D → Prop}
    (hopen : t.failed = false → f.Ends t Q E) (hrefused : ∀ e, t.ensureOpen = .error e → E e t) :
    (Effect.ofExcept t.ensureOpen >>= fun _ => f).Ends t Q E := by
  rw [Effect.ends_bind, Effect.ends_ofExcept]
  refine ⟨?_, hrefused⟩
  rintro ⟨⟩ hok
  exact hopen (failed_of_ensureOpen hok)

omit [PageDevice D] in
/-- Setting or clearing the bit of a data page of the candidate's bitmap. -/
lemma ends_setNextBitmap {id : Nat} (allocated : Bool) (hlow : firstDataPageId ≤ id)
    (hmax : id < maxPageCount) : (setNextBitmap id allocated).Ends t
      (fun _ t' => ∃ bitmap, t' = { t with nextBitmap := bitmap } ∧
        ∀ k, bitmap.allocates k = if k = id then allocated else t.nextBitmap.allocates k)
      (fun _ _ => False) := by
  obtain ⟨bitmap, hbitmap⟩ := t.nextBitmap.setAllocated_of_data allocated hlow hmax
  rw [setNextBitmap, Effect.ends_bind, Effect.ends_get, Effect.ends_bind, hbitmap,
    Effect.ends_ofExcept_ok, Effect.ends_modify]
  exact ⟨bitmap, rfl, (AllocationBitmap.setAllocated_eq_ok hbitmap).2⟩

omit [PageDevice D] in
/-- The page an allocation selects is free in both bitmaps. -/
lemma selectPage_free {id : Nat} (h : t.selectPage = some id) :
    t.activeBitmap.allocates id = false ∧ t.nextBitmap.allocates id = false := by
  rw [selectPage] at h
  split at h
  · next hfirst =>
    cases h
    have := AllocationBitmap.firstFree_eq_some hfirst
    exact ⟨this.2.2.1, this.2.2.2.1⟩
  · have := AllocationBitmap.firstFree_eq_some h
    exact ⟨this.2.2.1, this.2.2.2.1⟩

omit [PageDevice D] in
lemma selectPage_lt {id : Nat} (h : t.selectPage = some id) : id < maxPageCount := by
  rw [selectPage] at h
  split at h
  · next hfirst =>
    cases h
    have := (AllocationBitmap.firstFree_eq_some hfirst).2.1
    omega
  · have := (AllocationBitmap.firstFree_eq_some h).2.1
    omega

/-- Allocating reserves a page that neither root allocated. -/
lemma ends_allocatePage (h : t.Sound P m) : allocatePage.Ends t
    (fun id t' => t'.Sound P (m.reserve t.candidate id) ∧ t.Framed t' ∧
      t.activeBitmap.allocates id = false ∧ t.nextBitmap.allocates id = false ∧
      firstDataPageId ≤ id ∧ id < maxPageCount ∧
      (∀ k, t'.nextBitmap.allocates k = if k = id then true else t.nextBitmap.allocates k) ∧
      (Healthy t.pager.cache.device → Healthy t'.pager.cache.device))
    (fun _ t' => t'.Sound P m ∧ t.Framed t' ∧ t'.nextBitmap = t.nextBitmap ∧
      ¬(t.failed = false ∧ ∃ id, t.selectPage = some id ∧
        id ≤ max (pageCount t.pager.cache.device) t.newPageEnd ∧ firstDataPageId ≤ id)) := by
  rw [allocatePage, Effect.ends_bind, Effect.ends_get]
  refine ends_ensureOpen ?_ ?_
  · intro hfailed
    rcases hselect : t.selectPage with _ | id
    · exact ⟨h, Framed.refl t, rfl, fun hh => by simp at hh⟩
    obtain ⟨hactive, hnext⟩ := selectPage_free hselect
    dsimp only
    rw [Effect.ends_bind, Effect.ends_modify]
    -- the next search starts after the page selected
    have h₁ : ({ t with nextAllocationPageId := if id + 1 = maxPageCount then firstDataPageId
        else id + 1 } : PagerWriteTransaction D).Sound P m := { h with }
    have hf₁ : t.Framed { t with nextAllocationPageId := if id + 1 = maxPageCount then
        firstDataPageId else id + 1 } := ⟨⟨rfl, rfl, rfl⟩, rfl, rfl⟩
    split
    · next hgap =>
      refine ⟨h₁, hf₁, rfl, ?_⟩
      rintro ⟨-, id', hid', hle, -⟩
      rw [Option.some.injEq] at hid'
      omega
    · rw [Effect.ends_bind]
      refine ends_onCache ?_
      have hact : t.activeBitmap = m.active := h.pager.active.symm
      rw [hact]
      refine (ends_reserveCandidatePage h.pager.represents t.candidate id).mono ?_ ?_
      · rintro _ c ⟨hc, ⟨hlow, hmax, hfree, -⟩, hentries, hdev⟩
        rw [Effect.ends_bind]
        refine (ends_setNextBitmap true hlow hmax).mono ?_ (fun _ _ hf => hf.elim)
        rintro _ t' ⟨bitmap, rfl, hbitmap⟩
        rw [Effect.ends_bind, Effect.ends_modify]
        have hnone : m.reserved id = none := by
          rw [← Option.not_isSome_iff_eq_none, h.reserved id, isNew, hnext]
          simp
        refine ⟨⟨⟨hc, ?_, ?_, h.pager.valid, h.pager.covers⟩, ?_, ?_, ?_, ?_, ?_, h.usable,
          h.unfinished⟩, ⟨⟨rfl, rfl, rfl⟩, rfl, rfl⟩, hfree, hnext, hlow, hmax, hbitmap, ?_⟩
        · rw [PlainMap.reserve, hnone]
          exact h.pager.active
        · intro e he
          have he : e ∈ c.entries := he
          rw [hentries] at he
          exact h.pager.verified e he
        · intro k
          rw [PlainMap.reserved_reserve hnone, isNew]
          change _ = (bitmap.allocates k && !t.activeBitmap.allocates k)
          rw [hbitmap k]
          split
          · next hk =>
            rw [hk, hact, hfree]
            rfl
          · exact h.reserved k
        · intro k r hr
          rw [PlainMap.reserved_reserve hnone] at hr
          split at hr
          · rw [Option.some.injEq] at hr
            rw [← hr]
            rfl
          · exact h.owner k r hr
        · intro k hk
          change (bitmap.allocates k && !t.activeBitmap.allocates k) = true at hk
          change k < max t.newPageEnd (id + 1)
          rw [hbitmap k] at hk
          split at hk
          · omega
          · exact Nat.lt_of_lt_of_le (h.newEnd k hk) (Nat.le_max_left _ _)
        · intro k c last hr
          rw [PlainMap.reserved_reserve hnone] at hr
          split at hr
          · cases hr
          · exact h.encoded k c last hr
        · intro k hk
          change bitmap.allocates k = true
          rw [hbitmap k]
          split
          · rfl
          · exact h.metadata k hk
        · intro hh
          change Healthy c.device
          rw [hdev]
          exact hh
      · rintro _ c ⟨rfl, hno⟩
        refine ⟨h₁, hf₁, rfl, ?_⟩
        rintro ⟨-, id', hid', -, hlow⟩
        rw [Option.some.injEq] at hid'
        subst hid'
        refine hno ⟨hlow, ?_, hact ▸ hactive, h.owner⟩
        exact selectPage_lt hselect
  · intro e herr
    refine ⟨h, Framed.refl t, rfl, ?_⟩
    rintro ⟨hfailed, -⟩
    rw [h.ensureOpen_ok hfailed] at herr
    cases herr

/-- Writing a page this candidate allocated records it, encoded. -/
lemma ends_writeNewPage (hP : DenseClosed P) (h : t.Sound P m) (page : Page) :
    (writeNewPage page).Ends t
      (fun _ t' => ∃ raw, page.encodeUnsealed = .ok raw ∧ t.isNew page.id = true ∧
        t'.Sound P (m.write t.candidate page.id raw) ∧ t.Framed t' ∧
        t'.nextBitmap = t.nextBitmap ∧
        (Healthy t.pager.cache.device → Healthy t'.pager.cache.device))
      (fun _ t' => t'.Sound P m ∧ t.Framed t' ∧ t'.nextBitmap = t.nextBitmap ∧
        ¬(Healthy t.pager.cache.device ∧ t.failed = false ∧ t.isNew page.id = true ∧
          page.Valid)) := by
  rw [writeNewPage, Effect.ends_bind, Effect.ends_get]
  refine ends_ensureOpen ?_ ?_
  · intro hfailed
    by_cases hnew : t.isNew page.id = true
    · rw [if_neg (not_not.mpr hnew), Effect.ends_bind, Effect.ends_ofExcept]
      refine ⟨?_, ?_⟩
      · intro raw hraw
        refine ends_onCache ?_
        refine (ends_writeUnsealed hP h.pager.represents t.candidate page.id raw.bytes).mono ?_ ?_
        · rintro _ c ⟨raw', hraw', -, hc, hfrom, hhealthy⟩
          obtain rfl : raw' = raw := PageBytes.ext hraw'
          refine ⟨raw', hraw, hnew, h.withCache hc rfl (h.pager.verified_from hfrom) ?_ ?_ ?_,
            framed_withCache t c, rfl, hhealthy⟩
          · intro k
            by_cases hk : k = page.id
            · subst hk
              rw [PlainMap.write_reserved_self, hnew]
              rfl
            · rw [PlainMap.write_reserved_of_ne _ _ _ hk]
              exact h.reserved k
          · intro k r hr
            by_cases hk : k = page.id
            · subst hk
              rw [PlainMap.write_reserved_self, Option.some.injEq] at hr
              rw [← hr]
            · rw [PlainMap.write_reserved_of_ne _ _ _ hk] at hr
              exact h.owner k r hr
          · intro k c last hr
            by_cases hk : k = page.id
            · subst hk
              rw [PlainMap.write_reserved_self, Option.some.injEq, Prod.mk.injEq,
                Option.some.injEq] at hr
              exact ⟨page, by rw [← hr.2]; exact hraw, rfl⟩
            · rw [PlainMap.write_reserved_of_ne _ _ _ hk] at hr
              exact h.encoded k c last hr
        · rintro _ c ⟨hc, hfrom, hno⟩
          refine ⟨h.sameMap hc (h.pager.verified_from hfrom), framed_withCache t c, rfl, ?_⟩
          rintro ⟨hh, -, -, -⟩
          exact hno ⟨hh, h.reserved_of_new hnew, raw.length_eq⟩
      · intro e herr
        refine ⟨h, Framed.refl t, rfl, ?_⟩
        rintro ⟨-, -, -, hvalid⟩
        obtain ⟨raw, hraw⟩ := Page.encodeUnsealed_of_valid hvalid
        rw [hraw] at herr
        cases herr
    · rw [if_pos hnew]
      exact ⟨h, Framed.refl t, rfl, fun hh => hnew hh.2.2.1⟩
  · intro e herr
    refine ⟨h, Framed.refl t, rfl, ?_⟩
    rintro ⟨-, hfailed, -⟩
    rw [h.ensureOpen_ok hfailed] at herr
    cases herr

/-- The page a transaction reads: the one it wrote itself, or the active root's. -/
def Shows (t : PagerWriteTransaction D) (m : PlainMap) (id : Nat) (page : Page) : Prop :=
  if t.isNew id then ∃ last, m.reserved id = some (t.candidate, some last) ∧
    page.encodeUnsealed = .ok last ∧ page.id = id
  else ∃ bytes, m.committed id = some bytes ∧ verifyExpectedPage id bytes = .ok () ∧
    Page.decodeVerified bytes.bytes = .ok page

lemma ends_readBytes (hP : DenseClosed P) (h : t.Sound P m) {id : Nat}
    (hlow : firstDataPageId ≤ id) (hin : t.nextBitmap.allocates id = true) :
    (t.readBytes id).Ends t.pager.cache
      (fun bytes c => (t.withCache c).Sound P m ∧
        (∃ page, Page.decodeVerified bytes.bytes = .ok page ∧ t.Shows m id page) ∧
        (Healthy t.pager.cache.device → Healthy c.device))
      (fun _ c => (t.withCache c).Sound P m ∧
        ¬(Healthy t.pager.cache.device ∧ ∃ page, t.Shows m id page)) := by
  rw [readBytes]
  by_cases hnew : t.isNew id = true
  · rw [if_pos hnew]
    refine (ends_readCandidatePageVerified hP h.pager.represents t.candidate id _).mono ?_ ?_
    · rintro bytes c ⟨hc, -, hfrom, ⟨last, hr, hbytes⟩, hhealthy⟩
      refine ⟨h.sameMap hc (h.pager.verified_from hfrom), ?_, hhealthy⟩
      obtain ⟨page, hpage, hid⟩ := h.encoded id _ last hr
      refine ⟨page, ?_, by rw [Shows, if_pos hnew]; exact ⟨last, hr, hpage, hid⟩⟩
      rcases hbytes with rfl | rfl
      · exact Page.decodeVerified_encodeUnsealed hpage
      · exact Page.decodeVerified_sealPage hpage
    · rintro _ c ⟨hc, -, hfrom, hno⟩
      refine ⟨h.sameMap hc (h.pager.verified_from hfrom), ?_⟩
      rintro ⟨hh, page, hshows⟩
      rw [Shows, if_pos hnew] at hshows
      obtain ⟨last, hr, hpage, rfl⟩ := hshows
      exact hno ⟨hh, last, hr, verifyExpectedPage_sealPage hpage⟩
  · have hactive : t.activeBitmap.allocates id = true := by
      rw [isNew, hin] at hnew
      simpa using hnew
    rw [if_neg hnew, if_pos hactive]
    obtain ⟨page, hpage⟩ := Option.isSome_iff_exists.mp
      ((h.pager.represents.domain id).mpr ⟨hlow, by rw [h.pager.active]; exact hactive⟩)
    refine (ends_readPageVerified hP h.pager.represents hpage (verifyExpectedPage id)).mono ?_ ?_
    · rintro bytes c ⟨hc, rfl, -, hfrom, hsource, hhealthy⟩
      have hok := h.pager.verified_read hsource
      obtain ⟨page, hdecoded, -⟩ := decodeVerified_of_verify hok
      refine ⟨h.sameMap hc (h.pager.verified_loaded hfrom), ⟨page, hdecoded, ?_⟩, hhealthy⟩
      rw [Shows, if_neg hnew]
      exact ⟨bytes, hpage, hok, hdecoded⟩
    · rintro _ c ⟨hc, -, hfrom, hwhy⟩
      refine ⟨h.sameMap hc (h.pager.verified_from hfrom), ?_⟩
      rintro ⟨hh, shown, hshows⟩
      rw [Shows, if_neg hnew] at hshows
      obtain ⟨bytes, hbytes, hok, -⟩ := hshows
      obtain rfl : page = bytes := Option.some.inj (hpage.symm.trans hbytes)
      rcases hwhy with hbad | ⟨hsick, -⟩
      · rw [hok] at hbad
        cases hbad
      · exact hsick hh

/-- A transaction reads the page it wrote, or the active root's, and changes nothing. -/
lemma ends_readPage (hP : DenseClosed P) (h : t.Sound P m) (id : Nat) :
    (PagerWriteTransaction.readPage id).Ends t
      (fun page t' => t.Shows m id page ∧ t.nextBitmap.allocates id = true ∧ t'.Sound P m ∧
        t.Framed t' ∧ t'.nextBitmap = t.nextBitmap ∧
        (Healthy t.pager.cache.device → Healthy t'.pager.cache.device))
      (fun _ t' => t'.Sound P m ∧ t.Framed t' ∧ t'.nextBitmap = t.nextBitmap ∧
        ¬(Healthy t.pager.cache.device ∧ t.failed = false ∧
          (firstDataPageId ≤ id ∧ id < maxPageCount) ∧ t.nextBitmap.allocates id = true ∧
          ∃ page, t.Shows m id page)) := by
  rw [PagerWriteTransaction.readPage, Effect.ends_bind, Effect.ends_get]
  refine ends_ensureOpen ?_ ?_
  · intro _
    rw [Effect.ends_bind, Effect.ends_ofExcept]
    refine ⟨?_, ?_⟩
    · rintro ⟨⟩ hdata
      rw [Effect.ends_bind, Effect.ends_ofExcept]
      refine ⟨?_, ?_⟩
      · intro allocated hallocated
        obtain ⟨-, rfl⟩ := AllocationBitmap.isAllocated_eq_ok hallocated
        by_cases hin : t.nextBitmap.allocates id = true
        · rw [if_neg (not_not.mpr hin), Effect.ends_bind]
          refine ends_onCache ((ends_readBytes hP h (ensureDataPage_eq_ok hdata).1 hin).mono ?_ ?_)
          · rintro bytes c ⟨hc, ⟨page, hdecoded, hshows⟩, hhealthy⟩
            rw [hdecoded, Effect.ends_ofExcept_ok]
            exact ⟨hshows, hin, hc, framed_withCache t c, rfl, hhealthy⟩
          · rintro _ c ⟨hc, hno⟩
            exact ⟨hc, framed_withCache t c, rfl, fun hh => hno ⟨hh.1, hh.2.2.2.2⟩⟩
        · rw [if_pos hin]
          exact ⟨h, Framed.refl t, rfl, fun hh => hin hh.2.2.2.1⟩
      · intro e herr
        refine ⟨h, Framed.refl t, rfl, fun hh => ?_⟩
        rw [AllocationBitmap.isAllocated_of_lt _ hh.2.2.1.2] at herr
        cases herr
    · intro e herr
      refine ⟨h, Framed.refl t, rfl, fun hh => ?_⟩
      rw [ensureDataPage_of_mem hh.2.2.1.1 hh.2.2.1.2] at herr
      cases herr
  · intro e herr
    refine ⟨h, Framed.refl t, rfl, fun hh => ?_⟩
    rw [h.ensureOpen_ok hh.2.1] at herr
    cases herr

/-- Changing the candidate's bitmap at a page the active root allocates. -/
lemma Sound.freeShared (h : t.Sound P m) {id : Nat} {bitmap : AllocationBitmap}
    (hlow : firstDataPageId ≤ id) (hactive : t.activeBitmap.allocates id = true)
    (hbitmap : ∀ k, bitmap.allocates k = if k = id then false else t.nextBitmap.allocates k) :
    ({ t with nextBitmap := bitmap } : PagerWriteTransaction D).Sound P m := by
  have hnew : ∀ k, ({ t with nextBitmap := bitmap } : PagerWriteTransaction D).isNew k =
      t.isNew k := by
    intro k
    change (bitmap.allocates k && !t.activeBitmap.allocates k) = _
    rw [hbitmap k, isNew]
    split
    · next hk =>
      rw [hk, hactive]
      simp
    · rfl
  refine { h with reserved := ?_, newEnd := ?_, metadata := ?_ }
  · intro k
    rw [hnew k]
    exact h.reserved k
  · intro k hk
    rw [hnew k] at hk
    exact h.newEnd k hk
  · intro k hk
    change bitmap.allocates k = true
    rw [hbitmap k, if_neg (by omega)]
    exact h.metadata k hk

lemma ends_freeSharedPage (h : t.Sound P m) (id : Nat) :
    (freeSharedPage id).Ends t
      (fun _ t' => t'.Sound P m ∧ t.Framed t' ∧ t.activeBitmap.allocates id = true ∧
        firstDataPageId ≤ id ∧
        ∀ k, t'.nextBitmap.allocates k = if k = id then false else t.nextBitmap.allocates k)
      (fun _ t' => t' = t) := by
  rw [freeSharedPage, Effect.ends_bind, Effect.ends_get]
  refine ends_ensureOpen ?_ (fun _ _ => rfl)
  intro _
  rw [Effect.ends_bind, Effect.ends_ofExcept]
  refine ⟨?_, fun _ _ => rfl⟩
  rintro ⟨⟩ hdata
  obtain ⟨hlow, hmax⟩ := ensureDataPage_eq_ok hdata
  split
  · rfl
  · split
    · rfl
    · next hactive =>
      have hactive := not_not.mp hactive
      refine (ends_setNextBitmap false hlow hmax).mono ?_ (fun _ _ hf => hf.elim)
      rintro _ t' ⟨bitmap, rfl, hbitmap⟩
      exact ⟨h.freeShared hlow hactive hbitmap, ⟨⟨rfl, rfl, rfl⟩, rfl, rfl⟩, hactive, hlow,
        hbitmap⟩

/-- Releasing a page of this candidate forgets it. -/
lemma ends_releaseNewPage (h : t.Sound P m) (id : Nat) :
    (releaseNewPage id).Ends t
      (fun _ t' => t'.Sound P (m.release id) ∧ t.Framed t' ∧ t.isNew id = true ∧
        ∀ k, t'.nextBitmap.allocates k = if k = id then false else t.nextBitmap.allocates k)
      (fun _ t' => t' = t) := by
  rw [releaseNewPage, Effect.ends_bind, Effect.ends_get]
  refine ends_ensureOpen ?_ (fun _ _ => rfl)
  intro _
  rw [Effect.ends_bind, Effect.ends_ofExcept]
  refine ⟨?_, fun _ _ => rfl⟩
  rintro ⟨⟩ hdata
  obtain ⟨hlow, hmax⟩ := ensureDataPage_eq_ok hdata
  by_cases hnew : t.isNew id = true
  · rw [if_neg (not_not.mpr hnew), Effect.ends_bind]
    refine ends_onCache ((ends_releaseCandidatePage h.pager.represents t.candidate id).mono ?_ ?_)
    · rintro _ c ⟨-, hc, -, hfrom⟩
      rw [Effect.ends_bind]
      refine (ends_setNextBitmap false hlow hmax).mono ?_ (fun _ _ hf => hf.elim)
      rintro _ t' ⟨bitmap, rfl, hbitmap⟩
      rw [Effect.ends_modify]
      refine ⟨⟨⟨hc, h.pager.active, h.pager.verified_from hfrom, h.pager.valid, h.pager.covers⟩,
        ?_, ?_, ?_, ?_, ?_, h.usable, h.unfinished⟩, ⟨⟨rfl, rfl, rfl⟩, rfl, rfl⟩, hnew, hbitmap⟩
      · intro k
        change _ = (bitmap.allocates k && !t.activeBitmap.allocates k)
        rw [hbitmap k]
        split
        · next hk =>
          rw [hk, PlainMap.release_reserved_self]
          rfl
        · next hk =>
          rw [PlainMap.release_reserved_of_ne _ hk]
          exact h.reserved k
      · intro k r hr
        exact h.owner k r (PlainMap.reserved_of_release hr)
      · intro k hk
        change (bitmap.allocates k && !t.activeBitmap.allocates k) = true at hk
        rw [hbitmap k] at hk
        split at hk
        · cases hk
        · exact h.newEnd k hk
      · intro k c last hr
        exact h.encoded k c last (PlainMap.reserved_of_release hr)
      · intro k hk
        change bitmap.allocates k = true
        rw [hbitmap k, if_neg (by omega)]
        exact h.metadata k hk
    · rintro _ c ⟨rfl, -⟩
      rfl
  · rw [if_pos hnew]
    rfl

end PagerWriteTransaction
end
end TinyJoin
