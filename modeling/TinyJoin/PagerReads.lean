import TinyJoin.PagerCommit

/-! What a pager's reads return, and the root a device opens at. -/
namespace TinyJoin
open PageDevice PageCache

section
variable {D : Type} [PageDevice D] {P : D → Prop} {m : PlainMap} {p : Pager D}

/-- What a read returns when the device does not fail: each check in turn, and then the page of
the committed view. -/
def Pager.expected (p : Pager D) (m : PlainMap) (id : Nat) : Result Page := do
  p.ensureUsable
  ensureDataPage id
  if ¬p.active.allocationBitmap.allocates id then .error (pageNotAllocated id)
  else match m.committed id with
    | some bytes => do
      verifyExpectedPage id bytes
      Page.decodeVerified bytes.bytes
    | none => .error outOfBounds

namespace Pager

def withCache (p : Pager D) (cache : PageCache D) : Pager D := { p with cache := cache }

lemma Sound.withCache (h : p.Sound P m) {cache : PageCache D} (hrep : Represents P cache m)
    (hverified : ∀ e ∈ cache.entries, e.owner = .committed →
      verifyExpectedPage e.id e.bytes = .ok ()) : (p.withCache cache).Sound P m :=
  ⟨hrep, h.active, hverified, h.valid, h.covers⟩

/-- The page of the committed view, read and decoded. -/
lemma Sound.expected_committed (h : p.Sound P m) (husable : p.recoveryRequired = false) {id : Nat}
    {bytes : PageBytes} (hbytes : m.committed id = some bytes) :
    p.expected m id = (do verifyExpectedPage id bytes; Page.decodeVerified bytes.bytes) := by
  obtain ⟨hlow, hin⟩ := (h.represents.domain id).mp (by rw [hbytes]; rfl)
  rw [h.active] at hin
  rw [expected, ensureUsable, husable,
    ensureDataPage_of_mem hlow (AllocationBitmap.lt_of_allocates hin), hin, hbytes]
  rfl

omit [PageDevice D] in
/-- A read that skips the checks passes each of them, and the page is cached. -/
lemma fastIndex_eq_some {id index : Nat} (h : p.fastIndex id = some index) :
    p.recoveryRequired = false ∧ p.cache.lookup.lookup (.committed, id) = some index := by
  rw [fastIndex] at h
  split at h
  · next hchecks =>
    rw [cachedIndex] at h
    split at h
    · cases h
    · split at h
      · next hlook =>
        split at h
        · cases h
          exact ⟨by simpa using hchecks.1, hlook⟩
        · cases h
      · cases h
  · cases h

/-- A cached page, returned without its checks, is what they would have led to. -/
lemma ends_cachedPage (h : p.Sound P m) {id index : Nat} (hfast : p.fastIndex id = some index) :
    (onCache (cachedPage index)).Ends p
      (fun bytes p' => ∃ c, p' = p.withCache c ∧ (p.withCache c).Sound P m ∧
        p.expected m id = Page.decodeVerified bytes.bytes)
      (fun _ _ => False) := by
  obtain ⟨husable, hlook⟩ := fastIndex_eq_some hfast
  obtain ⟨e, he, hkey⟩ := h.represents.indexed.getElem? hlook
  have hmem := List.mem_of_getElem? he
  have howner : e.owner = .committed := congrArg Prod.fst hkey
  have hid : e.id = id := congrArg Prod.snd hkey
  have hshow := h.represents.shown e hmem
  have hverified := h.verified e hmem howner
  have hset : SameIndex p.cache (PageCache.setEntry index { e with referenced := true } p.cache) :=
    sameIndex_setEntry he (fun _ => ⟨rfl, rfl⟩)
  rw [onCache, Effect.ends_focus, cachedPage, Effect.ends_bind]
  refine ends_entryAt he ?_
  rw [Effect.ends_bind, Effect.ends_modify]
  refine ⟨_, rfl, h.withCache (h.represents.setEntry he rfl (shows_referenced hshow true)
    (fun hd => Or.inl hd)) (h.verified_from hset.committed), ?_⟩
  rw [Shows, howner, hid] at hshow
  rw [hid] at hverified
  rw [h.expected_committed husable hshow.2.2, hverified]
  rfl

/-- A read through each of its checks. -/
lemma ends_readPageChecked (hP : DenseClosed P) (h : p.Sound P m) (id : Nat) :
    (readPageChecked id).Ends p
      (fun page p' => ∃ c, p' = p.withCache c ∧ (p.withCache c).Sound P m ∧
        p.expected m id = .ok page)
      (fun e p' => ∃ c, p' = p.withCache c ∧ (p.withCache c).Sound P m ∧
        (p.expected m id = .error e ∨ ¬m.Quiet ∨
          (PageDevice.readPage id p.cache.device).1 = .error e)) := by
  have hself : p = p.withCache p.cache := rfl
  rw [readPageChecked, Effect.ends_bind, Effect.ends_get, Effect.ends_bind, Effect.ends_ofExcept]
  refine ⟨?_, ?_⟩
  · rintro ⟨⟩ husable
    rw [Effect.ends_bind, Effect.ends_ofExcept]
    refine ⟨?_, ?_⟩
    · rintro ⟨⟩ hdata
      obtain ⟨hlow, hmax⟩ := ensureDataPage_eq_ok hdata
      rw [Effect.ends_bind, AllocationBitmap.isAllocated_of_lt _ hmax, Effect.ends_ofExcept_ok]
      by_cases hin : p.active.allocationBitmap.allocates id = true
      · rw [if_neg (not_not.mpr hin), Effect.ends_bind, onCache, Effect.ends_focus]
        obtain ⟨bytes, hbytes⟩ := Option.isSome_iff_exists.mp
          ((h.represents.domain id).mpr ⟨hlow, by rw [h.active]; exact hin⟩)
        have hexpected : p.expected m id =
            (do verifyExpectedPage id bytes; Page.decodeVerified bytes.bytes) := by
          rw [expected, husable, hdata, hin, hbytes]
          rfl
        refine (ends_readPageVerified hP h.represents hbytes (verifyExpectedPage id)).mono ?_ ?_
        · rintro read c ⟨hc, rfl, -, hfrom, hsource, -⟩
          have hok := h.verified_read hsource
          obtain ⟨page, hdecoded, -⟩ := decodeVerified_of_verify hok
          rw [hdecoded, Effect.ends_ofExcept_ok]
          refine ⟨c, rfl, h.withCache hc (h.verified_loaded hfrom), ?_⟩
          rw [hexpected, hok]
          exact hdecoded
        · rintro e c ⟨hc, -, hfrom, hwhy⟩
          refine ⟨c, rfl, h.withCache hc (h.verified_from hfrom), ?_⟩
          rcases hwhy with herror | ⟨-, hrefused | hreserved⟩
          · exact Or.inl (by rw [hexpected, herror]; rfl)
          · exact Or.inr (Or.inr hrefused)
          · exact Or.inr (Or.inl hreserved)
      · rw [if_pos hin]
        refine ⟨_, hself, h, Or.inl ?_⟩
        rw [expected, husable, hdata]
        exact if_pos hin
    · intro e herror
      refine ⟨_, hself, h, Or.inl ?_⟩
      rw [expected, husable, herror]
      rfl
  · intro e herror
    refine ⟨_, hself, h, Or.inl ?_⟩
    rw [expected, herror]
    rfl

/-- A read returns what is expected, unless the device refuses to read the page or a write of some
reserved page fails. It changes nothing. -/
lemma ends_readPage (hP : DenseClosed P) (h : p.Sound P m) (id : Nat) :
    (Pager.readPage id).Ends p
      (fun page p' => ∃ c, p' = p.withCache c ∧ (p.withCache c).Sound P m ∧
        p.expected m id = .ok page)
      (fun e p' => ∃ c, p' = p.withCache c ∧ (p.withCache c).Sound P m ∧
        (p.expected m id = .error e ∨ ¬m.Quiet ∨
          (PageDevice.readPage id p.cache.device).1 = .error e)) := by
  rw [Pager.readPage, Effect.ends_bind, Effect.ends_get]
  rcases hfast : p.fastIndex id with _ | index
  · exact ends_readPageChecked hP h id
  · dsimp only
    rw [Effect.ends_bind]
    refine (ends_cachedPage h hfast).mono ?_ (fun _ _ hf => hf.elim)
    rintro bytes p' ⟨c, rfl, hc, hexpected⟩
    rw [Page.decodeWhole_eq, ← hexpected, Effect.ends_ofExcept]
    exact ⟨fun page hpage => ⟨c, rfl, hc, hpage⟩, fun e herror => ⟨c, rfl, hc, Or.inl herror⟩⟩

end Pager

/-! Opening a device. -/

lemma RecoveredMetadata.checked_of_encodePages {root root' : RecoveredMetadata}
    {pages : List (Nat × PageBytes)} (h : root.encodePages = .ok (root', pages)) :
    root'.Checked := by
  rw [encodePages_eq] at h
  obtain ⟨page, hpage, h⟩ := Except.bind_eq_ok.mp h
  cases h
  exact Superblock.encodePage_eq_ok hpage

lemma checked_of_emptyMetadataLayout {active : RecoveredMetadata} {pages : List PageBytes}
    (h : emptyMetadataLayout = .ok (active, pages)) : active.Checked := by
  obtain ⟨⟨root, pagesA⟩, hA, h⟩ := Except.bind_eq_ok.mp h
  obtain ⟨_, -, h⟩ := Except.bind_eq_ok.mp h
  cases h
  exact RecoveredMetadata.checked_of_encodePages hA

lemma Superblock.validate_of_decodePage {bytes : List UInt8} {superblock : Superblock}
    {bits : List UInt8} (h : Superblock.decodePage bytes = .ok (superblock, bits)) :
    superblock.validate = .ok () := by
  obtain ⟨_, -, h⟩ := Except.bind_eq_ok.mp h
  obtain ⟨page, -, h⟩ := Except.bind_eq_ok.mp h
  obtain ⟨_, -, h⟩ := Except.bind_eq_ok.mp h
  obtain ⟨decoded, hdecoded, h⟩ := Except.bind_eq_ok.mp h
  cases h
  obtain ⟨slot, -, hdecoded⟩ := Except.bind_eq_ok.mp hdecoded
  split at hdecoded
  · cases hdecoded
  obtain ⟨first, -, hdecoded⟩ := Except.bind_eq_ok.mp hdecoded
  obtain ⟨second, -, hdecoded⟩ := Except.bind_eq_ok.mp hdecoded
  obtain ⟨⟨⟩, hvalid, hdecoded⟩ := Except.bind_eq_ok.mp hdecoded
  cases hdecoded
  exact hvalid

lemma checked_of_decode {slot : SuperblockSlot} {pages : RawMetadata} {root : RecoveredMetadata}
    (h : decodeMetadataCandidate slot pages = .ok root) : root.Checked := by
  obtain ⟨⟨superblock, bits⟩, hsuperblock, h⟩ := Except.bind_eq_ok.mp h
  dsimp only at h
  split at h
  · cases h
  obtain ⟨first, -, h⟩ := Except.bind_eq_ok.mp h
  obtain ⟨second, -, h⟩ := Except.bind_eq_ok.mp h
  obtain ⟨bitmap, -, h⟩ := Except.bind_eq_ok.mp h
  obtain ⟨⟨⟩, hcovers, h⟩ := Except.bind_eq_ok.mp h
  cases h
  exact ⟨Superblock.validate_of_decodePage hsuperblock, hcovers⟩

lemma checked_of_newestRoot {a b newest : RecoveredMetadata} {previous : Option RecoveredMetadata}
    (ha : a.Checked) (hb : b.Checked) (h : newestRoot a b = .ok (newest, previous)) :
    newest.Checked ∧ ∀ root, previous = some root → root.Checked := by
  rw [newestRoot] at h
  split at h
  · split at h
    · cases h
    · cases h
      exact ⟨ha, fun _ hr => (nomatch hr)⟩
  · by_cases hnewer : a.superblock.generation > b.superblock.generation
    · simp only [hnewer, if_true, Except.ok.injEq, Prod.mk.injEq] at h
      obtain ⟨rfl, rfl⟩ := h
      refine ⟨ha, ?_⟩
      intro root hroot
      split at hroot
      · cases hroot
        exact hb
      · cases hroot
    · simp only [hnewer, if_false, Except.ok.injEq, Prod.mk.injEq] at h
      obtain ⟨rfl, rfl⟩ := h
      refine ⟨hb, ?_⟩
      intro root hroot
      split at hroot
      · cases hroot
        exact ha
      · cases hroot

lemma checked_of_recoverMetadata {pages : RawMetadata} {newest : RecoveredMetadata}
    {previous : Option RecoveredMetadata} (h : recoverMetadata pages = .ok (newest, previous)) :
    newest.Checked ∧ ∀ root, previous = some root → root.Checked := by
  rw [recoverMetadata] at h
  split at h
  · cases h
  · cases h
  · split at h
    · next ha hb => exact checked_of_newestRoot (checked_of_decode ha) (checked_of_decode hb) h
    · next ha _ =>
      cases h
      exact ⟨checked_of_decode ha, fun _ hr => (nomatch hr)⟩
    · next _ hb =>
      cases h
      exact ⟨checked_of_decode hb, fun _ hr => (nomatch hr)⟩
    · cases h

/-- Metadata pages written in turn are all on the device afterwards, which is no shorter. -/
lemma ends_writeMetadataPages (pageOf : Nat → PageBytes) (ids : List Nat) (d : D) :
    (writeMetadataPages pageOf ids).Ends d
      (fun _ d' => pageCount d ≤ pageCount d' ∧ ∀ id ∈ ids, id < pageCount d')
      (fun _ _ => True) := by
  induction ids generalizing d with
  | nil => exact ⟨Nat.le_refl _, fun _ hid => (nomatch hid)⟩
  | cons id ids ih =>
    rw [writeMetadataPages, Effect.forEach, Effect.ends_bind]
    refine (writePage_ends d id (pageOf id)).mono ?_ (fun _ _ _ => trivial)
    rintro _ d₁ ⟨hid, hpages, -⟩
    have hle : pageCount d ≤ pageCount d₁ := by
      rw [pageCount, pageCount, hpages]
      exact Bytes.length_put_le hid
    have hlt : id < pageCount d₁ := by
      rw [pageCount, hpages, Bytes.put]
      simp only [List.length_append, List.length_take, List.length_drop, List.length_singleton]
      omega
    refine (ih d₁).mono ?_ (fun _ _ _ => trivial)
    rintro _ d₂ ⟨hle₂, hrest⟩
    exact ⟨Nat.le_trans hle hle₂,
      List.forall_mem_cons.mpr ⟨Nat.lt_of_lt_of_le hlt hle₂, hrest⟩⟩

/-- A root that passes its checks, on a device that holds every metadata page. -/
def Opened (root : RecoveredMetadata) (d : D) : Prop :=
  root.Checked ∧ firstDataPageId ≤ pageCount d

lemma ends_initializeEmptyDevice (d : D) :
    initializeEmptyDevice.Ends d (fun root d' => Opened root d') (fun _ _ => True) := by
  rw [initializeEmptyDevice, Effect.ends_bind, Effect.ends_ofExcept]
  refine ⟨?_, fun _ _ => trivial⟩
  rintro ⟨active, layout⟩ hlayout
  rw [Effect.ends_bind]
  refine (ends_writeMetadataPages _ _ d).mono ?_ (fun _ _ _ => trivial)
  rintro _ d₁ ⟨-, hall⟩
  have hlong : firstDataPageId ≤ pageCount d₁ :=
    hall (firstDataPageId - 1) (List.mem_range.mpr (by decide))
  rw [Effect.ends_bind]
  refine (ends_writeMetadataPages _ _ d₁).mono ?_ (fun _ _ _ => trivial)
  rintro _ d₂ ⟨hle₂, -⟩
  rw [Effect.ends_bind]
  refine (flush_ends d₂).mono ?_ (fun _ _ _ => trivial)
  rintro _ d₃ ⟨hpages₃, -⟩
  rw [Effect.ends_bind]
  refine (ends_writeMetadataPages _ _ d₃).mono ?_ (fun _ _ _ => trivial)
  rintro _ d₄ ⟨hle₄, -⟩
  rw [Effect.ends_bind]
  refine (flush_ends d₄).mono ?_ (fun _ _ _ => trivial)
  rintro _ d₅ ⟨hpages₅, -⟩
  refine ⟨checked_of_emptyMetadataLayout hlayout, ?_⟩
  simp only [pageCount, hpages₅] at hle₄ hle₂ hlong ⊢
  rw [hpages₃] at hle₄
  omega

lemma ends_readPages (ids : List Nat) (d : D) :
    (readPages ids).Ends d (fun _ d' => pages d' = pages d) (fun _ d' => pages d' = pages d) := by
  induction ids generalizing d with
  | nil => rfl
  | cons id ids ih =>
    rw [readPages, Effect.ends_bind]
    refine (readPage_ends d id).mono ?_ (fun _ _ h => h.1)
    rintro _ d₁ ⟨hpages, -⟩
    rw [Effect.ends_bind]
    refine (ih d₁).mono ?_ (fun _ _ h => h.trans hpages)
    intro _ d₂ h₂
    exact h₂.trans hpages

lemma ends_commitHashOf (ids : List Nat) (hash : UInt64) (d : D) :
    (commitHashOf ids hash).Ends d (fun _ d' => pages d' = pages d)
      (fun _ d' => pages d' = pages d) := by
  induction ids generalizing d hash with
  | nil => rfl
  | cons id ids ih =>
    rw [commitHashOf, Effect.ends_bind, Effect.ends_get]
    split
    · rfl
    · rw [Effect.ends_bind]
      refine (readPage_ends d id).mono ?_ (fun _ _ h => h.1)
      rintro bytes d₁ ⟨hpages, -⟩
      split
      · exact hpages
      · exact (ih _ d₁).mono (fun _ _ h => h.trans hpages) (fun _ _ h => h.trans hpages)

lemma ends_recoverDeviceMetadata (d : D) :
    recoverDeviceMetadata.Ends d (fun root d' => Opened root d') (fun _ _ => True) := by
  rw [recoverDeviceMetadata, Effect.ends_bind, Effect.ends_get]
  split
  · trivial
  next hshort =>
  rw [Effect.ends_bind]
  refine (ends_readPages _ d).mono ?_ (fun _ _ _ => trivial)
  intro read d₁ hpages
  rw [Effect.ends_bind, Effect.ends_ofExcept]
  refine ⟨?_, fun _ _ => trivial⟩
  rintro ⟨newest, previous⟩ hrecovered
  obtain ⟨hnewest, hprevious⟩ := checked_of_recoverMetadata hrecovered
  have hlong : firstDataPageId ≤ pageCount d₁ := by
    rw [pageCount, hpages]
    exact Nat.not_lt.mp hshort
  cases previous with
  | none => exact ⟨hnewest, hlong⟩
  | some previous =>
    dsimp only
    rw [Effect.ends_bind, commitIsDurable, Effect.ends_bind]
    refine (ends_commitHashOf _ _ d₁).mono ?_ (fun _ _ _ => trivial)
    intro hash d₂ hpages₂
    have hlong₂ : firstDataPageId ≤ pageCount d₂ := by
      rw [pageCount, hpages₂]
      exact hlong
    rw [Effect.ends_pure]
    split
    · exact ⟨hnewest, hlong₂⟩
    · exact ⟨hprevious previous rfl, hlong₂⟩

lemma ends_openMetadata (d : D) :
    openMetadata.Ends d (fun root d' => Opened root d') (fun _ _ => True) := by
  -- whether a bootstrap was interrupted is asked without regard to what the device then holds
  have hasked : ∀ (d : D) (f : Bool → Op D RecoveredMetadata),
      (∀ answer d', (f answer).Ends d' (fun root d' => Opened root d') (fun _ _ => True)) →
      (isRecoverableEmptyBootstrap >>= f).Ends d (fun root d' => Opened root d')
        (fun _ _ => True) := by
    intro d f hf
    rw [Effect.ends_bind, Effect.ends_def]
    exact ⟨fun answer d' _ => hf answer d', fun _ _ _ => trivial⟩
  rw [openMetadata, Effect.ends_bind, Effect.ends_get]
  dsimp only
  split
  · trivial
  split
  · exact ends_initializeEmptyDevice d
  split
  · refine hasked d _ ?_
    intro answer d'
    split
    · exact ends_initializeEmptyDevice d'
    · trivial
  · rw [Effect.ends_orElse]
    refine (ends_recoverDeviceMetadata d).mono (fun _ _ h => h) ?_
    intro e d₁ _
    rw [recoverBootstrap]
    split
    · refine hasked d₁ _ ?_
      intro answer d'
      split
      · exact ends_initializeEmptyDevice d'
      · trivial
    · trivial

lemma covered_of_validatePhysicalCoverage {bitmap : AllocationBitmap} {d : D}
    (hlong : firstDataPageId ≤ pageCount d) (h : validatePhysicalCoverage bitmap d = .ok ())
    {id : Nat} (hin : bitmap.allocates id = true) : id < pageCount d := by
  rcases Nat.lt_or_ge id firstDataPageId with hlow | hlow
  · exact Nat.lt_of_lt_of_le hlow hlong
  have hmax := AllocationBitmap.lt_of_allocates hin
  rw [validatePhysicalCoverage] at h
  split at h
  · cases h
  · next hnone =>
    have hmem : id ∈ List.range' firstDataPageId (maxPageCount - firstDataPageId) := by
      rw [List.mem_range'_1]
      omega
    have := List.find?_eq_none.mp hnone id hmem
    simpa [hin] using this

/-- A device that opens does so at a root whose pages it holds, with an empty cache. -/
lemma sound_withCacheCapacity {d : D} {capacity : Nat} {p : Pager D}
    (h : Pager.withCacheCapacity d capacity = .ok p) :
    p.Sound (fun _ => True) (PlainMap.initial p.active.allocationBitmap (pages p.cache.device)) ∧
      p.recoveryRequired = false := by
  obtain ⟨cache, hcache, h⟩ := Except.bind_eq_ok.mp h
  have hcapacity : 0 < cache.capacity := by
    rw [PageCache.withCapacity] at hcache
    split at hcache
    · cases hcache
    · next hbounds =>
      cases hcache
      refine Nat.div_pos ?_ (by decide)
      by_contra hsmall
      exact hbounds (Or.inl (fun hin => hsmall hin.1))
  have hopen : openRoot.Ends d (fun root d' => Opened root d' ∧
      ∀ id, root.allocationBitmap.allocates id = true → id < pageCount d') (fun _ _ => True) := by
    rw [openRoot, Effect.ends_bind]
    refine (ends_openMetadata d).mono ?_ (fun _ _ _ => trivial)
    intro root d₁ hopened
    rw [Effect.ends_bind, Effect.ends_get, Effect.ends_bind, Effect.ends_ofExcept]
    refine ⟨?_, fun _ _ => trivial⟩
    rintro ⟨⟩ hcoverage
    exact ⟨hopened, fun id hin => covered_of_validatePhysicalCoverage hopened.2 hcoverage hin⟩
  rcases hroot : openRoot d with ⟨e | root, d'⟩
  · rw [hroot] at h
    cases h
  · rw [hroot] at h
    cases h
    obtain ⟨hopened, hcovered⟩ := hopen.ok hroot
    exact ⟨⟨represents_empty trivial hcapacity hopened.2 hcovered, rfl,
      fun _ he => (nomatch he), hopened.1.1, hopened.1.2⟩, rfl⟩

/-! Opening an empty device. -/

lemma emptyMetadataLayout_ok : ∃ active layout, emptyMetadataLayout = .ok (active, layout) ∧
    active.allocationBitmap = .new ∧ active.superblock.generation = 1 := by
  exact ⟨_, _, by
    rw [emptyMetadataLayout, RecoveredMetadata.encodePages_of_checked (checked_empty .a),
      RecoveredMetadata.encodePages_of_checked (checked_empty .b)]
    rfl, rfl, rfl⟩

/-- On a healthy device metadata pages that leave no gap are written. -/
lemma ends_writeMetadataPages_healthy (pageOf : Nat → PageBytes) (first n : Nat) (d : D)
    (hhealthy : Healthy d) (hfirst : first ≤ pageCount d) (hmax : first + n ≤ maxPageCount) :
    (writeMetadataPages pageOf (List.range' first n)).Ends d
      (fun _ d' => Healthy d' ∧ pageCount d' = max (pageCount d) (first + n)) (fun _ _ => False) := by
  induction n generalizing first d with
  | zero => exact ⟨hhealthy, by omega⟩
  | succ n ih =>
    rw [List.range'_succ, writeMetadataPages, Effect.forEach, Effect.ends_bind]
    refine (writePage_ends d first (pageOf first)).mono ?_ ?_
    · rintro _ d₁ ⟨-, hpages, hkeeps⟩
      have hlen : pageCount d₁ = max (pageCount d) (first + 1) := by
        rw [pageCount, hpages, Bytes.put]
        simp only [List.length_append, List.length_take, List.length_drop, List.length_singleton,
          pageCount] at hfirst ⊢
        omega
      refine (ih (first + 1) d₁ (hkeeps hhealthy) (by omega) (by omega)).mono ?_ (fun _ _ h => h)
      rintro _ d₂ ⟨hhealthy₂, hlen₂⟩
      exact ⟨hhealthy₂, by omega⟩
    · rintro _ _ ⟨-, -, hno⟩
      exact hno ⟨hhealthy, hfirst, by omega⟩

lemma ends_initializeEmptyDevice_healthy (d : D) (hhealthy : Healthy d) :
    initializeEmptyDevice.Ends d
      (fun root d' => root.allocationBitmap = .new ∧ root.superblock.generation = 1 ∧
        Healthy d' ∧ firstDataPageId ≤ pageCount d')
      (fun _ _ => False) := by
  obtain ⟨active, layout, hlayout, hbitmap, hgeneration⟩ := emptyMetadataLayout_ok
  rw [initializeEmptyDevice, Effect.ends_bind, hlayout, Effect.ends_ofExcept_ok]
  dsimp only
  rw [Effect.ends_bind, List.range_eq_range']
  refine (ends_writeMetadataPages_healthy _ 0 _ d hhealthy (Nat.zero_le _) (by decide)).mono ?_
    (fun _ _ h => h)
  rintro _ d₁ ⟨hhealthy₁, hlen₁⟩
  have hfirst : superblockPageCount ≤ firstDataPageId := by decide
  rw [Effect.ends_bind]
  refine (ends_writeMetadataPages_healthy _ _ _ d₁ hhealthy₁ (by omega) (by decide)).mono ?_
    (fun _ _ h => h)
  rintro _ d₂ ⟨hhealthy₂, hlen₂⟩
  rw [Effect.ends_bind]
  refine (flush_ends d₂).mono ?_ (fun _ _ h => h.2 hhealthy₂)
  rintro _ d₃ ⟨hpages₃, hkeeps₃⟩
  rw [Effect.ends_bind, List.range_eq_range']
  refine (ends_writeMetadataPages_healthy _ 0 _ d₃ (hkeeps₃ hhealthy₂) (Nat.zero_le _)
    (by decide)).mono ?_ (fun _ _ h => h)
  rintro _ d₄ ⟨hhealthy₄, hlen₄⟩
  rw [Effect.ends_bind]
  refine (flush_ends d₄).mono ?_ (fun _ _ h => h.2 hhealthy₄)
  rintro _ d₅ ⟨hpages₅, hkeeps₅⟩
  refine ⟨hbitmap, hgeneration, hkeeps₅ hhealthy₄, ?_⟩
  simp only [pageCount, hpages₃] at hlen₂ hlen₄
  simp only [pageCount, hpages₅]
  omega

/-- A healthy device that holds nothing opens at the empty root. -/
lemma withCacheCapacity_empty {d : D} {capacity : Nat} (hhealthy : Healthy d)
    (hempty : pageCount d = 0) (hcapacity : pageSize ≤ capacity ∧ capacity ≤ maxPageCacheBytes ∧
      capacity % pageSize = 0) :
    ∃ p, Pager.withCacheCapacity d capacity = .ok p ∧ p.active.allocationBitmap = .new ∧
      p.nextCandidateId = 1 ∧ p.active.superblock.generation = 1 := by
  have hopen : openRoot.Ends d (fun root _ => root.allocationBitmap = .new ∧
      root.superblock.generation = 1) (fun _ _ => False) := by
    rw [openRoot, Effect.ends_bind, openMetadata, Effect.ends_bind, Effect.ends_get]
    dsimp only
    rw [hempty, if_neg (by decide), if_pos rfl]
    refine (ends_initializeEmptyDevice_healthy d hhealthy).mono ?_ (fun _ _ h => h)
    rintro root d' ⟨hbitmap, hgeneration, -, hlong⟩
    rw [Effect.ends_bind, Effect.ends_get, Effect.ends_bind]
    have hcovered : validatePhysicalCoverage root.allocationBitmap d' = .ok () := by
      rw [validatePhysicalCoverage]
      split
      · next id hid =>
        have hfound := List.find?_some hid
        have hmem := List.mem_of_find?_eq_some hid
        rw [hbitmap, AllocationBitmap.allocates_new, Bool.and_eq_true] at hfound
        rw [List.mem_range'_1] at hmem
        have := of_decide_eq_true hfound.1
        omega
      · rfl
    rw [hcovered, Effect.ends_ofExcept_ok]
    exact ⟨hbitmap, hgeneration⟩
  rw [Pager.withCacheCapacity, PageCache.withCapacity,
    if_neg (by rintro (h | h); exact h ⟨hcapacity.1, hcapacity.2.1⟩; exact h hcapacity.2.2)]
  simp only [bind, Except.bind]
  rcases hrun : openRoot d with ⟨e | root, d'⟩
  · exact (hopen.error hrun).elim
  · obtain ⟨hbitmap, hgeneration⟩ := hopen.ok hrun
    exact ⟨_, rfl, hbitmap, rfl, hgeneration⟩

end
end TinyJoin
