import TinyJoin.BootstrapImage

/-! Opening a device whose bootstrap was interrupted, and opening one that holds anything else. -/
namespace TinyJoin
open Bytes PageDevice

/-! ## Images an interrupted bootstrap leaves -/

/-- No more than the metadata pages, each torn from the empty database's. -/
structure Recoverable (image : List PageBytes) : Prop where
  length_le : image.length ≤ firstDataPageId
  torn : ∀ id page, image[id]? = some page → Torn page.bytes (emptyPage id).bytes

lemma recoverable_nil : Recoverable [] := ⟨Nat.zero_le _, fun _ _ hpage => (nomatch hpage)⟩

/-- A page of zeros is torn from any. -/
lemma torn_zero (id : Nat) : Torn PageBytes.zero.bytes (emptyPage id).bytes := by
  have h := Torn.zeros (emptyPage id).bytes
  rw [(emptyPage id).length_eq] at h
  exact h

lemma Recoverable.tornPages {image : List PageBytes} (h : Recoverable image) :
    TornPages (fun id => image.getD id .zero) := by
  intro id _
  dsimp only
  rw [List.getD_eq_getElem?_getD]
  cases hpage : image[id]? with
  | none => exact torn_zero id
  | some page => exact h.torn id page hpage

/-- Writing a torn page leaves a recoverable image. -/
lemma Recoverable.put {image : List PageBytes} (h : Recoverable image) {id : Nat} {page : PageBytes}
    (hid : id ≤ image.length) (hlt : id < firstDataPageId)
    (hpage : Torn page.bytes (emptyPage id).bytes) : Recoverable (Bytes.put image id [page]) := by
  constructor
  · rw [Bytes.put]
    simp only [List.length_append, List.length_take, List.length_drop, List.length_singleton]
    have := h.length_le
    omega
  · intro k other hother
    by_cases hk : k = id
    · subst hk
      have hrun := @getElem?_put_run _ image [page] k 0 hid Nat.one_pos
      rw [Nat.add_zero] at hrun
      rw [hrun] at hother
      rw [← Option.some.inj hother]
      exact hpage
    · rw [getElem?_put hid (by rw [List.length_singleton]; omega)] at hother
      exact h.torn k other hother

/-- The check of a bootstrap's page, byte by byte. -/
lemma torn_iff_zip {actual expected : PageBytes} : Torn actual.bytes expected.bytes ↔
    (actual.bytes.zip expected.bytes).any (fun byte => byte.1 != 0 && byte.1 != byte.2) = false := by
  rw [Torn, List.forall₂_iff_zip, List.any_eq_false]
  constructor
  · rintro ⟨-, hall⟩ ⟨a, e⟩ hmem
    rcases hall hmem with rfl | rfl
    · simp
    · simp
  · intro hall
    refine ⟨by rw [actual.length_eq, expected.length_eq], fun {a e} hmem => ?_⟩
    have := hall (a, e) hmem
    simp only [Bool.and_eq_true, bne_iff_ne, ne_eq, not_and, not_not] at this
    by_cases ha : a = 0
    · exact .inl ha
    · exact .inr (this ha)

/-- The root an interrupted bootstrap recovers to has no predecessor, and is empty. -/
lemma isEmptyRoot_of_recover {pages : RawMetadata} (htorn : TornPages pages)
    {newest : RecoveredMetadata} {previous : Option RecoveredMetadata}
    (h : recoverMetadata pages = .ok (newest, previous)) : IsEmptyRoot newest ∧ previous = none := by
  rw [recoverMetadata] at h
  split at h
  · cases h
  · cases h
  · split at h
    · next a b ha hb =>
      have hempty := isEmptyRoot_of_decode htorn ha
      have ha' := (isEmptyRoot_iff.mp hempty).1
      have hb' := (isEmptyRoot_iff.mp (isEmptyRoot_of_decode htorn hb)).1
      rw [newestRoot, if_pos (ha'.trans hb'.symm)] at h
      split at h
      · cases h
      · obtain ⟨rfl, rfl⟩ := Prod.mk.inj (Except.ok.inj h)
        exact ⟨hempty, rfl⟩
    · next a _ ha _ =>
      obtain ⟨rfl, rfl⟩ := Prod.mk.inj (Except.ok.inj h)
      exact ⟨isEmptyRoot_of_decode htorn ha, rfl⟩
    · next _ b _ hb =>
      obtain ⟨rfl, rfl⟩ := Prod.mk.inj (Except.ok.inj h)
      exact ⟨isEmptyRoot_of_decode htorn hb, rfl⟩
    · cases h

section
variable {D : Type} [PageDevice D]

/-! ## Reading the metadata pages -/

/-- What an operation that only reads leaves of its device. -/
def Unchanged (d d' : D) : Prop := pages d' = pages d ∧ (Healthy d → Healthy d')

lemma Unchanged.trans {d d₁ d₂ : D} (h : Unchanged d d₁) (h' : Unchanged d₁ d₂) : Unchanged d d₂ :=
  ⟨h'.1.trans h.1, fun hd => h'.2 (h.2 hd)⟩

lemma ends_bootstrapPagesMatch (ids : List Nat) (d : D) (hids : ∀ id ∈ ids, id < pageCount d) :
    (bootstrapPagesMatch emptyPage ids).Ends d
      (fun answer d' => Unchanged d d' ∧ (answer = true ↔ ∀ id ∈ ids, ∀ page,
        (pages d)[id]? = some page → Torn page.bytes (emptyPage id).bytes))
      (fun _ d' => pages d' = pages d ∧ ¬Healthy d) := by
  induction ids generalizing d with
  | nil => exact ⟨⟨rfl, id⟩, by simp⟩
  | cons id ids ih =>
    rw [List.forall_mem_cons] at hids
    rw [bootstrapPagesMatch, Effect.ends_bind]
    refine (readPage_ends d id).mono ?_ (fun _ _ h => ⟨h.1, fun hd => h.2 ⟨hd, hids.1⟩⟩)
    rintro actual d₁ ⟨hpages, hactual, hkeeps⟩
    have hcheck := @torn_iff_zip actual (emptyPage id)
    split
    · next hforeign =>
      refine ⟨⟨hpages, hkeeps⟩, fun h => (nomatch h), fun h => ?_⟩
      have := hcheck.mp (h id List.mem_cons_self actual hactual)
      rw [hforeign] at this
      nomatch this
    · next hmatches =>
      have htorn := hcheck.mpr (Bool.not_eq_true _ ▸ hmatches)
      refine (ih d₁ (by rw [pageCount, hpages]; exact hids.2)).mono ?_ ?_
      · rintro answer d₂ ⟨hsame, hanswer⟩
        refine ⟨Unchanged.trans ⟨hpages, hkeeps⟩ hsame, ?_⟩
        rw [hanswer, List.forall_mem_cons, hpages]
        refine ⟨fun h => ⟨fun page hpage => ?_, h⟩, fun h => h.2⟩
        rw [hactual] at hpage
        rw [← Option.some.inj hpage]
        exact htorn
      · exact fun _ d₂ h => ⟨h.1.trans hpages, fun hd => h.2 (hkeeps hd)⟩

lemma ends_isRecoverableEmptyBootstrap (d : D) :
    isRecoverableEmptyBootstrap.Ends d
      (fun answer d' => Unchanged d d' ∧ (answer = true ↔ Recoverable (pages d)))
      (fun _ d' => pages d' = pages d ∧ ¬Healthy d) := by
  rw [isRecoverableEmptyBootstrap, Effect.ends_bind, Effect.ends_get]
  split
  · next hlong =>
    exact ⟨⟨rfl, id⟩, fun h => (nomatch h), fun h => absurd h.length_le (Nat.not_le.mpr hlong)⟩
  · next hshort =>
    rw [Effect.ends_bind, emptyMetadataLayout_eq, Effect.ends_ofExcept_ok]
    refine (ends_bootstrapPagesMatch _ d (fun id hid => List.mem_range.mp hid)).mono ?_
      (fun _ _ h => h)
    rintro answer d' ⟨hsame, hanswer⟩
    refine ⟨hsame, hanswer.trans ⟨fun h => ⟨Nat.not_lt.mp hshort, ?_⟩, fun h => ?_⟩⟩
    · intro id page hpage
      exact h id (List.mem_range.mpr (List.getElem?_eq_some_iff.mp hpage).1) page hpage
    · exact fun id _ page hpage => h.torn id page hpage

lemma ends_readPages_all (ids : List Nat) (d : D) (hids : ∀ id ∈ ids, id < pageCount d) :
    (readPages ids).Ends d
      (fun read d' => Unchanged d d' ∧ read = ids.map (fun id => (pages d).getD id .zero))
      (fun _ d' => pages d' = pages d ∧ ¬Healthy d) := by
  induction ids generalizing d with
  | nil => exact ⟨⟨rfl, id⟩, rfl⟩
  | cons id ids ih =>
    rw [List.forall_mem_cons] at hids
    rw [readPages, Effect.ends_bind]
    refine (readPage_ends d id).mono ?_ (fun _ _ h => ⟨h.1, fun hd => h.2 ⟨hd, hids.1⟩⟩)
    rintro page d₁ ⟨hpages, hpage, hkeeps⟩
    rw [Effect.ends_bind]
    refine (ih d₁ (by rw [pageCount, hpages]; exact hids.2)).mono ?_ ?_
    · rintro read d₂ ⟨hsame, hread⟩
      refine ⟨Unchanged.trans ⟨hpages, hkeeps⟩ hsame, ?_⟩
      rw [hread, hpages, List.map_cons, List.getD_eq_getElem?_getD, hpage]
      rfl
    · exact fun _ d₂ h => ⟨h.1.trans hpages, fun hd => h.2 (hkeeps hd)⟩

lemma ends_commitHashOf_unchanged (ids : List Nat) (hash : UInt64) (d : D) :
    (commitHashOf ids hash).Ends d (fun _ d' => Unchanged d d')
      (fun _ d' => pages d' = pages d ∧ ¬Healthy d) := by
  induction ids generalizing d hash with
  | nil => exact ⟨rfl, id⟩
  | cons id ids ih =>
    rw [commitHashOf, Effect.ends_bind, Effect.ends_get]
    split
    · exact ⟨rfl, fun h => h⟩
    · next hshort =>
      rw [Effect.ends_bind]
      refine (readPage_ends d id).mono ?_
        (fun _ _ h => ⟨h.1, fun hd => h.2 ⟨hd, Nat.not_le.mp hshort⟩⟩)
      rintro bytes d₁ ⟨hpages, -, hkeeps⟩
      split
      · exact ⟨hpages, hkeeps⟩
      · refine (ih _ d₁).mono (fun _ _ h => Unchanged.trans ⟨hpages, hkeeps⟩ h) ?_
        exact fun _ _ h => ⟨h.1.trans hpages, fun hd => h.2 (hkeeps hd)⟩

/-- Recovering a device's root only reads, and recovers an interrupted bootstrap to the empty root. -/
lemma ends_recoverDeviceMetadata_unchanged (d : D) :
    recoverDeviceMetadata.Ends d
      (fun root d' => Unchanged d d' ∧ (Recoverable (pages d) → IsEmptyRoot root))
      (fun _ d' => Unchanged d d' ∨ pages d' = pages d ∧ ¬Healthy d) := by
  rw [recoverDeviceMetadata, Effect.ends_bind, Effect.ends_get]
  split
  · exact .inl ⟨rfl, id⟩
  next hshort =>
  have hids : ∀ id ∈ List.range firstDataPageId, id < pageCount d := fun id hid =>
    Nat.lt_of_lt_of_le (List.mem_range.mp hid) (Nat.not_lt.mp hshort)
  rw [Effect.ends_bind]
  refine (ends_readPages_all _ d hids).mono ?_ (fun _ _ h => .inr h)
  rintro read d₁ ⟨hsame, rfl⟩
  rw [Effect.ends_bind, Effect.ends_ofExcept]
  refine ⟨?_, fun _ _ => .inl hsame⟩
  rintro ⟨newest, previous⟩ hrecovered
  have hempty : Recoverable (pages d) → IsEmptyRoot newest ∧ previous = none := by
    intro hrecoverable
    refine isEmptyRoot_of_recover (fun id hid => ?_) hrecovered
    rw [List.getD_eq_getElem?_getD, List.getElem?_map, List.getElem?_range hid]
    exact hrecoverable.tornPages id hid
  cases previous with
  | none => exact ⟨hsame, fun h => (hempty h).1⟩
  | some previous =>
    dsimp only
    rw [Effect.ends_bind, commitIsDurable, Effect.ends_bind]
    refine (ends_commitHashOf_unchanged _ _ d₁).mono ?_ ?_
    · intro hash d₂ hsame₂
      rw [Effect.ends_pure]
      have hno : Recoverable (pages d) → False := fun h => absurd (hempty h).2 (by simp)
      split
      · exact ⟨hsame.trans hsame₂, fun h => (hno h).elim⟩
      · exact ⟨hsame.trans hsame₂, fun h => (hno h).elim⟩
    · exact fun _ d₂ h => .inr ⟨h.1.trans hsame.1, fun hd => h.2 (hsame.2 hd)⟩

/-! ## Opening -/

/-- A new device's root, once its pages are written. -/
lemma ends_initializeEmptyDevice_root (d : D) :
    initializeEmptyDevice.Ends d (fun root _ => IsEmptyRoot root) (fun _ _ => True) := by
  have hempty : IsEmptyRoot ⟨(RecoveredMetadata.empty .a).stamp, .new⟩ :=
    isEmptyRoot_iff.mpr ⟨rfl, rfl, rfl, rfl, rfl, rfl, rfl, rfl⟩
  rw [initializeEmptyDevice, Effect.ends_bind, emptyMetadataLayout_eq, Effect.ends_ofExcept_ok]
  dsimp only
  -- whatever the writes and flushes come to
  have hany : ∀ (d : D) (m : Op D Unit) (rest : Unit → Op D RecoveredMetadata),
      (∀ d', (rest ()).Ends d' (fun root _ => IsEmptyRoot root) (fun _ _ => True)) →
      (m >>= rest).Ends d (fun root _ => IsEmptyRoot root) (fun _ _ => True) := by
    intro d m rest hrest
    rw [Effect.ends_bind, Effect.ends_def]
    exact ⟨fun _ d' _ => hrest d', fun _ _ _ => trivial⟩
  exact hany _ _ _ (fun _ => hany _ _ _ (fun _ => hany _ _ _ (fun _ => hany _ _ _
    (fun _ => hany _ _ _ (fun _ => hempty)))))

/-- An empty root reaches no page that is not on its device. -/
lemma validatePhysicalCoverage_empty {root : RecoveredMetadata} (h : IsEmptyRoot root) (d : D) :
    validatePhysicalCoverage root.allocationBitmap d = .ok () := by
  rw [(isEmptyRoot_iff.mp h).2.2.2.2.2.2.2, validatePhysicalCoverage]
  split
  · next id hid =>
    have hfound := List.find?_some hid
    have hmem := List.mem_of_find?_eq_some hid
    rw [AllocationBitmap.allocates_new, Bool.and_eq_true] at hfound
    rw [List.mem_range'_1] at hmem
    exact absurd (of_decide_eq_true hfound.1) (Nat.not_lt.mpr hmem.1)
  · rfl

/-- A healthy device that holds what an interrupted bootstrap leaves opens at the empty root. -/
lemma ends_openRoot_recoverable (d : D) (hhealthy : Healthy d) (h : Recoverable (pages d)) :
    openRoot.Ends d (fun root _ => IsEmptyRoot root) (fun _ _ => False) := by
  have hinit : ∀ d : D, Healthy d →
      initializeEmptyDevice.Ends d (fun root _ => IsEmptyRoot root) (fun _ _ => False) := by
    intro d hhealthy
    refine ((ends_initializeEmptyDevice_healthy d hhealthy).and
      (ends_initializeEmptyDevice_root d)).mono (fun _ _ h => h.2) (fun _ _ h => h.1)
  have hcount := h.length_le
  have hopen : openMetadata.Ends d (fun root _ => IsEmptyRoot root) (fun _ _ => False) := by
    rw [openMetadata, Effect.ends_bind, Effect.ends_get]
    dsimp only
    split
    · next hlong => exact absurd (Nat.lt_of_lt_of_le hlong hcount) (by decide)
    split
    · exact hinit d hhealthy
    split
    · rw [Effect.ends_bind]
      refine (ends_isRecoverableEmptyBootstrap d).mono ?_ (fun _ _ hno => hno.2 hhealthy)
      rintro answer d₁ ⟨hsame, hanswer⟩
      rw [hanswer.mpr h, if_pos rfl]
      exact hinit d₁ (hsame.2 hhealthy)
    · next hfull =>
      have hsix : pageCount d = firstDataPageId := Nat.le_antisymm hcount (Nat.not_lt.mp hfull)
      rw [Effect.ends_orElse]
      refine (ends_recoverDeviceMetadata_unchanged d).mono (fun _ _ hok => hok.2 h) ?_
      rintro e d₁ (hsame | ⟨-, hno⟩)
      · rw [recoverBootstrap, if_pos hsix, Effect.ends_bind]
        refine (ends_isRecoverableEmptyBootstrap d₁).mono ?_
          (fun _ _ hno => hno.2 (hsame.2 hhealthy))
        rintro answer d₂ ⟨hsame₂, hanswer⟩
        rw [hanswer.mpr (hsame.1 ▸ h), if_pos rfl]
        exact hinit d₂ (hsame₂.2 (hsame.2 hhealthy))
      · exact (hno hhealthy).elim
  rw [openRoot, Effect.ends_bind]
  refine hopen.mono ?_ (fun _ _ h => h)
  intro root d₁ hempty
  rw [Effect.ends_bind, Effect.ends_get, Effect.ends_bind, validatePhysicalCoverage_empty hempty,
    Effect.ends_ofExcept_ok]
  exact hempty

section Keeps
variable {I : D → Prop}

lemma keeps_bootstrapPagesMatch (hread : ∀ id, Effect.Keeps I (PageDevice.readPage (D := D) id))
    (ids : List Nat) : Effect.Keeps I (bootstrapPagesMatch emptyPage ids) := by
  induction ids with
  | nil => exact Effect.keeps_pure true
  | cons id ids ih => exact (hread id).bind (fun _ => (Effect.keeps_pure false).ite ih)

lemma keeps_readPages (hread : ∀ id, Effect.Keeps I (PageDevice.readPage (D := D) id))
    (ids : List Nat) : Effect.Keeps I (readPages ids) := by
  induction ids with
  | nil => exact Effect.keeps_pure []
  | cons id ids ih => exact (hread id).bind (fun _ => ih.bind (fun _ => Effect.keeps_pure _))

lemma keeps_commitHashOf (hread : ∀ id, Effect.Keeps I (PageDevice.readPage (D := D) id))
    (ids : List Nat) (hash : UInt64) : Effect.Keeps I (commitHashOf ids hash) := by
  induction ids generalizing hash with
  | nil => exact Effect.keeps_pure _
  | cons id ids ih =>
    refine Effect.keeps_get.bind (fun _ => (Effect.keeps_pure none).ite ?_)
    refine (hread id).bind (fun bytes => ?_)
    split
    · exact Effect.keeps_pure none
    · exact ih _

lemma keeps_recoverDeviceMetadata (hread : ∀ id, Effect.Keeps I (PageDevice.readPage (D := D) id)) :
    Effect.Keeps I (recoverDeviceMetadata (D := D)) := by
  refine Effect.keeps_get.bind (fun _ => (Effect.keeps_fail _).ite ?_)
  refine (keeps_readPages hread _).bind (fun _ => (Effect.keeps_ofExcept _).bind ?_)
  rintro ⟨newest, previous⟩
  cases previous with
  | none => exact Effect.keeps_pure newest
  | some previous =>
    refine Effect.Keeps.bind ?_ (fun _ => (Effect.keeps_pure _).ite (Effect.keeps_pure _))
    exact (keeps_commitHashOf hread _ _).bind (fun _ => Effect.keeps_pure _)

/-- Whether a bootstrap was interrupted is asked by reading alone. -/
lemma ends_isRecoverable_keeps (hread : ∀ id, Effect.Keeps I (PageDevice.readPage (D := D) id)) (d : D)
    (hI : I d) : isRecoverableEmptyBootstrap.Ends d
      (fun answer d' => I d' ∧ (answer = true → Recoverable (pages d'))) (fun _ d' => I d') := by
  have hkeeps : Effect.Keeps I (isRecoverableEmptyBootstrap (D := D)) := by
    refine Effect.keeps_get.bind (fun _ => (Effect.keeps_pure false).ite ?_)
    rw [emptyMetadataLayout_eq, Effect.ofExcept_ok_bind]
    exact keeps_bootstrapPagesMatch hread _
  refine ((hkeeps d hI).and (ends_isRecoverableEmptyBootstrap d)).mono ?_ (fun _ _ h => h.1)
  rintro answer d' ⟨hI', hsame, hanswer⟩
  exact ⟨hI', fun h => by rw [hsame.1]; exact hanswer.mp h⟩

/-- What opening keeps: whatever reading keeps, and initializing what an interrupted bootstrap left. -/
lemma keeps_openRoot (hread : ∀ id, Effect.Keeps I (PageDevice.readPage (D := D) id))
    (hinit : ∀ d, I d → Recoverable (pages d) →
      initializeEmptyDevice.Ends d (fun _ d' => I d') (fun _ d' => I d')) :
    Effect.Keeps I (openRoot (D := D)) := by
  have hasked : ∀ (d : D) (otherwise : Op D RecoveredMetadata), I d → Effect.Keeps I otherwise →
      (isRecoverableEmptyBootstrap >>= fun recoverable =>
        if recoverable then initializeEmptyDevice else otherwise).Ends d
          (fun _ d' => I d') (fun _ d' => I d') := by
    intro d otherwise hI hotherwise
    rw [Effect.ends_bind]
    refine (ends_isRecoverable_keeps hread d hI).mono ?_ (fun _ _ h => h)
    rintro answer d₁ ⟨h₁, hanswer⟩
    split
    · next hyes => exact hinit d₁ h₁ (hanswer hyes)
    · exact hotherwise d₁ h₁
  refine Effect.Keeps.bind ?_ (fun root => Effect.keeps_get.bind (fun d =>
    (Effect.keeps_ofExcept _).bind (fun _ => Effect.keeps_pure root)))
  intro d hI
  rw [openMetadata, Effect.ends_bind, Effect.ends_get]
  dsimp only
  split
  · exact hI
  split
  · next hnone =>
    refine hinit d hI ?_
    rw [List.length_eq_zero_iff.mp hnone]
    exact recoverable_nil
  split
  · exact hasked d _ hI (Effect.keeps_fail _)
  · rw [Effect.ends_orElse]
    refine (keeps_recoverDeviceMetadata hread d hI).mono (fun _ _ h => h) ?_
    intro e d₁ h₁
    rw [recoverBootstrap]
    split
    · exact hasked d₁ _ h₁ (Effect.keeps_fail _)
    · exact h₁

/-- What initializing keeps: whatever flushing keeps, and writing metadata pages of the empty
database or of zeros. -/
lemma keeps_initializeEmptyDevice
    (hwrite : ∀ id page, id < firstDataPageId → Torn page.bytes (emptyPage id).bytes →
      Effect.Keeps I (PageDevice.writePage (D := D) id page))
    (hflush : Effect.Keeps I (PageDevice.flush (D := D))) :
    Effect.Keeps I (initializeEmptyDevice (D := D)) := by
  have hblank : ∀ ids : List Nat, (∀ id ∈ ids, id < firstDataPageId) →
      Effect.Keeps I (writeMetadataPages (D := D) (fun _ => PageBytes.zero) ids) := fun ids hids =>
    Effect.Keeps.forEach (fun id hid => hwrite id _ (hids id hid) (torn_zero id))
  have hfull : ∀ ids : List Nat, (∀ id ∈ ids, id < firstDataPageId) →
      Effect.Keeps I (writeMetadataPages (D := D) emptyPage ids) := fun ids hids =>
    Effect.Keeps.forEach (fun id hid => hwrite id _ (hids id hid) (.refl _))
  rw [initializeEmptyDevice, emptyMetadataLayout_eq, Effect.ofExcept_ok_bind]
  refine (hblank _ (fun id hid => List.mem_range.mp hid)).bind (fun _ => ?_)
  refine (hfull _ (by decide)).bind (fun _ => hflush.bind (fun _ => ?_))
  exact (hfull _ (by decide)).bind (fun _ => hflush.bind (fun _ => Effect.keeps_pure _))

end Keeps

end
end TinyJoin
