import TinyJoin.PagerFailure

/-! What a write transaction presents to the structures above it: the pages it can read, which of
them it allocated itself, and how each of its operations changes that. -/
namespace TinyJoin
open PageDevice PageCache

/-- The pages a candidate can read, those it allocates, and those the active root allocates too. -/
structure PageView where
  page : Nat → Option Page
  allocated : Nat → Bool
  shared : Nat → Bool

namespace PageView

/-- Whether the candidate allocated `id` itself. -/
def owns (v : PageView) (id : Nat) : Bool := v.allocated id && !v.shared id

/-- The candidate allocates `id`, which holds nothing yet. -/
def allocate (v : PageView) (id : Nat) : PageView :=
  { v with page := Function.update v.page id none, allocated := Function.update v.allocated id true }

def write (v : PageView) (page : Page) : PageView :=
  { v with page := Function.update v.page page.id (some page) }

lemma allocate_page (v : PageView) (id k : Nat) :
    (v.allocate id).page k = if k = id then none else v.page k :=
  Function.update_apply ..

lemma allocate_allocated (v : PageView) (id k : Nat) :
    (v.allocate id).allocated k = if k = id then true else v.allocated k :=
  Function.update_apply ..

lemma write_page (v : PageView) (page : Page) (k : Nat) :
    (v.write page).page k = if k = page.id then some page else v.page k :=
  Function.update_apply ..

end PageView

section
variable {D : Type} [PageDevice D]

namespace PagerWriteTransaction
variable {t : PagerWriteTransaction D} {m : PlainMap} {v : PageView}

omit [PageDevice D] in
/-- A transaction shows one page under an ID. -/
lemma Shows.unique {id : Nat} {page page' : Page} (h : t.Shows m id page)
    (h' : t.Shows m id page') : page = page' := by
  rw [Shows] at h h'
  split at h
  · next hnew =>
    rw [if_pos hnew] at h'
    obtain ⟨last, hlast, hencoded, -⟩ := h
    obtain ⟨last', hlast', hencoded', -⟩ := h'
    rw [hlast, Option.some.injEq, Prod.mk.injEq, Option.some.injEq] at hlast'
    rw [← hlast'.2] at hencoded'
    have hdecoded := Page.decodeVerified_encodeUnsealed hencoded
    rw [Page.decodeVerified_encodeUnsealed hencoded', Except.ok.injEq] at hdecoded
    exact hdecoded.symm
  · next hnew =>
    rw [if_neg hnew] at h'
    obtain ⟨bytes, hbytes, -, hdecoded⟩ := h
    obtain ⟨bytes', hbytes', -, hdecoded'⟩ := h'
    rw [hbytes, Option.some.injEq] at hbytes'
    rw [← hbytes', hdecoded, Except.ok.injEq] at hdecoded'
    exact hdecoded'

omit [PageDevice D] in

/-- A sound transaction that shows every page of `v`, and allocates what `v` does. -/
def Presents (t : PagerWriteTransaction D) (v : PageView) : Prop :=
  ∃ m, t.Sound (fun _ => True) m ∧ (∀ id, v.allocated id = t.nextBitmap.allocates id) ∧
    (∀ id, v.shared id = t.activeBitmap.allocates id) ∧
    ∀ id page, v.page id = some page → (firstDataPageId ≤ id ∧ id < maxPageCount) ∧
      v.allocated id = true ∧ t.Shows m id page

lemma Presents.owns_eq (h : t.Presents v) (id : Nat) : v.owns id = t.isNew id := by
  obtain ⟨m, -, hallocated, hshared, -⟩ := h
  rw [PageView.owns, hallocated, hshared, isNew]

/-- An open transaction of a reachable pager presents at least what it allocates. -/
lemma presents_of_opens {p : Pager D} (hreached : p.Reached) (hopens : p.Opens t) :
    t.Presents ⟨fun _ => none, t.nextBitmap.allocates, t.activeBitmap.allocates⟩ := by
  obtain ⟨m, hs, hquiet⟩ := hreached.sound
  obtain ⟨m', hs', -⟩ := hopens.sound denseClosed_true hs hquiet
  exact ⟨m', hs', fun _ => rfl, fun _ => rfl, fun _ _ hpage => (nomatch hpage)⟩

omit [PageDevice D] in
/-- What is shown of a page depends on its own state alone. -/
lemma Shows.congr {t' : PagerWriteTransaction D} {m' : PlainMap} {id : Nat} {page : Page}
    (h : t.Shows m id page) (hcandidate : t'.candidate = t.candidate)
    (hnew : t'.isNew id = t.isNew id) (hreserved : m'.reserved id = m.reserved id)
    (hcommitted : m'.committed id = m.committed id) : t'.Shows m' id page := by
  rw [Shows] at h ⊢
  rw [hnew, hreserved, hcommitted, hcandidate]
  exact h

/-- An operation on one page keeps what is presented of every other. -/
lemma Sound.presents {t' : PagerWriteTransaction D} {m' : PlainMap} {v' : PageView}
    (hs' : t'.Sound (fun _ => True) m') (id : Nat) (hframed : t.Framed t')
    (hallocated : ∀ k, v.allocated k = t.nextBitmap.allocates k)
    (hshared : ∀ k, v.shared k = t.activeBitmap.allocates k)
    (hpages : ∀ k page, v.page k = some page → (firstDataPageId ≤ k ∧ k < maxPageCount) ∧
      v.allocated k = true ∧ t.Shows m k page)
    (hbitmap : ∀ k, k ≠ id → t'.nextBitmap.allocates k = t.nextBitmap.allocates k)
    (hreserved : ∀ k, k ≠ id → m'.reserved k = m.reserved k) (hcommitted : m'.committed = m.committed)
    (hview : ∀ k, k ≠ id → v'.page k = v.page k ∧ v'.allocated k = v.allocated k)
    (hviewShared : v'.shared = v.shared) (hat : v'.allocated id = t'.nextBitmap.allocates id)
    (hpage : ∀ page, v'.page id = some page → (firstDataPageId ≤ id ∧ id < maxPageCount) ∧
      v'.allocated id = true ∧ t'.Shows m' id page) : t'.Presents v' := by
  have hactives : t'.activeBitmap = t.activeBitmap :=
    congrArg RecoveredMetadata.allocationBitmap hframed.active
  refine ⟨m', hs', ?_, ?_, ?_⟩
  · intro k
    by_cases hk : k = id
    · rw [hk]
      exact hat
    · rw [(hview k hk).2, hbitmap k hk]
      exact hallocated k
  · intro k
    rw [hviewShared, hactives]
    exact hshared k
  · intro k page hkpage
    by_cases hk : k = id
    · subst hk
      exact hpage page hkpage
    · rw [(hview k hk).1] at hkpage
      obtain ⟨hdata, hin, hshows⟩ := hpages k page hkpage
      refine ⟨hdata, (hview k hk).2.trans hin, hshows.congr hframed.candidate ?_ (hreserved k hk) ?_⟩
      · rw [isNew, isNew, hbitmap k hk, hactives]
      · rw [hcommitted]

/-- An operation that changed no page presents what was presented. -/
lemma Sound.presents_same {t' : PagerWriteTransaction D} (hs' : t'.Sound (fun _ => True) m)
    (hframed : t.Framed t') (hbitmap : t'.nextBitmap = t.nextBitmap)
    (hallocated : ∀ k, v.allocated k = t.nextBitmap.allocates k)
    (hshared : ∀ k, v.shared k = t.activeBitmap.allocates k)
    (hpages : ∀ k page, v.page k = some page → (firstDataPageId ≤ k ∧ k < maxPageCount) ∧
      v.allocated k = true ∧ t.Shows m k page) : t'.Presents v := by
  have hactives : t'.activeBitmap = t.activeBitmap :=
    congrArg RecoveredMetadata.allocationBitmap hframed.active
  refine ⟨m, hs', ?_, ?_, ?_⟩
  · rw [hbitmap]
    exact hallocated
  · rw [hactives]
    exact hshared
  · intro k page hk
    obtain ⟨hdata, hin, hshows⟩ := hpages k page hk
    refine ⟨hdata, hin, hshows.congr hframed.candidate ?_ rfl rfl⟩
    rw [isNew, isNew, hbitmap, hactives]

/-- Allocation takes a page neither root allocates. -/
lemma presents_allocatePage (h : t.Presents v) : allocatePage.Ends t
    (fun id t' => t'.Presents (v.allocate id) ∧ t.Framed t' ∧ v.allocated id = false ∧
      v.shared id = false ∧ (firstDataPageId ≤ id ∧ id < maxPageCount) ∧
      (Healthy t.pager.cache.device → Healthy t'.pager.cache.device))
    (fun _ t' => t'.Presents v ∧ t.Framed t') := by
  obtain ⟨m, hs, hallocated, hshared, hpages⟩ := h
  refine (ends_allocatePage hs).mono ?_ ?_
  · rintro id t' ⟨hs', hframed, hactive, hnext, hlow, hmax, hbitmap, hhealthy⟩
    have hnone : m.reserved id = none := by
      rw [← Option.not_isSome_iff_eq_none, hs.reserved id, isNew, hnext]
      simp
    refine ⟨hs'.presents id hframed hallocated hshared hpages ?_ ?_ ?_ ?_ rfl ?_ ?_,
      hframed, (hallocated id).trans hnext, (hshared id).trans hactive, ⟨hlow, hmax⟩, hhealthy⟩
    · intro k hk
      rw [hbitmap k, if_neg hk]
    · intro k hk
      rw [PlainMap.reserved_reserve hnone, if_neg hk]
    · rw [PlainMap.reserve_committed]
    · intro k hk
      rw [v.allocate_page, v.allocate_allocated, if_neg hk, if_neg hk]
      exact ⟨rfl, rfl⟩
    · rw [v.allocate_allocated, hbitmap id, if_pos rfl, if_pos rfl]
    · intro page hpage
      rw [v.allocate_page, if_pos rfl] at hpage
      cases hpage
  · rintro _ t' ⟨hs', hframed, hbitmap, -⟩
    exact ⟨hs'.presents_same hframed hbitmap hallocated hshared hpages, hframed⟩

lemma presents_writeNewPage (h : t.Presents v) (page : Page) : (writeNewPage page).Ends t
    (fun _ t' => t'.Presents (v.write page) ∧ t.Framed t' ∧ v.owns page.id = true ∧
      (Healthy t.pager.cache.device → Healthy t'.pager.cache.device))
    (fun _ t' => t'.Presents v ∧ t.Framed t') := by
  have howns := h.owns_eq page.id
  obtain ⟨m, hs, hallocated, hshared, hpages⟩ := h
  refine (ends_writeNewPage denseClosed_true hs page).mono ?_ ?_
  · rintro _ t' ⟨raw, hraw, hnew, hs', hframed, hbitmap, hhealthy⟩
    have hdata := hs.isNew_data hnew
    have hin : v.allocated page.id = true := by
      rw [hallocated]
      rw [isNew, Bool.and_eq_true] at hnew
      exact hnew.1
    refine ⟨hs'.presents page.id hframed hallocated hshared hpages ?_ ?_ rfl ?_ rfl ?_ ?_,
      hframed, howns.trans hnew, hhealthy⟩
    · intro k _
      rw [hbitmap]
    · intro k hk
      rw [PlainMap.write_reserved_of_ne _ _ _ hk]
    · intro k hk
      rw [v.write_page, if_neg hk]
      exact ⟨rfl, rfl⟩
    · rw [hbitmap]
      exact hallocated page.id
    · intro shown hshown
      rw [v.write_page, if_pos rfl, Option.some.injEq] at hshown
      subst hshown
      refine ⟨⟨hdata.1, hdata.2.1⟩, hin, ?_⟩
      have hnew' : t'.isNew page.id = true := by
        rw [isNew, hbitmap]
        have hactives : t'.activeBitmap = t.activeBitmap :=
          congrArg RecoveredMetadata.allocationBitmap hframed.active
        rw [hactives]
        exact hnew
      rw [Shows, if_pos hnew']
      refine ⟨raw, ?_, hraw, rfl⟩
      rw [PlainMap.write_reserved_self, hframed.candidate]
  · rintro _ t' ⟨hs', hframed, hbitmap, -⟩
    exact ⟨hs'.presents_same hframed hbitmap hallocated hshared hpages, hframed⟩

/-- A read returns the page presented, and fails only if the device does. -/
lemma presents_readPage (h : t.Presents v) (id : Nat) :
    (PagerWriteTransaction.readPage id).Ends t
      (fun page t' => t'.Presents v ∧ t.Framed t' ∧ (∀ shown ∈ v.page id, page = shown) ∧
        (Healthy t.pager.cache.device → Healthy t'.pager.cache.device))
      (fun _ t' => t'.Presents v ∧ t.Framed t' ∧
        ¬(Healthy t.pager.cache.device ∧ t.failed = false ∧ (v.page id).isSome)) := by
  obtain ⟨m, hs, hallocated, hshared, hpages⟩ := h
  refine (ends_readPage denseClosed_true hs id).mono ?_ ?_
  · rintro page t' ⟨hshows, -, hs', hframed, hbitmap, hhealthy⟩
    refine ⟨hs'.presents_same hframed hbitmap hallocated hshared hpages, hframed, ?_, hhealthy⟩
    intro shown hshown
    exact hshows.unique (hpages id shown hshown).2.2
  · rintro _ t' ⟨hs', hframed, hbitmap, hno⟩
    refine ⟨hs'.presents_same hframed hbitmap hallocated hshared hpages, hframed, ?_⟩
    rintro ⟨hh, hfailed, hsome⟩
    obtain ⟨shown, hshown⟩ := Option.isSome_iff_exists.mp hsome
    obtain ⟨hdata, hin, hshows⟩ := hpages id shown hshown
    exact hno ⟨hh, hfailed, hdata, (hallocated id).symm.trans hin, shown, hshows⟩

end PagerWriteTransaction
end
end TinyJoin
