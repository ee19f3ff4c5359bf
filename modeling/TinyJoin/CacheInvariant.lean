import TinyJoin.PageCache
import Mathlib.Data.List.Count

/-! What a page cache stands for: a plain map from pages to the bytes last written to them, in the
committed view and in the candidate's. Eviction, sealing and writing back leave the map as it is. -/
namespace TinyJoin
open PageDevice PageCache

/-- The committed pages, and the pages reserved: by which candidate, and what it last wrote. -/
structure PlainMap where
  active : AllocationBitmap
  committed : Nat → Option PageBytes
  reserved : Nat → Option (Nat × Option PageBytes)

/-- No page is reserved. -/
def PlainMap.Quiet (m : PlainMap) : Prop := ∀ id, m.reserved id = none

/-- The map of the pages on a device that a bitmap allocates. -/
def PlainMap.initial (active : AllocationBitmap) (stored : List PageBytes) : PlainMap where
  active := active
  committed := fun id =>
    if firstDataPageId ≤ id ∧ active.allocates id = true then stored[id]? else none
  reserved := fun _ => none

/-- A cached page holds what the map says, a candidate's up to its checksum until it is sealed. -/
def Shows (m : PlainMap) (e : CacheEntry) : Prop :=
  match e.owner with
  | .committed => e.dirty = false ∧ e.unsealed = false ∧ m.committed e.id = some e.bytes
  | .candidate k => ∃ page, m.reserved e.id = some (k, some page) ∧
      e.bytes = (if e.unsealed then page else sealPage page) ∧
      (e.unsealed = true → e.dirty = true)

section
variable {D : Type} [PageDevice D]

/-- A property of the device which reads, flushes and writes without a gap keep. -/
structure DenseClosed (P : D → Prop) : Prop where
  read : ∀ d id, P d → (readPage id).Ends d (fun _ d' => P d') (fun _ d' => P d')
  write : ∀ d id page, P d → id ≤ pageCount d →
    (writePage id page).Ends d (fun _ d' => P d') (fun _ d' => P d')
  writePages : ∀ d first run, P d → first ≤ pageCount d →
    (writePages first run).Ends d (fun _ d' => P d') (fun _ d' => P d')
  flush : ∀ d, P d → flush.Ends d (fun _ d' => P d') (fun _ d' => P d')

/-- Every operation on a device is free to do anything to it. -/
lemma denseClosed_true : DenseClosed (fun _ : D => True) where
  read _ _ _ := Effect.ends_of_final trivial
  write _ _ _ _ _ := Effect.ends_of_final trivial
  writePages _ _ _ _ _ := Effect.ends_of_final trivial
  flush _ _ := Effect.ends_of_final trivial

/-- The cache stands for the map `m`, on a device with the property `P`. -/
structure Represents (P : D → Prop) (cache : PageCache D) (m : PlainMap) : Prop where
  dense : P cache.device
  indexed : Indexed.Holds CacheEntry.key cache.entries cache.lookup
  bounded : cache.entries.length ≤ cache.capacity
  room : 0 < cache.capacity
  hand : cache.hand = 0 ∨ cache.hand < cache.entries.length
  reservations : ∀ id, cache.reservations.lookup id =
    (m.reserved id).map (fun r => ⟨r.1, r.2.isSome⟩)
  single : ∀ id id' r r', m.reserved id = some r → m.reserved id' = some r' → r.1 = r'.1
  fresh : ∀ id r, m.reserved id = some r →
    firstDataPageId ≤ id ∧ id < maxPageCount ∧ m.active.allocates id = false
  domain : ∀ id, (m.committed id).isSome = true ↔
    firstDataPageId ≤ id ∧ m.active.allocates id = true
  metadata : firstDataPageId ≤ pageCount cache.device
  stored : ∀ id page, m.committed id = some page → (pages cache.device)[id]? = some page
  shown : ∀ e ∈ cache.entries, Shows m e
  held : ∀ id k page, m.reserved id = some (k, some page) →
    (pages cache.device)[id]? = some (sealPage page) ∨
      ∃ e ∈ cache.entries, e.key = (.candidate k, id) ∧ e.dirty = true

namespace Represents
variable {P : D → Prop} {cache : PageCache D} {m : PlainMap}

lemma lt_pageCount {d : D} {k : Nat} {page : PageBytes} (h : (pages d)[k]? = some page) :
    k < pageCount d :=
  (List.getElem?_eq_some_iff.mp h).1

/-- Only a candidate's pages are ever dirty. -/
lemma dirty_reserved (h : Represents P cache m) {e : CacheEntry} (he : e ∈ cache.entries)
    (hdirty : e.dirty = true) : ∃ k page, e.owner = .candidate k ∧
      m.reserved e.id = some (k, some page) := by
  have hshow := h.shown e he
  cases howner : e.owner with
  | committed =>
    rw [Shows, howner] at hshow
    rw [hshow.1] at hdirty
    cases hdirty
  | candidate k =>
    rw [Shows, howner] at hshow
    obtain ⟨page, hreserved, -⟩ := hshow
    exact ⟨k, page, rfl, hreserved⟩

lemma not_committed_of_reserved (h : Represents P cache m) {id : Nat} {r : Nat × Option PageBytes}
    (hr : m.reserved id = some r) : m.committed id = none := by
  cases hc : m.committed id with
  | none => rfl
  | some page =>
    have hin := ((h.domain id).mp (by rw [hc]; rfl)).2
    rw [(h.fresh id r hr).2.2] at hin
    cases hin

/-- Writes that touch only metadata pages, new pages and pages with a dirty entry change nothing in
the map. -/
lemma withDevice (h : Represents P cache m) {d : D} (hP : P d)
    (hcount : pageCount cache.device ≤ pageCount d)
    (hkept : ∀ k, firstDataPageId ≤ k → k < pageCount cache.device →
      (∀ e ∈ cache.entries, e.dirty = true → e.id ≠ k) →
      (pages d)[k]? = (pages cache.device)[k]?) :
    Represents P { cache with device := d } m where
  dense := hP
  indexed := h.indexed
  bounded := h.bounded
  room := h.room
  hand := h.hand
  reservations := h.reservations
  single := h.single
  fresh := h.fresh
  domain := h.domain
  metadata := Nat.le_trans h.metadata hcount
  stored := by
    intro id page hpage
    have hat := h.stored id page hpage
    have hlow := ((h.domain id).mp (by rw [hpage]; rfl)).1
    rw [hkept id hlow (lt_pageCount hat) ?_]
    · exact hat
    · rintro e he hdirty rfl
      obtain ⟨k, page', -, hr⟩ := h.dirty_reserved he hdirty
      rw [h.not_committed_of_reserved hr] at hpage
      cases hpage
  shown := h.shown
  held := by
    intro id k page hpage
    by_cases hentry : ∃ e ∈ cache.entries, e.dirty = true ∧ e.id = id
    · obtain ⟨e, he, hdirty, rfl⟩ := hentry
      obtain ⟨k', page', howner, hr⟩ := h.dirty_reserved he hdirty
      rw [hpage, Option.some.injEq, Prod.mk.injEq] at hr
      exact Or.inr ⟨e, he, by rw [CacheEntry.key, howner, ← hr.1], hdirty⟩
    · rcases h.held id k page hpage with hat | ⟨e, he, hkey, hdirty⟩
      · refine Or.inl ?_
        rw [hkept id (h.fresh id _ hpage).1 (lt_pageCount hat)
          (fun e he hdirty heq => hentry ⟨e, he, hdirty, heq⟩)]
        exact hat
      · exact Or.inr ⟨e, he, hkey, hdirty⟩

/-- Changing a cached entry to one that shows the same page. -/
lemma setEntry (h : Represents P cache m) {index : Nat} {e e' : CacheEntry}
    (he : cache.entries[index]? = some e) (hkey : e'.key = e.key) (hshow : Shows m e')
    (hdirty : e.dirty = true → e'.dirty = true ∨
      ∀ k page, m.reserved e.id = some (k, some page) →
        (pages cache.device)[e.id]? = some (sealPage page)) :
    Represents P (PageCache.setEntry index e' cache) m where
  dense := h.dense
  indexed := h.indexed.set he hkey
  bounded := by
    rw [PageCache.setEntry, List.length_set]
    exact h.bounded
  room := h.room
  hand := by
    rw [PageCache.setEntry, List.length_set]
    exact h.hand
  reservations := h.reservations
  single := h.single
  fresh := h.fresh
  domain := h.domain
  metadata := h.metadata
  stored := h.stored
  shown := by
    intro f hf
    rcases List.mem_or_eq_of_mem_set hf with hf | rfl
    · exact h.shown f hf
    · exact hshow
  held := by
    have hlt := (List.getElem?_eq_some_iff.mp he).1
    intro id k page hpage
    rcases h.held id k page hpage with hat | ⟨f, hf, hfkey, hfdirty⟩
    · exact Or.inl hat
    · by_cases hsame : f.key = e.key
      · -- the dirty entry is the changed one
        obtain ⟨j, hj⟩ := List.mem_iff_getElem?.mp hf
        have hji := h.indexed.index_unique hj he hsame
        subst hji
        rw [he, Option.some.injEq] at hj
        subst hj
        rcases hdirty hfdirty with hd | hd
        · refine Or.inr ⟨e', ?_, hkey.trans hfkey, hd⟩
          exact List.mem_of_getElem? (List.getElem?_set_self hlt)
        · have hid : e.id = id := congrArg Prod.snd hfkey
          subst hid
          exact Or.inl (hd k page hpage)
      · refine Or.inr ⟨f, ?_, hfkey, hfdirty⟩
        obtain ⟨j, hj⟩ := List.mem_iff_getElem?.mp hf
        have hne : index ≠ j := by
          rintro rfl
          rw [he, Option.some.injEq] at hj
          exact hsame (hj ▸ rfl)
        exact List.mem_of_getElem? ((List.getElem?_set_ne hne).trans hj)

lemma shows_withSeal {e : CacheEntry} (h : Shows m e) : Shows m e.withSeal := by
  rw [CacheEntry.withSeal]
  split
  · next hunsealed =>
    cases howner : e.owner with
    | committed =>
      rw [Shows, howner] at h
      rw [h.2.1] at hunsealed
      cases hunsealed
    | candidate k =>
      rw [Shows, howner] at h
      obtain ⟨page, hr, hbytes, -⟩ := h
      rw [if_pos hunsealed] at hbytes
      simp only [Shows]
      exact ⟨page, hr, by simp [hbytes], by simp⟩
  · exact h

lemma withSeal_fields (e : CacheEntry) : e.withSeal.id = e.id ∧ e.withSeal.owner = e.owner ∧
    e.withSeal.dirty = e.dirty ∧ e.withSeal.unsealed = false := by
  rw [CacheEntry.withSeal]
  split
  · exact ⟨rfl, rfl, rfl, rfl⟩
  · next h => exact ⟨rfl, rfl, rfl, by simpa using h⟩

lemma key_withSeal (e : CacheEntry) : e.withSeal.key = e.key := by
  rw [CacheEntry.key, (withSeal_fields e).1, (withSeal_fields e).2.1, CacheEntry.key]

/-- The bytes of a sealed dirty entry are the sealed page the map holds. -/
lemma bytes_withSeal {e : CacheEntry} (h : Shows m e) {k : Nat} {page : PageBytes}
    (howner : e.owner = .candidate k) (hr : m.reserved e.id = some (k, some page)) :
    e.withSeal.bytes = sealPage page := by
  have hsealed := shows_withSeal h
  obtain ⟨hid, hown, -, hunsealed⟩ := withSeal_fields e
  rw [Shows, hown, howner] at hsealed
  obtain ⟨page', hr', hbytes, -⟩ := hsealed
  rw [hid, hr, Option.some.injEq, Prod.mk.injEq, Option.some.injEq] at hr'
  rw [hbytes, hunsealed, ← hr'.2]
  rfl

end Represents

/-! Writing back. -/

section WriteBack
variable {P : D → Prop}

/-- Zero pages appended one after another. -/
lemma ends_placeholders (hP : DenseClosed P) (n : Nat) (d : D) (hd : P d) :
    (Effect.forEach (fun id => writePage id PageBytes.zero) (List.range' (pageCount d) n)).Ends d
      (fun _ d' => P d' ∧ pages d' = pages d ++ List.replicate n PageBytes.zero ∧
        (Healthy d → Healthy d'))
      (fun _ d' => P d' ∧ pageCount d ≤ pageCount d' ∧
        (∀ k, k < pageCount d → (pages d')[k]? = (pages d)[k]?) ∧ 0 < n ∧
        ¬(Healthy d ∧ pageCount d + n ≤ maxPageCount)) := by
  induction n generalizing d with
  | zero => exact ⟨hd, by simp, fun h => h⟩
  | succ n ih =>
    rw [List.range'_succ, Effect.forEach, Effect.ends_bind]
    refine ((hP.write d (pageCount d) PageBytes.zero hd (Nat.le_refl _)).and
      (writePage_ends d (pageCount d) PageBytes.zero)).mono ?_ ?_
    · rintro _ d₁ ⟨hd₁, -, hpages, hhealthy⟩
      rw [pageCount, Bytes.put_end] at hpages
      have hcount : pageCount d₁ = pageCount d + 1 := by
        rw [pageCount, hpages, List.length_append]
        rfl
      rw [← hcount]
      refine (ih d₁ hd₁).mono ?_ ?_
      · rintro _ d₂ ⟨hd₂, hpages₂, hhealthy₂⟩
        refine ⟨hd₂, ?_, fun h => hhealthy₂ (hhealthy h)⟩
        rw [hpages₂, hpages, List.append_assoc]
        rfl
      · rintro _ d₂ ⟨hd₂, hle, hkept, -, hsick⟩
        refine ⟨hd₂, by omega, ?_, by omega, fun h => hsick ⟨hhealthy h.1, by omega⟩⟩
        intro k hk
        rw [hkept k (by omega), hpages, List.getElem?_append_left hk]
    · rintro _ d₁ ⟨hd₁, hle, hkept, hsick⟩
      exact ⟨hd₁, hle, fun k hk => hkept k (Nat.ne_of_lt hk), by omega,
        fun h => hsick ⟨h.1, Nat.le_refl _, by omega⟩⟩

omit [PageDevice D] in
lemma forEach_onDevice {β : Type} (f : β → Op D Unit) (l : List β) :
    Effect.forEach (fun b => onDevice (f b)) l = onDevice (Effect.forEach f l) := by
  apply Effect.forEach_focus
  · exact fun _ _ => rfl
  · exact fun _ _ _ => rfl
  · exact fun _ => rfl

/-- The device is as long as `id` afterwards, and holds what it held. -/
lemma ends_writePlaceholders (hP : DenseClosed P) (cache : PageCache D) (hd : P cache.device)
    (id : Nat) : (writePlaceholders id).Ends cache
      (fun _ c => ∃ d, c = { cache with device := d } ∧ P d ∧ id ≤ pageCount d ∧
        pageCount cache.device ≤ pageCount d ∧
        (∀ k, k < pageCount cache.device → (pages d)[k]? = (pages cache.device)[k]?) ∧
        (Healthy cache.device → Healthy d))
      (fun _ c => ∃ d, c = { cache with device := d } ∧ P d ∧
        pageCount cache.device ≤ pageCount d ∧
        (∀ k, k < pageCount cache.device → (pages d)[k]? = (pages cache.device)[k]?) ∧
        ¬(Healthy cache.device ∧ id < maxPageCount)) := by
  rw [writePlaceholders, Effect.ends_bind, Effect.ends_get, forEach_onDevice, onDevice,
    Effect.ends_focus]
  refine (ends_placeholders hP _ cache.device hd).mono ?_ ?_
  · rintro _ d ⟨hd', hpages, hhealthy⟩
    have hcount : pageCount d = pageCount cache.device + (id - pageCount cache.device) := by
      rw [pageCount, hpages, List.length_append, List.length_replicate]
      rfl
    refine ⟨d, rfl, hd', by omega, by omega, ?_, hhealthy⟩
    intro k hk
    rw [hpages, List.getElem?_append_left hk]
  · rintro _ d ⟨hd', hle, hkept, hpos, hsick⟩
    exact ⟨d, rfl, hd', hle, hkept, fun h => hsick ⟨h.1, by omega⟩⟩

omit [PageDevice D] in
lemma ends_entryAt {index : Nat} {e : CacheEntry} {cache : PageCache D}
    (he : cache.entries[index]? = some e) {Q : CacheEntry → PageCache D → Prop}
    {E : EngineError → PageCache D → Prop} (hQ : Q e cache) : (entryAt index).Ends cache Q E := by
  rw [Effect.Ends, entryAt, he]
  exact hQ

omit [PageDevice D] in
@[simp] lemma addUnflushed_fields (owner : Owner) (cache : PageCache D) :
    (addUnflushed owner cache).device = cache.device ∧
      (addUnflushed owner cache).entries = cache.entries ∧
      (addUnflushed owner cache).lookup = cache.lookup ∧
      (addUnflushed owner cache).reservations = cache.reservations ∧
      (addUnflushed owner cache).capacity = cache.capacity ∧
      (addUnflushed owner cache).hand = cache.hand := by
  rw [addUnflushed]
  split
  · exact ⟨rfl, rfl, rfl, rfl, rfl, rfl⟩
  · exact ⟨rfl, rfl, rfl, rfl, rfl, rfl⟩

lemma represents_addUnflushed {cache : PageCache D} {m : PlainMap} (h : Represents P cache m)
    (owner : Owner) : Represents P (addUnflushed owner cache) m := by
  rw [addUnflushed]
  split
  · exact h
  · exact { h with }

/-- The committed pages cached in `c` are cached in `cache` with the same bytes. -/
def CommittedFrom (cache c : PageCache D) : Prop :=
  ∀ e ∈ c.entries, e.owner = .committed → ∃ f ∈ cache.entries, f.key = e.key ∧ f.bytes = e.bytes

omit [PageDevice D] in
lemma CommittedFrom.refl (cache : PageCache D) : CommittedFrom cache cache :=
  fun e he _ => ⟨e, he, rfl, rfl⟩

omit [PageDevice D] in
lemma CommittedFrom.trans {a b c : PageCache D} (h : CommittedFrom a b)
    (h' : CommittedFrom b c) : CommittedFrom a c := by
  intro e he howner
  obtain ⟨f, hf, hkey, hbytes⟩ := h' e he howner
  have hfowner : f.owner = .committed := (congrArg Prod.fst hkey).trans howner
  obtain ⟨g, hg, hgkey, hgbytes⟩ := h f hf hfowner
  exact ⟨g, hg, hgkey.trans hkey, hgbytes.trans hbytes⟩

/-- What writing back leaves alone. -/
structure SameIndex (cache c : PageCache D) : Prop where
  lookup : c.lookup = cache.lookup
  reservations : c.reservations = cache.reservations
  capacity : c.capacity = cache.capacity
  length : c.entries.length = cache.entries.length
  committed : CommittedFrom cache c

omit [PageDevice D] in
lemma SameIndex.refl (cache : PageCache D) : SameIndex cache cache :=
  ⟨rfl, rfl, rfl, rfl, CommittedFrom.refl cache⟩

omit [PageDevice D] in
lemma SameIndex.trans {a b c : PageCache D} (h : SameIndex a b) (h' : SameIndex b c) :
    SameIndex a c :=
  ⟨h'.lookup.trans h.lookup, h'.reservations.trans h.reservations, h'.capacity.trans h.capacity,
    h'.length.trans h.length, h.committed.trans h'.committed⟩

omit [PageDevice D] in
/-- Changing an entry, but no committed page's bytes. -/
lemma sameIndex_setEntry {cache : PageCache D} {index : Nat} {e e' : CacheEntry}
    (he : cache.entries[index]? = some e)
    (hsame : e'.owner = .committed → e.key = e'.key ∧ e.bytes = e'.bytes) :
    SameIndex cache (PageCache.setEntry index e' cache) := by
  refine ⟨rfl, rfl, rfl, List.length_set, ?_⟩
  intro f hf howner
  rcases List.mem_or_eq_of_mem_set hf with hf | rfl
  · exact ⟨f, hf, rfl, rfl⟩
  · exact ⟨e, List.mem_of_getElem? he, hsame howner⟩

omit [PageDevice D] in
lemma SameIndex.withDevice {cache c : PageCache D} (h : SameIndex cache c) (d : D) :
    SameIndex cache { c with device := d } :=
  ⟨h.lookup, h.reservations, h.capacity, h.length, h.committed⟩

/-- An entry whose sealed page is on the device may be marked clean. -/
lemma represents_clean {cache : PageCache D} {m : PlainMap} (h : Represents P cache m)
    {index : Nat} {e : CacheEntry} (he : cache.entries[index]? = some e)
    (hsealed : e.unsealed = false)
    (hat : ∀ k page, m.reserved e.id = some (k, some page) →
      (pages cache.device)[e.id]? = some (sealPage page)) :
    Represents P (PageCache.setEntry index { e with dirty := false } cache) m := by
  refine h.setEntry he rfl ?_ (fun _ => Or.inr hat)
  have hshow := h.shown e (List.mem_of_getElem? he)
  cases howner : e.owner with
  | committed =>
    simp only [Shows, howner] at hshow ⊢
    exact ⟨trivial, hshow.2⟩
  | candidate k =>
    simp only [Shows, howner] at hshow ⊢
    obtain ⟨page, hr, hbytes, -⟩ := hshow
    exact ⟨page, hr, hbytes, fun hu => by rw [hsealed] at hu; cases hu⟩

/-- Writing an entry back changes nothing in the map, whether it succeeds or not. -/
lemma ends_writeEntry (hP : DenseClosed P) {cache : PageCache D} {m : PlainMap}
    (h : Represents P cache m) {index : Nat} {e : CacheEntry}
    (he : cache.entries[index]? = some e) (hdirty : e.dirty = true) :
    (writeEntry index).Ends cache
      (fun _ c => Represents P c m ∧ SameIndex cache c ∧
        (∃ f, c.entries[index]? = some f ∧ f.dirty = false) ∧
        (Healthy cache.device → Healthy c.device))
      (fun _ c => Represents P c m ∧ SameIndex cache c ∧ ¬Healthy cache.device) := by
  have hlt := (List.getElem?_eq_some_iff.mp he).1
  obtain ⟨hid, hown, hdirt, hunsealed⟩ := Represents.withSeal_fields e
  obtain ⟨k, page, howner, hr⟩ := h.dirty_reserved (List.mem_of_getElem? he) hdirty
  have hshow := h.shown e (List.mem_of_getElem? he)
  have hbytes := Represents.bytes_withSeal hshow howner hr
  have hmax := (h.fresh e.id _ hr).2.1
  -- the cache once the entry is sealed
  have h₁ : Represents P (PageCache.setEntry index e.withSeal cache) m :=
    h.setEntry he (Represents.key_withSeal e) (Represents.shows_withSeal hshow)
      (fun _ => Or.inl (hdirt.trans hdirty))
  have he₁ : (PageCache.setEntry index e.withSeal cache).entries[index]? = some e.withSeal :=
    List.getElem?_set_self hlt
  have hsame₁ : SameIndex cache (PageCache.setEntry index e.withSeal cache) :=
    sameIndex_setEntry he (fun hc => by rw [hown, howner] at hc; cases hc)
  rw [writeEntry, Effect.ends_bind]
  refine ends_entryAt he ?_
  rw [Effect.ends_bind, Effect.ends_modify, Effect.ends_bind]
  refine (ends_writePlaceholders hP _ h₁.dense _).mono ?_ ?_
  · rintro _ c ⟨d, rfl, hd, hcount, hle, hkept, hhealthy⟩
    have h₂ := h₁.withDevice hd hle (fun k _ hk _ => hkept k hk)
    rw [Effect.ends_bind, onDevice, Effect.ends_focus]
    have hmine : ∀ j, (∀ f ∈ (PageCache.setEntry index e.withSeal cache).entries,
        f.dirty = true → f.id ≠ j) → j ≠ e.withSeal.id :=
      fun j hclean => (hclean _ (List.mem_of_getElem? he₁) (hdirt.trans hdirty)).symm
    refine ((hP.write d e.withSeal.id e.withSeal.bytes hd hcount).and
      (writePage_ends d e.withSeal.id e.withSeal.bytes)).mono ?_ ?_
    · rintro _ d' ⟨hd', -, hpages, hhealthy'⟩
      have h₃ := h₂.withDevice hd' (by rw [pageCount, pageCount, hpages]; exact Bytes.length_put_le hcount)
        (fun j _ hj hclean => by
          rw [hpages]
          refine Bytes.getElem?_put hcount ?_
          have hne := hmine j hclean
          simp only [List.length_singleton]
          omega)
      -- the page is on the device, so the entry may be marked clean
      have hat : (pages d')[e.withSeal.id]? = some (sealPage page) := by
        rw [hpages, ← hbytes]
        exact @Bytes.getElem?_put_run _ (pages d) [e.withSeal.bytes] e.withSeal.id 0 hcount (by simp)
      have h₄ := represents_clean h₃ he₁ hunsealed (by
        intro k' page' hr'
        rw [hid, hr, Option.some.injEq, Prod.mk.injEq, Option.some.injEq] at hr'
        rw [← hr'.2]
        exact hat)
      rw [Effect.ends_bind, Effect.ends_modify, Effect.ends_modify]
      obtain ⟨hdev, hent, hlook, hres, hcap, -⟩ := addUnflushed_fields e.withSeal.owner
        (PageCache.setEntry index { e.withSeal with dirty := false }
          { PageCache.setEntry index e.withSeal cache with device := d' })
      have hmark : SameIndex { PageCache.setEntry index e.withSeal cache with device := d' }
          (PageCache.setEntry index { e.withSeal with dirty := false }
            { PageCache.setEntry index e.withSeal cache with device := d' }) :=
        sameIndex_setEntry he₁ (fun _ => ⟨rfl, rfl⟩)
      have hsame₄ := (hsame₁.withDevice d').trans hmark
      refine ⟨represents_addUnflushed h₄ _, ⟨hlook.trans hsame₄.lookup,
          hres.trans hsame₄.reservations, hcap.trans hsame₄.capacity, ?_, ?_⟩,
        ⟨{ e.withSeal with dirty := false }, ?_, rfl⟩, ?_⟩
      · rw [hent]
        exact hsame₄.length
      · rw [CommittedFrom, hent]
        exact hsame₄.committed
      · rw [hent]
        exact List.getElem?_set_self (by simpa [PageCache.setEntry] using hlt)
      · rw [hdev]
        exact fun hh => hhealthy' (hhealthy hh)
    · rintro _ d' ⟨hd', hlen, hother, hsick⟩
      refine ⟨h₂.withDevice hd' hlen (fun j _ _ hclean => hother j (hmine j hclean)),
        hsame₁.withDevice d', ?_⟩
      exact fun hh => hsick ⟨hhealthy hh, hcount, by rw [hid]; exact hmax⟩
  · rintro _ c ⟨d, rfl, hd, hle, hkept, hsick⟩
    refine ⟨h₁.withDevice hd hle (fun k _ hk _ => hkept k hk), hsame₁.withDevice d, ?_⟩
    exact fun hh => hsick ⟨hh, by rw [hid]; exact hmax⟩

/-- How many entries the clock's hand would pass over. -/
def referencedCount (cache : PageCache D) : Nat := cache.entries.countP CacheEntry.referenced

/-- Clearing the mark of a referenced entry. -/
lemma countP_set_false {l : List CacheEntry} {index : Nat} {e e' : CacheEntry}
    (he : l[index]? = some e) (hr : e.referenced = true) (hr' : e'.referenced = false) :
    (l.set index e').countP CacheEntry.referenced + 1 = l.countP CacheEntry.referenced := by
  induction l generalizing index with
  | nil => simp at he
  | cons f l ih =>
    cases index with
    | zero =>
      simp only [List.getElem?_cons_zero, Option.some.injEq] at he
      subst he
      simp [hr, hr']
    | succ index =>
      have := ih (by simpa using he)
      rw [List.set_cons_succ, List.countP_cons, List.countP_cons]
      omega

lemma shows_referenced {m : PlainMap} {e : CacheEntry} (h : Shows m e) (mark : Bool) :
    Shows m { e with referenced := mark } := h

/-- The clock returns a clean entry, having written it back if it was not. On a healthy device it
finds one when it has more rounds than there are entries to pass over. -/
lemma ends_clockRounds (hP : DenseClosed P) {m : PlainMap} (attempts : Nat)
    {cache : PageCache D} (h : Represents P cache m) (hne : cache.entries ≠ []) :
    (clockRounds attempts).Ends cache
      (fun index c => Represents P c m ∧ SameIndex cache c ∧
        (∃ f, c.entries[index]? = some f ∧ f.dirty = false) ∧
        (Healthy cache.device → Healthy c.device))
      (fun _ c => Represents P c m ∧ SameIndex cache c ∧
        ¬((Healthy cache.device ∨ m.Quiet) ∧ referencedCount cache < attempts)) := by
  induction attempts generalizing cache with
  | zero => exact ⟨h, SameIndex.refl _, fun hh => by omega⟩
  | succ attempts ih =>
    have hpos : 0 < cache.entries.length := List.length_pos_of_ne_nil hne
    have hhand : cache.hand < cache.entries.length := by
      rcases h.hand with h0 | hlt
      · omega
      · exact hlt
    obtain ⟨e, he⟩ : ∃ e, cache.entries[cache.hand]? = some e :=
      ⟨_, List.getElem?_eq_getElem hhand⟩
    -- the hand moves on before the entry is looked at
    have h₁ : Represents P { cache with hand := (cache.hand + 1) % cache.entries.length } m :=
      { h with hand := Or.inr (Nat.mod_lt _ hpos) }
    have he₁ : { cache with hand := (cache.hand + 1) % cache.entries.length }.entries[cache.hand]? =
        some e := he
    rw [clockRounds, Effect.ends_bind, Effect.ends_get, Effect.ends_bind, Effect.ends_modify,
      Effect.ends_bind]
    refine ends_entryAt he₁ ?_
    by_cases hreferenced : e.referenced = true
    · rw [if_pos hreferenced, Effect.ends_bind, Effect.ends_modify]
      have hshow := h.shown e (List.mem_of_getElem? he)
      have hkey : { e with referenced := false }.key = e.key := rfl
      have h₂ := h₁.setEntry he₁ hkey (shows_referenced hshow false) (fun hd => Or.inl hd)
      have hstep : SameIndex cache (PageCache.setEntry cache.hand { e with referenced := false }
          { cache with hand := (cache.hand + 1) % cache.entries.length }) := by
        have hset : SameIndex cache
            (PageCache.setEntry cache.hand { e with referenced := false } cache) :=
          sameIndex_setEntry he (fun _ => ⟨rfl, rfl⟩)
        exact ⟨rfl, rfl, rfl, hset.length, hset.committed⟩
      have hunmarked : { e with referenced := false }.referenced = false := rfl
      have hcount := countP_set_false he hreferenced hunmarked
      refine (ih h₂ ?_).mono ?_ ?_
      · intro hnil
        have := congrArg List.length hnil
        simp only [PageCache.setEntry, List.length_set, List.length_nil] at this
        omega
      · rintro index c ⟨hc, hsame, hclean, hhealthy⟩
        exact ⟨hc, hstep.trans hsame, hclean, hhealthy⟩
      · rintro _ c ⟨hc, hsame, hsick⟩
        refine ⟨hc, hstep.trans hsame, ?_⟩
        rintro ⟨hh, hlt⟩
        refine hsick ⟨hh, ?_⟩
        rw [referencedCount] at hlt ⊢
        simp only [PageCache.setEntry]
        omega
    · rw [if_neg hreferenced, Effect.ends_bind]
      by_cases hdirty : e.dirty = true
      · rw [writeIfDirty, if_pos hdirty]
        refine (ends_writeEntry hP h₁ he₁ hdirty).mono ?_ ?_
        · rintro _ c ⟨hc, hsame, hclean, hhealthy⟩
          exact ⟨hc, ⟨hsame.lookup, hsame.reservations, hsame.capacity, hsame.length,
            hsame.committed⟩, hclean, hhealthy⟩
        · rintro _ c ⟨hc, hsame, hsick⟩
          refine ⟨hc, ⟨hsame.lookup, hsame.reservations, hsame.capacity, hsame.length,
            hsame.committed⟩, ?_⟩
          rintro ⟨hh | hquiet, -⟩
          · exact hsick hh
          · obtain ⟨_, _, -, hr⟩ := h.dirty_reserved (List.mem_of_getElem? he) hdirty
            rw [hquiet] at hr
            cases hr
      · rw [writeIfDirty, if_neg hdirty]
        exact ⟨h₁, ⟨rfl, rfl, rfl, rfl, CommittedFrom.refl cache⟩,
          ⟨e, he, by simpa using hdirty⟩, fun hh => hh⟩

lemma ends_findVictim (hP : DenseClosed P) {m : PlainMap} {cache : PageCache D}
    (h : Represents P cache m) (hne : cache.entries ≠ []) :
    findVictim.Ends cache
      (fun index c => Represents P c m ∧ SameIndex cache c ∧
        (∃ f, c.entries[index]? = some f ∧ f.dirty = false) ∧
        (Healthy cache.device → Healthy c.device))
      (fun _ c => Represents P c m ∧ SameIndex cache c ∧
        ¬(Healthy cache.device ∨ m.Quiet)) := by
  rw [findVictim, Effect.ends_bind, Effect.ends_get]
  refine (ends_clockRounds hP _ h hne).mono (fun _ _ hq => hq) ?_
  rintro _ c ⟨hc, hsame, hsick⟩
  refine ⟨hc, hsame, fun hh => hsick ⟨hh, ?_⟩⟩
  have hle : referencedCount cache ≤ cache.entries.length := List.countP_le_length
  have hpos : 0 < cache.entries.length := List.length_pos_of_ne_nil hne
  omega

/-- `c` is `cache` with `entry` in the slot `index`, in the place of a clean entry, of an entry
with its key, or at the end. -/
structure Placed (cache : PageCache D) (entry : CacheEntry) (index : Nat) (c : PageCache D) :
    Prop where
  device : c.device = cache.device
  reservations : c.reservations = cache.reservations
  capacity : c.capacity = cache.capacity
  indexed : Indexed.Holds CacheEntry.key c.entries c.lookup
  bounded : c.entries.length ≤ c.capacity
  hand : c.hand = 0 ∨ c.hand < c.entries.length
  slot : c.entries[index]? = some entry
  only : ∀ e ∈ c.entries, e = entry ∨ (e ∈ cache.entries ∧ e.key ≠ entry.key)
  dirty : ∀ e ∈ cache.entries, e.dirty = true → e.key ≠ entry.key → e ∈ c.entries

lemma placed_setEntry {cache : PageCache D} {m : PlainMap} (h : Represents P cache m)
    {index : Nat} {e entry : CacheEntry} (he : cache.entries[index]? = some e)
    (hkey : entry.key = e.key) : Placed cache entry index (PageCache.setEntry index entry cache) := by
  have hlt := (List.getElem?_eq_some_iff.mp he).1
  have hother : ∀ f j, cache.entries[j]? = some f → (f.key ≠ entry.key ↔ j ≠ index) := by
    intro f j hf
    rw [hkey, not_iff_not]
    constructor
    · exact h.indexed.index_unique hf he
    · rintro rfl
      rw [he, Option.some.injEq] at hf
      rw [hf]
  refine ⟨rfl, rfl, rfl, h.indexed.set he hkey, ?_, ?_, List.getElem?_set_self hlt, ?_, ?_⟩
  · rw [PageCache.setEntry, List.length_set]
    exact h.bounded
  · rw [PageCache.setEntry, List.length_set]
    exact h.hand
  · intro f hf
    obtain ⟨j, hj⟩ := List.mem_iff_getElem?.mp hf
    rw [PageCache.setEntry, List.getElem?_set] at hj
    split at hj
    · rw [Option.some.injEq] at hj
      exact Or.inl hj.symm
    · next hne => exact Or.inr ⟨List.mem_of_getElem? hj, (hother f j hj).mpr (Ne.symm hne)⟩
  · intro f hf _ hfkey
    obtain ⟨j, hj⟩ := List.mem_iff_getElem?.mp hf
    have hne := (hother f j hj).mp hfkey
    exact List.mem_of_getElem? ((List.getElem?_set_ne (Ne.symm hne)).trans hj)

/-- Inserting evicts at most one clean entry. -/
lemma ends_insert (hP : DenseClosed P) {cache : PageCache D} {m : PlainMap}
    (h : Represents P cache m) {entry : CacheEntry} (hnew : cache.lookup.lookup entry.key = none) :
    (PageCache.insert entry).Ends cache
      (fun index c => ∃ c₁, Represents P c₁ m ∧ SameIndex cache c₁ ∧ Placed c₁ entry index c ∧
        (Healthy cache.device → Healthy c.device))
      (fun _ c => Represents P c m ∧ SameIndex cache c ∧
        ¬(Healthy cache.device ∨ m.Quiet)) := by
  rw [PageCache.insert, Effect.ends_bind, Effect.ends_get]
  by_cases hroom : cache.entries.length < cache.capacity
  · rw [if_pos hroom, Effect.ends_bind, Effect.ends_modify]
    have hnone := h.indexed.lookup_eq_none_iff.mp hnew
    refine ⟨cache, h, SameIndex.refl _, ⟨rfl, rfl, rfl, h.indexed.push hnew, ?_, ?_, ?_, ?_, ?_⟩,
      fun hh => hh⟩
    · simp only [List.length_append, List.length_singleton]
      omega
    · simp only [List.length_append, List.length_singleton]
      rcases h.hand with h0 | hlt
      · exact Or.inl h0
      · exact Or.inr (by omega)
    · simp
    · intro e he
      rcases List.mem_append.mp he with he | he
      · exact Or.inr ⟨he, hnone e he⟩
      · exact Or.inl (by simpa using he)
    · intro e he _ _
      exact List.mem_append_left _ he
  · rw [if_neg hroom, Effect.ends_bind]
    have hne : cache.entries ≠ [] := by
      intro hnil
      have := h.room
      rw [hnil, List.length_nil] at hroom
      omega
    refine (ends_findVictim hP h hne).mono ?_ (fun _ _ he => he)
    rintro index c ⟨hc, hsame, ⟨victim, hvictim, hclean⟩, hhealthy⟩
    have hlt := (List.getElem?_eq_some_iff.mp hvictim).1
    rw [Effect.ends_bind]
    refine ends_entryAt hvictim ?_
    rw [Effect.ends_bind, Effect.ends_modify]
    have hnew' : c.lookup.lookup entry.key = none := by
      rw [hsame.lookup]
      exact hnew
    have hnone := hc.indexed.lookup_eq_none_iff.mp hnew'
    refine ⟨c, hc, hsame, ⟨rfl, rfl, rfl, hc.indexed.replace hvictim (Or.inr hnew'), ?_, ?_,
      List.getElem?_set_self hlt, ?_, ?_⟩, hhealthy⟩
    · rw [List.length_set]
      exact hc.bounded
    · rw [List.length_set]
      exact Or.inr (Nat.mod_lt _ (by omega))
    · intro e he
      rcases List.mem_or_eq_of_mem_set he with he | he
      · exact Or.inr ⟨he, hnone e he⟩
      · exact Or.inl he
    · intro e he hdirty _
      obtain ⟨j, hj⟩ := List.mem_iff_getElem?.mp he
      have hji : index ≠ j := by
        rintro rfl
        rw [hvictim, Option.some.injEq] at hj
        rw [← hj, hclean] at hdirty
        cases hdirty
      exact List.mem_of_getElem? ((List.getElem?_set_ne hji).trans hj)

/-- A placed entry that shows the map leaves the cache standing for it. -/
lemma represents_placed {cache c : PageCache D} {m : PlainMap} (h : Represents P cache m)
    {entry : CacheEntry} {index : Nat} (hplaced : Placed cache entry index c)
    (hnew : cache.lookup.lookup entry.key = none) (hshow : Shows m entry) : Represents P c m where
  dense := hplaced.device ▸ h.dense
  indexed := hplaced.indexed
  bounded := hplaced.bounded
  room := hplaced.capacity ▸ h.room
  hand := hplaced.hand
  reservations := by
    rw [hplaced.reservations]
    exact h.reservations
  single := h.single
  fresh := h.fresh
  domain := h.domain
  metadata := hplaced.device ▸ h.metadata
  stored := hplaced.device ▸ h.stored
  shown := by
    intro e he
    rcases hplaced.only e he with rfl | ⟨he, -⟩
    · exact hshow
    · exact h.shown e he
  held := by
    intro id k page hpage
    rw [hplaced.device]
    rcases h.held id k page hpage with hat | ⟨e, he, hkey, hdirty⟩
    · exact Or.inl hat
    · exact Or.inr ⟨e, hplaced.dirty e he hdirty (h.indexed.lookup_eq_none_iff.mp hnew e he), hkey,
        hdirty⟩

end WriteBack

/-- An empty cache stands for the pages on its device that the bitmap allocates. -/
lemma represents_empty {P : D → Prop} {d : D} {capacity : Nat} {active : AllocationBitmap}
    (hd : P d) (hcapacity : 0 < capacity) (hmetadata : firstDataPageId ≤ pageCount d)
    (hcovered : ∀ id, active.allocates id = true → id < pageCount d) :
    Represents P (PageCache.empty d capacity) (PlainMap.initial active (pages d)) := by
  refine ⟨hd, Indexed.holds_nil, Nat.zero_le _, hcapacity, Or.inl rfl, fun _ => rfl,
    fun _ _ _ _ hr => (nomatch hr), fun _ _ hr => (nomatch hr), ?_, hmetadata, ?_,
    fun _ he => (nomatch he), fun _ _ _ hr => (nomatch hr)⟩
  · intro id
    rw [PlainMap.initial]
    dsimp only
    split
    · next hin =>
      rw [List.getElem?_eq_getElem (hcovered id hin.2)]
      exact ⟨fun _ => hin, fun _ => rfl⟩
    · next hout => exact ⟨fun h => (nomatch h), fun h => absurd h hout⟩
  · intro id page hpage
    rw [PlainMap.initial] at hpage
    dsimp only at hpage
    split at hpage
    · exact hpage
    · cases hpage

end
end TinyJoin
