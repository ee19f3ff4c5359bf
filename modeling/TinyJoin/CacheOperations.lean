import TinyJoin.CacheInvariant
import Mathlib.Logic.Function.Basic

/-! Each operation of the page cache on one page, and dropping a candidate, as what it does to the
plain map. -/
namespace TinyJoin
open PageDevice PageCache

namespace PlainMap

def reserve (m : PlainMap) (candidate id : Nat) : PlainMap :=
  match m.reserved id with
  | some _ => m
  | none => { m with reserved := Function.update m.reserved id (some (candidate, none)) }

def write (m : PlainMap) (candidate id : Nat) (page : PageBytes) : PlainMap :=
  { m with reserved := Function.update m.reserved id (some (candidate, some page)) }

def release (m : PlainMap) (id : Nat) : PlainMap :=
  { m with reserved := Function.update m.reserved id none }

def invalidate (m : PlainMap) (candidate : Nat) : PlainMap :=
  { m with reserved := fun id => (m.reserved id).filter (fun r => r.1 ≠ candidate) }

lemma invalidate_reserved {m : PlainMap} {candidate id : Nat} {r : Nat × Option PageBytes} :
    (m.invalidate candidate).reserved id = some r ↔ m.reserved id = some r ∧ r.1 ≠ candidate := by
  rw [invalidate, Option.filter_eq_some_iff, decide_eq_true_eq]

/-- The pages `next` allocates: the candidate's as it wrote them, sealed, and the rest as they
were. -/
def install (m : PlainMap) (candidate : Nat) (next : AllocationBitmap) : PlainMap where
  active := next
  committed := fun id =>
    if firstDataPageId ≤ id ∧ next.allocates id = true then
      match m.reserved id with
      | some (_, some page) => some (sealPage page)
      | _ => m.committed id
    else none
  reserved := (m.invalidate candidate).reserved

lemma reserved_reserve {m : PlainMap} {candidate id : Nat} (h : m.reserved id = none) (j : Nat) :
    (m.reserve candidate id).reserved j = if j = id then some (candidate, none) else m.reserved j := by
  rw [reserve, h]
  exact Function.update_apply ..

lemma reserve_committed (m : PlainMap) (candidate id : Nat) :
    (m.reserve candidate id).committed = m.committed := by
  rw [reserve]
  split
  · rfl
  · rfl

@[simp] lemma write_reserved_self (m : PlainMap) (candidate id : Nat) (page : PageBytes) :
    (m.write candidate id page).reserved id = some (candidate, some page) :=
  Function.update_self ..

lemma write_reserved_of_ne (m : PlainMap) (candidate : Nat) (page : PageBytes) {id j : Nat}
    (h : j ≠ id) : (m.write candidate id page).reserved j = m.reserved j :=
  Function.update_of_ne h ..

@[simp] lemma release_reserved_self (m : PlainMap) (id : Nat) : (m.release id).reserved id = none :=
  Function.update_self ..

lemma release_reserved_of_ne (m : PlainMap) {id j : Nat} (h : j ≠ id) :
    (m.release id).reserved j = m.reserved j :=
  Function.update_of_ne h ..

lemma reserved_of_release {m : PlainMap} {id j : Nat} {r : Nat × Option PageBytes}
    (h : (m.release id).reserved j = some r) : m.reserved j = some r := by
  by_cases hj : j = id
  · subst hj
    rw [release_reserved_self] at h
    cases h
  · rwa [release_reserved_of_ne _ hj] at h

end PlainMap

section
variable {D : Type} [PageDevice D] {P : D → Prop} {cache : PageCache D} {m : PlainMap}

/-- Reading a page returns what the map holds, from the cache or from the device. -/
lemma ends_readOwned (hP : DenseClosed P) (h : Represents P cache m) (owner : Owner) (id : Nat)
    (verify : PageBytes → Result Unit)
    (hload : cache.lookup.lookup (owner, id) = none → ∀ page,
      (pages cache.device)[id]? = some page → Shows m ⟨id, owner, page, true, false, false⟩) :
    (readOwned owner id verify).Ends cache
      (fun bytes c => Represents P c m ∧ c.reservations = cache.reservations ∧
        (∃ e, Shows m e ∧ e.key = (owner, id) ∧ e.bytes = bytes ∧
          (e ∈ cache.entries ∨ verify bytes = .ok ())) ∧
        (∀ e ∈ c.entries, e.owner = .committed →
          (∃ f ∈ cache.entries, f.key = e.key ∧ f.bytes = e.bytes) ∨
            (e.key = (owner, id) ∧ verify e.bytes = .ok ())) ∧
        (Healthy cache.device → Healthy c.device))
      (fun e c => Represents P c m ∧ c.reservations = cache.reservations ∧ CommittedFrom cache c ∧
        cache.lookup.lookup (owner, id) = none ∧
        ((∃ page, (pages cache.device)[id]? = some page ∧ verify page = .error e) ∨
          ¬(Healthy cache.device ∧ id < pageCount cache.device) ∧
            ((readPage id cache.device).1 = .error e ∨ ¬m.Quiet))) := by
  rw [readOwned, Effect.ends_bind, Effect.ends_get]
  cases hlookup : cache.lookup.lookup (owner, id) with
  | some index =>
    obtain ⟨e, he, hkey⟩ := h.indexed.getElem? hlookup
    have hshow := h.shown e (List.mem_of_getElem? he)
    have hset : SameIndex cache (PageCache.setEntry index { e with referenced := true } cache) :=
      sameIndex_setEntry he (fun _ => ⟨rfl, rfl⟩)
    dsimp only
    rw [Effect.ends_bind]
    refine ends_entryAt he ?_
    rw [Effect.ends_bind, Effect.ends_modify]
    have h₁ : Represents P (PageCache.setEntry index { e with referenced := true } cache) m :=
      h.setEntry he rfl (shows_referenced hshow true) (fun hd => Or.inl hd)
    refine ⟨h₁, rfl, ⟨e, hshow, hkey, rfl, Or.inl (List.mem_of_getElem? he)⟩, ?_, fun hh => hh⟩
    intro f hf howner
    exact Or.inl (hset.committed f hf howner)
  | none =>
    dsimp only
    rw [Effect.ends_bind, onDevice, Effect.ends_focus]
    have hresult : (readPage id).Ends cache.device (fun _ _ => True)
        (fun e _ => (readPage id cache.device).1 = .error e) := by
      rw [Effect.ends_def]
      exact ⟨fun _ _ _ => trivial, fun e d heq => by rw [heq]⟩
    refine ((hP.read cache.device id h.dense).and ((readPage_ends cache.device id).and
      hresult)).mono ?_ ?_
    · rintro page d ⟨hd, ⟨hpages, hat, hhealthy⟩, -⟩
      have h₁ : Represents P { cache with device := d } m :=
        h.withDevice hd (by rw [pageCount, pageCount, hpages]) (fun k _ _ _ => by rw [hpages])
      rw [Effect.ends_bind, Effect.ends_ofExcept]
      refine ⟨?_, ?_⟩
      · rintro ⟨⟩ hverify
        rw [Effect.ends_bind]
        have hnew : { cache with device := d }.lookup.lookup
            (CacheEntry.key ⟨id, owner, page, true, false, false⟩) = none := hlookup
        refine (ends_insert hP h₁ hnew).mono ?_ ?_
        · rintro index c ⟨c₁, hc₁, hsame, hplaced, hhealthy'⟩
          rw [Effect.ends_bind]
          refine ends_entryAt hplaced.slot ?_
          have hshow := hload hlookup page hat
          have hnew₁ : c₁.lookup.lookup
              (CacheEntry.key ⟨id, owner, page, true, false, false⟩) = none := by
            rw [hsame.lookup]
            exact hnew
          refine ⟨represents_placed hc₁ hplaced hnew₁ hshow,
            hplaced.reservations.trans hsame.reservations,
            ⟨_, hshow, rfl, rfl, Or.inr hverify⟩, ?_,
            fun hh => hhealthy' (hhealthy hh)⟩
          intro e he howner
          rcases hplaced.only e he with rfl | ⟨he, -⟩
          · exact Or.inr ⟨rfl, hverify⟩
          · exact Or.inl (hsame.committed e he howner)
        · rintro _ c ⟨hc, hsame, hsick⟩
          exact ⟨hc, hsame.reservations, hsame.committed, rfl,
            Or.inr ⟨fun hh => hsick (Or.inl (hhealthy hh.1)), Or.inr (fun hq => hsick (Or.inr hq))⟩⟩
      · intro e hverify
        exact ⟨h₁, rfl, CommittedFrom.refl _, rfl, Or.inl ⟨page, hat, hverify⟩⟩
    · rintro _ d ⟨hd, ⟨hpages, hsick⟩, hrefused⟩
      have h₁ : Represents P { cache with device := d } m :=
        h.withDevice hd (by rw [pageCount, pageCount, hpages]) (fun k _ _ _ => by rw [hpages])
      exact ⟨h₁, rfl, CommittedFrom.refl _, rfl, Or.inr ⟨hsick, Or.inl hrefused⟩⟩

lemma Represents.ensureReservedBy_ok (h : Represents P cache m) {candidate id : Nat}
    {old : Option PageBytes} (hr : m.reserved id = some (candidate, old)) :
    cache.ensureReservedBy candidate id = .ok () := by
  rw [ensureReservedBy, h.reservations, hr]
  exact if_pos rfl

lemma Represents.reserved_of_ensure (h : Represents P cache m) {candidate id : Nat}
    (hok : cache.ensureReservedBy candidate id = .ok ()) :
    ∃ old, m.reserved id = some (candidate, old) := by
  rw [ensureReservedBy, h.reservations] at hok
  cases hr : m.reserved id with
  | none =>
    rw [hr] at hok
    cases hok
  | some r =>
    obtain ⟨k, old⟩ := r
    rw [hr] at hok
    dsimp only [Option.map_some] at hok
    split at hok
    · next hk => exact ⟨old, by rw [hk]⟩
    · cases hok

/-- A written page that is not cached is on the device, sealed. -/
lemma Represents.on_device (h : Represents P cache m) {candidate id : Nat} {last : PageBytes}
    (hr : m.reserved id = some (candidate, some last))
    (hnone : cache.lookup.lookup (.candidate candidate, id) = none) :
    (pages cache.device)[id]? = some (sealPage last) := by
  rcases h.held id candidate last hr with hat | ⟨e, he, hkey, -⟩
  · exact hat
  · exact absurd hkey (h.indexed.lookup_eq_none_iff.mp hnone e he)

/-- A committed page read is the page of the committed view. -/
lemma ends_readPageVerified (hP : DenseClosed P) (h : Represents P cache m) {id : Nat}
    {page : PageBytes} (hpage : m.committed id = some page) (verify : PageBytes → Result Unit) :
    (readPageVerified id verify).Ends cache
      (fun bytes c => Represents P c m ∧ bytes = page ∧ c.reservations = cache.reservations ∧
        (∀ e ∈ c.entries, e.owner = .committed →
          (∃ f ∈ cache.entries, f.key = e.key ∧ f.bytes = e.bytes) ∨
            (e.id = id ∧ verify e.bytes = .ok ())) ∧
        ((∃ f ∈ cache.entries, f.key = (.committed, id) ∧ f.bytes = page) ∨
          verify page = .ok ()) ∧
        (Healthy cache.device → Healthy c.device))
      (fun e c => Represents P c m ∧ c.reservations = cache.reservations ∧ CommittedFrom cache c ∧
        (verify page = .error e ∨ ¬Healthy cache.device ∧
          ((readPage id cache.device).1 = .error e ∨ ¬m.Quiet))) := by
  have hat := h.stored id page hpage
  have hfree : m.reserved id = none := by
    cases hr : m.reserved id with
    | none => rfl
    | some r =>
      rw [h.not_committed_of_reserved hr] at hpage
      cases hpage
  have hnot : cache.ensureNotReserved id = .ok () := by
    rw [ensureNotReserved, h.reservations, hfree]
    rfl
  rw [readPageVerified, Effect.ends_bind, Effect.ends_get, Effect.ends_bind, hnot,
    Effect.ends_ofExcept_ok]
  refine (ends_readOwned hP h .committed id verify ?_).mono ?_ ?_
  · intro _ loaded hloaded
    rw [hat, Option.some.injEq] at hloaded
    subst hloaded
    exact ⟨rfl, rfl, hpage⟩
  · rintro bytes c ⟨hc, hres, ⟨e, hshow, hkey, hbytes, hsource⟩, hfrom, hhealthy⟩
    have hread : bytes = page := by
      have howner : e.owner = .committed := congrArg Prod.fst hkey
      have hid : e.id = id := congrArg Prod.snd hkey
      rw [Shows, howner] at hshow
      have := hshow.2.2
      rw [hid, hpage, Option.some.injEq] at this
      rw [← hbytes, this]
    subst hread
    refine ⟨hc, rfl, hres, ?_, hsource.imp_left (fun he => ⟨e, he, hkey, hbytes⟩), hhealthy⟩
    · intro f hf howner
      rcases hfrom f hf howner with hold | ⟨hkey', hverify⟩
      · exact Or.inl hold
      · exact Or.inr ⟨congrArg Prod.snd hkey', hverify⟩
  · rintro e c ⟨hc, hres, hfrom, -, hwhy⟩
    refine ⟨hc, hres, hfrom, ?_⟩
    rcases hwhy with ⟨loaded, hloaded, hverify⟩ | ⟨hsick, hrefused⟩
    · rw [hat, Option.some.injEq] at hloaded
      rw [hloaded]
      exact Or.inl hverify
    · exact Or.inr ⟨fun hh => hsick ⟨hh, Represents.lt_pageCount hat⟩, hrefused⟩

/-- A candidate's page read is the page it last wrote, sealed or not yet. -/
lemma ends_readCandidatePageVerified (hP : DenseClosed P) (h : Represents P cache m)
    (candidate id : Nat) (verify : PageBytes → Result Unit) :
    (readCandidatePageVerified candidate id verify).Ends cache
      (fun bytes c => Represents P c m ∧ c.reservations = cache.reservations ∧
        CommittedFrom cache c ∧
        (∃ last, m.reserved id = some (candidate, some last) ∧
          (bytes = last ∨ bytes = sealPage last)) ∧
        (Healthy cache.device → Healthy c.device))
      (fun _ c => Represents P c m ∧ c.reservations = cache.reservations ∧ CommittedFrom cache c ∧
        ¬(Healthy cache.device ∧ ∃ last, m.reserved id = some (candidate, some last) ∧
          verify (sealPage last) = .ok ())) := by
  rw [readCandidatePageVerified, Effect.ends_bind, Effect.ends_get, Effect.ends_bind,
    Effect.ends_ofExcept]
  refine ⟨?_, ?_⟩
  · rintro ⟨⟩ hok
    obtain ⟨old, hr⟩ := h.reserved_of_ensure hok
    have hlookup : cache.reservations.lookup id = some ⟨candidate, old.isSome⟩ := by
      rw [h.reservations, hr]
      rfl
    rw [hlookup]
    dsimp only
    cases old with
    | none =>
      rw [if_pos (by simp)]
      refine ⟨h, rfl, CommittedFrom.refl _, ?_⟩
      rintro ⟨-, last, hlast, -⟩
      rw [hr] at hlast
      cases hlast
    | some last =>
      rw [if_neg (by simp)]
      refine (ends_readOwned hP h (.candidate candidate) id verify ?_).mono ?_ ?_
      · intro hnone loaded hloaded
        rw [h.on_device hr hnone, Option.some.injEq] at hloaded
        subst hloaded
        exact ⟨last, hr, rfl, fun hu => (nomatch hu)⟩
      · rintro bytes c ⟨hc, hres, ⟨e, hshow, hkey, hbytes, -⟩, hfrom, hhealthy⟩
        have howner : e.owner = .candidate candidate := congrArg Prod.fst hkey
        have hid : e.id = id := congrArg Prod.snd hkey
        refine ⟨hc, hres, ?_, ⟨last, hr, ?_⟩, hhealthy⟩
        · intro f hf hfowner
          rcases hfrom f hf hfowner with hold | ⟨hkey', -⟩
          · exact hold
          · have hne := congrArg Prod.fst hkey'
            rw [CacheEntry.key, hfowner] at hne
            cases hne
        · rw [Shows, howner] at hshow
          obtain ⟨page, hpage, hshown, -⟩ := hshow
          rw [hid, hr, Option.some.injEq, Prod.mk.injEq, Option.some.injEq] at hpage
          rw [← hbytes, hshown, ← hpage.2]
          cases e.unsealed with
          | true => exact Or.inl rfl
          | false => exact Or.inr rfl
      · rintro e c ⟨hc, hres, hfrom, hnone, hwhy⟩
        have hat := h.on_device hr hnone
        refine ⟨hc, hres, hfrom, ?_⟩
        rintro ⟨hh, last', hlast', hverify⟩
        rw [hr, Option.some.injEq, Prod.mk.injEq, Option.some.injEq] at hlast'
        rcases hwhy with ⟨loaded, hloaded, herror⟩ | ⟨hsick, -⟩
        · rw [hat, Option.some.injEq] at hloaded
          rw [← hloaded, hlast'.2, hverify] at herror
          cases herror
        · exact hsick ⟨hh, Represents.lt_pageCount hat⟩
  · intro e herr
    refine ⟨h, rfl, CommittedFrom.refl _, ?_⟩
    rintro ⟨-, last, hlast, -⟩
    rw [h.ensureReservedBy_ok hlast] at herr
    cases herr

/-- A candidate's page placed dirty in the cache is what it last wrote. -/
lemma represents_write {c : PageCache D} (h : Represents P cache m) {candidate id : Nat}
    {old : Option PageBytes} (hr : m.reserved id = some (candidate, old)) {entry : CacheEntry}
    {index : Nat} (hplaced : Placed cache entry index c)
    (hkey : entry.key = (.candidate candidate, id)) (hdirty : entry.dirty = true)
    (hunsealed : entry.unsealed = true) :
    Represents P { c with reservations := c.reservations.insert id ⟨candidate, true⟩ }
      (m.write candidate id entry.bytes) where
  dense := hplaced.device ▸ h.dense
  indexed := hplaced.indexed
  bounded := hplaced.bounded
  room := hplaced.capacity ▸ h.room
  hand := hplaced.hand
  reservations := by
    intro j
    by_cases hj : j = id
    · subst hj
      simp
    · rw [AList.lookup_insert_ne hj, hplaced.reservations, h.reservations,
        PlainMap.write_reserved_of_ne _ _ _ hj]
  single := by
    have hsame : ∀ j r, (m.write candidate id entry.bytes).reserved j = some r →
        r.1 = candidate := by
      intro j r hj
      by_cases hji : j = id
      · subst hji
        rw [PlainMap.write_reserved_self, Option.some.injEq] at hj
        rw [← hj]
      · rw [PlainMap.write_reserved_of_ne _ _ _ hji] at hj
        exact h.single j id r _ hj hr
    intro i j r r' hi hj
    rw [hsame i r hi, hsame j r' hj]
  fresh := by
    intro j r hj
    by_cases hji : j = id
    · subst hji
      exact h.fresh j _ hr
    · rw [PlainMap.write_reserved_of_ne _ _ _ hji] at hj
      exact h.fresh j r hj
  domain := h.domain
  metadata := hplaced.device ▸ h.metadata
  stored := hplaced.device ▸ h.stored
  shown := by
    intro e he
    rcases hplaced.only e he with rfl | ⟨he, hne⟩
    · have howner : e.owner = .candidate candidate := congrArg Prod.fst hkey
      have hid : e.id = id := congrArg Prod.snd hkey
      rw [Shows, howner]
      refine ⟨e.bytes, ?_, by rw [if_pos hunsealed], fun _ => hdirty⟩
      rw [hid, PlainMap.write_reserved_self]
    · have hshow := h.shown e he
      cases howner : e.owner with
      | committed =>
        rw [Shows, howner] at hshow ⊢
        exact hshow
      | candidate k =>
        rw [Shows, howner] at hshow ⊢
        obtain ⟨page, hpage, hrest⟩ := hshow
        refine ⟨page, ?_, hrest⟩
        rw [PlainMap.write_reserved_of_ne]
        · exact hpage
        · rintro hid
          rw [hid, hr, Option.some.injEq, Prod.mk.injEq] at hpage
          exact hne (by rw [hkey, CacheEntry.key, howner, hid, hpage.1])
  held := by
    intro j k page hj
    by_cases hji : j = id
    · subst hji
      rw [PlainMap.write_reserved_self, Option.some.injEq, Prod.mk.injEq] at hj
      exact Or.inr ⟨entry, List.mem_of_getElem? hplaced.slot, by rw [hkey, hj.1], hdirty⟩
    · rw [PlainMap.write_reserved_of_ne _ _ _ hji] at hj
      rw [hplaced.device]
      rcases h.held j k page hj with hat | ⟨e, he, hekey, hed⟩
      · exact Or.inl hat
      · refine Or.inr ⟨e, hplaced.dirty e he hed ?_, hekey, hed⟩
        rw [hekey, hkey]
        exact fun heq => hji (congrArg Prod.snd heq)

omit [PageDevice D] in
lemma committedFrom_placed {c : PageCache D} {entry : CacheEntry} {index : Nat}
    (hplaced : Placed cache entry index c) (howner : entry.owner ≠ .committed) :
    CommittedFrom cache c := by
  intro e he hcommitted
  rcases hplaced.only e he with rfl | ⟨he, -⟩
  · exact absurd hcommitted howner
  · exact ⟨e, he, rfl, rfl⟩

/-- Writing a candidate's page records it in the map. -/
lemma ends_writeUnsealed (hP : DenseClosed P) (h : Represents P cache m) (candidate id : Nat)
    (bytes : List UInt8) :
    (writeUnsealedCandidatePage candidate id bytes).Ends cache
      (fun _ c => ∃ page : PageBytes, page.bytes = bytes ∧
        (∃ old, m.reserved id = some (candidate, old)) ∧
        Represents P c (m.write candidate id page) ∧ CommittedFrom cache c ∧
        (Healthy cache.device → Healthy c.device))
      (fun _ c => Represents P c m ∧ CommittedFrom cache c ∧
        ¬(Healthy cache.device ∧ (∃ old, m.reserved id = some (candidate, old)) ∧
          bytes.length = pageSize)) := by
  rw [writeUnsealedCandidatePage, writeCandidate, Effect.ends_bind, Effect.ends_get,
    Effect.ends_bind, Effect.ends_ofExcept]
  refine ⟨?_, ?_⟩
  · rintro ⟨⟩ hok
    obtain ⟨old, hr⟩ := h.reserved_of_ensure hok
    rw [Effect.ends_bind, writeOwned]
    by_cases hlen : bytes.length ≠ pageSize
    · rw [dif_pos hlen]
      exact ⟨h, CommittedFrom.refl _, fun hh => hlen hh.2.2⟩
    · rw [dif_neg hlen, Effect.ends_bind, Effect.ends_get]
      rcases hlookup : cache.lookup.lookup (.candidate candidate, id) with _ | index
      · -- the page is not cached: a new entry takes a slot
        simp only [hlookup]
        rw [Effect.ends_bind]
        have hnew : cache.lookup.lookup (CacheEntry.key
            ⟨id, .candidate candidate, ⟨bytes, not_not.mp hlen⟩, true, true, true⟩) = none := hlookup
        refine (ends_insert hP h hnew).mono ?_ ?_
        · rintro index c ⟨c₁, hc₁, hsame, hplaced, hhealthy⟩
          refine ⟨⟨bytes, not_not.mp hlen⟩, rfl, ⟨old, hr⟩, ?_, ?_, hhealthy⟩
          · exact represents_write hc₁ hr hplaced rfl rfl rfl
          · have hfrom := hsame.committed.trans (committedFrom_placed hplaced (by simp))
            exact hfrom
        · rintro _ c ⟨hc, hsame, hsick⟩
          exact ⟨hc, hsame.committed, fun hh => hsick (Or.inl hh.1)⟩
      · obtain ⟨e, he, hkey⟩ := h.indexed.getElem? hlookup
        have howner : e.owner = .candidate candidate := congrArg Prod.fst hkey
        simp only [hlookup]
        rw [Effect.ends_bind]
        refine ends_entryAt he ?_
        rw [Effect.ends_modify]
        have hplaced : Placed cache { e with
            bytes := ⟨bytes, not_not.mp hlen⟩, referenced := true, dirty := true, unsealed := true }
            index (PageCache.setEntry index { e with
              bytes := ⟨bytes, not_not.mp hlen⟩, referenced := true, dirty := true,
              unsealed := true } cache) := placed_setEntry h he rfl
        refine ⟨⟨bytes, not_not.mp hlen⟩, rfl, ⟨old, hr⟩, ?_, ?_, fun hh => hh⟩
        · exact represents_write h hr hplaced hkey rfl rfl
        · have hfrom := committedFrom_placed hplaced (by simp [howner])
          exact hfrom
  · intro e herr
    refine ⟨h, CommittedFrom.refl _, ?_⟩
    rintro ⟨-, ⟨old, hr⟩, -⟩
    rw [h.ensureReservedBy_ok hr] at herr
    cases herr


/-- Reserving a page is allowed when it is a free data page and no other candidate holds any. -/
def PlainMap.Reservable (m : PlainMap) (candidate id : Nat) : Prop :=
  firstDataPageId ≤ id ∧ id < maxPageCount ∧ m.active.allocates id = false ∧
    ∀ j r, m.reserved j = some r → r.1 = candidate

lemma represents_reserve (h : Represents P cache m) {candidate id : Nat}
    (hok : m.Reservable candidate id) (hnone : m.reserved id = none) :
    Represents P { cache with reservations := cache.reservations.insert id ⟨candidate, false⟩ }
      (m.reserve candidate id) := by
  have hself : (m.reserve candidate id).reserved id = some (candidate, none) := by
    rw [PlainMap.reserve, hnone]
    exact Function.update_self ..
  have hother : ∀ j, j ≠ id → (m.reserve candidate id).reserved j = m.reserved j := by
    intro j hj
    rw [PlainMap.reserve, hnone]
    exact Function.update_of_ne hj ..
  have hcommitted : (m.reserve candidate id).committed = m.committed := by
    rw [PlainMap.reserve, hnone]
  have hactive : (m.reserve candidate id).active = m.active := by
    rw [PlainMap.reserve, hnone]
  have howned : ∀ j r, (m.reserve candidate id).reserved j = some r → r.1 = candidate := by
    intro j r hj
    by_cases hji : j = id
    · subst hji
      rw [hself, Option.some.injEq] at hj
      rw [← hj]
    · rw [hother j hji] at hj
      exact hok.2.2.2 j r hj
  refine ⟨h.dense, h.indexed, h.bounded, h.room, h.hand, ?_, ?_, ?_, ?_, h.metadata, ?_, ?_, ?_⟩
  · intro j
    by_cases hji : j = id
    · subst hji
      rw [AList.lookup_insert, hself]
      rfl
    · rw [AList.lookup_insert_ne hji, h.reservations, hother j hji]
  · intro i j r r' hi hj
    rw [howned i r hi, howned j r' hj]
  · intro j r hj
    rw [hactive]
    by_cases hji : j = id
    · subst hji
      exact ⟨hok.1, hok.2.1, hok.2.2.1⟩
    · rw [hother j hji] at hj
      exact h.fresh j r hj
  · intro j
    rw [hcommitted, hactive]
    exact h.domain j
  · rw [hcommitted]
    exact h.stored
  · intro e he
    have hshow := h.shown e he
    cases howner : e.owner with
    | committed =>
      rw [Shows, howner] at hshow ⊢
      rw [hcommitted]
      exact hshow
    | candidate k =>
      rw [Shows, howner] at hshow ⊢
      obtain ⟨page, hpage, hrest⟩ := hshow
      have hne : e.id ≠ id := by
        intro heq
        rw [heq, hnone] at hpage
        cases hpage
      exact ⟨page, by rw [hother _ hne]; exact hpage, hrest⟩
  · intro j k page hj
    by_cases hji : j = id
    · subst hji
      rw [hself] at hj
      cases hj
    · rw [hother j hji] at hj
      exact h.held j k page hj

/-- A cached committed page is one the active bitmap allocates. -/
lemma Represents.lookup_committed (h : Represents P cache m) {id : Nat}
    (hfree : m.active.allocates id = false) : cache.lookup.lookup (.committed, id) = none := by
  rw [h.indexed.lookup_eq_none_iff]
  intro e he hkey
  have howner : e.owner = .committed := congrArg Prod.fst hkey
  have hid : e.id = id := congrArg Prod.snd hkey
  have hshow := h.shown e he
  rw [Shows, howner] at hshow
  have hin := ((h.domain e.id).mp (by rw [hshow.2.2]; rfl)).2
  rw [hid, hfree] at hin
  cases hin

lemma ends_reserveCandidatePage (h : Represents P cache m) (candidate id : Nat) :
    (reserveCandidatePage candidate id m.active).Ends cache
      (fun _ c => Represents P c (m.reserve candidate id) ∧ m.Reservable candidate id ∧
        c.entries = cache.entries ∧ c.device = cache.device)
      (fun _ c => c = cache ∧ ¬m.Reservable candidate id) := by
  rw [reserveCandidatePage]
  by_cases hlow : id < firstDataPageId
  · rw [if_pos hlow]
    exact ⟨rfl, fun hok => Nat.not_lt.mpr hok.1 hlow⟩
  rw [if_neg hlow, Effect.ends_bind, Effect.ends_ofExcept]
  refine ⟨?_, ?_⟩
  · intro allocated hallocated
    obtain ⟨hmax, rfl⟩ := AllocationBitmap.isAllocated_eq_ok hallocated
    rw [Effect.ends_bind, Effect.ends_get]
    by_cases hin : m.active.allocates id = true
    · rw [if_pos hin]
      refine ⟨rfl, fun hok => ?_⟩
      rw [hok.2.2.1] at hin
      cases hin
    have hfree : m.active.allocates id = false := by simpa using hin
    rw [if_neg hin, h.lookup_committed hfree, if_neg (by simp)]
    -- the first reservation names the candidate of all
    have hentry : ∀ entry ∈ cache.reservations.entries,
        ∃ old, m.reserved entry.1 = some (entry.2.candidate, old) := by
      intro entry hentry
      have hlook : cache.reservations.lookup entry.1 = some entry.2 :=
        AList.mem_lookup_iff.mpr hentry
      rw [h.reservations] at hlook
      obtain ⟨r, hr, hreq⟩ := Option.map_eq_some_iff.mp hlook
      exact ⟨r.2, by rw [hr, ← hreq]⟩
    cases hhead : cache.reservations.entries.head?.filter
        (fun entry => entry.2.candidate ≠ candidate) with
    | some entry =>
      obtain ⟨hmem, hne⟩ := Option.filter_eq_some_iff.mp hhead
      obtain ⟨old, hr⟩ := hentry entry (List.mem_of_mem_head? hmem)
      refine ⟨rfl, fun hok => ?_⟩
      have := hok.2.2.2 _ _ hr
      simp only [ne_eq, decide_eq_true_eq] at hne
      exact hne this
    | none =>
      have hall : ∀ j r, m.reserved j = some r → r.1 = candidate := by
        intro j r hr
        have hlook : cache.reservations.lookup j = some ⟨r.1, r.2.isSome⟩ := by
          rw [h.reservations, hr]
          rfl
        have hmem := AList.mem_lookup_iff.mp hlook
        rcases hents : cache.reservations.entries with _ | ⟨first, rest⟩
        · rw [hents] at hmem
          cases hmem
        · rw [hents, List.head?_cons, Option.filter_some] at hhead
          obtain ⟨old, hfirst⟩ := hentry first (by rw [hents]; exact List.mem_cons_self)
          have hsame : first.2.candidate = candidate := by
            by_contra hne
            rw [if_pos (by simpa using hne)] at hhead
            cases hhead
          rw [h.single j first.1 r _ hr hfirst]
          exact hsame
      have hok : m.Reservable candidate id := ⟨Nat.not_lt.mp hlow, hmax, hfree, hall⟩
      dsimp only
      rw [h.reservations]
      cases hr : m.reserved id with
      | some r =>
        dsimp only [Option.map_some]
        rw [if_pos (hall id r hr)]
        have hsame : m.reserve candidate id = m := by
          rw [PlainMap.reserve, hr]
        exact ⟨by rw [hsame]; exact h, hok, rfl, rfl⟩
      | none => exact ⟨represents_reserve h hok hr, hok, rfl, rfl⟩
  · intro e herr
    refine ⟨rfl, fun hok => ?_⟩
    rw [AllocationBitmap.isAllocated_of_lt _ hok.2.1] at herr
    cases herr


/-- What removing the entry of `key`, if there is one, leaves. -/
structure Removed (cache : PageCache D) (key : Owner × Nat) (c : PageCache D) : Prop where
  device : c.device = cache.device
  reservations : c.reservations = cache.reservations
  capacity : c.capacity = cache.capacity
  indexed : Indexed.Holds CacheEntry.key c.entries c.lookup
  length : c.entries.length ≤ cache.entries.length
  hand : c.hand = 0 ∨ c.hand < c.entries.length
  mem : ∀ e, e ∈ c.entries ↔ e ∈ cache.entries ∧ e.key ≠ key

omit [PageDevice D] in
lemma removed_removeEntry (hidx : Indexed.Holds CacheEntry.key cache.entries cache.lookup)
    (hhand : cache.hand = 0 ∨ cache.hand < cache.entries.length) (key : Owner × Nat) :
    Removed cache key (removeEntry key cache) := by
  rw [removeEntry]
  cases hlook : cache.lookup.lookup key with
  | none =>
    refine ⟨rfl, rfl, rfl, hidx, Nat.le_refl _, hhand, ?_⟩
    intro e
    exact ⟨fun he => ⟨he, hidx.lookup_eq_none_iff.mp hlook e he⟩, fun he => he.1⟩
  | some index =>
    obtain ⟨e, he, -⟩ := hidx.getElem? hlook
    have hlt := (List.getElem?_eq_some_iff.mp he).1
    refine ⟨rfl, rfl, rfl, hidx.remove hlook, ?_, ?_, fun e => Indexed.mem_swapRemove hidx hlook⟩
    · dsimp only
      rw [Indexed.length_swapRemove hlt]
      omega
    · dsimp only
      split
      · exact Or.inl rfl
      · next hge => exact Or.inr (Nat.not_le.mp hge)

omit [PageDevice D] in
lemma committedFrom_removed {key : Owner × Nat} {c : PageCache D} (h : Removed cache key c) :
    CommittedFrom cache c :=
  fun e he _ => ⟨e, ((h.mem e).mp he).1, rfl, rfl⟩

/-- Forgetting a cached committed page changes nothing: it is on the device. -/
lemma represents_removeCommitted (h : Represents P cache m) (id : Nat) :
    Represents P (removeEntry (.committed, id) cache) m := by
  have hrem := removed_removeEntry h.indexed h.hand (.committed, id)
  refine ⟨hrem.device ▸ h.dense, hrem.indexed, ?_, hrem.capacity ▸ h.room, hrem.hand,
    ?_, h.single, h.fresh, h.domain, hrem.device ▸ h.metadata, hrem.device ▸ h.stored, ?_, ?_⟩
  · rw [hrem.capacity]
    exact Nat.le_trans hrem.length h.bounded
  · rw [hrem.reservations]
    exact h.reservations
  · intro e he
    exact h.shown e ((hrem.mem e).mp he).1
  · intro j k page hj
    rw [hrem.device]
    rcases h.held j k page hj with hat | ⟨e, he, hkey, hdirty⟩
    · exact Or.inl hat
    · refine Or.inr ⟨e, (hrem.mem e).mpr ⟨he, ?_⟩, hkey, hdirty⟩
      rw [hkey]
      exact fun heq => nomatch congrArg Prod.fst heq

/-- Releasing a page takes it out of the map and out of the cache. -/
lemma represents_release (h : Represents P cache m) {candidate id : Nat}
    {old : Option PageBytes} (hr : m.reserved id = some (candidate, old)) :
    Represents P (removeEntry (.candidate candidate, id)
      { cache with reservations := cache.reservations.erase id }) (m.release id) := by
  have hrem := @removed_removeEntry D
    { cache with reservations := cache.reservations.erase id } h.indexed h.hand
    (.candidate candidate, id)
  generalize removeEntry (.candidate candidate, id)
    { cache with reservations := cache.reservations.erase id } = c at hrem ⊢
  refine ⟨hrem.device ▸ h.dense, hrem.indexed, ?_, hrem.capacity ▸ h.room, hrem.hand,
    ?_, ?_, ?_, h.domain, hrem.device ▸ h.metadata, hrem.device ▸ h.stored, ?_, ?_⟩
  · rw [hrem.capacity]
    exact Nat.le_trans hrem.length h.bounded
  · intro j
    rw [hrem.reservations]
    by_cases hj : j = id
    · subst hj
      rw [AList.lookup_erase, PlainMap.release_reserved_self]
      rfl
    · rw [AList.lookup_erase_ne hj, h.reservations, PlainMap.release_reserved_of_ne _ hj]
  · intro i j r r' hi hj
    exact h.single i j r r' (PlainMap.reserved_of_release hi) (PlainMap.reserved_of_release hj)
  · intro j r hj
    exact h.fresh j r (PlainMap.reserved_of_release hj)
  · intro e he
    obtain ⟨he, hne⟩ := (hrem.mem e).mp he
    have hshow := h.shown e he
    cases howner : e.owner with
    | committed =>
      rw [Shows, howner] at hshow ⊢
      exact hshow
    | candidate k =>
      rw [Shows, howner] at hshow ⊢
      obtain ⟨page, hpage, hrest⟩ := hshow
      refine ⟨page, ?_, hrest⟩
      rw [PlainMap.release_reserved_of_ne]
      · exact hpage
      · intro hid
        rw [hid, hr, Option.some.injEq, Prod.mk.injEq] at hpage
        exact hne (by rw [CacheEntry.key, howner, hid, hpage.1])
  · intro j k page hj
    rw [hrem.device]
    by_cases hji : j = id
    · subst hji
      rw [PlainMap.release_reserved_self] at hj
      cases hj
    · rw [PlainMap.release_reserved_of_ne _ hji] at hj
      rcases h.held j k page hj with hat | ⟨e, he, hkey, hdirty⟩
      · exact Or.inl hat
      · refine Or.inr ⟨e, (hrem.mem e).mpr ⟨he, ?_⟩, hkey, hdirty⟩
        rw [hkey]
        exact fun heq => hji (congrArg Prod.snd heq)

/-- The owners noted as unflushed are no part of the map. -/
lemma Represents.withUnflushed (h : Represents P cache m) (owners : List Owner) :
    Represents P { cache with unflushedOwners := owners } m :=
  { h with }

lemma ends_releaseCandidatePage (h : Represents P cache m) (candidate id : Nat) :
    (releaseCandidatePage candidate id).Ends cache
      (fun _ c => (∃ old, m.reserved id = some (candidate, old)) ∧ Represents P c (m.release id) ∧
        c.device = cache.device ∧ CommittedFrom cache c)
      (fun _ c => c = cache ∧ ∀ old, m.reserved id ≠ some (candidate, old)) := by
  rw [releaseCandidatePage, Effect.ends_bind, Effect.ends_get, Effect.ends_bind,
    Effect.ends_ofExcept]
  refine ⟨?_, ?_⟩
  · rintro ⟨⟩ hok
    obtain ⟨old, hr⟩ := h.reserved_of_ensure hok
    have hrel := represents_release h hr
    have hrem := @removed_removeEntry D
      { cache with reservations := cache.reservations.erase id } h.indexed h.hand
      (.candidate candidate, id)
    have hfrom := committedFrom_removed hrem
    rw [Effect.ends_modify]
    dsimp only
    split
    · exact ⟨⟨old, hr⟩, hrel.withUnflushed _, hrem.device, hfrom⟩
    · exact ⟨⟨old, hr⟩, hrel, hrem.device, hfrom⟩
  · intro e herr
    refine ⟨rfl, fun old hr => ?_⟩
    rw [h.ensureReservedBy_ok hr] at herr
    cases herr

lemma mem_candidateIds (h : Represents P cache m) (candidate id : Nat) (written : Bool) :
    (id, written) ∈ cache.candidateIds candidate ↔
      ∃ old, m.reserved id = some (candidate, old) ∧ written = old.isSome := by
  have hlook : ∀ r : Reservation, (⟨id, r⟩ : Sigma (fun _ : Nat => Reservation)) ∈
      cache.reservations.entries ↔ (m.reserved id).map (fun r => ⟨r.1, r.2.isSome⟩) = some r := by
    intro r
    rw [← h.reservations id]
    exact AList.mem_lookup_iff.symm
  rw [candidateIds, List.mem_map]
  constructor
  · rintro ⟨entry, hmem, heq⟩
    obtain ⟨hentry, hcand⟩ := List.mem_filter.mp hmem
    obtain ⟨i, r⟩ := entry
    simp only [Prod.mk.injEq] at heq
    obtain ⟨rfl, rfl⟩ := heq
    obtain ⟨r', hr', hreq⟩ := Option.map_eq_some_iff.mp ((hlook r).mp hentry)
    refine ⟨r'.2, ?_, by rw [← hreq]⟩
    rw [hr']
    have : r'.1 = candidate := by
      rw [← hreq] at hcand
      simpa using hcand
    rw [← this]
  · rintro ⟨old, hr, rfl⟩
    refine ⟨⟨id, ⟨candidate, old.isSome⟩⟩, List.mem_filter.mpr ⟨?_, by simp⟩, rfl⟩
    rw [hlook, hr]
    rfl

omit [PageDevice D] in
lemma nodup_candidateIds (cache : PageCache D) (candidate : Nat) :
    ((cache.candidateIds candidate).map Prod.fst).Nodup := by
  have hnodup : (cache.reservations.entries.map Sigma.fst).Nodup := cache.reservations.nodupKeys
  rw [candidateIds, List.map_map]
  exact hnodup.sublist ((List.filter_sublist).map _)


/-- Releasing pages one after another. -/
lemma represents_releaseAll {candidate : Nat} {l : List (Nat × Bool)}
    (hnodup : (l.map Prod.fst).Nodup) (h : Represents P cache m)
    (hall : ∀ entry ∈ l, ∃ old, m.reserved entry.1 = some (candidate, old)) :
    let c := l.foldl (fun cache entry => removeEntry (.candidate candidate, entry.1)
      { cache with reservations := cache.reservations.erase entry.1 }) cache
    Represents P c (l.foldl (fun m entry => m.release entry.1) m) ∧ c.device = cache.device ∧
      CommittedFrom cache c ∧ c.unflushedOwners = cache.unflushedOwners := by
  induction l generalizing cache m with
  | nil => exact ⟨h, rfl, CommittedFrom.refl _, rfl⟩
  | cons entry l ih =>
    obtain ⟨old, hr⟩ := hall entry List.mem_cons_self
    rw [List.map_cons, List.nodup_cons] at hnodup
    have hrem := @removed_removeEntry D
      { cache with reservations := cache.reservations.erase entry.1 } h.indexed h.hand
      (.candidate candidate, entry.1)
    have hunfl : (removeEntry (.candidate candidate, entry.1)
        { cache with reservations := cache.reservations.erase entry.1 }).unflushedOwners =
        cache.unflushedOwners := by
      rw [removeEntry]
      split <;> rfl
    obtain ⟨hrest, hdev, hfrom, hunflushed⟩ := ih hnodup.2 (represents_release h hr) (by
      intro other hother
      obtain ⟨old', hr'⟩ := hall other (List.mem_cons_of_mem _ hother)
      refine ⟨old', ?_⟩
      rw [PlainMap.release_reserved_of_ne]
      · exact hr'
      · exact fun heq => hnodup.1 (heq ▸ List.mem_map_of_mem hother))
    have hstep := committedFrom_removed hrem
    exact ⟨hrest, hdev.trans hrem.device, hstep.trans hfrom, hunflushed.trans hunfl⟩

lemma foldl_release (m : PlainMap) (l : List (Nat × Bool)) :
    (l.foldl (fun m entry => m.release entry.1) m).active = m.active ∧
      (l.foldl (fun m entry => m.release entry.1) m).committed = m.committed ∧
      ∀ j, (l.foldl (fun m entry => m.release entry.1) m).reserved j =
        if j ∈ l.map Prod.fst then none else m.reserved j := by
  induction l generalizing m with
  | nil => simp
  | cons entry l ih =>
    obtain ⟨hactive, hcommitted, hreserved⟩ := ih (m.release entry.1)
    refine ⟨hactive, hcommitted, ?_⟩
    intro j
    rw [List.foldl_cons, hreserved j, List.map_cons]
    by_cases hin : j ∈ l.map Prod.fst
    · rw [if_pos hin, if_pos (List.mem_cons_of_mem _ hin)]
    · rw [if_neg hin]
      by_cases hj : j = entry.1
      · rw [hj, PlainMap.release_reserved_self, if_pos List.mem_cons_self]
      · rw [PlainMap.release_reserved_of_ne _ hj, if_neg]
        rw [List.mem_cons]
        exact fun hmem => hmem.elim hj hin

/-- Releasing every page a candidate reserved is invalidating it. -/
lemma foldl_release_candidateIds (h : Represents P cache m) (candidate : Nat) :
    (cache.candidateIds candidate).foldl (fun m entry => m.release entry.1) m =
      m.invalidate candidate := by
  obtain ⟨hactive, hcommitted, hreserved⟩ := foldl_release m (cache.candidateIds candidate)
  have hres : ((cache.candidateIds candidate).foldl (fun m entry => m.release entry.1) m).reserved =
      (m.invalidate candidate).reserved := by
    funext j
    rw [hreserved j, PlainMap.invalidate]
    dsimp only
    cases hr : m.reserved j with
    | none => simp
    | some r =>
      rw [Option.filter_some]
      by_cases hk : r.1 = candidate
      · rw [if_pos, if_neg (by simpa using hk)]
        refine List.mem_map.mpr ⟨(j, r.2.isSome), (mem_candidateIds h _ _ _).mpr ?_, rfl⟩
        exact ⟨r.2, by rw [hr, ← hk], rfl⟩
      · rw [if_neg, if_pos (by simpa using hk)]
        rintro hmem
        obtain ⟨⟨i, w⟩, hentry, rfl⟩ := List.mem_map.mp hmem
        obtain ⟨old, hold, -⟩ := (mem_candidateIds h _ _ _).mp hentry
        rw [hr, Option.some.injEq] at hold
        exact hk (by rw [hold])
  generalize (cache.candidateIds candidate).foldl (fun m entry => m.release entry.1) m = m'
    at hactive hcommitted hres
  cases m'
  simp only at hactive hcommitted hres
  rw [hactive, hcommitted, hres, PlainMap.invalidate]

/-- Invalidating a candidate takes every page it reserved out of the map and the cache. -/
lemma represents_invalidate (h : Represents P cache m) (candidate : Nat) :
    Represents P (invalidateCandidate candidate cache) (m.invalidate candidate) ∧
      (invalidateCandidate candidate cache).device = cache.device ∧
      CommittedFrom cache (invalidateCandidate candidate cache) := by
  have h₀ := h.withUnflushed
    (cache.unflushedOwners.filter (fun owner => owner ≠ .candidate candidate))
  obtain ⟨hrep, hdev, hfrom, -⟩ := represents_releaseAll (nodup_candidateIds _ candidate) h₀ (by
    intro entry hentry
    obtain ⟨old, hr, -⟩ := (mem_candidateIds h₀ candidate entry.1 entry.2).mp hentry
    exact ⟨old, hr⟩)
  rw [foldl_release_candidateIds h₀ candidate] at hrep
  exact ⟨hrep, hdev, hfrom⟩

end
end TinyJoin
