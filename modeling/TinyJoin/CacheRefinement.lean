import TinyJoin.CachePublish

/-! Every run of the operations a pager issues, over a device that may fail at any of them: the
cache answers as the plain map does, and never writes past the end of the device. -/
namespace TinyJoin
open PageDevice PageCache

/-- What a pager does to its cache. The clock may stand anywhere, so `turnHand` and `mark` let an
eviction choose any page. -/
inductive CacheOp
  | reserve (candidate id : Nat)
  | write (candidate id : Nat) (bytes : List UInt8)
  | read (id : Nat) (verify : PageBytes → Result Unit)
  | readCandidate (candidate id : Nat) (verify : PageBytes → Result Unit)
  | release (candidate id : Nat)
  | writePages (candidate : Nat) (ids : List Nat)
  | writeMetadata (id : Nat) (page : PageBytes)
  | flush
  | install (candidate : Nat) (next : AllocationBitmap)
  | invalidate (candidate : Nat)
  | turnHand (hand : Nat)
  | mark (index : Nat) (referenced : Bool)

/-- The cache, and the bitmap of the root its committed pages belong to. -/
structure CacheState (D : Type) where
  cache : PageCache D
  active : AllocationBitmap

section
variable {D : Type}

def turnHand (hand : Nat) (cache : PageCache D) : PageCache D :=
  { cache with
    hand := if cache.entries.length = 0 then 0 else hand % cache.entries.length }

def mark (index : Nat) (referenced : Bool) (cache : PageCache D) : PageCache D :=
  match cache.entries[index]? with
  | some entry => setEntry index { entry with referenced := referenced } cache
  | none => cache

variable [PageDevice D]

/-- Runs an operation, which returns a page if it reads one. -/
def CacheOp.run (active : AllocationBitmap) : CacheOp → Op (PageCache D) (Option PageBytes)
  | .reserve candidate id => do
    reserveCandidatePage candidate id active
    pure none
  | .write candidate id bytes => do
    writeUnsealedCandidatePage candidate id bytes
    pure none
  | .read id verify => some <$> readPageVerified id verify
  | .readCandidate candidate id verify => some <$> readCandidatePageVerified candidate id verify
  | .release candidate id => do
    releaseCandidatePage candidate id
    pure none
  | .writePages candidate ids => do
    writeCandidatePages candidate ids
    pure none
  | .writeMetadata id page => do
    onDevice (writePage id page)
    pure none
  | .flush => do
    flushDevice
    pure none
  | .install candidate next => do
    installCandidate candidate active next
    pure none
  | .invalidate candidate => do
    Effect.modify (invalidateCandidate candidate)
    pure none
  | .turnHand hand => do
    Effect.modify (TinyJoin.turnHand hand)
    pure none
  | .mark index referenced => do
    Effect.modify (TinyJoin.mark index referenced)
    pure none

/-- The bitmap of the committed pages once an operation returned. -/
def CacheOp.activeAfter (active : AllocationBitmap) : CacheOp → AllocationBitmap
  | .install _ next => next
  | _ => active

def CacheState.step (s : CacheState D) (op : CacheOp) :
    Except EngineError (Option PageBytes) × CacheState D :=
  match op.run s.active s.cache with
  | (.ok answer, cache) => (.ok answer, ⟨cache, op.activeAfter s.active⟩)
  | (.error e, cache) => (.error e, ⟨cache, s.active⟩)

end

namespace PlainMap

/-- What an operation that returns does to the map. -/
def apply (m : PlainMap) : CacheOp → PlainMap
  | .reserve candidate id => m.reserve candidate id
  | .write candidate id bytes =>
    if hlen : bytes.length = pageSize then m.write candidate id ⟨bytes, hlen⟩ else m
  | .release _ id => m.release id
  | .install candidate next => m.install candidate next
  | .invalidate candidate => m.invalidate candidate
  | _ => m

/-- An operation that fails leaves the map as it is. -/
def after (m : PlainMap) (op : CacheOp) : Except EngineError (Option PageBytes) → PlainMap
  | .ok _ => m.apply op
  | .error _ => m

/-- The page a read returns is the one last written in its view: a committed page exactly, and a
candidate's with or without its checksum. -/
def Answers (m : PlainMap) (op : CacheOp) (answer : Option PageBytes) : Prop :=
  match op with
  | .read id _ => answer.isSome = true ∧ answer = m.committed id
  | .readCandidate candidate id _ => ∃ last, m.reserved id = some (candidate, some last) ∧
      (answer = some last ∨ answer = some (sealPage last))
  | _ => answer = none

end PlainMap

/-- What a pager sees to before it issues an operation: it reads pages its root allocates, writes
a candidate's pages in order, publishes only pages allocated before or reserved, and writes beside
the cache only metadata pages. -/
def CacheOp.Issued (m : PlainMap) : CacheOp → Prop
  | .read id _ => firstDataPageId ≤ id ∧ m.active.allocates id = true
  | .writePages _ ids => ids.Pairwise (· < ·)
  | .writeMetadata id _ => id < firstDataPageId
  | .install candidate next => m.Publishable candidate next
  | _ => True

/-- When an operation is granted. -/
def CacheOp.Granted {D : Type} (cache : PageCache D) (m : PlainMap) : CacheOp → Prop
  | .reserve candidate id => m.Reservable candidate id
  | .write candidate id bytes =>
    (∃ old, m.reserved id = some (candidate, old)) ∧ bytes.length = pageSize
  | .read id verify => ∀ page, m.committed id = some page → verify page = .ok ()
  | .readCandidate candidate id verify =>
    ∃ last, m.reserved id = some (candidate, some last) ∧ verify (sealPage last) = .ok ()
  | .release candidate id => ∃ old, m.reserved id = some (candidate, old)
  | .install candidate next => Installable cache m candidate next
  | _ => True

section
variable {D : Type} [PageDevice D] {P : D → Prop} {cache : PageCache D} {m : PlainMap}

lemma represents_turnHand (h : Represents P cache m) (hand : Nat) :
    Represents P (turnHand hand cache) m := by
  refine { h with hand := ?_ }
  rw [turnHand]
  dsimp only
  split
  · exact Or.inl rfl
  · next hne => exact Or.inr (Nat.mod_lt _ (Nat.pos_of_ne_zero hne))

lemma represents_mark (h : Represents P cache m) (index : Nat) (referenced : Bool) :
    Represents P (mark index referenced cache) m := by
  rw [mark]
  split
  · next e he =>
    have hshow := h.shown e (List.mem_of_getElem? he)
    exact h.setEntry he rfl (shows_referenced hshow referenced) (fun hd => Or.inl hd)
  · exact h

/-- Each operation keeps the cache standing for the map, answers from it, and on a healthy device
is granted whenever the map grants it. -/
lemma ends_run (hP : DenseClosed P) (h : Represents P cache m) (op : CacheOp)
    (hissued : op.Issued m) :
    (op.run m.active).Ends cache
      (fun answer c => Represents P c (m.apply op) ∧ m.Answers op answer)
      (fun _ c => Represents P c m ∧ ¬(Healthy cache.device ∧ op.Granted cache m)) := by
  cases op with
  | reserve candidate id =>
    rw [CacheOp.run, Effect.ends_bind]
    refine (ends_reserveCandidatePage h candidate id).mono ?_ ?_
    · rintro _ c ⟨hc, -⟩
      exact ⟨hc, rfl⟩
    · rintro _ c ⟨rfl, hno⟩
      exact ⟨h, fun hh => hno hh.2⟩
  | write candidate id bytes =>
    rw [CacheOp.run, Effect.ends_bind]
    refine (ends_writeUnsealed hP h candidate id bytes).mono ?_ ?_
    · rintro _ c ⟨page, hpage, -, hc, -⟩
      refine ⟨?_, rfl⟩
      have hlen : bytes.length = pageSize := by
        rw [← hpage]
        exact page.length_eq
      have hsame : page = ⟨bytes, hlen⟩ := PageBytes.ext hpage
      rw [PlainMap.apply, dif_pos hlen, ← hsame]
      exact hc
    · rintro _ c ⟨hc, -, hno⟩
      exact ⟨hc, hno⟩
  | read id verify =>
    obtain ⟨page, hpage⟩ := Option.isSome_iff_exists.mp ((h.domain id).mpr hissued)
    rw [CacheOp.run, Effect.ends_map]
    refine (ends_readPageVerified hP h hpage verify).mono ?_ ?_
    · rintro bytes c ⟨hc, rfl, -⟩
      exact ⟨hc, rfl, hpage.symm⟩
    · rintro e c ⟨hc, -, -, hwhy⟩
      refine ⟨hc, ?_⟩
      rintro ⟨hh, hgranted⟩
      rcases hwhy with herror | ⟨hsick, -⟩
      · rw [hgranted page hpage] at herror
        cases herror
      · exact hsick hh
  | readCandidate candidate id verify =>
    rw [CacheOp.run, Effect.ends_map]
    refine (ends_readCandidatePageVerified hP h candidate id verify).mono ?_ ?_
    · rintro bytes c ⟨hc, -, -, ⟨last, hr, hbytes⟩, -⟩
      exact ⟨hc, last, hr, hbytes.imp (congrArg some) (congrArg some)⟩
    · rintro _ c ⟨hc, -, -, hno⟩
      exact ⟨hc, hno⟩
  | release candidate id =>
    rw [CacheOp.run, Effect.ends_bind]
    refine (ends_releaseCandidatePage h candidate id).mono ?_ ?_
    · rintro _ c ⟨-, hc, -⟩
      exact ⟨hc, rfl⟩
    · rintro _ c ⟨rfl, hno⟩
      exact ⟨h, fun hh => hh.2.elim hno⟩
  | writePages candidate ids =>
    rw [CacheOp.run, Effect.ends_bind]
    refine (ends_writeCandidatePages hP h candidate hissued).mono ?_ ?_
    · rintro _ c ⟨hc, -⟩
      exact ⟨hc, rfl⟩
    · rintro _ c ⟨hc, -, hsick⟩
      exact ⟨hc, fun hh => hsick hh.1⟩
  | writeMetadata id page =>
    rw [CacheOp.run, Effect.ends_bind]
    refine (ends_writeMetadata hP h hissued page).mono ?_ ?_
    · rintro _ c ⟨d, -, hc, -⟩
      exact ⟨hc, rfl⟩
    · rintro _ c ⟨d, -, hc, -, hsick⟩
      exact ⟨hc, fun hh => hsick hh.1⟩
  | flush =>
    rw [CacheOp.run, Effect.ends_bind]
    refine (ends_flushDevice hP h).mono ?_ ?_
    · rintro _ c ⟨d, -, hc, -⟩
      exact ⟨hc, rfl⟩
    · rintro _ c ⟨d, -, hc, -, hsick⟩
      exact ⟨hc, fun hh => hsick hh.1⟩
  | install candidate next =>
    rw [CacheOp.run, Effect.ends_bind]
    refine (ends_installCandidate h).mono ?_ ?_
    · rintro _ c ⟨rfl, hok⟩
      exact ⟨(represents_install h hissued hok.1 hok.2.2.1 hok.2.2.2).1, rfl⟩
    · rintro _ c ⟨rfl, hno⟩
      exact ⟨h, fun hh => hno hh.2⟩
  | invalidate candidate =>
    rw [CacheOp.run, Effect.ends_bind, Effect.ends_modify]
    exact ⟨(represents_invalidate h candidate).1, rfl⟩
  | turnHand hand =>
    rw [CacheOp.run, Effect.ends_bind, Effect.ends_modify]
    exact ⟨represents_turnHand h hand, rfl⟩
  | mark index referenced =>
    rw [CacheOp.run, Effect.ends_bind, Effect.ends_modify]
    exact ⟨represents_mark h index referenced, rfl⟩

lemma active_apply (m : PlainMap) (op : CacheOp) :
    (m.apply op).active = op.activeAfter m.active := by
  cases op with
  | reserve candidate id =>
    rw [PlainMap.apply, PlainMap.reserve]
    split <;> rfl
  | write candidate id bytes =>
    rw [PlainMap.apply]
    split <;> rfl
  | _ => rfl

/-- The states of a cache and of the map beside it that the issued operations lead to. -/
inductive Reaches (s₀ : CacheState D) (m₀ : PlainMap) : CacheState D → PlainMap → Prop
  | start : Reaches s₀ m₀ s₀ m₀
  | step {s : CacheState D} {m : PlainMap} (op : CacheOp) :
    Reaches s₀ m₀ s m → op.Issued m → Reaches s₀ m₀ (s.step op).2 (m.after op (s.step op).1)

/-- A state of the cache that stands for the map. -/
def Stands (P : D → Prop) (s : CacheState D) (m : PlainMap) : Prop :=
  Represents P s.cache m ∧ s.active = m.active

lemma stands_step (hP : DenseClosed P) {s : CacheState D} (h : Stands P s m) (op : CacheOp)
    (hissued : op.Issued m) :
    Stands P (s.step op).2 (m.after op (s.step op).1) ∧
      (∀ answer, (s.step op).1 = .ok answer → m.Answers op answer) ∧
      (Healthy s.cache.device → op.Granted s.cache m → ∃ answer, (s.step op).1 = .ok answer) := by
  have hends := ends_run hP h.1 op hissued
  rw [← h.2, Effect.ends_def] at hends
  rw [CacheState.step]
  rcases hrun : op.run s.active s.cache with ⟨e | answer, c⟩
  · obtain ⟨hc, hno⟩ := hends.2 e c hrun
    refine ⟨⟨hc, h.2⟩, fun _ heq => (nomatch heq), fun hh hg => absurd ⟨hh, hg⟩ hno⟩
  · obtain ⟨hc, hanswer⟩ := hends.1 answer c hrun
    refine ⟨⟨hc, ?_⟩, ?_, fun _ _ => ⟨answer, rfl⟩⟩
    · rw [PlainMap.after, active_apply]
      dsimp only
      rw [h.2]
    · rintro _ ⟨⟩
      exact hanswer

lemma stands_reaches (hP : DenseClosed P) {s₀ s : CacheState D} {m₀ : PlainMap}
    (h : Stands P s₀ m₀) (hrun : Reaches s₀ m₀ s m) : Stands P s m := by
  induction hrun with
  | start => exact h
  | step op _ hissued ih => exact (stands_step hP ih op hissued).1

/-- An empty cache stands for the pages on its device that the bitmap allocates. -/
lemma stands_empty {d : D} {capacity : Nat} {active : AllocationBitmap} (hd : P d)
    (hcapacity : 0 < capacity) (hmetadata : firstDataPageId ≤ pageCount d)
    (hcovered : ∀ id, active.allocates id = true → id < pageCount d) :
    Stands P ⟨PageCache.empty d capacity, active⟩ (PlainMap.initial active (pages d)) := by
  exact ⟨represents_empty hd hcapacity hmetadata hcovered, rfl⟩

lemma denseClosed_dense : DenseClosed (Traced.Dense : Traced D → Prop) := by
  have hnote : ∀ (d : Traced D) (id : Nat), d.Dense → id ≤ pageCount d.inner →
      (Traced.note id d).Dense := by
    intro d id hd hid write hwrite
    rcases List.mem_append.mp hwrite with hwrite | hwrite
    · exact hd write hwrite
    · rw [List.mem_singleton.mp hwrite]
      exact hid
  refine ⟨?_, ?_, ?_, ?_⟩
  · intro d id hd
    exact Effect.ends_of_final hd
  · intro d id page hd hid
    exact Effect.ends_of_final (hnote d id hd hid)
  · intro d first run hd hfirst
    exact Effect.ends_of_final (hnote d first hd hfirst)
  · intro d hd
    exact Effect.ends_of_final hd

/-- Publishing makes exactly the candidate's pages committed, as it wrote them, and drops exactly
the pages its bitmap no longer allocates. -/
structure Publishes (m : PlainMap) (candidate : Nat) (next : AllocationBitmap) (m' : PlainMap) :
    Prop where
  installed : ∀ id old, m.reserved id = some (candidate, old) →
    ∃ page, old = some page ∧ m'.committed id = some (sealPage page) ∧ m'.reserved id = none
  kept : ∀ id, m.active.allocates id = true → next.allocates id = true →
    m'.committed id = m.committed id
  freed : ∀ id, next.allocates id = false → m'.committed id = none

lemma publishes_install (h : Represents P cache m) {candidate : Nat} {next : AllocationBitmap}
    (hok : Installable cache m candidate next) :
    Publishes m candidate next (m.install candidate next) := by
  refine ⟨?_, ?_, ?_⟩
  · intro id old hr
    cases old with
    | none => exact absurd hr (hok.2.2.1 id)
    | some page =>
      refine ⟨page, rfl, ?_, ?_⟩
      · rw [PlainMap.install]
        dsimp only
        rw [if_pos ⟨(h.fresh id _ hr).1, hok.2.2.2 id _ hr⟩, hr]
      · rw [PlainMap.install, PlainMap.invalidate]
        dsimp only
        rw [hr, Option.filter_some, if_neg (by simp)]
  · intro id hactive hnext
    have hfree : m.reserved id = none := by
      cases hr : m.reserved id with
      | none => rfl
      | some r =>
        rw [(h.fresh id r hr).2.2] at hactive
        cases hactive
    rw [PlainMap.install]
    dsimp only
    split
    · rw [hfree]
    · next hlow =>
      -- a metadata page is in neither view
      cases hc : m.committed id with
      | none => rfl
      | some page =>
        have := (h.domain id).mp (by rw [hc]; rfl)
        exact absurd ⟨this.1, hnext⟩ hlow
  · intro id hout
    rw [PlainMap.install]
    dsimp only
    rw [if_neg]
    rw [hout]
    exact fun h => absurd h.2 Bool.false_ne_true

lemma installable_of_step {s : CacheState D} (h : Stands P s m) {candidate : Nat}
    {next : AllocationBitmap} {answer : Option PageBytes}
    (hok : (s.step (.install candidate next)).1 = .ok answer) :
    Installable s.cache m candidate next := by
  have hends := @ends_installCandidate D _ P s.cache m h.1 candidate next
  rw [← h.2, Effect.ends_def] at hends
  rw [CacheState.step, CacheOp.run] at hok
  simp only [bind] at hok
  rcases hrun : installCandidate candidate s.active next s.cache with ⟨e | u, c⟩
  · rw [hrun] at hok
    cases hok
  · exact (hends.1 u c hrun).2

end

/-- For every run of the operations a pager issues on a cache of any capacity, over any device:
the lookup indexes every cached page exactly once, each cached page is one the map holds, every
write to the device begins no later than its end, every read returns the page last written in its
view, and installing a candidate publishes exactly its pages. A failed operation leaves the map
as it was, and on a healthy device an operation fails only when the map refuses it. -/
theorem page_cache_refines_plain_map {D : Type} [PageDevice D] {d : D} {capacity : Nat}
    {active : AllocationBitmap} (hcapacity : 0 < capacity)
    (hmetadata : firstDataPageId ≤ pageCount d)
    (hcovered : ∀ id, active.allocates id = true → id < pageCount d)
    {s : CacheState (Traced D)} {m : PlainMap}
    (hrun : Reaches ⟨PageCache.empty ⟨d, []⟩ capacity, active⟩
      (PlainMap.initial active (pages d)) s m) :
    Indexed.Holds CacheEntry.key s.cache.entries s.cache.lookup ∧
      s.cache.entries.length ≤ s.cache.capacity ∧
      (∀ e ∈ s.cache.entries, Shows m e) ∧
      s.cache.device.Dense ∧
      (∀ op answer, op.Issued m → (s.step op).1 = .ok answer → m.Answers op answer) ∧
      (∀ op, op.Issued m → Healthy s.cache.device → op.Granted s.cache m →
        ∃ answer, (s.step op).1 = .ok answer) ∧
      ∀ candidate next answer, m.Publishable candidate next →
        (s.step (.install candidate next)).1 = .ok answer →
        Publishes m candidate next (m.apply (.install candidate next)) := by
  have hstart : Stands Traced.Dense ⟨PageCache.empty (⟨d, []⟩ : Traced D) capacity, active⟩
      (PlainMap.initial active (pages d)) :=
    stands_empty (fun _ hwrite => (nomatch hwrite)) hcapacity hmetadata hcovered
  have hs := stands_reaches denseClosed_dense hstart hrun
  refine ⟨hs.1.indexed, hs.1.bounded, hs.1.shown, hs.1.dense, ?_, ?_, ?_⟩
  · intro op answer hissued
    exact (stands_step denseClosed_dense hs op hissued).2.1 answer
  · intro op hissued
    exact (stands_step denseClosed_dense hs op hissued).2.2
  · intro candidate next answer _ hok
    exact publishes_install hs.1 (installable_of_step hs hok)

/-- A cache of one page over a memory device that holds only blank metadata pages. -/
def blankState : CacheState (Traced MemoryPageDevice) :=
  ⟨PageCache.empty ⟨⟨List.replicate 6 PageBytes.zero, 0⟩, []⟩ 1, .new⟩

def blankMap : PlainMap := PlainMap.initial .new (List.replicate 6 PageBytes.zero)

/-- A candidate writes two pages through a cache of one, the second past the end of the device. -/
theorem page_cache_refines_plain_map_two_pages :
    ∃ s m, Reaches blankState blankMap s m ∧ m.reserved 6 = some (1, some PageBytes.zero) ∧
      m.reserved 7 = some (1, some PageBytes.zero) ∧ s.cache.device.Dense ∧
      ∃ answer, (s.step (.readCandidate 1 6 (fun _ => .ok ()))).1 = .ok answer ∧
        (answer = some PageBytes.zero ∨ answer = some (sealPage PageBytes.zero)) := by
  have hcovered : ∀ id, AllocationBitmap.new.allocates id = true →
      id < pageCount (⟨List.replicate 6 PageBytes.zero, 0⟩ : MemoryPageDevice) := by
    intro id hid
    rw [AllocationBitmap.allocates_new, decide_eq_true_eq] at hid
    exact hid
  have hfacts : ∀ {s m}, Reaches blankState blankMap s m → _ :=
    @page_cache_refines_plain_map MemoryPageDevice _ _ 1 .new (by decide) (by decide) hcovered
  -- a granted operation leads to the state after it
  have hgo : ∀ {s m}, Reaches blankState blankMap s m → ∀ op : CacheOp, op.Issued m →
      op.Granted s.cache m → ∃ s', Reaches blankState blankMap s' (m.apply op) := by
    intro s m hrun op hissued hgranted
    obtain ⟨answer, hanswer⟩ := (hfacts hrun).2.2.2.2.2.1 op hissued trivial hgranted
    have hstep := Reaches.step op hrun hissued
    rw [hanswer] at hstep
    exact ⟨_, hstep⟩
  have hzero : PageBytes.zero.bytes.length = pageSize := PageBytes.zero.length_eq
  have hwrite : ∀ (m : PlainMap) id,
      m.apply (.write 1 id PageBytes.zero.bytes) = m.write 1 id PageBytes.zero := by
    intro m id
    rw [PlainMap.apply, dif_pos hzero]
  have hfree : ∀ id, firstDataPageId ≤ id → AllocationBitmap.new.allocates id = false := by
    intro id hid
    rw [AllocationBitmap.allocates_new, decide_eq_false_iff_not]
    exact Nat.not_lt.mpr hid
  obtain ⟨s₁, h₁⟩ := hgo .start (.reserve 1 6) trivial
    ⟨by decide, by decide, hfree 6 (by decide), fun _ _ hr => (nomatch hr)⟩
  obtain ⟨s₂, h₂⟩ := hgo h₁ (.write 1 6 PageBytes.zero.bytes) trivial ⟨⟨none, rfl⟩, hzero⟩
  rw [hwrite] at h₂
  obtain ⟨s₃, h₃⟩ := hgo h₂ (.reserve 1 7) trivial
    ⟨by decide, by decide, hfree 7 (by decide), by
      intro j r hr
      by_cases hj : j = 6
      · subst hj
        rw [PlainMap.write_reserved_self, Option.some.injEq] at hr
        rw [← hr]
      · rw [PlainMap.write_reserved_of_ne _ _ _ hj] at hr
        exact absurd hr (by simp [PlainMap.apply, PlainMap.reserve, blankMap, PlainMap.initial, hj])⟩
  obtain ⟨s₄, h₄⟩ := hgo h₃ (.write 1 7 PageBytes.zero.bytes) trivial ⟨⟨none, rfl⟩, hzero⟩
  rw [hwrite] at h₄
  have hsix : ((((blankMap.apply (.reserve 1 6)).write 1 6 PageBytes.zero).apply
      (.reserve 1 7)).write 1 7 PageBytes.zero).reserved 6 = some (1, some PageBytes.zero) := rfl
  obtain ⟨answer, hanswer⟩ := (hfacts h₄).2.2.2.2.2.1
    (.readCandidate 1 6 (fun _ => .ok ())) trivial trivial ⟨_, hsix, rfl⟩
  refine ⟨s₄, _, h₄, hsix, rfl, (hfacts h₄).2.2.2.1, answer, hanswer, ?_⟩
  obtain ⟨last, hlast, hread⟩ := (hfacts h₄).2.2.2.2.1
    (.readCandidate 1 6 (fun _ => .ok ())) answer trivial hanswer
  rw [hsix, Option.some.injEq, Prod.mk.injEq, Option.some.injEq] at hlast
  rw [hlast.2]
  exact hread

end TinyJoin
