import TinyJoin.OverflowRoundTrip

/-! A value stored in a chain of overflow pages: the pages a store writes, and that reading the
chain back through any reader of those pages gives the value and exactly those pages. -/
namespace TinyJoin
open Bytes PageDevice

/-- The pages of a value stored in `ids`, in a view. -/
def Chain (v : PageView) (treeId generation : Nat) (value : List UInt8) (ids : List Nat) : Prop :=
  ∀ index id, ids[index]? = some id → v.page id =
    some ⟨id, .overflow, (chunkPage treeId generation value ids index).payload⟩

/-- The descriptor of a value stored in `ids`. -/
def chainDescriptor (generation : Nat) (value : List UInt8) (ids : List Nat) :
    OverflowDescriptor :=
  ⟨ids.headD 0, generation, value.length, checksum32 value⟩

/-! Chunks of a value. -/

section
variable {treeId generation : Nat} {value : List UInt8} {ids : List Nat}

/-- What a value stored in `ids` satisfies. -/
structure Storable (treeId generation : Nat) (value : List UInt8) (ids : List Nat) : Prop where
  tree : treeId ≠ 0 ∧ treeId < 256 ^ 8
  written : generation ≠ 0 ∧ generation < 256 ^ 8
  nonempty : value.length ≠ 0
  length : value.length ≤ maxBtreeValueBytes
  count : ids.length = overflowChunkCount value.length
  data : ∀ id ∈ ids, IsDataPage id
  nodup : ids.Nodup

lemma overflowChunkCount_bounds (length : Nat) :
    length ≤ overflowChunkCount length * maxOverflowChunkBytes ∧
      (length ≠ 0 → (overflowChunkCount length - 1) * maxOverflowChunkBytes < length) := by
  have hchunk : maxOverflowChunkBytes = 4008 := rfl
  rw [overflowChunkCount, hchunk]
  omega

lemma length_chunk {index : Nat} (hindex : index < overflowChunkCount value.length) :
    (chunkPage treeId generation value ids index).chunk.length =
      if index + 1 = overflowChunkCount value.length then
        value.length - index * maxOverflowChunkBytes else maxOverflowChunkBytes := by
  have hbounds := overflowChunkCount_bounds value.length
  have hchunk : maxOverflowChunkBytes = 4008 := rfl
  have hzero : value.length ≠ 0 := by
    intro hzero
    rw [hzero] at hindex
    exact Nat.not_lt_zero _ hindex
  have hbelow := hbounds.2 hzero
  rw [chunkPage, length_slice (Nat.min_le_right _ _), hchunk]
  rw [hchunk] at hbounds hbelow
  split
  · next hlast =>
    have hle : value.length ≤ index * 4008 + 4008 := by
      have := hbounds.1
      rw [← hlast, Nat.succ_mul] at this
      exact this
    omega
  · next hlast =>
    have hle : index * 4008 + 4008 ≤ value.length := by
      have hnext : index + 1 ≤ overflowChunkCount value.length - 1 := by omega
      have := Nat.mul_le_mul_right 4008 hnext
      rw [Nat.succ_mul] at this
      omega
    omega

lemma Storable.chained (h : Storable treeId generation value ids) {index : Nat}
    (hindex : index < ids.length) :
    (chunkPage treeId generation value ids index).Chained := by
  rw [h.count] at hindex
  refine ⟨hindex, rfl, length_chunk hindex, ?_, ?_⟩
  · change index + 1 = overflowChunkCount value.length ↔ ids[index + 1]? = none
    rw [List.getElem?_eq_none_iff, h.count]
    omega
  · intro next hnext
    exact h.data next (List.mem_of_getElem? hnext)

/-- The bytes of a value from one of its chunks on. -/
lemma chunk_append (index : Nat) :
    (chunkPage treeId generation value ids index).chunk ++
      value.drop ((index + 1) * maxOverflowChunkBytes) =
        value.drop (index * maxOverflowChunkBytes) := by
  have hnext : (index + 1) * maxOverflowChunkBytes =
      index * maxOverflowChunkBytes + maxOverflowChunkBytes := Nat.succ_mul ..
  rw [chunkPage, hnext]
  rcases Nat.le_total (index * maxOverflowChunkBytes + maxOverflowChunkBytes) value.length with
    hle | hle
  · rw [Nat.min_eq_left hle, ← drop_eq_slice_append (Nat.le_add_right _ _)]
  · rw [Nat.min_eq_right hle, List.drop_eq_nil_of_le hle, List.append_nil, slice,
      List.take_of_length_le (by rw [List.length_drop])]

end

/-! Reading. -/

section
variable {σ : Type} {treeId generation : Nat} {value : List UInt8} {ids : List Nat}
  {readPage : Nat → Op σ Page} {I : σ → Prop} {E : EngineError → σ → Prop}

lemma placed_chunkPage (index : Nat) : (chunkPage treeId generation value ids index).Placed treeId
    (chainDescriptor generation value ids) index (overflowChunkCount value.length) :=
  ⟨rfl, rfl, rfl, rfl, rfl, rfl⟩

lemma Storable.decode_chunk (h : Storable treeId generation value ids) {index id : Nat}
    (hid : ids[index]? = some id) :
    OverflowPage.decode ⟨id, .overflow, (chunkPage treeId generation value ids index).payload⟩ treeId
      (chainDescriptor generation value ids) index (overflowChunkCount value.length) =
        .ok (chunkPage treeId generation value ids index) := by
  have hindex : index < ids.length := (List.getElem?_eq_some_iff.mp hid).1
  have hlength := h.length
  rw [maxBtreeValueBytes] at hlength
  have hsmall : value.length < 256 ^ 4 := by omega
  exact OverflowPage.decode_eq_ok.mpr ⟨h.data id (List.mem_of_getElem? hid), rfl, rfl,
    h.chained hindex, h.tree.2, h.written.2, hsmall, placed_chunkPage index⟩

/-- A chain passes no page twice. -/
lemma Storable.not_visited (h : Storable treeId generation value ids) {index id : Nat}
    {visited : List Nat} (hid : ids[index]? = some id)
    (hvisited : visited = (ids.take index).reverse) : id ∉ visited := by
  obtain ⟨hlt, hget⟩ := List.getElem?_eq_some_iff.mp hid
  rw [hvisited, List.mem_reverse]
  intro hmem
  obtain ⟨k, hk, hsame⟩ := List.getElem_of_mem hmem
  rw [List.getElem_take, ← hget] at hsame
  rw [List.length_take] at hk
  have := (List.Nodup.getElem_inj_iff h.nodup).mp hsame
  omega

/-- From any page of a chain on, the loop reads the rest of the value and the rest of the pages. -/
lemma ends_readChunks (h : Storable treeId generation value ids)
    (hread : ∀ index id, ids[index]? = some id → ∀ s, I s → (readPage id).Ends s
      (fun page s' => page = ⟨id, .overflow,
        (chunkPage treeId generation value ids index).payload⟩ ∧ I s') E)
    {remaining index id : Nat} {visited : List Nat} {s : σ} (hs : I s)
    (hid : ids[index]? = some id) (hcount : index + (remaining + 1) = ids.length)
    (hvisited : visited = (ids.take index).reverse) :
    (readChunks readPage treeId (chainDescriptor generation value ids)
      (overflowChunkCount value.length) (remaining + 1) index id visited).Ends s
      (fun r s' => r = (value.drop (index * maxOverflowChunkBytes), ids.drop index) ∧ I s') E := by
  induction remaining generalizing index id visited s with
  | zero =>
    obtain ⟨hlt, hget⟩ := List.getElem?_eq_some_iff.mp hid
    have hlast : ¬index + 1 < overflowChunkCount value.length := by
      rw [← h.count]
      omega
    rw [readChunks, if_neg (h.not_visited hid hvisited), Effect.ends_bind]
    refine (hread index id hid s hs).mono ?_ (fun _ _ hE => hE)
    rintro _ s' ⟨rfl, hs'⟩
    rw [h.decode_chunk hid, Effect.ends_bind, Effect.ends_ofExcept_ok, if_neg hlast,
      Effect.ends_pure]
    have hrest : value.drop ((index + 1) * maxOverflowChunkBytes) = [] := by
      have hbounds := (overflowChunkCount_bounds value.length).1
      have hnext : overflowChunkCount value.length = index + 1 := by
        rw [← h.count]
        omega
      rw [hnext] at hbounds
      exact List.drop_eq_nil_of_le hbounds
    have hchunk := @chunk_append treeId generation value ids index
    rw [hrest, List.append_nil] at hchunk
    have hids : ids.drop (index + 1) = [] := List.drop_eq_nil_of_le (by omega)
    refine ⟨?_, hs'⟩
    rw [hchunk, List.drop_eq_getElem_cons hlt, hget, hids]
  | succ remaining ih =>
    obtain ⟨hlt, hget⟩ := List.getElem?_eq_some_iff.mp hid
    have hmore : index + 1 < overflowChunkCount value.length := by
      rw [← h.count]
      omega
    have hlt' : index + 1 < ids.length := by omega
    rw [readChunks, if_neg (h.not_visited hid hvisited), Effect.ends_bind]
    refine (hread index id hid s hs).mono ?_ (fun _ _ hE => hE)
    rintro _ s' ⟨rfl, hs'⟩
    have hnext : (chunkPage treeId generation value ids index).nextPageId = some ids[index + 1] :=
      List.getElem?_eq_getElem hlt'
    have hvisited' : id :: visited = (ids.take (index + 1)).reverse := by
      rw [List.take_succ_eq_append_getElem hlt, List.reverse_append, hget, ← hvisited]
      rfl
    rw [h.decode_chunk hid, Effect.ends_bind, Effect.ends_ofExcept_ok, if_pos hmore, hnext]
    dsimp only
    rw [Effect.ends_bind]
    refine (ih hs' (List.getElem?_eq_getElem hlt') (by omega) hvisited').mono ?_ (fun _ _ hE => hE)
    rintro _ s'' ⟨rfl, hs''⟩
    refine ⟨?_, hs''⟩
    rw [@chunk_append treeId generation value ids index, List.drop_eq_getElem_cons hlt, hget]

/-- A chain read through any reader of its pages gives the value and the pages. -/
lemma ends_readOverflowChain (h : Storable treeId generation value ids)
    (hread : ∀ index id, ids[index]? = some id → ∀ s, I s → (readPage id).Ends s
      (fun page s' => page = ⟨id, .overflow,
        (chunkPage treeId generation value ids index).payload⟩ ∧ I s') E)
    {viewGeneration leafGeneration : Nat} (hleaf : generation ≤ leafGeneration)
    (hview : generation ≤ viewGeneration) {s : σ} (hs : I s) :
    (readOverflowChain readPage treeId viewGeneration leafGeneration
      (chainDescriptor generation value ids)).Ends s
        (fun r s' => r = (value, ids) ∧ I s') E := by
  have hpositive : ids.length ≠ 0 := by
    rw [h.count]
    exact overflowChunkCount_pos h.nonempty
  obtain ⟨first, rest, rfl⟩ : ∃ first rest, ids = first :: rest := by
    cases hids : ids with
    | nil => exact absurd (by rw [hids]; rfl) hpositive
    | cons first rest => exact ⟨first, rest, rfl⟩
  have hvalid : (chainDescriptor generation value (first :: rest)).Valid leafGeneration :=
    ⟨h.data first List.mem_cons_self, h.written.1, hleaf, h.nonempty, h.length⟩
  have hgeneration : ¬(chainDescriptor generation value (first :: rest)).generation >
      viewGeneration := Nat.not_lt.mpr hview
  rw [readOverflowChain, validateOverflowDescriptor_eq_ok.mpr hvalid, Effect.ends_bind,
    Effect.ends_ofExcept_ok, if_neg hgeneration, Effect.ends_bind]
  have hcount : overflowChunkCount value.length = rest.length + 1 := by
    rw [← h.count]
    rfl
  have hchunks := @ends_readChunks σ treeId generation value (first :: rest) readPage I E h hread
    rest.length 0 first [] s hs rfl (by rw [List.length_cons]; omega) rfl
  rw [hcount] at hchunks
  have htotal : overflowChunkCount (chainDescriptor generation value (first :: rest)).totalLength =
      rest.length + 1 := hcount
  rw [htotal]
  refine hchunks.mono ?_ (fun _ _ hE => hE)
  rintro _ s' ⟨rfl, hs'⟩
  have hlength : ¬value.length ≠ (chainDescriptor generation value (first :: rest)).totalLength :=
    not_not.mpr rfl
  have hchecksum : ¬checksum32 value ≠ (chainDescriptor generation value (first :: rest)).checksum :=
    not_not.mpr rfl
  dsimp only
  rw [Nat.zero_mul, List.drop_zero, List.drop_zero, if_neg hlength, if_neg hchecksum]
  exact ⟨rfl, hs'⟩

end

/-! Storing. -/

section
variable {D : Type} [PageDevice D] {t : PagerWriteTransaction D} {v : PageView}
open PagerWriteTransaction

/-- What allocating `ids` leaves of a view. -/
structure Allocated (v v' : PageView) (ids : List Nat) : Prop where
  nodup : ids.Nodup
  fresh : ∀ id ∈ ids, v.allocated id = false ∧ v.shared id = false ∧ IsDataPage id
  page : ∀ k, k ∉ ids → v'.page k = v.page k
  allocated : ∀ k, v'.allocated k = (v.allocated k || decide (k ∈ ids))
  shared : v'.shared = v.shared

lemma Allocated.refl (v : PageView) : Allocated v v [] :=
  ⟨List.nodup_nil, fun _ h => (nomatch h), fun _ _ => rfl, fun k => by simp, rfl⟩

lemma Allocated.cons {v v' : PageView} {id : Nat} {ids : List Nat}
    (h : Allocated (v.allocate id) v' ids) (hfree : v.allocated id = false)
    (hshared : v.shared id = false) (hdata : IsDataPage id) : Allocated v v' (id :: ids) := by
  have hne : ∀ k ∈ ids, k ≠ id := by
    rintro k hk rfl
    have := (h.fresh k hk).1
    rw [v.allocate_allocated, if_pos rfl] at this
    cases this
  refine ⟨List.nodup_cons.mpr ⟨fun hid => hne id hid rfl, h.nodup⟩, ?_, ?_, ?_, h.shared⟩
  · refine List.forall_mem_cons.mpr ⟨⟨hfree, hshared, hdata⟩, ?_⟩
    intro k hk
    obtain ⟨hallocated, hshared', hdata'⟩ := h.fresh k hk
    rw [v.allocate_allocated, if_neg (hne k hk)] at hallocated
    exact ⟨hallocated, hshared', hdata'⟩
  · intro k hk
    rw [List.mem_cons, not_or] at hk
    rw [h.page k hk.2, v.allocate_page, if_neg hk.1]
  · intro k
    rw [h.allocated k, v.allocate_allocated]
    by_cases hk : k = id
    · simp [hk]
    · simp [hk]

lemma presents_allocatePages (n : Nat) (h : t.Presents v) :
    (allocatePages n).Ends t
      (fun ids t' => ∃ v', t'.Presents v' ∧ t.Framed t' ∧ ids.length = n ∧ Allocated v v' ids ∧
        (Healthy t.pager.cache.device → Healthy t'.pager.cache.device))
      (fun _ _ => True) := by
  induction n generalizing t v with
  | zero => exact ⟨v, h, Framed.refl t, rfl, Allocated.refl v, fun hh => hh⟩
  | succ n ih =>
    rw [allocatePages, Effect.ends_bind]
    refine (presents_allocatePage h).mono ?_ (fun _ _ _ => trivial)
    rintro id t₁ ⟨h₁, hframed₁, hfree, hshared, hdata, hhealthy₁⟩
    rw [Effect.ends_bind]
    refine (ih h₁).mono ?_ (fun _ _ _ => trivial)
    rintro ids t₂ ⟨v₂, h₂, hframed₂, hlen, hallocated, hhealthy₂⟩
    rw [Effect.ends_pure]
    exact ⟨v₂, h₂, hframed₁.trans hframed₂, by rw [List.length_cons, hlen],
      hallocated.cons hfree hshared hdata, fun hh => hhealthy₂ (hhealthy₁ hh)⟩

lemma presents_writeChunks {treeId generation : Nat} {value : List UInt8} {ids : List Nat}
    {chunks : List (Nat × Nat)} (hnodup : (chunks.map Prod.fst).Nodup) (h : t.Presents v) :
    (Effect.forEach (fun (id, index) => do
      let page ← Effect.ofExcept ((chunkPage treeId generation value ids index).encode id)
      PagerWriteTransaction.writeNewPage page) chunks).Ends t
      (fun _ t' => ∃ v', t'.Presents v' ∧ t.Framed t' ∧
        (∀ chunk ∈ chunks, (chunkPage treeId generation value ids chunk.2).encode chunk.1 =
          .ok ⟨chunk.1, .overflow, (chunkPage treeId generation value ids chunk.2).payload⟩ ∧
          v'.page chunk.1 = some ⟨chunk.1, .overflow,
            (chunkPage treeId generation value ids chunk.2).payload⟩) ∧
        (∀ k, k ∉ chunks.map Prod.fst → v'.page k = v.page k) ∧ v'.allocated = v.allocated ∧
        v'.shared = v.shared ∧ (Healthy t.pager.cache.device → Healthy t'.pager.cache.device))
      (fun _ _ => True) := by
  induction chunks generalizing t v with
  | nil => exact ⟨v, h, Framed.refl t, fun _ hc => (nomatch hc), fun _ _ => rfl, rfl, rfl, fun hh => hh⟩
  | cons chunk chunks ih =>
    obtain ⟨id, index⟩ := chunk
    rw [List.map_cons, List.nodup_cons] at hnodup
    rw [Effect.forEach, Effect.ends_bind]
    dsimp only
    rw [Effect.ends_bind, Effect.ends_ofExcept]
    refine ⟨?_, fun _ _ => trivial⟩
    intro page hpage
    have hencoded := (OverflowPage.encode_eq_ok.mp hpage).2.2.2.2.2.2
    refine (presents_writeNewPage h page).mono ?_ (fun _ _ _ => trivial)
    rintro _ t₁ ⟨h₁, hframed₁, -, hhealthy₁⟩
    refine (ih hnodup.2 h₁).mono ?_ (fun _ _ _ => trivial)
    rintro _ t₂ ⟨v₂, h₂, hframed₂, hall, hother, hallocated, hshared, hhealthy₂⟩
    refine ⟨v₂, h₂, hframed₁.trans hframed₂, ?_, ?_, hallocated, hshared,
      fun hh => hhealthy₂ (hhealthy₁ hh)⟩
    · refine List.forall_mem_cons.mpr ⟨⟨?_, ?_⟩, hall⟩
      · rw [hpage, hencoded]
      · rw [hother id hnodup.1, v.write_page, hencoded, if_pos rfl]
    · intro k hk
      rw [List.map_cons, List.mem_cons, not_or] at hk
      rw [hother k hk.2, v.write_page, hencoded, if_neg hk.1]

/-- What storing a value in `ids` leaves of a view: the pages of its chain, and all else as it was. -/
structure Stored (v v' : PageView) (treeId generation : Nat) (value : List UInt8)
    (ids : List Nat) : Prop extends Allocated v v' ids where
  chain : Chain v' treeId generation value ids
  storable : treeId < 256 ^ 8 → generation < 256 ^ 8 → Storable treeId generation value ids

/-- A value stored leaves a chain of fresh pages and its descriptor. -/
lemma presents_storeOverflowValue (treeId generation : Nat) (value : List UInt8)
    (h : t.Presents v) :
    (storeOverflowValue treeId generation value).Ends t
      (fun descriptor t' => ∃ ids v', t'.Presents v' ∧ t.Framed t' ∧
        Stored v v' treeId generation value ids ∧
        descriptor = chainDescriptor generation value ids ∧
        (Healthy t.pager.cache.device → Healthy t'.pager.cache.device))
      (fun _ _ => True) := by
  rw [storeOverflowValue]
  dsimp only
  split
  · trivial
  · next hcount =>
    rw [not_or] at hcount
    rw [Effect.ends_bind]
    refine (presents_allocatePages _ h).mono ?_ (fun _ _ _ => trivial)
    rintro ids t₁ ⟨v₁, h₁, hframed₁, hlen, hallocated, hhealthy₁⟩
    rw [Effect.ends_bind]
    have hfst : ids.zipIdx.map Prod.fst = ids := List.zipIdx_map_fst 0 ids
    refine (presents_writeChunks (by rw [hfst]; exact hallocated.nodup) h₁).mono ?_
      (fun _ _ _ => trivial)
    rintro _ t₂ ⟨v₂, h₂, hframed₂, hall, hother, hbits, hshared, hhealthy₂⟩
    rw [hfst] at hother
    have hchunk : ∀ index id, ids[index]? = some id → _ := fun index id hid =>
      hall (id, index) (List.mem_zipIdx_iff_getElem?.mpr hid)
    refine ⟨ids, v₂, h₂, hframed₁.trans hframed₂, ⟨⟨hallocated.nodup, hallocated.fresh, ?_, ?_, ?_⟩,
      fun index id hid => (hchunk index id hid).2, ?_⟩, rfl, fun hh => hhealthy₂ (hhealthy₁ hh)⟩
    · intro k hk
      rw [hother k hk, hallocated.page k hk]
    · intro k
      rw [hbits]
      exact hallocated.allocated k
    · rw [hshared, hallocated.shared]
    · intro htree hgeneration
      have hfirst : 0 < ids.length := by
        rw [hlen]
        omega
      obtain ⟨-, htree', hgeneration', htotal, -⟩ := OverflowPage.encode_eq_ok.mp
        (hchunk 0 _ (List.getElem?_eq_getElem hfirst)).1
      exact ⟨⟨htree', htree⟩, ⟨hgeneration', hgeneration⟩, htotal.1, htotal.2, hlen,
        fun id hid => (hallocated.fresh id hid).2.2, hallocated.nodup⟩

/-- A value stored by a transaction is read back, with the pages it was written to. -/
lemma read_of_stored {treeId generation : Nat} {value : List UInt8} {ids : List Nat}
    (h : t.Presents v) (hchain : Chain v treeId generation value ids)
    (hstorable : Storable treeId generation value ids) (hfailed : t.failed = false)
    {viewGeneration leafGeneration : Nat} (hleaf : generation ≤ leafGeneration)
    (hview : generation ≤ viewGeneration) :
    (readOverflowChain PagerWriteTransaction.readPage treeId viewGeneration leafGeneration
      (chainDescriptor generation value ids)).Ends t (fun r _ => r = (value, ids))
        (fun _ _ => ¬Healthy t.pager.cache.device) := by
  have hread : ∀ index id, ids[index]? = some id → ∀ t' : PagerWriteTransaction D,
      (t'.Presents v ∧ t'.failed = false ∧ (Healthy t.pager.cache.device → Healthy t'.pager.cache.device)) →
      (PagerWriteTransaction.readPage id).Ends t'
        (fun page t'' => page = ⟨id, .overflow,
          (chunkPage treeId generation value ids index).payload⟩ ∧ t''.Presents v ∧
          t''.failed = false ∧ (Healthy t.pager.cache.device → Healthy t''.pager.cache.device))
        (fun _ _ => ¬Healthy t.pager.cache.device) := by
    rintro index id hid t' ⟨h', hfailed', hhealthy'⟩
    have hpage := hchain index id hid
    refine (presents_readPage h' id).mono ?_ ?_
    · rintro page t'' ⟨h'', hframed, hshown, hhealthy''⟩
      exact ⟨hshown _ hpage, h'', hframed.failed.trans hfailed',
        fun hh => hhealthy'' (hhealthy' hh)⟩
    · rintro _ t'' ⟨-, -, hno⟩ hh
      exact hno ⟨hhealthy' hh, hfailed', by rw [hpage]; rfl⟩
  exact (ends_readOverflowChain hstorable hread hleaf hview ⟨h, hfailed, fun hh => hh⟩).mono
    (fun _ _ hr => hr.1) (fun _ _ hE => hE)

end

/-! The formats are canonical. -/

lemma Node.decode_encode {node : Node} {pageId viewGeneration : Nat}
    {requireViewGeneration : Bool} {page : Page} {hash : UInt64}
    (htree : node.treeId < 256 ^ 8) (hgeneration : node.generation < 256 ^ 8)
    (hview : node.generation ≤ viewGeneration)
    (hrequire : requireViewGeneration = true → node.generation = viewGeneration)
    (h : node.encode pageId = .ok (page, hash)) :
    Node.decode page node.treeId viewGeneration requireViewGeneration = .ok node := by
  obtain ⟨-, hvalid, -, rfl, -⟩ := Node.encode_eq_ok.mp h
  exact Node.decode_eq_ok.mpr ⟨rfl, rfl, hvalid, htree, hgeneration, rfl, hview, hrequire⟩

lemma Node.encode_decode {page : Page} {treeId viewGeneration : Nat}
    {requireViewGeneration : Bool} {node : Node} (htree : treeId ≠ 0)
    (hid : page.id < maxPageCount)
    (h : Node.decode page treeId viewGeneration requireViewGeneration = .ok node) :
    node.encode page.id = .ok (page, node.subtreeHash) := by
  obtain ⟨htype, hpayload, hvalid, -, -, rfl, -⟩ := Node.decode_eq_ok.mp h
  refine Node.encode_eq_ok.mpr ⟨htree, hvalid, hid, ?_, rfl⟩
  rw [← htype, ← hpayload]

lemma OverflowPage.decode_encode {overflow : OverflowPage} {pageId : Nat} {page : Page}
    {descriptor : OverflowDescriptor} (htree : overflow.treeId < 256 ^ 8)
    (hgeneration : overflow.generation < 256 ^ 8)
    (hsame : descriptor.generation = overflow.generation)
    (htotal : descriptor.totalLength = overflow.totalLength)
    (hchecksum : descriptor.checksum = overflow.checksum)
    (h : overflow.encode pageId = .ok page) :
    OverflowPage.decode page overflow.treeId descriptor overflow.chunkIndex
      overflow.chunkCount = .ok overflow := by
  obtain ⟨hid, -, -, hlength, hchained, -, rfl⟩ := OverflowPage.encode_eq_ok.mp h
  have hsmall : overflow.totalLength < 256 ^ 4 := Nat.lt_of_le_of_lt hlength.2 (by decide)
  exact OverflowPage.decode_eq_ok.mpr ⟨hid, rfl, rfl, hchained, htree, hgeneration, hsmall,
    ⟨rfl, hsame.symm, rfl, rfl, htotal.symm, hchecksum.symm⟩⟩

lemma OverflowPage.encode_decode_iff {page : Page} {treeId leafGeneration index count : Nat}
    {descriptor : OverflowDescriptor} {overflow : OverflowPage} (htree : treeId ≠ 0)
    (hvalid : descriptor.Valid leafGeneration)
    (h : OverflowPage.decode page treeId descriptor index count = .ok overflow) :
    overflow.encode page.id = .ok page ↔ overflow.nextPageId ≠ some page.id := by
  obtain ⟨hid, htype, hpayload, hchained, -, -, -, hplaced⟩ := OverflowPage.decode_eq_ok.mp h
  rw [OverflowPage.encode_eq_ok]
  constructor
  · exact fun hencoded => hencoded.2.2.2.2.2.1
  · intro hself
    refine ⟨hid, hplaced.treeId ▸ htree, ?_, ?_, hchained, hself, ?_⟩
    · rw [hplaced.generation]
      exact hvalid.written
    · rw [hplaced.totalLength]
      exact ⟨hvalid.nonempty, hvalid.length⟩
    · rw [← htype, ← hpayload]

/-- The formats of a B-tree's pages are canonical. A node encodes to a page which decodes to that
node, and every page that decodes to a node is that node's; likewise an overflow page, save that one
which names itself as its next page is read and not written. A value stored is read back unchanged,
from exactly the pages it was written to, by its transaction unless the device fails, and by every
reader of those pages. -/
theorem btree_page_formats_canonical :
    (∀ (node : Node) (pageId viewGeneration : Nat) (requireViewGeneration : Bool) (page : Page)
      (hash : UInt64), node.treeId < 2 ^ 64 → node.generation < 2 ^ 64 →
      node.generation ≤ viewGeneration →
      (requireViewGeneration = true → node.generation = viewGeneration) →
      node.encode pageId = .ok (page, hash) →
      Node.decode page node.treeId viewGeneration requireViewGeneration = .ok node) ∧
    (∀ (page : Page) (treeId viewGeneration : Nat) (requireViewGeneration : Bool) (node : Node),
      treeId ≠ 0 → page.id < maxPageCount →
      Node.decode page treeId viewGeneration requireViewGeneration = .ok node →
      node.encode page.id = .ok (page, node.subtreeHash)) ∧
    (∀ (overflow : OverflowPage) (pageId : Nat) (page : Page) (descriptor : OverflowDescriptor),
      overflow.treeId < 2 ^ 64 → overflow.generation < 2 ^ 64 →
      descriptor.generation = overflow.generation →
      descriptor.totalLength = overflow.totalLength → descriptor.checksum = overflow.checksum →
      overflow.encode pageId = .ok page →
      OverflowPage.decode page overflow.treeId descriptor overflow.chunkIndex
        overflow.chunkCount = .ok overflow) ∧
    (∀ (page : Page) (treeId leafGeneration index count : Nat) (descriptor : OverflowDescriptor)
      (overflow : OverflowPage), treeId ≠ 0 →
      validateOverflowDescriptor descriptor leafGeneration = .ok () →
      OverflowPage.decode page treeId descriptor index count = .ok overflow →
      (overflow.encode page.id = .ok page ↔ overflow.nextPageId ≠ some page.id)) ∧
    (∀ (D : Type) [PageDevice D] (p : Pager D) (t t' : PagerWriteTransaction D)
      (treeId generation : Nat) (value : List UInt8) (descriptor : OverflowDescriptor),
      p.Reached → p.Opens t → t.generation = .ok generation → treeId < 2 ^ 64 →
      storeOverflowValue treeId generation value t = (.ok descriptor, t') →
      ∃ (ids : List Nat) (written : Nat → Page), ids.Nodup ∧
        (∀ id, t'.nextBitmap.allocates id = (t.nextBitmap.allocates id || decide (id ∈ ids))) ∧
        (∀ id ∈ ids, t.nextBitmap.allocates id = false ∧
          (PagerWriteTransaction.readPage id).Ends t' (fun page _ => page = written id)
            (fun _ _ => ¬Healthy t'.pager.cache.device)) ∧
        ∀ viewGeneration leafGeneration, generation ≤ viewGeneration →
          generation ≤ leafGeneration →
          (readOverflowChain PagerWriteTransaction.readPage treeId viewGeneration leafGeneration
            descriptor).Ends t' (fun r _ => r = (value, ids))
              (fun _ _ => ¬Healthy t'.pager.cache.device) ∧
          ∀ (σ : Type) (readPage : Nat → Op σ Page) (I : σ → Prop) (E : EngineError → σ → Prop)
            (s : σ), I s → (∀ id ∈ ids, ∀ s, I s →
              (readPage id).Ends s (fun page s' => page = written id ∧ I s') E) →
            (readOverflowChain readPage treeId viewGeneration leafGeneration descriptor).Ends s
              (fun r s' => r = (value, ids) ∧ I s') E) := by
  refine ⟨?_, ?_, ?_, ?_, ?_⟩
  · intro node pageId viewGeneration requireViewGeneration page hash htree hgeneration hview hrequire
    exact Node.decode_encode htree hgeneration hview hrequire
  · intro page treeId viewGeneration requireViewGeneration node htree hid
    exact Node.encode_decode htree hid
  · intro overflow pageId page descriptor htree hgeneration hsame htotal hchecksum
    exact OverflowPage.decode_encode htree hgeneration hsame htotal hchecksum
  · intro page treeId leafGeneration index count descriptor overflow htree hvalid
    exact OverflowPage.encode_decode_iff htree (validateOverflowDescriptor_eq_ok.mp hvalid)
  · intro D _ p t t' treeId generation value descriptor hreached hopens hgeneration htree hstore
    obtain ⟨hopen, hnumber⟩ := Except.check_bind_eq_ok.mp hgeneration
    obtain ⟨hsmall, hnumber⟩ := Except.ite_error_eq_ok.mp hnumber
    have hwidth : generation < 256 ^ 8 := by
      rw [← Except.ok.inj hnumber]
      exact Nat.not_le.mp hsmall
    have hpresents := PagerWriteTransaction.presents_of_opens hreached hopens
    obtain ⟨ids, v', h', hframed, hstored, rfl, -⟩ :=
      (presents_storeOverflowValue treeId generation value hpresents).ok hstore
    have hstorable := hstored.storable htree hwidth
    have hfailed : t'.failed = false :=
      hframed.failed.trans (PagerWriteTransaction.failed_of_ensureOpen hopen)
    refine ⟨ids, fun id => (v'.page id).getD ⟨0, .overflow, []⟩, hstored.nodup, ?_, ?_, ?_⟩
    · intro id
      obtain ⟨m, -, hallocated, -⟩ := h'
      rw [← hallocated id]
      exact hstored.allocated id
    · intro id hid
      obtain ⟨index, hindex, hget⟩ := List.getElem_of_mem hid
      have hpage := hstored.chain index id (by rw [List.getElem?_eq_getElem hindex, hget])
      refine ⟨(hstored.fresh id hid).1, (PagerWriteTransaction.presents_readPage h' id).mono ?_ ?_⟩
      · rintro page _ ⟨-, -, hshown, -⟩
        dsimp only
        rw [hpage]
        exact hshown _ hpage
      · rintro _ _ ⟨-, -, hno⟩ hh
        exact hno ⟨hh, hfailed, by rw [hpage]; rfl⟩
    · intro viewGeneration leafGeneration hview hleaf
      refine ⟨read_of_stored h' hstored.chain hstorable hfailed hleaf hview, ?_⟩
      intro σ readPage I E s hs hread
      refine ends_readOverflowChain hstorable ?_ hleaf hview hs
      intro index id hid s hs
      have hpage := hstored.chain index id hid
      have hshown := hread id (List.mem_of_getElem? hid) s hs
      dsimp only at hshown
      rw [hpage] at hshown
      exact hshown

/-- A leaf of one entry. -/
def oneEntryLeaf : Node := ⟨1, 1, 0, .leaf [⟨[1], .inline [2]⟩]⟩

/-- The only page of a value of one byte. -/
def oneBytePage : OverflowPage := ⟨1, 1, 0, 1, none, 1, 0, [7]⟩

lemma valid_oneEntryLeaf : oneEntryLeaf.Valid 6 := by
  refine ⟨by decide, ⟨rfl, ?_, by decide⟩, by decide⟩
  intro entry hentry
  obtain rfl := List.mem_singleton.mp hentry
  exact ⟨by decide, by decide, by decide⟩

lemma encode_oneEntryLeaf : oneEntryLeaf.encode 6 =
    .ok (⟨6, .btreeLeaf, oneEntryLeaf.payload⟩, oneEntryLeaf.subtreeHash) :=
  Node.encode_eq_ok.mpr ⟨by decide, valid_oneEntryLeaf, by decide, rfl, rfl⟩

lemma encode_oneBytePage : oneBytePage.encode 6 = .ok ⟨6, .overflow, oneBytePage.payload⟩ :=
  OverflowPage.encode_eq_ok.mpr ⟨by decide, by decide, by decide, by decide,
    ⟨by decide, by decide, by decide, by decide, fun _ h => (nomatch h)⟩, by decide, rfl⟩

/-- A new database stores a value of one byte. -/
lemma exists_stored_byte : ∃ (p : Pager MemoryPageDevice)
    (t t' : PagerWriteTransaction MemoryPageDevice) (descriptor : OverflowDescriptor), p.Reached ∧
    p.Opens t ∧ t.generation = .ok 2 ∧ storeOverflowValue 1 2 [7] t = (.ok descriptor, t') := by
  obtain ⟨p, hopened, hactive, hid, hgeneration⟩ := @withCacheCapacity_empty MemoryPageDevice _
    ⟨[], 0⟩ pageSize trivial rfl (by decide)
  obtain ⟨hs, husable⟩ := sound_withCacheCapacity hopened
  obtain ⟨t, id, t₁, hbegin, hallocate, hwrite⟩ := hs.commitsAgain denseClosed_true (fun _ => rfl)
    husable trivial (by rw [hid]; decide) (by rw [hgeneration]; decide)
    ⟨firstDataPageId, Nat.le_refl _, by decide, by rw [hactive]; simp⟩
  have hreached : p.Reached := .opened hopened
  have hopens : p.Opens t := .begun hbegin
  obtain ⟨-, -, -, -, hdata, -⟩ := (PagerWriteTransaction.presents_allocatePage
    (PagerWriteTransaction.presents_of_opens hreached hopens)).ok hallocate
  have hstorable : Storable 1 2 [7] [id] :=
    ⟨by decide, by decide, by decide, by decide, rfl,
      fun _ hmem => List.mem_singleton.mp hmem ▸ hdata, List.nodup_singleton id⟩
  have hchained := hstorable.chained (Nat.zero_lt_one : 0 < [id].length)
  have hencode : (chunkPage 1 2 [7] [id] 0).encode id =
      .ok ⟨id, .overflow, (chunkPage 1 2 [7] [id] 0).payload⟩ :=
    OverflowPage.encode_eq_ok.mpr ⟨hdata, hstorable.tree.1, hstorable.written.1,
      ⟨hstorable.nonempty, hstorable.length⟩, hchained, fun h => (nomatch h), rfl⟩
  have hvalid : (⟨id, .overflow, (chunkPage 1 2 [7] [id] 0).payload⟩ : Page).Valid := by
    refine ⟨hdata.2, ?_⟩
    rw [OverflowPage.length_payload]
    exact show 56 + 1 ≤ maxPagePayloadSize by decide
  obtain ⟨t₂, hwritten, -⟩ := hwrite _ hvalid rfl
  have hgenerated : t.generation = .ok 2 := by
    obtain ⟨-, rfl⟩ := Pager.beginWrite_eq_ok hbegin
    have hnumber : (p.begun p.nextCandidateId).pager.active.superblock.generation = 1 := hgeneration
    have hopen : (p.begun p.nextCandidateId).ensureOpen = .ok () :=
      (hs.begun (fun _ => rfl) husable p.nextCandidateId).ensureOpen_ok rfl
    rw [PagerWriteTransaction.generation, hopen, hnumber]
    rfl
  refine ⟨p, t, t₂, chainDescriptor 2 [7] [id], hreached, hopens, hgenerated, ?_⟩
  have hpages : allocatePages 1 t = (.ok [id], t₁) := by
    simp only [allocatePages, bind, hallocate, pure]
  have hcount : overflowChunkCount [(7 : UInt8)].length = 1 := rfl
  rw [storeOverflowValue, hcount]
  dsimp only
  rw [if_neg (by decide)]
  simp only [bind, hpages, List.zipIdx_cons, List.zipIdx_nil, Effect.forEach, Effect.ofExcept,
    hencode, hwritten, pure]
  rfl

/-- The formats at a leaf of one entry, a value of one byte, and a new database. -/
theorem btree_page_formats_canonical_one_byte :
    Node.decode ⟨6, .btreeLeaf, oneEntryLeaf.payload⟩ 1 1 true = .ok oneEntryLeaf ∧
    oneEntryLeaf.encode 6 =
      .ok (⟨6, .btreeLeaf, oneEntryLeaf.payload⟩, oneEntryLeaf.subtreeHash) ∧
    OverflowPage.decode ⟨6, .overflow, oneBytePage.payload⟩ 1 ⟨6, 1, 1, 0⟩ 0 1 =
      .ok oneBytePage ∧
    oneBytePage.encode 6 = .ok ⟨6, .overflow, oneBytePage.payload⟩ ∧
    ∃ (t t' : PagerWriteTransaction MemoryPageDevice) (descriptor : OverflowDescriptor)
      (ids : List Nat), storeOverflowValue 1 2 [7] t = (.ok descriptor, t') ∧
      (readOverflowChain PagerWriteTransaction.readPage 1 2 2 descriptor).Ends t'
        (fun r _ => r = ([7], ids)) (fun _ _ => False) := by
  obtain ⟨hdecode, hencode, hdecode', hencode', hstored⟩ := btree_page_formats_canonical
  have hnode := hdecode oneEntryLeaf 6 1 true _ _ (by decide) (by decide) (by decide)
    (fun _ => rfl) encode_oneEntryLeaf
  have hpage := hdecode' oneBytePage 6 _ ⟨6, 1, 1, 0⟩ (by decide) (by decide) rfl rfl rfl
    encode_oneBytePage
  have hnode' := hencode ⟨6, .btreeLeaf, oneEntryLeaf.payload⟩ 1 1 true oneEntryLeaf
    Nat.one_ne_zero (by decide) hnode
  have hpage' := (hencode' ⟨6, .overflow, oneBytePage.payload⟩ 1 1 0 1 ⟨6, 1, 1, 0⟩ oneBytePage
    Nat.one_ne_zero (by decide) hpage).mpr (fun h => (nomatch h))
  obtain ⟨p, t, t', descriptor, hreached, hopens, hgeneration, hstore⟩ := exists_stored_byte
  obtain ⟨ids, written, -, -, -, hread⟩ := hstored MemoryPageDevice p t t' 1 2 [7] descriptor
    hreached hopens hgeneration (by decide) hstore
  refine ⟨hnode, hnode', hpage, hpage', t, t', descriptor, ids, hstore, ?_⟩
  exact (hread 2 2 (Nat.le_refl _) (Nat.le_refl _)).1.mono (fun _ _ hr => hr)
    (fun _ _ hsick => hsick trivial)

/-- The first of two pages of a value of 4,009 bytes, which names page 7 as the second. -/
def selfNamed : OverflowPage := ⟨1, 1, 0, 2, some 7, 4009, 0, List.replicate 4008 0⟩

lemma chained_selfNamed : selfNamed.Chained :=
  ⟨by decide, by decide, List.length_replicate, by decide, by decide⟩

/-- On page 7 itself, `selfNamed` is read and cannot be written. -/
theorem overflow_decode_accepts_self_reference :
    validateOverflowDescriptor ⟨7, 1, 4009, 0⟩ 1 = .ok () ∧
    OverflowPage.decode ⟨7, .overflow, selfNamed.payload⟩ 1 ⟨7, 1, 4009, 0⟩ 0 2 = .ok selfNamed ∧
    ¬∃ page, selfNamed.encode 7 = .ok page := by
  refine ⟨by decide, ?_, ?_⟩
  · exact OverflowPage.decode_eq_ok.mpr ⟨by decide, rfl, rfl, chained_selfNamed, by decide,
      by decide, by decide, ⟨rfl, rfl, rfl, rfl, rfl, rfl⟩⟩
  · rintro ⟨page, hpage⟩
    exact (OverflowPage.encode_eq_ok.mp hpage).2.2.2.2.2.1 rfl

end TinyJoin
