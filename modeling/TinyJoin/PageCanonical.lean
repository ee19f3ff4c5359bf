import TinyJoin.Lib.Layout
import TinyJoin.Lib.Effect
import TinyJoin.Page

/-! Pages as fields laid out after their header, and that a page which passes verification is the
page it decodes to, sealed. -/
namespace TinyJoin
open Bytes

@[simp] lemma slice_self {α : Type} (x : List α) (n : Nat) : slice x n n = [] := by
  simp [slice]

/-! Fields written into a page's payload. -/

lemma PageBytes.putFields_put (page : PageBytes) {payload : List UInt8}
    {fields : List (Nat × List UInt8)} {start : Nat}
    (hfits : pageHeaderSize + payload.length ≤ pageSize)
    (h : InOrder payload.length start fields) :
    (page.put pageHeaderSize payload).putFields fields =
      page.put pageHeaderSize (putAll payload fields) := by
  induction fields generalizing payload start with
  | nil => rfl
  | cons field fields ih =>
    have hend := h.2.start_le
    have hlen : (Bytes.put payload field.1 field.2).length = payload.length := length_put hend
    have hstep : (page.put pageHeaderSize payload).put (pageHeaderSize + field.1) field.2 =
        page.put pageHeaderSize (Bytes.put payload field.1 field.2) := by
      apply PageBytes.ext
      rw [bytes_put (by omega), bytes_put hfits, bytes_put (by omega)]
      exact put_put_inner (by rw [page.length_eq]; exact hfits) hend
    rw [putFields, List.foldl_cons, hstep]
    exact ih (by omega) (by rw [hlen]; exact h.2)

/-- A header followed by zeros already holds a payload of zeros. -/
lemma put_zeros (id : Nat) (pageType : PageType) (length : Nat) {n : Nat}
    (h : n ≤ maxPagePayloadSize) :
    (writePageHeader .zero id pageType length).put pageHeaderSize (List.replicate n 0) =
      writePageHeader .zero id pageType length := by
  have hsize : pageHeaderSize + maxPagePayloadSize = pageSize := rfl
  apply PageBytes.ext
  rw [PageBytes.bytes_put (by rw [List.length_replicate]; omega), Bytes.put,
    drop_writePageHeader _ _ _ (by omega), List.length_replicate, List.append_assoc,
    ← List.replicate_add]
  have hrest : n + (pageSize - (pageHeaderSize + n)) = pageSize - pageHeaderSize := by omega
  rw [hrest, ← drop_writePageHeader id pageType length (Nat.le_refl _), List.take_append_drop]

/-- Fields written after a page's header are the page of the payload they lay out. -/
lemma encodeUnsealed_putAll {id n : Nat} (pageType : PageType) {fields : List (Nat × List UInt8)}
    (hid : id < maxPageCount) (hn : n ≤ maxPagePayloadSize) (h : InOrder n 0 fields) :
    (⟨id, pageType, putAll (List.replicate n 0) fields⟩ : Page).encodeUnsealed =
      .ok ((writePageHeader .zero id pageType n).putFields fields) := by
  have hlen : (putAll (List.replicate n (0 : UInt8)) fields).length = n := by
    rw [length_putAll (by rw [List.length_replicate]; exact h), List.length_replicate]
  have hfits : pageHeaderSize + (List.replicate n (0 : UInt8)).length ≤ pageSize := by
    have hsize : pageHeaderSize + maxPagePayloadSize = pageSize := rfl
    rw [List.length_replicate]
    omega
  have hput := (writePageHeader .zero id pageType n).putFields_put hfits
    (by rw [List.length_replicate]; exact h)
  rw [put_zeros id pageType n hn] at hput
  rw [Page.encodeUnsealed, validatePageId, if_neg (Nat.not_le.mpr hid)]
  simp only [bind, Except.bind]
  rw [if_neg (by rw [hlen]; omega), hlen, hput]

/-! A page that passes verification is the page it decodes to, sealed. -/

lemma byteAt_of_slice {bytes : List UInt8} {offset : Nat} {b : UInt8}
    (h : slice bytes offset (offset + 1) = [b]) : byteAt bytes offset = b := by
  rw [byteAt_eq_slice, h]
  rfl

lemma slice_of_byteAt {bytes : List UInt8} {offset : Nat} (h : offset < bytes.length) :
    slice bytes offset (offset + 1) = [byteAt bytes offset] := by
  rw [byteAt_eq_slice]
  have hlen : (slice bytes offset (offset + 1)).length = 1 := by
    rw [length_slice h]
    omega
  obtain ⟨b, hb⟩ := List.length_eq_one_iff.mp hlen
  rw [hb]
  rfl

lemma PageType.toByte_of_tryFrom {value : UInt8} {pageType : PageType}
    (h : PageType.tryFrom value = .ok pageType) : pageType.toByte = value := by
  rw [PageType.tryFrom, PageType.fromByte] at h
  by_cases h1 : value = 1
  · simp only [h1, if_true] at h
    cases h
    exact h1.symm
  by_cases h2 : value = 2
  · simp only [h2] at h
    cases h
    exact h2.symm
  by_cases h3 : value = 3
  · simp only [h3] at h
    cases h
    exact h3.symm
  by_cases h4 : value = 4
  · simp only [h4] at h
    cases h
    exact h4.symm
  by_cases h5 : value = 5
  · simp only [h5] at h
    cases h
    exact h5.symm
  simp only [h1, h2, h3, h4, h5, if_false] at h
  cases h

lemma le_length_bytes (page : PageBytes) {n : Nat} (h : n ≤ 4096) :
    n ≤ page.bytes.length := by
  rw [page.length_eq]
  exact h

/-- What verification establishes of a page: its envelope, its checksum and its padding. -/
lemma envelope_of_verify {p : PageBytes} {page : Page} (hv : Page.verify p.bytes = .ok ())
    (hd : Page.decodeVerified p.bytes = .ok page) :
    page.Valid ∧ Envelope p page.id page.pageType page.payload.length ∧
      slice p.bytes pageHeaderSize (pageHeaderSize + page.payload.length) = page.payload ∧
      computeChecksum p.bytes = pageChecksum p.bytes ∧
      ∀ b ∈ p.bytes.drop (pageHeaderSize + page.payload.length), b = 0 := by
  rw [Page.decodeVerified, if_neg (not_not.mpr p.length_eq)] at hd
  split at hd
  · cases hd
  next hlen =>
  obtain ⟨pageType, htype, hd⟩ := Except.bind_eq_ok.mp hd
  rw [Except.ok.injEq] at hd
  subst hd
  rw [Page.verify, if_neg (not_not.mpr p.length_eq)] at hv
  split at hv
  · cases hv
  next hsum =>
  split at hv
  · cases hv
  next hmagic =>
  split at hv
  · cases hv
  next hversion =>
  split at hv
  · cases hv
  next hflags =>
  obtain ⟨⟨⟩, hid, hv⟩ := Except.bind_eq_ok.mp hv
  obtain ⟨_, -, hv⟩ := Except.bind_eq_ok.mp hv
  split at hv
  · cases hv
  next hreserved =>
  split at hv
  · cases hv
  next hpadding =>
  have hpayload : (slice p.bytes pageHeaderSize (pageHeaderSize + readU32 p.bytes 24)).length =
      readU32 p.bytes 24 := by
    rw [length_slice (by rw [p.length_eq]; simp only [maxPagePayloadSize, pageSize,
      pageHeaderSize] at hlen ⊢; omega)]
    omega
  have hzeros : slice p.bytes 21 24 = [0, 0, 0] := by
    refine eq_replicate_of_all (n := 3) (length_slice (le_length_bytes p (by decide))) ?_
    intro b hb
    by_contra hne
    exact hreserved (List.any_eq_true.mpr ⟨b, hb, by simpa using hne⟩)
  refine ⟨⟨?_, by rw [hpayload]; omega⟩, ⟨not_not.mp hmagic, ?_, ?_, ?_, ?_, hzeros, ?_⟩, ?_,
    not_not.mp hsum, ?_⟩
  · rw [validatePageId] at hid
    split at hid
    · cases hid
    · next hlt => exact Nat.not_le.mp hlt
  · rw [← @leBytes_readLe p.bytes 8 2 (le_length_bytes p (by decide))]
    exact congrArg (leBytes 2) (not_not.mp hversion)
  · rw [← @leBytes_readLe p.bytes 10 2 (le_length_bytes p (by decide))]
    exact congrArg (leBytes 2) (not_not.mp hflags)
  · exact (@leBytes_readLe p.bytes 12 8 (le_length_bytes p (by decide))).symm
  · rw [slice_of_byteAt (le_length_bytes p (by decide)), PageType.toByte_of_tryFrom htype]
  · rw [hpayload]
    exact (@leBytes_readLe p.bytes 24 4 (le_length_bytes p (by decide))).symm
  · rw [hpayload]
  · rw [hpayload]
    intro b hb
    by_contra hne
    exact hpadding (List.any_eq_true.mpr ⟨b, hb, by simpa using hne⟩)

/-- The bytes before the checksum are the envelope's. -/
lemma Envelope.take_eq {p q : PageBytes} {id : Nat} {pageType : PageType} {length : Nat}
    (hp : Envelope p id pageType length) (hq : Envelope q id pageType length) :
    p.bytes.take pageChecksumOffset = q.bytes.take pageChecksumOffset := by
  have hall : ∀ r : PageBytes, Envelope r id pageType length →
      r.bytes.take pageChecksumOffset = pageMagic ++ leBytes 2 pageFormatVersion ++
        leBytes 2 pageFlags ++ leBytes 8 id ++ [pageType.toByte] ++ [0, 0, 0] ++
        leBytes 4 length := by
    intro r hr
    rw [← hr.magic, ← hr.version, ← hr.flags, ← hr.id, ← hr.pageType, ← hr.reserved, ← hr.length,
      take_append_slice (by omega), take_append_slice (by omega), take_append_slice (by omega),
      take_append_slice (by omega), take_append_slice (by omega), take_append_slice (by omega)]
    rfl
  rw [hall p hp, hall q hq]

lemma sealPage_of_verify {p : PageBytes} {page : Page} (hv : Page.verify p.bytes = .ok ())
    (hd : Page.decodeVerified p.bytes = .ok page) :
    ∃ raw, page.encodeUnsealed = .ok raw ∧ sealPage raw = p := by
  obtain ⟨hvalid, henvelope, hpayload, hsum, hpadding⟩ := envelope_of_verify hv hd
  obtain ⟨raw, hraw⟩ := Page.encodeUnsealed_of_valid hvalid
  have htake := (Page.envelope_of_encodeUnsealed hraw).take_eq henvelope
  have hdrop : raw.bytes.drop pageHeaderSize = p.bytes.drop pageHeaderSize := by
    have hstop : pageHeaderSize ≤ pageHeaderSize + page.payload.length := Nat.le_add_right _ _
    rw [drop_eq_slice_append hstop, Page.payload_of_encodeUnsealed hraw,
      eq_replicate_of_all rfl (Page.padding_of_encodeUnsealed hraw),
      @drop_eq_slice_append _ p.bytes _ _ hstop, hpayload, eq_replicate_of_all rfl hpadding,
      List.length_drop, List.length_drop, raw.length_eq, p.length_eq]
  have hput : raw.put pageChecksumOffset (slice p.bytes pageChecksumOffset pageHeaderSize) = p := by
    have hfour : (slice p.bytes pageChecksumOffset pageHeaderSize).length = 4 :=
      length_slice (le_length_bytes p (by decide))
    apply PageBytes.ext
    rw [PageBytes.bytes_put (by rw [hfour]; decide), Bytes.put, hfour, htake]
    change p.bytes.take pageChecksumOffset ++ _ ++ raw.bytes.drop pageHeaderSize = p.bytes
    rw [hdrop, take_append_slice (by decide), List.take_append_drop]
  have hfield : slice p.bytes pageChecksumOffset pageHeaderSize =
      leBytes 4 (computeChecksum p.bytes) := by
    rw [hsum]
    exact (@leBytes_readLe p.bytes pageChecksumOffset 4 (le_length_bytes p (by decide))).symm
  have hsame : computeChecksum p.bytes = computeChecksum raw.bytes := by
    rw [← hput]
    exact computeChecksum_put (length_slice (le_length_bytes p (by decide)))
  refine ⟨raw, hraw, ?_⟩
  rw [sealPage, ← hsame, ← hfield]
  exact hput

end TinyJoin
