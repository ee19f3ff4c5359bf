import TinyJoin.OpfsDevice

/-! The page device over a file holds an array of pages. A call that fails changes no page but those
that it names, and the file is the array's pages, one after another, until the outcome of a call is not
known. -/
namespace TinyJoin
open Bytes
namespace Opfs

/-! ### What a handle may do -/

/-- A handle over a file. It changes nothing but the range that it is asked to write, and tells the
truth where it returns a length that it could have moved. -/
structure SyncPageAccessHandle.Conforms {σ : Type} (handle : SyncPageAccessHandle σ)
    (file : σ → List UInt8) : Prop where
  close : ∀ s, handle.close.Ends s (fun _ s' => file s' = file s) (fun _ s' => file s' = file s)
  flush : ∀ s, handle.flush.Ends s (fun _ s' => file s' = file s) (fun _ s' => file s' = file s)
  getSize : ∀ s, handle.getSize.Ends s
    (fun size s' => file s' = file s ∧ (size.isCount = true → size.toNat = (file s).length))
    (fun _ s' => file s' = file s)
  read : ∀ s view position, (handle.read view position).Ends s
    (fun reply s' => file s' = file s ∧ ∀ n : Nat, reply.2 = .integer n → 0 < n → n ≤ view.length →
      position + n ≤ (file s).length ∧ reply.1.take n = slice (file s) position (position + n))
    (fun _ s' => file s' = file s)
  truncate : ∀ s size, size ≤ (file s).length → (handle.truncate size).Ends s
    (fun _ s' => file s' = (file s).take size)
    (fun _ s' => file s' = file s ∨ file s' = (file s).take size)
  write : ∀ s view position, position ≤ (file s).length → (handle.write view position).Ends s
    (fun moved s' => ChangedIn position (position + view.length) (file s) (file s') ∧
      ∀ n : Nat, moved = .integer n → n ≤ view.length → file s' = put (file s) position (view.take n))
    (fun _ s' => ChangedIn position (position + view.length) (file s) (file s'))

section Handle
variable {σ : Type} {handle : SyncPageAccessHandle σ} {file : σ → List UInt8}

/-! ### Transfers -/

lemma setView_self {buffer : List UInt8} {offset : Nat} :
    setView buffer offset (buffer.drop offset) = buffer := by
  simp only [setView]
  rw [List.take_length, List.drop_length, List.append_nil, List.take_append_drop]

lemma take_setView {buffer view : List UInt8} {offset n : Nat} (hoffset : offset ≤ buffer.length)
    (hn : n ≤ buffer.length - offset) (hview : n ≤ view.length) :
    (setView buffer offset view).take (offset + n) = buffer.take offset ++ view.take n := by
  have hlength : (buffer.take offset).length = offset := by
    rw [List.length_take]
    omega
  simp only [setView]
  rw [List.take_append, List.take_of_length_le (by omega), hlength, Nat.add_sub_cancel_left,
    List.take_append_of_le_length (by rw [List.length_take, List.length_drop]; omega), List.take_take,
    List.length_drop, Nat.min_eq_left hn]

/-- What is read of a file, from the bytes that are already read. -/
lemma transferFrom_read (h : handle.Conforms file) (code action : String) (position : Nat) {s : σ}
    {buffer : List UInt8} {offset : Nat} (hoffset : offset ≤ buffer.length)
    (hbuffer : buffer.take offset = slice (file s) position (position + offset)) :
    (transferFrom handle.read code action position buffer offset).Ends s
      (fun filled s' => file s' = file s ∧ filled.length = buffer.length ∧
        filled = slice (file s) position (position + buffer.length))
      (fun _ s' => file s' = file s) := by
  induction hleft : buffer.length - offset using Nat.strong_induction_on generalizing buffer offset s with
  | _ left ih =>
    subst hleft
    rw [transferFrom]
    split
    · next hmore =>
      rw [Effect.ends_bind]
      refine (h.read s (buffer.drop offset) (position + offset)).mono ?_ (fun _ _ hsame => hsame)
      rintro ⟨view, moved⟩ s' ⟨hsame, htruth⟩
      dsimp only at htruth ⊢
      split
      · next n =>
        split
        · next hmoved =>
          obtain ⟨n, rfl⟩ := Int.eq_ofNat_of_zero_le hmoved.1.le
          rw [Int.toNat_natCast]
          obtain ⟨hlength, hview⟩ := htruth n rfl (by omega) (by rw [List.length_drop]; omega)
          have hshort : n ≤ view.length := by
            have := congrArg List.length hview
            rw [length_slice hlength, List.length_take] at this
            omega
          have hset := @length_setView buffer view offset hoffset
          refine (ih _ (by rw [hset]; omega) (by rw [hset]; omega) ?_ rfl).mono ?_ ?_
          · rw [take_setView hoffset (by omega) hshort, hbuffer, hview, hsame, Nat.add_assoc,
              slice_append_slice (by omega) (by omega)]
          · rw [hset, hsame]
            exact fun _ _ hfilled => hfilled
          · rw [hsame]
            exact fun _ _ hfile => hfile
        · exact hsame
      · exact hsame
    · next hdone =>
      have heq : offset = buffer.length := by omega
      refine ⟨rfl, rfl, ?_⟩
      rw [heq, List.take_length] at hbuffer
      exact hbuffer

/-- What is written to a file, from the bytes that are already written. -/
lemma transferFrom_write (h : handle.Conforms file) (code action : String) {position : Nat}
    {before : List UInt8} (hposition : position ≤ before.length) {s : σ} {buffer : List UInt8}
    {offset : Nat} (hoffset : offset ≤ buffer.length)
    (hfile : file s = put before position (buffer.take offset)) :
    (transferFrom (writeTransfer handle) code action position buffer offset).Ends s
      (fun _ s' => file s' = put before position buffer)
      (fun _ s' => ChangedIn position (position + buffer.length) before (file s')) := by
  induction hleft : buffer.length - offset using Nat.strong_induction_on generalizing offset s with
  | _ left ih =>
    subst hleft
    have htaken : (buffer.take offset).length = offset := by
      rw [List.length_take]
      omega
    have hbegun : ChangedIn position (position + buffer.length) before (file s) := by
      rw [hfile]
      exact (ChangedIn.put hposition).mono (Nat.le_refl _) (by omega)
    have hreach : position + offset ≤ (file s).length := by
      rw [hfile, put, List.length_append, List.length_append, List.length_take]
      omega
    have hrest : position + offset + (buffer.drop offset).length = position + buffer.length := by
      rw [List.length_drop]
      omega
    rw [transferFrom]
    split
    · next hmore =>
      rw [Effect.ends_bind, writeTransfer, Effect.ends_bind]
      refine (h.write s (buffer.drop offset) (position + offset) hreach).mono ?_ ?_
      · rintro moved s' ⟨hchanged, htruth⟩
        have hfailed : ChangedIn position (position + buffer.length) before (file s') :=
          hbegun.trans (hchanged.mono (by omega) (by omega))
        rw [Effect.ends_pure]
        dsimp only
        split
        · next n =>
          split
          · next hmoved =>
            obtain ⟨n, rfl⟩ := Int.eq_ofNat_of_zero_le hmoved.1.le
            rw [Int.toNat_natCast, setView_self]
            refine ih _ (by omega) (by omega) ?_ rfl
            rw [htruth n rfl (by rw [List.length_drop]; omega), hfile]
            have hput := @put_put_append _ before (buffer.take offset) ((buffer.drop offset).take n) _
              hposition
            rw [htaken, ← List.take_add] at hput
            exact hput
          · exact hfailed
        · exact hfailed
      · intro _ s' hchanged
        exact hbegun.trans (hchanged.mono (by omega) (by omega))
    · next hdone =>
      have heq : offset = buffer.length := by omega
      rw [heq, List.take_length] at hfile
      exact hfile

lemma transferExactly_read (h : handle.Conforms file) (code action : String) (position : Nat) (s : σ)
    (buffer : List UInt8) : (transferExactly handle.read code action position buffer).Ends s
      (fun filled s' => file s' = file s ∧ filled.length = buffer.length ∧
        filled = slice (file s) position (position + buffer.length))
      (fun _ s' => file s' = file s) := by
  rw [transferExactly, Effect.ends_orElse]
  exact transferFrom_read h code action position (Nat.zero_le _)
    (by rw [List.take_zero, slice, Nat.add_zero, Nat.sub_self, List.take_zero])

lemma transferExactly_write (h : handle.Conforms file) (code action : String) {position : Nat} {s : σ}
    (hposition : position ≤ (file s).length) (buffer : List UInt8) :
    (transferExactly (writeTransfer handle) code action position buffer).Ends s
      (fun _ s' => file s' = put (file s) position buffer)
      (fun _ s' => ChangedIn position (position + buffer.length) (file s) (file s')) := by
  rw [transferExactly, Effect.ends_orElse]
  refine transferFrom_write h code action hposition (Nat.zero_le _) ?_
  rw [List.take_zero, put, List.append_nil, List.length_nil, Nat.add_zero, List.take_append_drop]

/-- A write in place completes, or leaves anything in its range. -/
lemma writeExistingFrom_ends (h : handle.Conforms file) {position : Nat} {before : List UInt8}
    (hposition : position ≤ before.length) {s : σ} {source : List UInt8} {offset : Nat}
    (hoffset : offset ≤ source.length) (hfile : file s = put before position (source.take offset)) :
    (writeExistingFrom handle position source offset).Ends s
      (fun _ s' => file s' = put before position source)
      (fun _ s' => ChangedIn position (position + source.length) before (file s')) := by
  induction hleft : source.length - offset using Nat.strong_induction_on generalizing offset s with
  | _ left ih =>
    subst hleft
    have htaken : (source.take offset).length = offset := by
      rw [List.length_take]
      omega
    have hbegun : ChangedIn position (position + source.length) before (file s) := by
      rw [hfile]
      exact (ChangedIn.put hposition).mono (Nat.le_refl _) (by omega)
    have hreach : position + offset ≤ (file s).length := by
      rw [hfile, put, List.length_append, List.length_append, List.length_take]
      omega
    have hrest : position + offset + (source.drop offset).length = position + source.length := by
      rw [List.length_drop]
      omega
    rw [writeExistingFrom]
    split
    · next hmore =>
      rw [Effect.ends_bind, Effect.ends_orElse]
      refine (h.write s (source.drop offset) (position + offset) hreach).mono ?_ ?_
      · rintro moved s' ⟨hchanged, htruth⟩
        have hfailed : ChangedIn position (position + source.length) before (file s') :=
          hbegun.trans (hchanged.mono (by omega) (by omega))
        split
        · next n =>
          split
          · next hmoved =>
            obtain ⟨n, rfl⟩ := Int.eq_ofNat_of_zero_le hmoved.1.le
            rw [Int.toNat_natCast]
            refine ih _ (by omega) (by omega) ?_ rfl
            rw [htruth n rfl (by rw [List.length_drop]; omega), hfile]
            have hput := @put_put_append _ before (source.take offset) ((source.drop offset).take n) _
              hposition
            rw [htaken, ← List.take_add] at hput
            exact hput
          · split
            · exact hfailed
            · split <;> exact hfailed
        · exact hfailed
      · intro _ s' hchanged
        exact hbegun.trans (hchanged.mono (by omega) (by omega))
    · next hdone =>
      have heq : offset = source.length := by omega
      rw [heq, List.take_length] at hfile
      exact hfile

lemma writeExistingExactly_ends (h : handle.Conforms file) {position : Nat} {s : σ}
    (hposition : position ≤ (file s).length) (source : List UInt8) :
    (writeExistingExactly handle position source).Ends s
      (fun _ s' => file s' = put (file s) position source)
      (fun _ s' => ChangedIn position (position + source.length) (file s) (file s')) := by
  refine writeExistingFrom_ends h hposition (Nat.zero_le _) ?_
  rw [List.take_zero, put, List.append_nil, List.length_nil, Nat.add_zero, List.take_append_drop]

/-! ### Truncation -/

/-- The error of a call whose outcome is not known. -/
def Thrown.isUnknown : Thrown → Bool
  | .storage e => e.code = unknownOutcome
  | .coded .. => false
  | .error .. => false

lemma truncateTo_ends (h : handle.Conforms file) {s : σ} {size : Nat} (hsize : size ≤ (file s).length) :
    (truncateTo handle size).Ends s (fun _ s' => file s' = (file s).take size)
      (fun _ s' => file s' = file s ∨ file s' = (file s).take size) := by
  rw [truncateTo, Effect.ends_bind]
  refine (h.truncate s size hsize).mono ?_ (fun _ _ hfile => hfile)
  intro _ s' hfile
  exact (h.flush s').mono (fun _ _ hsame => hsame.trans hfile) (fun _ _ hsame => .inr (hsame.trans hfile))

lemma rollbackAppend_ends (h : handle.Conforms file) {s : σ} {count : Nat}
    (hcount : count * pageSize ≤ (file s).length) : (rollbackAppend handle count).Ends s
      (fun _ s' => file s' = (file s).take (count * pageSize))
      (fun error s' => error.isUnknown = true ∧
        (file s' = file s ∨ file s' = (file s).take (count * pageSize))) := by
  rw [rollbackAppend, Effect.ends_orElse]
  refine (truncateTo_ends h hcount).mono (fun _ _ hfile => hfile) ?_
  exact fun _ _ hfile => ⟨by rw [storageError, Thrown.isUnknown, decide_eq_true_eq], hfile⟩

/-! ### Opening -/

lemma readByteLength_ends (h : handle.Conforms file) (s : σ) : (readByteLength handle).Ends s
    (fun size s' => file s' = file s ∧ size = (file s).length) (fun _ s' => file s' = file s) := by
  rw [readByteLength, Effect.ends_bind, Effect.ends_orElse]
  refine (h.getSize s).mono ?_ (fun _ _ hfile => hfile)
  rintro size s' ⟨hfile, hsize⟩
  split
  · exact hfile
  · next hcount =>
    split
    · exact hfile
    · exact ⟨hfile, hsize (by simpa using hcount)⟩

/-- A file that is opened holds the whole pages that it held. -/
lemma createOpfsPageDevice_ends (h : handle.Conforms file) (s : σ) :
    (createOpfsPageDevice handle).Ends s
      (fun count s' => file s' = (file s).take ((file s).length / pageSize * pageSize) ∧
        count = (file s).length / pageSize)
      (fun _ _ => True) := by
  have haligned (n : Nat) : n - n % pageSize = n / pageSize * pageSize := by
    have := Nat.div_add_mod' n pageSize
    omega
  have hfailed (error : Thrown) (s' : σ) {Q : Nat → σ → Prop} : (do
      handle.close.orElse (fun _ => pure ())
      Effect.fail error : Effect σ Thrown Nat).Ends s' Q (fun _ _ => True) := by
    rw [Effect.ends_bind, Effect.ends_orElse]
    exact (h.close s').mono (fun _ _ _ => trivial) (fun _ _ _ => trivial)
  rw [createOpfsPageDevice, Effect.ends_orElse, repairTornTail, Effect.ends_bind]
  refine (readByteLength_ends h s).mono ?_ (fun error s' _ => hfailed error s')
  rintro _ s' ⟨hfile, rfl⟩
  dsimp only
  rw [haligned, Nat.mul_div_cancel _ (show 0 < pageSize by decide)]
  split
  · rw [Effect.ends_bind, Effect.ends_orElse]
    refine (truncateTo_ends h (by rw [hfile]; exact Nat.div_mul_le_self _ _)).mono ?_
      (fun error s'' _ => hfailed _ s'')
    intro _ s'' htaken
    exact ⟨htaken.trans (by rw [hfile]), rfl⟩
  · next hwhole =>
    rw [ne_eq, not_not] at hwhole
    refine ⟨?_, rfl⟩
    rw [hwhole, List.take_length]
    exact hfile

/-! ### The array of pages -/

/-- The page that two words name, whether or not a database can hold it. -/
def pageIdOf : JsNumber → JsNumber → Option Nat
  | .integer low, .integer high =>
    if 0 ≤ low ∧ 0 ≤ high then some (low.toNat + high.toNat * 2 ^ 32) else none
  | _, _ => none

lemma pageIdFromWords_eq_ok {low high : JsNumber} {appendable : Bool} {pageId : Nat}
    (h : pageIdFromWords low high appendable = .ok pageId) : pageIdOf low high = some pageId := by
  unfold pageIdFromWords at h
  rw [Except.ite_error_eq_ok] at h
  obtain ⟨hwords, h⟩ := h
  dsimp only at h
  rw [Except.ite_error_eq_ok, not_or, not_ne_iff] at h
  obtain ⟨⟨rfl, -⟩, h⟩ := h
  cases h
  cases low with
  | other => simp [JsNumber.isUint32, JsNumber.isCountWithin] at hwords
  | integer low =>
    have hlow : 0 ≤ low := by
      simp only [JsNumber.isUint32, JsNumber.isCountWithin, Bool.or_eq_true, not_or,
        Bool.not_eq_true', Bool.not_eq_false, Bool.and_eq_true, decide_eq_true_eq] at hwords
      omega
    rw [pageIdOf, if_pos ⟨hlow, Int.le_refl _⟩]
    rfl

/-- The whole pages of a file's first bytes. -/
def pagesOf (bytes : List UInt8) (count : Nat) : List (List UInt8) :=
  (List.range count).map (fun id => slice bytes (id * pageSize) (id * pageSize + pageSize))

lemma length_pagesOf (bytes : List UInt8) (count : Nat) : (pagesOf bytes count).length = count := by
  rw [pagesOf, List.length_map, List.length_range]

lemma getElem?_pagesOf {bytes : List UInt8} {count id : Nat} (h : id < count) :
    (pagesOf bytes count)[id]? = some (slice bytes (id * pageSize) (id * pageSize + pageSize)) := by
  rw [pagesOf, List.getElem?_map, List.getElem?_range h]
  rfl

/-- The pages that a device holds. -/
def Device.pages (file : σ → List UInt8) (device : Device σ) : List (List UInt8) :=
  pagesOf (file device.store) device.pageCount

/-- Where a write's bytes stand in the file: from its first page's start on. -/
def writeRange (low high : JsNumber) (source : Option (List UInt8)) : Nat × Nat :=
  match pageIdOf low high, source with
  | some first, some bytes => (first * pageSize, first * pageSize + bytes.length)
  | _, _ => (0, 0)

/-- What a failed write leaves: the pages that it does not name, and, where the file was the pages and
nothing else, the file but for the range that it was asked to write, as long as before where its outcome
is known. -/
structure Kept (count start stop : Nat) (before after : List UInt8) (error : Thrown) : Prop where
  holds : count * pageSize ≤ after.length
  unnamed : ∀ i < count * pageSize, (i < start ∨ stop ≤ i) → after[i]? = before[i]?
  changed : before.length = count * pageSize → ChangedIn start stop before after
  length_eq : before.length = count * pageSize → error.isUnknown = false → after.length = before.length

lemma Kept.refl {count start stop : Nat} {before : List UInt8} (h : count * pageSize ≤ before.length)
    (error : Thrown) : Kept count start stop before before error :=
  ⟨h, fun _ _ _ => rfl, fun _ => .refl _ _ _, fun _ _ => rfl⟩

/-! ### Calls -/

section Calls
variable {device : Device σ}

lemma assertOpen_ends (device : Device σ) : (assertOpen : Effect (Device σ) Thrown Unit).Ends device
    (fun _ device' => device' = device ∧ device.closed = false)
    (fun _ device' => device' = device) := by
  unfold assertOpen Effect.Ends
  dsimp only
  by_cases hclosed : device.closed = true
  · rw [if_pos hclosed]
  · rw [if_neg hclosed]
    exact ⟨rfl, Bool.eq_false_iff.mpr hclosed⟩

/-- A device that a call leaves as it was, but for what its handle does with the file. -/
structure Unchanged (file : σ → List UInt8) (device device' : Device σ) : Prop where
  pageCount : device'.pageCount = device.pageCount
  file : file device'.store = file device.store

lemma readPage_ends (h : handle.Conforms file) (low high : JsNumber) (target : Option (List UInt8)) :
    (readPage handle low high target).Ends device
      (fun reply device' => Unchanged file device device' ∧ ∃ id page, pageIdOf low high = some id ∧
        (device.pages file)[id]? = some page ∧ reply = (pageSize, page))
      (fun _ device' => Unchanged file device device') := by
  rw [readPage, Effect.ends_bind]
  refine (assertOpen_ends device).mono ?_ (by rintro _ _ rfl; exact ⟨rfl, rfl⟩)
  rintro _ _ ⟨rfl, -⟩
  rw [Effect.ends_bind, Effect.ends_ofExcept]
  refine ⟨fun pageId hpage => ?_, fun _ _ => ⟨rfl, rfl⟩⟩
  rw [Effect.ends_bind, Effect.ends_ofExcept]
  refine ⟨fun buffer hbuffer => ?_, fun _ _ => ⟨rfl, rfl⟩⟩
  rw [Effect.ends_bind, Effect.ends_get]
  split
  · exact ⟨rfl, rfl⟩
  · next hallocated =>
    have hlength : buffer.length = pageSize := by
      unfold assertExactPage at hbuffer
      split at hbuffer
      · cases hbuffer
      · split at hbuffer
        · cases hbuffer
        · next hexact =>
          cases hbuffer
          exact not_not.mp hexact
    rw [Effect.ends_bind, onStore, Effect.ends_focus]
    refine (transferExactly_read h readFailed "read" (pageId * pageSize) _ buffer).mono ?_
      (fun _ _ hfile => ⟨rfl, hfile⟩)
    rintro filled s' ⟨hfile, -, hfilled⟩
    refine ⟨⟨rfl, hfile⟩, pageId, filled, pageIdFromWords_eq_ok hpage, ?_, rfl⟩
    rw [Device.pages, getElem?_pagesOf (by omega), hfilled, hlength]

/-- What a failed append leaves, with its bytes taken back where its outcome is known. -/
structure TakenBack (stop added : Nat) (before after : List UInt8) (error : Thrown) : Prop where
  holds : stop ≤ after.length
  held : after.take stop = before.take stop
  changed : before.length = stop → ChangedIn stop (stop + added) before after
  restored : error.isUnknown = false → after = before.take stop

lemma put_nil (bytes : List UInt8) (position : Nat) : put bytes position [] = bytes := by
  rw [put, List.append_nil, List.length_nil, Nat.add_zero, List.take_append_drop]

/-- The pages that a write finds in place are replaced, or left as anything. -/
lemma replacePages_ends (h : handle.Conforms file) {position inPlace : Nat} {source : List UInt8}
    (hposition : position ≤ (file device.store).length) (hinPlace : inPlace ≤ source.length) :
    (replacePages handle position inPlace source).Ends device
      (fun _ device' => device'.pageCount = device.pageCount ∧
        file device'.store = put (file device.store) position (source.take inPlace))
      (fun _ device' => device'.pageCount = device.pageCount ∧
        ChangedIn position (position + inPlace) (file device.store) (file device'.store)) := by
  rw [replacePages]
  split
  · rw [onStore, Effect.ends_focus]
    refine (writeExistingExactly_ends h hposition _).mono (fun _ _ hfile => ⟨rfl, hfile⟩) ?_
    intro _ s' hchanged
    rw [List.length_take, Nat.min_eq_left hinPlace] at hchanged
    exact ⟨rfl, hchanged⟩
  · next hnone =>
    rw [Effect.ends_pure, show inPlace = 0 by omega, List.take_zero, put_nil]
    exact ⟨rfl, rfl⟩

/-- The bytes behind a device's pages are appended, or else taken back. -/
lemma appendPages_ends (h : handle.Conforms file) {pageId count position inPlace : Nat}
    {source : List UInt8} (hheld : count * pageSize ≤ (file device.store).length)
    (hcount : device.pageCount = count) (hinPlace : inPlace ≤ source.length)
    (hend : inPlace < source.length → position + inPlace = count * pageSize ∧
      count ≤ pageId + source.length / pageSize)
    (hwithin : inPlace = source.length → pageId + source.length / pageSize ≤ count) :
    (appendPages handle pageId count position inPlace source).Ends device
      (fun _ device' => device'.pageCount = max count (pageId + source.length / pageSize) ∧
        file device'.store = put (file device.store) (position + inPlace) (source.drop inPlace))
      (fun error device' => inPlace < source.length ∧ device'.pageCount = count ∧
        TakenBack (count * pageSize) (source.length - inPlace) (file device.store) (file device'.store)
          error) := by
  rw [appendPages]
  split
  · next hrest =>
    obtain ⟨hat, hgrown⟩ := hend hrest
    rw [hat, Effect.ends_orElse, Effect.ends_bind, onStore, Effect.ends_focus]
    refine (transferExactly_write h writeFailed "write" hheld _).mono ?_ ?_
    · intro _ s' hfile
      rw [Effect.ends_modify]
      exact ⟨(Nat.max_eq_right hgrown).symm, hfile⟩
    · intro error s' hchanged
      rw [List.length_drop] at hchanged
      have hlength : count * pageSize ≤ (file s').length := hheld.trans hchanged.length_le
      have htake : (file s').take (count * pageSize) = (file device.store).take (count * pageSize) :=
        hchanged.take_eq (Nat.le_refl _)
      have hback (rolled : Thrown) : TakenBack (count * pageSize) (source.length - inPlace)
          (file device.store) ((file s').take (count * pageSize)) rolled := by
        refine ⟨by rw [List.length_take]; omega, by rw [List.take_take, Nat.min_self, htake], ?_,
          fun _ => htake⟩
        intro hexact
        rw [htake, ← hexact, List.take_length]
        exact .refl _ _ _
      rw [Effect.ends_bind, onStore, Effect.ends_focus]
      refine (rollbackAppend_ends h hlength).mono ?_ ?_
      · intro _ s'' hfile
        rw [Effect.ends_fail]
        exact ⟨hrest, hcount, hfile ▸ hback error⟩
      · rintro rolled s'' ⟨hunknown, hfile | hfile⟩
        · refine ⟨hrest, hcount, ?_⟩
          dsimp only
          rw [hfile]
          exact ⟨hlength, htake, fun _ => hchanged,
            fun hknown => by rw [hunknown] at hknown; cases hknown⟩
        · exact ⟨hrest, hcount, hfile ▸ hback rolled⟩
  · next hall =>
    have heq : inPlace = source.length := by omega
    rw [Effect.ends_pure, List.drop_eq_nil_of_le (by omega), put_nil, hcount]
    exact ⟨(Nat.max_eq_left (hwithin heq)).symm, rfl⟩

lemma firstWrittenPage_eq_ok {low high : JsNumber} {source : Option (List UInt8)} {pageId : Nat}
    {bytes : List UInt8} (h : firstWrittenPage low high source = .ok (pageId, bytes)) :
    pageIdOf low high = some pageId ∧ source = some bytes ∧ 0 < bytes.length ∧
      bytes.length % pageSize = 0 := by
  obtain ⟨id, hid, h⟩ := Except.bind_eq_ok.mp h
  cases source with
  | none => cases h
  | some written =>
    dsimp only at h
    rw [Except.ite_error_eq_ok, Except.ite_error_eq_ok, not_or] at h
    obtain ⟨⟨hne, hwhole⟩, -, h⟩ := h
    cases h
    exact ⟨pageIdFromWords_eq_ok hid, rfl, by omega, not_not.mp hwhole⟩

/-- A write puts its bytes in the file, or keeps what it does not name. -/
lemma writePages_ends (h : handle.Conforms file) (low high : JsNumber) (source : Option (List UInt8))
    (hheld : device.pageCount * pageSize ≤ (file device.store).length) :
    (writePages handle low high source).Ends device
      (fun moved device' => ∃ first bytes, pageIdOf low high = some first ∧ source = some bytes ∧
        bytes.length % pageSize = 0 ∧ first ≤ device.pageCount ∧ moved = bytes.length ∧
        device'.pageCount = max device.pageCount (first + bytes.length / pageSize) ∧
        file device'.store = put (file device.store) (first * pageSize) bytes)
      (fun error device' => device'.pageCount = device.pageCount ∧
        Kept device.pageCount (writeRange low high source).1 (writeRange low high source).2
          (file device.store) (file device'.store) error) := by
  rw [writePages, Effect.ends_bind]
  refine (assertOpen_ends device).mono ?_ (by rintro _ _ rfl; exact ⟨rfl, .refl hheld _⟩)
  rintro _ opened ⟨hopened, -⟩
  subst hopened
  rw [Effect.ends_bind, Effect.ends_ofExcept]
  refine ⟨?_, fun error _ => ⟨rfl, .refl hheld _⟩⟩
  rintro ⟨pageId, bytes⟩ hnamed
  obtain ⟨hpage, rfl, hpos, hwhole⟩ := firstWrittenPage_eq_ok hnamed
  have hrange : writeRange low high (some bytes) = (pageId * pageSize, pageId * pageSize + bytes.length) := by
    simp only [writeRange, hpage]
  dsimp only
  rw [Effect.ends_bind, Effect.ends_get, hrange]
  split
  · exact ⟨rfl, .refl hheld _⟩
  · next hgap =>
    have hsplit : bytes.length / pageSize * pageSize = bytes.length :=
      Nat.div_mul_cancel (Nat.dvd_of_mod_eq_zero hwhole)
    have hpages : pageId * pageSize + (opened.pageCount - pageId) * pageSize =
        opened.pageCount * pageSize := by
      rw [← Nat.add_mul]
      congr 1
      omega
    have hreach : pageId * pageSize ≤ (file opened.store).length := by omega
    have hend : min bytes.length ((opened.pageCount - pageId) * pageSize) < bytes.length →
        pageId * pageSize + min bytes.length ((opened.pageCount - pageId) * pageSize) =
          opened.pageCount * pageSize ∧ opened.pageCount ≤ pageId + bytes.length / pageSize := by
      intro hless
      refine ⟨by omega, ?_⟩
      have : (opened.pageCount - pageId) * pageSize ≤ bytes.length / pageSize * pageSize := by omega
      have := Nat.le_of_mul_le_mul_right this (show 0 < pageSize by decide)
      omega
    have hwithin : min bytes.length ((opened.pageCount - pageId) * pageSize) = bytes.length →
        pageId + bytes.length / pageSize ≤ opened.pageCount := by
      intro heq
      have : bytes.length / pageSize * pageSize ≤ (opened.pageCount - pageId) * pageSize := by omega
      have := Nat.le_of_mul_le_mul_right this (show 0 < pageSize by decide)
      omega
    have hinPlace : min bytes.length ((opened.pageCount - pageId) * pageSize) ≤ bytes.length :=
      Nat.min_le_left _ _
    have hinside : pageId * pageSize + min bytes.length ((opened.pageCount - pageId) * pageSize) ≤
        opened.pageCount * pageSize := by omega
    generalize min bytes.length ((opened.pageCount - pageId) * pageSize) = inPlace at *
    rw [Effect.ends_bind]
    refine (replacePages_ends h hreach hinPlace).mono ?_ ?_
    · rintro _ replaced ⟨hcount, hfile⟩
      have htaken : (bytes.take inPlace).length = inPlace := by
        rw [List.length_take, Nat.min_eq_left hinPlace]
      have hreplaced : ChangedIn (pageId * pageSize) (pageId * pageSize + inPlace) (file opened.store)
          (file replaced.store) := by
        have hput := @ChangedIn.put _ _ _ (bytes.take inPlace) hreach
        rwa [htaken, ← hfile] at hput
      have hsame : (file replaced.store).length = (file opened.store).length :=
        hreplaced.length_eq (hinside.trans hheld)
      rw [Effect.ends_bind]
      refine (appendPages_ends h (by rw [hsame]; exact hheld) hcount hinPlace hend hwithin).mono ?_ ?_
      · rintro _ written ⟨hgrown, hwritten⟩
        refine ⟨pageId, bytes, hpage, rfl, hwhole, by omega, rfl, hgrown, ?_⟩
        have hput := @put_put_append _ (file opened.store) (bytes.take inPlace) (bytes.drop inPlace) _
          hreach
        rw [htaken, List.take_append_drop] at hput
        rw [hwritten, hfile, hput]
      · rintro error failed ⟨hless, hkept, hback⟩
        obtain ⟨hat, -⟩ := hend hless
        refine ⟨hkept, hback.holds, ?_, ?_, ?_⟩
        · intro i hi hout
          have hheldAt : (file failed.store)[i]? = (file replaced.store)[i]? := by
            have := congrArg (fun l => l[i]?) hback.held
            simpa only [List.getElem?_take_of_lt hi] using this
          rw [hheldAt]
          exact hreplaced.outside i (by dsimp only at hout; omega)
        · intro hexact
          exact (hreplaced.mono (Nat.le_refl _) (by omega)).trans
            ((hback.changed (hsame.trans hexact)).mono (by omega) (by omega))
        · intro hexact hknown
          rw [hback.restored hknown, List.length_take, hsame, hexact, Nat.min_self]
    · rintro error failed ⟨hcount, hchanged⟩
      have hsame := hchanged.length_eq (hinside.trans hheld)
      refine ⟨hcount, by rw [hsame]; exact hheld, fun i _ hout => ?_, fun _ => ?_, fun _ _ => hsame⟩
      · exact hchanged.outside i (by dsimp only at hout; omega)
      · exact hchanged.mono (Nat.le_refl _) (by dsimp only; omega)

end Calls
end Handle

/-! ### The array that a device is -/

/-- The bytes of the file that a call is asked to write, from the first and up to the second. -/
def Call.range : Call → Nat × Nat
  | .writePages low high source => writeRange low high source
  | .pageCount => (0, 0)
  | .readPage .. => (0, 0)
  | .flush => (0, 0)
  | .close => (0, 0)

/-- Whether a call is asked to write a page. -/
def Call.names (call : Call) (id : Nat) : Bool :=
  call.range.1 ≤ id * pageSize && id * pageSize < call.range.2

/-- How an array of pages answers a call. A read returns the page that it names, and a write puts its
pages in their places. A failed write may leave anything in the pages that it names. -/
def PagesStep (pages : List (List UInt8)) (call : Call) (result : Except Thrown Reply)
    (pages' : List (List UInt8)) : Prop :=
  match call, result with
  | .pageCount, .ok reply => pages' = pages ∧ reply = .count pages.length
  | .readPage low high _, .ok reply => pages' = pages ∧ ∃ id page, pageIdOf low high = some id ∧
      pages[id]? = some page ∧ reply = .read pageSize page
  | .writePages low high source, .ok reply => ∃ first bytes, pageIdOf low high = some first ∧
      source = some bytes ∧ bytes.length % pageSize = 0 ∧ first ≤ pages.length ∧
      reply = .written bytes.length ∧
      pages' = put pages first (pagesOf bytes (bytes.length / pageSize))
  | .writePages low high source, .error _ => pages'.length = pages.length ∧
      ∀ id, (Call.writePages low high source).names id = false → pages'[id]? = pages[id]?
  | _, _ => pages' = pages

/-- What a page holds after a call, where what it held before is told: what a write puts there, and
nothing that is known once a write of it has failed. -/
def Call.leaves (call : Call) (result : Except Thrown Reply) (id : Nat)
    (content : Option (List UInt8)) : Option (List UInt8) :=
  match call, result with
  | .writePages low high (some bytes), .ok _ =>
    match pageIdOf low high with
    | some first =>
      if first ≤ id ∧ id < first + bytes.length / pageSize then
        some (slice bytes ((id - first) * pageSize) ((id - first) * pageSize + pageSize))
      else content
    | none => content
  | .writePages low high source, .error _ =>
    if (Call.writePages low high source).names id then none else content
  | _, _ => content

/-- The bytes that were last written to a page, from what it held at first. -/
def lastWritten (pages : List (List UInt8)) (history : List (Call × Except Thrown Reply)) (id : Nat) :
    Option (List UInt8) :=
  history.foldl (fun content step => step.1.leaves step.2 id content) pages[id]?

/-- A call leaves in a page what it is last told to. -/
lemma PagesStep.leaves {pages pages' : List (List UInt8)} {call : Call} {result : Except Thrown Reply}
    (h : PagesStep pages call result pages') {id : Nat} {content : Option (List UInt8)}
    (hcontent : ∀ page, content = some page → pages[id]? = some page) {page : List UInt8}
    (hpage : call.leaves result id content = some page) : pages'[id]? = some page := by
  cases call with
  | writePages low high source =>
    cases result with
    | ok reply =>
      obtain ⟨first, bytes, hfirst, rfl, -, hle, -, rfl⟩ := h
      simp only [Call.leaves, hfirst] at hpage
      split at hpage
      · next hnamed =>
        obtain ⟨k, rfl⟩ : ∃ k, id = first + k := ⟨id - first, by omega⟩
        rw [getElem?_put_run hle (by rw [length_pagesOf]; omega), getElem?_pagesOf (by omega), ← hpage,
          Nat.add_sub_cancel_left]
      · next hnot =>
        rw [getElem?_put hle (by rw [length_pagesOf]; omega)]
        exact hcontent page hpage
    | error e =>
      simp only [Call.leaves] at hpage
      split at hpage
      · cases hpage
      · next hnot =>
        rw [h.2 id (Bool.eq_false_iff.mpr hnot)]
        exact hcontent page hpage
  | pageCount =>
    cases result with
    | ok reply => exact h.1 ▸ hcontent page hpage
    | error e => exact (show pages' = pages from h) ▸ hcontent page hpage
  | readPage =>
    cases result with
    | ok reply => exact h.1 ▸ hcontent page hpage
    | error e => exact (show pages' = pages from h) ▸ hcontent page hpage
  | flush => exact (show pages' = pages from h) ▸ hcontent page hpage
  | close => exact (show pages' = pages from h) ▸ hcontent page hpage

/-! ### A file and its pages -/

lemma slice_put_run {bytes source : List UInt8} {offset start stop : Nat} (h : offset ≤ bytes.length)
    (hstop : stop ≤ source.length) :
    slice (put bytes offset source) (offset + start) (offset + stop) = slice source start stop := by
  have hlength : (bytes.take offset).length = offset := by
    rw [List.length_take, Nat.min_eq_left h]
  rw [put, List.append_assoc, slice_append_right (by omega), hlength, Nat.add_sub_cancel_left,
    Nat.add_sub_cancel_left, slice_append_left hstop]

/-- Whole pages that are put in a file are put in its pages. -/
lemma pagesOf_put {bytes source : List UInt8} {count first : Nat} (hheld : count * pageSize ≤ bytes.length)
    (hfirst : first ≤ count) (hwhole : source.length % pageSize = 0) :
    pagesOf (put bytes (first * pageSize) source) (max count (first + source.length / pageSize)) =
      put (pagesOf bytes count) first (pagesOf source (source.length / pageSize)) := by
  have hsplit : source.length / pageSize * pageSize = source.length :=
    Nat.div_mul_cancel (Nat.dvd_of_mod_eq_zero hwhole)
  have hstart : first * pageSize ≤ bytes.length := (Nat.mul_le_mul_right _ hfirst).trans hheld
  have hfirst' : first ≤ (pagesOf bytes count).length := by rwa [length_pagesOf]
  generalize source.length / pageSize = n at *
  apply List.ext_getElem?
  intro id
  by_cases hnamed : first ≤ id ∧ id < first + n
  · obtain ⟨k, rfl⟩ : ∃ k, id = first + k := ⟨id - first, by omega⟩
    have hk : k < n := by omega
    have hstop : (k + 1) * pageSize ≤ n * pageSize := Nat.mul_le_mul_right _ hk
    rw [Nat.add_mul, Nat.one_mul] at hstop
    rw [getElem?_put_run hfirst' (by rwa [length_pagesOf]), getElem?_pagesOf hk,
      getElem?_pagesOf (by omega), Nat.add_mul, Nat.add_assoc,
      slice_put_run hstart (by omega)]
  · rw [getElem?_put hfirst' (by rw [length_pagesOf]; omega)]
    by_cases hid : id < count
    · rw [getElem?_pagesOf hid, getElem?_pagesOf (by omega)]
      have hchanged := @ChangedIn.put _ _ bytes source hstart
      rw [hchanged.slice_eq]
      rcases Nat.lt_or_ge id first with hlt | hge
      · have := Nat.mul_le_mul_right pageSize (Nat.succ_le_of_lt hlt)
        rw [Nat.succ_mul] at this
        exact .inl this
      · have := Nat.mul_le_mul_right pageSize (show first + n ≤ id by omega)
        rw [Nat.add_mul, hsplit] at this
        exact .inr this
    · rw [List.getElem?_eq_none (by rw [length_pagesOf]; omega),
        List.getElem?_eq_none (by rw [length_pagesOf]; omega)]

/-! ### Runs -/

/-- A call whose outcome is not known. -/
def isUncertain : Except Thrown Reply → Bool
  | .ok _ => false
  | .error e => e.isUnknown

section Runs
variable {σ : Type} {handle : SyncPageAccessHandle σ} {file : σ → List UInt8}

/-- A device's file is its pages and nothing else. -/
def Device.exact (file : σ → List UInt8) (device : Device σ) : Prop :=
  (file device.store).length = device.pageCount * pageSize

/-- What a call does to a device whose file holds its pages. -/
structure Stepped (file : σ → List UInt8) (call : Call) (device : Device σ)
    (result : Except Thrown Reply) (device' : Device σ) : Prop where
  holds : device'.pageCount * pageSize ≤ (file device'.store).length
  pages : PagesStep (device.pages file) call result (device'.pages file)
  exact : device.exact file → isUncertain result = false → device'.exact file
  changed : device.exact file →
    ChangedIn call.range.1 call.range.2 (file device.store) (file device'.store)

lemma writeRange_start (low high : JsNumber) (source : Option (List UInt8)) :
    ∃ first, (writeRange low high source).1 = first * pageSize := by
  unfold writeRange
  split
  · exact ⟨_, rfl⟩
  · exact ⟨0, rfl⟩

lemma Stepped.of_unchanged {call : Call} {device device' : Device σ} {result : Except Thrown Reply}
    (hheld : device.pageCount * pageSize ≤ (file device.store).length)
    (h : Unchanged file device device')
    (hpages : PagesStep (device.pages file) call result (device.pages file)) :
    Stepped file call device result device' := by
  have hsame : device'.pages file = device.pages file := by
    rw [Device.pages, Device.pages, h.file, h.pageCount]
  refine ⟨?_, hsame ▸ hpages, fun hexact _ => ?_, fun _ => ?_⟩
  · rw [h.pageCount, h.file]
    exact hheld
  · rw [Device.exact, h.pageCount, h.file]
    exact hexact
  · rw [h.file]
    exact .refl _ _ _

lemma stepped_writePages (h : handle.Conforms file) {device : Device σ}
    (hheld : device.pageCount * pageSize ≤ (file device.store).length) (low high : JsNumber)
    (source : Option (List UInt8)) : ((Call.writePages low high source).run handle).Ends device
      (fun reply => Stepped file (.writePages low high source) device (.ok reply))
      (fun error => Stepped file (.writePages low high source) device (.error error)) := by
  rw [Call.run, Effect.ends_map]
  refine (writePages_ends h low high source hheld).mono ?_ ?_
  · rintro moved device' ⟨first, bytes, hfirst, rfl, hwhole, hle, rfl, hcount, hfile⟩
    have hstart : first * pageSize ≤ (file device.store).length :=
      (Nat.mul_le_mul_right _ hle).trans hheld
    have hsplit : bytes.length / pageSize * pageSize = bytes.length :=
      Nat.div_mul_cancel (Nat.dvd_of_mod_eq_zero hwhole)
    have hlength : (file device'.store).length =
        max (file device.store).length (first * pageSize + bytes.length) := by
      rw [hfile, put, List.length_append, List.length_append, List.length_take, List.length_drop]
      omega
    have hgrown : device'.pageCount * pageSize =
        max (device.pageCount * pageSize) (first * pageSize + bytes.length) := by
      rw [hcount, ← Nat.mul_max_mul_right, Nat.add_mul, hsplit]
    refine ⟨by rw [hlength, hgrown]; omega, ?_, fun hexact _ => ?_, fun _ => ?_⟩
    · refine ⟨first, bytes, hfirst, rfl, hwhole, by rwa [Device.pages, length_pagesOf], rfl, ?_⟩
      rw [Device.pages, Device.pages, hfile, hcount, pagesOf_put hheld hle hwhole]
    · rw [Device.exact, hlength, hgrown, hexact]
    · rw [hfile]
      simp only [Call.range, writeRange, hfirst]
      exact .put hstart
  · rintro error device' ⟨hcount, hkept⟩
    refine ⟨by rw [hcount]; exact hkept.holds, ⟨?_, fun id hid => ?_⟩, fun hexact hknown => ?_,
      hkept.changed⟩
    · rw [Device.pages, Device.pages, length_pagesOf, length_pagesOf, hcount]
    · rw [Device.pages, Device.pages, hcount]
      by_cases hlt : id < device.pageCount
      · rw [getElem?_pagesOf hlt, getElem?_pagesOf hlt, Option.some.injEq]
        obtain ⟨first, hfirst⟩ := writeRange_start low high source
        have hwithin := Nat.mul_le_mul_right pageSize (Nat.succ_le_of_lt hlt)
        rw [Nat.succ_mul] at hwithin
        have hout : id * pageSize + pageSize ≤ (writeRange low high source).1 ∨
            (writeRange low high source).2 ≤ id * pageSize := by
          rcases Nat.lt_or_ge (id * pageSize) (writeRange low high source).1 with hbefore | hafter
          · rw [hfirst] at hbefore
            have hnext := Nat.mul_le_mul_right pageSize
              (Nat.succ_le_of_lt (Nat.lt_of_mul_lt_mul_right hbefore))
            rw [Nat.succ_mul] at hnext
            exact .inl (by rw [hfirst]; exact hnext)
          · rw [Call.names, Bool.and_eq_false_iff, decide_eq_false_iff_not, decide_eq_false_iff_not] at hid
            dsimp only [Call.range] at hid
            exact .inr (by omega)
        exact slice_congr (fun i _ _ => hkept.unnamed i (by omega) (by omega))
      · rw [List.getElem?_eq_none (by rw [length_pagesOf]; omega),
          List.getElem?_eq_none (by rw [length_pagesOf]; omega)]
    · rw [Device.exact, hkept.length_eq hexact hknown, hcount]
      exact hexact

/-- A device answers each call as the array of its pages does. -/
lemma stepped_run (h : handle.Conforms file) {device : Device σ}
    (hheld : device.pageCount * pageSize ≤ (file device.store).length) (call : Call) :
    (call.run handle).Ends device (fun reply => Stepped file call device (.ok reply))
      (fun error => Stepped file call device (.error error)) := by
  cases call with
  | writePages low high source => exact stepped_writePages h hheld low high source
  | pageCount =>
    rw [Call.run, Effect.ends_map, Opfs.pageCount, Effect.ends_bind]
    refine (assertOpen_ends device).mono ?_ ?_
    · rintro _ _ ⟨rfl, -⟩
      exact .of_unchanged hheld ⟨rfl, rfl⟩ ⟨rfl, by rw [Device.pages, length_pagesOf]⟩
    · rintro _ _ rfl
      exact .of_unchanged hheld ⟨rfl, rfl⟩ rfl
  | readPage low high target =>
    rw [Call.run, Effect.ends_map]
    refine (readPage_ends h low high target).mono ?_ ?_
    · rintro _ device' ⟨hsame, id, page, hid, hpage, rfl⟩
      exact .of_unchanged hheld hsame ⟨rfl, id, page, hid, hpage, rfl⟩
    · exact fun _ device' hsame => .of_unchanged hheld hsame rfl
  | flush =>
    rw [Call.run, Effect.ends_map, Opfs.flush, Effect.ends_bind]
    refine (assertOpen_ends device).mono ?_ ?_
    · rintro _ _ ⟨rfl, -⟩
      rw [Effect.ends_orElse, onStore, Effect.ends_focus]
      exact (h.flush _).mono (fun _ _ hfile => .of_unchanged hheld ⟨rfl, hfile⟩ rfl)
        (fun _ _ hfile => .of_unchanged hheld ⟨rfl, hfile⟩ rfl)
    · rintro _ _ rfl
      exact .of_unchanged hheld ⟨rfl, rfl⟩ rfl
  | close =>
    rw [Call.run, Effect.ends_map, Opfs.close, Effect.ends_bind, Effect.ends_get]
    split
    · exact .of_unchanged hheld ⟨rfl, rfl⟩ rfl
    · rw [Effect.ends_bind, Effect.ends_modify, Effect.ends_orElse, onStore, Effect.ends_focus]
      exact (h.close _).mono (fun _ _ hfile => .of_unchanged hheld ⟨rfl, hfile⟩ rfl)
        (fun _ _ hfile => .of_unchanged hheld ⟨rfl, hfile⟩ rfl)

lemma stepped_of_run (h : handle.Conforms file) {device : Device σ}
    (hheld : device.pageCount * pageSize ≤ (file device.store).length) (call : Call) :
    Stepped file call device (call.run handle device).1 (call.run handle device).2 := by
  have hends := Effect.ends_def.mp (stepped_run h hheld call)
  rcases hrun : call.run handle device with ⟨e | reply, device'⟩
  · exact hends.2 e device' hrun
  · exact hends.1 reply device' hrun

/-- A run leaves a device whose file holds its pages, and is them and nothing else while every outcome
is known. What a page was last written is what it holds. -/
lemma runCalls_spec (h : handle.Conforms file) (calls : List Call) {device : Device σ}
    (hheld : device.pageCount * pageSize ≤ (file device.store).length)
    {contents : Nat → Option (List UInt8)}
    (hcontents : ∀ id page, contents id = some page → (device.pages file)[id]? = some page) :
    (runCalls handle device calls).2.pageCount * pageSize ≤
        (file (runCalls handle device calls).2.store).length ∧
      (device.exact file → (∀ result ∈ (runCalls handle device calls).1, isUncertain result = false) →
        (runCalls handle device calls).2.exact file) ∧
      ∀ id page, (calls.zip (runCalls handle device calls).1).foldl
          (fun content step => step.1.leaves step.2 id content) (contents id) = some page →
        ((runCalls handle device calls).2.pages file)[id]? = some page := by
  induction calls generalizing device contents with
  | nil => exact ⟨hheld, fun hexact _ => hexact, hcontents⟩
  | cons call calls ih =>
    have hstep := stepped_of_run h hheld call
    rw [runCalls]
    dsimp only
    obtain ⟨hholds, hexact, hpages⟩ := @ih (call.run handle device).2 hstep.holds
      (fun id => call.leaves (call.run handle device).1 id (contents id))
      (fun id page => hstep.pages.leaves (hcontents id))
    refine ⟨hholds, fun hbefore hcertain => ?_, hpages⟩
    rw [List.forall_mem_cons] at hcertain
    exact hexact (hstep.exact hbefore hcertain.1) hcertain.2

/-- A page device is an array of pages over its file. Once it is opened, the file holds the whole pages
that it held. Each call after any others answers as the array does: a read returns the page that it
names, a write changes its pages and no others, and a failed write keeps the pages that it does not
name. While every outcome is known the file is the device's pages and nothing else, and a call changes
nothing of it but the range that it is asked to write. A page that is read is what was last written to
it. -/
theorem opfs_device_refines_pages {σ : Type} (handle : SyncPageAccessHandle σ) (file : σ → List UInt8)
    (h : handle.Conforms file) (s s' : σ) (count : Nat)
    (hopen : createOpfsPageDevice handle s = (.ok count, s')) :
    file s' = (file s).take ((file s).length / pageSize * pageSize) ∧
    count = (file s).length / pageSize ∧
    ∀ calls call,
      let before := runCalls handle ⟨false, count, s'⟩ calls
      let after := call.run handle before.2
      PagesStep (before.2.pages file) call after.1 (after.2.pages file) ∧
      ((∀ result ∈ before.1, isUncertain result = false) →
        (file before.2.store).length = before.2.pageCount * pageSize ∧
        (isUncertain after.1 = false →
          (file after.2.store).length = after.2.pageCount * pageSize) ∧
        ChangedIn call.range.1 call.range.2 (file before.2.store) (file after.2.store)) ∧
      ∀ low high target moved page, call = .readPage low high target → after.1 = .ok (.read moved page) →
        ∃ id, pageIdOf low high = some id ∧ ∀ content,
          lastWritten (pagesOf (file s) count) (calls.zip before.1) id = some content →
            page = content := by
  obtain ⟨hfile, rfl⟩ := (createOpfsPageDevice_ends h s).ok hopen
  have hwhole : (file s).length / pageSize * pageSize ≤ (file s).length := Nat.div_mul_le_self _ _
  have hexact : (⟨false, (file s).length / pageSize, s'⟩ : Device σ).exact file := by
    rw [Device.exact, hfile, List.length_take, Nat.min_eq_left hwhole]
  refine ⟨hfile, rfl, fun calls call => ?_⟩
  have hcontents : ∀ (id : Nat) (page : List UInt8),
      (pagesOf (file s) ((file s).length / pageSize))[id]? = some page →
      ((⟨false, (file s).length / pageSize, s'⟩ : Device σ).pages file)[id]? = some page := by
    intro id page hpage
    have hid : id < (file s).length / pageSize := by
      have := (List.getElem?_eq_some_iff.mp hpage).1
      rwa [length_pagesOf] at this
    have hstop := Nat.mul_le_mul_right pageSize (Nat.succ_le_of_lt hid)
    rw [Nat.succ_mul] at hstop
    rw [getElem?_pagesOf hid, Option.some.injEq] at hpage
    rw [Device.pages, getElem?_pagesOf hid, hfile, ← hpage]
    exact congrArg some (slice_congr (fun i _ _ => List.getElem?_take_of_lt (by omega)))
  obtain ⟨hholds, hrun, hpages⟩ := @runCalls_spec σ handle file h calls _ (Nat.le_of_eq hexact.symm)
    (fun id : Nat => (pagesOf (file s) ((file s).length / pageSize))[id]?) hcontents
  have hstep := stepped_of_run h hholds call
  refine ⟨hstep.pages, fun hcertain => ?_, ?_⟩
  · exact ⟨hrun hexact hcertain, hstep.exact (hrun hexact hcertain),
      hstep.changed (hrun hexact hcertain)⟩
  · rintro low high target moved page rfl hreply
    have hread := hstep.pages
    rw [hreply] at hread
    obtain ⟨-, id, held, hid, hheld, hsame⟩ := hread
    cases hsame
    refine ⟨id, hid, fun content hlast => ?_⟩
    have hcontent := hpages id content hlast
    rw [hheld, Option.some.injEq] at hcontent
    exact hcontent

end Runs

/-- A handle in memory, which moves at most `most` bytes at once. -/
def memoryHandle (most : Nat) : SyncPageAccessHandle (List UInt8) where
  close := pure ()
  flush := pure ()
  getSize := fun bytes => (.ok (.integer bytes.length), bytes)
  read := fun view position bytes =>
    let moved := min most (min view.length (bytes.length - position))
    (.ok (slice bytes position (position + moved), .integer moved), bytes)
  truncate := fun size bytes => (.ok (), bytes.take size)
  write := fun view position bytes =>
    let moved := min most view.length
    (.ok (.integer moved), put bytes position (view.take moved))

lemma memoryHandle_conforms (most : Nat) : (memoryHandle most).Conforms id where
  close := fun _ => rfl
  flush := fun _ => rfl
  getSize := fun bytes => ⟨rfl, fun _ => Int.toNat_natCast _⟩
  read := by
    intro bytes view position
    refine ⟨rfl, fun n hn hpos hle => ?_⟩
    have hmoved : min most (min view.length (bytes.length - position)) = n :=
      Int.ofNat.inj (JsNumber.integer.inj hn)
    have hlength : position + n ≤ bytes.length := by omega
    refine ⟨hlength, ?_⟩
    dsimp only [id]
    rw [hmoved, List.take_of_length_le (by rw [length_slice hlength]; omega)]
  truncate := fun _ _ _ => rfl
  write := by
    intro bytes view position hposition
    have hchanged := @ChangedIn.put _ _ bytes (view.take (min most view.length)) hposition
    refine ⟨hchanged.mono (Nat.le_refl _) (by rw [List.length_take]; omega), fun n hn hle => ?_⟩
    have hmoved : min most view.length = n := Int.ofNat.inj (JsNumber.integer.inj hn)
    exact congrArg (fun moved => put bytes position (view.take moved)) hmoved

theorem opfs_device_refines_pages_torn :
    ∃ count bytes, createOpfsPageDevice (memoryHandle 3000) [1, 2, 3] = (.ok count, bytes) ∧
      bytes = [] ∧ count = 0 ∧
      PagesStep ((⟨false, count, bytes⟩ : Device (List UInt8)).pages id) .pageCount
        (Call.pageCount.run (memoryHandle 3000) ⟨false, count, bytes⟩).1
        ((Call.pageCount.run (memoryHandle 3000) ⟨false, count, bytes⟩).2.pages id) := by
  refine ⟨0, [], rfl, ?_⟩
  obtain ⟨hfile, hcount, hcalls⟩ := opfs_device_refines_pages (memoryHandle 3000) id
    (memoryHandle_conforms 3000) [1, 2, 3] [] 0 rfl
  exact ⟨hfile, hcount, (hcalls [] .pageCount).1⟩

end Opfs
end TinyJoin
