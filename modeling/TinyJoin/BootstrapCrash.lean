import TinyJoin.Bootstrap

/-! Crashes while a new database is made: whatever is left of the writes that were not yet flushed, the
next opening comes to the empty database, and no opening overwrites anything else. -/
namespace TinyJoin
open Bytes PageDevice

/-! ## A device that crashes -/

/-- A device that crashes before one of its operations: what its reads observe, what it had at its last
flush, the writes since, and how many operations are left to it, if not any number. -/
structure CrashingDevice where
  pages : List PageBytes
  flushed : List PageBytes
  unflushed : List (Nat × PageBytes)
  left : Option Nat

namespace CrashingDevice

def crashed : EngineError := ⟨"PAGE_DEVICE_ERROR", "The page device has stopped"⟩
def outOfRange : EngineError := ⟨"PAGE_DEVICE_ERROR", "Page ID is outside the device"⟩

/-- The device with one operation fewer left. -/
def spend (d : CrashingDevice) : CrashingDevice := { d with left := d.left.map (· - 1) }

/-- An operation, unless the device crashes before it. -/
def step {α : Type} (action : CrashingDevice → Except EngineError α × CrashingDevice) :
    Op CrashingDevice α := fun d => if d.left = some 0 then (.error crashed, d) else action d.spend

def readPage (id : Nat) : Op CrashingDevice PageBytes := step fun d =>
  match d.pages[id]? with
  | some page => (.ok page, d)
  | none => (.error outOfRange, d)

/-- Writes pages of consecutive IDs, which replace pages or extend the device without a gap. -/
def writePages (first : Nat) (run : List PageBytes) : Op CrashingDevice Unit := step fun d =>
  if first ≤ d.pages.length ∧ first + run.length ≤ maxPageCount ∧ run ≠ [] then
    (.ok (), { d with
      pages := Bytes.put d.pages first run
      unflushed := d.unflushed ++ run.zipIdx.map (fun page => (first + page.2, page.1)) })
  else (.error outOfRange, d)

def flush : Op CrashingDevice Unit := step fun d =>
  (.ok (), { d with flushed := d.pages, unflushed := [] })

/-- How a step ends: as its action does, or in the crash. -/
lemma ends_step {α : Type} {action : Op CrashingDevice α} {d : CrashingDevice}
    {Q : α → CrashingDevice → Prop} {E : EngineError → CrashingDevice → Prop}
    (haction : action.Ends d.spend Q E) (hcrash : d.left ≠ none → E crashed d) :
    (step action).Ends d Q E := by
  by_cases hzero : d.left = some 0
  · have hcrashed : step action d = (.error crashed, d) := if_pos hzero
    rw [Effect.Ends, hcrashed]
    exact hcrash (by rw [hzero]; exact Option.some_ne_none 0)
  · have hruns : step action d = action d.spend := if_neg hzero
    rw [Effect.Ends, hruns]
    exact haction

lemma healthy_spend {d : CrashingDevice} (h : d.left = none) : d.spend.left = none := by
  rw [spend, h]
  rfl

/-- How a write ends: with its pages put and not yet flushed, or with nothing changed. -/
lemma ends_writePages (d : CrashingDevice) (first : Nat) (run : List PageBytes) :
    (writePages first run).Ends d
      (fun _ d' => first ≤ d.pages.length ∧ first + run.length ≤ maxPageCount ∧ d' =
        { d.spend with
          pages := Bytes.put d.pages first run
          unflushed := d.unflushed ++ run.zipIdx.map (fun page => (first + page.2, page.1)) })
      (fun _ d' => d'.pages = d.pages ∧ d'.flushed = d.flushed ∧ d'.unflushed = d.unflushed ∧
        ¬(d.left = none ∧ run ≠ [] ∧ first ≤ d.pages.length ∧
          first + run.length ≤ maxPageCount)) := by
  refine ends_step ?_ (fun hleft => ⟨rfl, rfl, rfl, fun h => hleft h.1⟩)
  refine Effect.ends_def.mpr ⟨?_, ?_⟩
  · intro _ d' heq
    split at heq
    · next hin =>
      cases heq
      exact ⟨hin.1, hin.2.1, rfl⟩
    · cases heq
  · intro _ d' heq
    split at heq
    · cases heq
    · next hout =>
      cases heq
      exact ⟨rfl, rfl, rfl, fun h => hout ⟨h.2.2.1, h.2.2.2, h.2.1⟩⟩

lemma ends_readPage (d : CrashingDevice) (id : Nat) : (readPage id).Ends d
    (fun page d' => d'.pages = d.pages ∧ d.pages[id]? = some page ∧ (d.left = none → d'.left = none))
    (fun _ d' => d'.pages = d.pages ∧ ¬(d.left = none ∧ id < d.pages.length)) := by
  refine ends_step ?_ (fun hleft => ⟨rfl, fun h => hleft h.1⟩)
  have hpages : d.spend.pages = d.pages := rfl
  simp only [Effect.Ends, hpages]
  rcases hat : d.pages[id]? with _ | page
  · refine ⟨rfl, fun hin => ?_⟩
    rw [List.getElem?_eq_none_iff] at hat
    omega
  · exact ⟨rfl, rfl, healthy_spend⟩

instance : PageDevice CrashingDevice where
  pages := CrashingDevice.pages
  readPage := readPage
  writePage id page := writePages id [page]
  writePages := writePages
  flush := flush
  Healthy d := d.left = none
  readPage_ends := ends_readPage
  writePage_ends d id page := by
    refine (ends_writePages d id [page]).mono ?_ ?_
    · rintro _ d' ⟨hid, -, rfl⟩
      exact ⟨hid, rfl, healthy_spend⟩
    · rintro _ d' ⟨hpages, -, -, hout⟩
      refine ⟨Nat.le_of_eq (congrArg List.length hpages.symm), fun k _ => by rw [hpages], ?_⟩
      exact fun h => hout ⟨h.1, List.cons_ne_nil _ _, h.2.1, h.2.2⟩
  writePages_ends d first run := by
    refine (ends_writePages d first run).mono ?_ ?_
    · rintro _ d' ⟨hfirst, -, rfl⟩
      exact ⟨hfirst, rfl, healthy_spend⟩
    · rintro _ d' ⟨hpages, -, -, hout⟩
      exact ⟨Nat.le_of_eq (congrArg List.length hpages.symm), fun k _ => by rw [hpages], hout⟩
  flush_ends d := ends_step ⟨rfl, healthy_spend⟩ (fun hleft => ⟨rfl, hleft⟩)

/-- What a crash leaves of a device: no page past those written, and in each page bytes of the flushed
page, or of one written since that may have been torn. -/
structure Leaves (d : CrashingDevice) (image : List PageBytes) : Prop where
  length_le : image.length ≤ d.pages.length
  byte : ∀ (id : Nat) (page : PageBytes), image[id]? = some page →
    ∀ (k : Nat) (byte : UInt8), page.bytes[k]? = some byte →
    (d.flushed.getD id .zero).bytes[k]? = some byte ∨
      ∃ write ∈ d.unflushed, write.1 = id ∧ (byte = 0 ∨ write.2.bytes[k]? = some byte)

/-- A device that starts on what is durable. -/
def boot (image : List PageBytes) (left : Option Nat) : CrashingDevice := ⟨image, image, [], left⟩

end CrashingDevice

open CrashingDevice

/-- The images that openings leave, each interrupted at any operation or none, of a device that was
new. -/
inductive Interrupted : List PageBytes → Prop where
  | new : Interrupted []
  | crash {image image' : List PageBytes} (left : Option Nat) (before : Interrupted image)
      (leaves : (openRoot (boot image left)).2.Leaves image') : Interrupted image'

/-- A device on which only the empty database was written. -/
structure Bootstrapping (d : CrashingDevice) : Prop where
  pages : Recoverable d.pages
  flushed : Recoverable d.flushed
  unflushed : ∀ write ∈ d.unflushed, Torn write.2.bytes (emptyPage write.1).bytes

lemma torn_of_getElem? {actual expected : List UInt8} (hlength : actual.length = expected.length)
    (h : ∀ (k : Nat) (byte : UInt8), actual[k]? = some byte → byte = 0 ∨ expected[k]? = some byte) :
    Torn actual expected := by
  refine List.forall₂_iff_get.mpr ⟨hlength, fun k hk hk' => ?_⟩
  refine (h k _ (List.getElem?_eq_getElem hk)).imp id (fun hbyte => ?_)
  rw [List.getElem?_eq_getElem hk'] at hbyte
  exact (Option.some.inj hbyte).symm

lemma Torn.getElem? {actual expected : List UInt8} (h : Torn actual expected) {k : Nat} {byte : UInt8}
    (hbyte : actual[k]? = some byte) : byte = 0 ∨ expected[k]? = some byte := by
  obtain ⟨hk, rfl⟩ := List.getElem?_eq_some_iff.mp hbyte
  obtain ⟨hlength, hall⟩ := List.forall₂_iff_get.mp h
  refine (hall k hk (hlength ▸ hk)).imp id (fun heq => ?_)
  rw [List.getElem?_eq_getElem (hlength ▸ hk)]
  exact congrArg some heq.symm

namespace Bootstrapping

lemma boot {image : List PageBytes} (h : Recoverable image) (left : Option Nat) :
    Bootstrapping (boot image left) := ⟨h, h, fun _ hmem => (nomatch hmem)⟩

/-- A crash leaves what is recoverable of a device on which only the empty database was written. -/
lemma recoverable {d : CrashingDevice} (h : Bootstrapping d) {image : List PageBytes}
    (hleaves : d.Leaves image) : Recoverable image := by
  refine ⟨Nat.le_trans hleaves.length_le h.pages.length_le, fun id page hpage => ?_⟩
  refine torn_of_getElem? (by rw [page.length_eq, (emptyPage id).length_eq]) (fun k byte hbyte => ?_)
  rcases hleaves.byte id page hpage k byte hbyte with hflushed | ⟨write, hmem, rfl, hzero | hwritten⟩
  · refine Torn.getElem? ?_ hflushed
    rw [List.getD_eq_getElem?_getD]
    cases hat : d.flushed[id]? with
    | none => exact torn_zero id
    | some flushed => exact h.flushed.torn id flushed hat
  · exact .inl hzero
  · exact (h.unflushed write hmem).getElem? hwritten

lemma spend {d : CrashingDevice} (h : Bootstrapping d) : Bootstrapping d.spend :=
  ⟨h.pages, h.flushed, h.unflushed⟩

lemma keeps_readPage (id : Nat) :
    Effect.Keeps Bootstrapping (PageDevice.readPage (D := CrashingDevice) id) := by
  intro d h
  change (CrashingDevice.readPage id).Ends d _ _
  rw [CrashingDevice.readPage]
  refine ends_step (Effect.ends_of_final ?_) (fun _ => h)
  cases d.spend.pages[id]? with
  | none => exact h.spend
  | some page => exact h.spend

lemma keeps_writePage (id : Nat) (page : PageBytes) (hid : id < firstDataPageId)
    (hpage : Torn page.bytes (emptyPage id).bytes) :
    Effect.Keeps Bootstrapping (PageDevice.writePage (D := CrashingDevice) id page) := by
  intro d h
  refine (ends_writePages d id [page]).mono ?_ ?_
  · rintro _ d' ⟨hle, -, rfl⟩
    refine ⟨h.pages.put hle hid hpage, h.flushed, ?_⟩
    intro write hmem
    rcases List.mem_append.mp hmem with hmem | hmem
    · exact h.unflushed write hmem
    · rw [List.mem_singleton.mp hmem]
      exact hpage
  · rintro _ d' ⟨hpages, hflushed, hunflushed, -⟩
    exact ⟨hpages ▸ h.pages, hflushed ▸ h.flushed, hunflushed ▸ h.unflushed⟩

lemma keeps_flush : Effect.Keeps Bootstrapping (PageDevice.flush (D := CrashingDevice)) := by
  intro d h
  change CrashingDevice.flush.Ends d _ _
  rw [CrashingDevice.flush]
  exact ends_step ⟨h.pages, h.pages, fun _ hmem => (nomatch hmem)⟩ (fun _ => h)

lemma keeps_openRoot : Effect.Keeps Bootstrapping (openRoot (D := CrashingDevice)) :=
  TinyJoin.keeps_openRoot keeps_readPage (fun d h _ =>
    keeps_initializeEmptyDevice keeps_writePage keeps_flush d h)

end Bootstrapping

/-- Whatever crashes interrupt it, a bootstrap leaves a recoverable image. -/
lemma Interrupted.recoverable {image : List PageBytes} (h : Interrupted image) :
    Recoverable image := by
  induction h with
  | new => exact recoverable_nil
  | crash left _ hleaves ih =>
    exact Bootstrapping.recoverable (Effect.final_of_ends
      (Bootstrapping.keeps_openRoot _ (Bootstrapping.boot ih left))) hleaves

/-! ## Devices that hold something else -/

/-- A root of a generation after an empty database's first. -/
def HoldsRoot (image : List PageBytes) : Prop :=
  ∃ slot root, decodeMetadataCandidate slot (fun id => image.getD id .zero) = .ok root ∧
    2 ≤ root.superblock.generation

/-- A byte that is neither zero nor the one an empty database has there. -/
def HoldsForeignByte (image : List PageBytes) : Prop :=
  ∃ (id : Nat) (page : PageBytes) (k : Nat) (byte : UInt8), image[id]? = some page ∧ page.bytes[k]? = some byte ∧ byte ≠ 0 ∧
    (emptyPage id).bytes[k]? ≠ some byte

lemma HoldsRoot.not_recoverable {image : List PageBytes} (h : HoldsRoot image) :
    ¬Recoverable image := by
  obtain ⟨slot, root, hroot, hgeneration⟩ := h
  intro hrecoverable
  have hone := (isEmptyRoot_iff.mp (isEmptyRoot_of_decode hrecoverable.tornPages hroot)).1
  omega

lemma HoldsForeignByte.not_recoverable {image : List PageBytes} (h : HoldsForeignByte image) :
    ¬Recoverable image := by
  obtain ⟨id, page, k, byte, hpage, hbyte, hzero, hforeign⟩ := h
  intro hrecoverable
  exact ((hrecoverable.torn id page hpage).getElem? hbyte).elim hzero hforeign

/-- Opening what is not recoverable writes nothing. -/
lemma openRoot_writes_nothing {D : Type} [PageDevice D] (d : D) (h : ¬Recoverable (pages d)) :
    (openRoot (⟨d, []⟩ : Traced D)).2.writes = [] := by
  have hkeeps : Effect.Keeps (fun d' : Traced D => pages d' = pages d ∧ d'.writes = [])
      (openRoot (D := Traced D)) := by
    refine TinyJoin.keeps_openRoot ?_ ?_
    · rintro id d' ⟨hpages, hwrites⟩
      change (Traced.onInner (PageDevice.readPage id)).Ends d' _ _
      rw [Traced.onInner, Effect.ends_focus]
      exact (readPage_ends d'.inner id).mono (fun _ _ h => ⟨h.1.trans hpages, hwrites⟩)
        (fun _ _ h => ⟨h.1.trans hpages, hwrites⟩)
    · intro d' hsame hrecoverable
      rw [hsame.1] at hrecoverable
      exact absurd hrecoverable h
  exact (Effect.final_of_ends (hkeeps ⟨d, []⟩ ⟨rfl, rfl⟩)).2

lemma openOrCreate_of_openRoot {D : Type} [PageDevice D] {d d' : D} {root : RecoveredMetadata}
    (h : openRoot d = (.ok root, d')) :
    ∃ pager, Pager.openOrCreate d = .ok pager ∧ pager.active = root := by
  refine ⟨⟨PageCache.empty d' (defaultPageCacheBytes / pageSize), root, 1, false⟩, ?_, rfl⟩
  have hcache : PageCache.withCapacity d defaultPageCacheBytes =
      .ok (PageCache.empty d (defaultPageCacheBytes / pageSize)) := if_neg (by decide)
  rw [Pager.openOrCreate, Pager.withCacheCapacity, hcache]
  simp only [bind, Except.bind, h]
  rfl

/-- A bootstrap that crashes interrupted, however often and wherever, is completed by the next opening
that does not crash; and opening a device that holds anything else writes nothing to it. -/
theorem bootstrap_recovers_and_never_overwrites {D : Type} [PageDevice D] (d : D) :
    (Healthy d → Interrupted (pages d) →
      ∃ pager, Pager.openOrCreate d = .ok pager ∧ IsEmptyRoot pager.active) ∧
    (HoldsRoot (pages d) ∨ HoldsForeignByte (pages d) →
      (openRoot (⟨d, []⟩ : Traced D)).2.writes = []) := by
  constructor
  · intro hhealthy hinterrupted
    have hends := ends_openRoot_recoverable d hhealthy hinterrupted.recoverable
    rcases hopened : openRoot d with ⟨e | root, d'⟩
    · exact (hends.error hopened).elim
    · obtain ⟨pager, hpager, rfl⟩ := openOrCreate_of_openRoot hopened
      exact ⟨pager, hpager, hends.ok hopened⟩
  · rintro (hroot | hbyte)
    · exact openRoot_writes_nothing d hroot.not_recoverable
    · exact openRoot_writes_nothing d hbyte.not_recoverable

/-- A device that crashes on its second write. -/
lemma initializeEmptyDevice_first : initializeEmptyDevice (boot [] (some 1)) =
    (.error crashed, ⟨[.zero], [], [(0, .zero)], some 0⟩) := by
  rw [initializeEmptyDevice, emptyMetadataLayout_eq, Effect.ofExcept_ok_bind]
  generalize PageBytes.zero = blank
  rfl

lemma interrupted_first : Interrupted [.zero] := by
  have hfirst : openRoot (boot [] (some 1)) =
      (.error crashed, ⟨[.zero], [], [(0, .zero)], some 0⟩) := by
    have hnone : openMetadata (boot [] (some 1)) = initializeEmptyDevice (boot [] (some 1)) := rfl
    simp only [openRoot, bind, hnone, initializeEmptyDevice_first]
  refine .crash (some 1) .new ?_
  rw [hfirst]
  refine ⟨Nat.le_refl _, fun id page hpage k byte hbyte => ?_⟩
  cases id with
  | zero => exact .inr ⟨(0, .zero), List.mem_cons_self, rfl, .inr (Option.some.inj hpage ▸ hbyte)⟩
  | succ id => cases hpage

/-- A page of ones, one past those an empty database has. -/
def foreignImage : List PageBytes :=
  List.replicate firstDataPageId .zero ++ [⟨List.replicate pageSize 1, List.length_replicate⟩]

theorem bootstrap_recovers_and_never_overwrites_memory :
    (∃ pager, Pager.openOrCreate (⟨[.zero], 0⟩ : MemoryPageDevice) = .ok pager ∧
      IsEmptyRoot pager.active) ∧
    (openRoot (⟨⟨foreignImage, 0⟩, []⟩ : Traced MemoryPageDevice)).2.writes = [] := by
  constructor
  · have hpages : pages (⟨[.zero], 0⟩ : MemoryPageDevice) = [.zero] := by
      generalize PageBytes.zero = blank
      rfl
    exact (bootstrap_recovers_and_never_overwrites _).1 trivial (hpages ▸ interrupted_first)
  · refine (bootstrap_recovers_and_never_overwrites _).2 (.inr ?_)
    have hone : (List.replicate pageSize (1 : UInt8))[0]? = some 1 :=
      List.getElem?_replicate_of_lt (by decide)
    have hzero : (emptyPage firstDataPageId).bytes[0]? = some 0 :=
      List.getElem?_replicate_of_lt (by decide)
    refine ⟨firstDataPageId, _, 0, 1, List.getElem?_concat_length, hone, by decide, fun h => ?_⟩
    rw [hzero] at h
    exact absurd (Option.some.inj h) (by decide)

end TinyJoin
