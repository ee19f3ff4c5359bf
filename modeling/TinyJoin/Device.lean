import TinyJoin.Lib.Effect
import TinyJoin.Lib.Indexed
import TinyJoin.Page

/-! Page devices: a dense sequence of pages. A write replaces a page or appends exactly one past
the end, and a failed write may have left anything in its own target and nothing elsewhere. -/
namespace TinyJoin

/-- An operation of the engine on a state, which a failure leaves as it stood. -/
abbrev Op (σ α : Type) := Effect σ EngineError α

/-- Synchronous durable storage used by the copy-on-write pager. -/
class PageDevice (D : Type) where
  /-- The pages that reads observe. -/
  pages : D → List PageBytes
  readPage : Nat → Op D PageBytes
  writePage : Nat → PageBytes → Op D Unit
  /-- Writes consecutive pages from the first, as that many writes in order would. -/
  writePages : Nat → List PageBytes → Op D Unit
  flush : Op D Unit
  /-- No operation on the device fails from here on. -/
  Healthy : D → Prop
  readPage_ends : ∀ d id, (readPage id).Ends d
    (fun page d' => pages d' = pages d ∧ (pages d)[id]? = some page ∧ (Healthy d → Healthy d'))
    (fun _ d' => pages d' = pages d ∧ ¬(Healthy d ∧ id < (pages d).length))
  writePage_ends : ∀ d id page, (writePage id page).Ends d
    (fun _ d' => id ≤ (pages d).length ∧ pages d' = Bytes.put (pages d) id [page] ∧
      (Healthy d → Healthy d'))
    (fun _ d' => (pages d).length ≤ (pages d').length ∧
      (∀ k, k ≠ id → (pages d')[k]? = (pages d)[k]?) ∧
      ¬(Healthy d ∧ id ≤ (pages d).length ∧ id < maxPageCount))
  writePages_ends : ∀ d first run, (writePages first run).Ends d
    (fun _ d' => first ≤ (pages d).length ∧ pages d' = Bytes.put (pages d) first run ∧
      (Healthy d → Healthy d'))
    (fun _ d' => (pages d).length ≤ (pages d').length ∧
      (∀ k, (k < first ∨ first + run.length ≤ k) → (pages d')[k]? = (pages d)[k]?) ∧
      ¬(Healthy d ∧ run ≠ [] ∧ first ≤ (pages d).length ∧ first + run.length ≤ maxPageCount))
  flush_ends : ∀ d, flush.Ends d (fun _ d' => pages d' = pages d ∧ (Healthy d → Healthy d'))
    (fun _ d' => pages d' = pages d ∧ ¬Healthy d)

namespace PageDevice
variable {D : Type} [PageDevice D]

def pageCount (d : D) : Nat := (pages d).length

end PageDevice

open PageDevice

/-- A device held in memory, which fails only on pages out of its range. -/
structure MemoryPageDevice where
  pages : List PageBytes
  flushCount : Nat

namespace MemoryPageDevice

def deviceError (message : String) : EngineError := ⟨"PAGE_DEVICE_ERROR", message⟩

def outOfRange (id count : Nat) : EngineError :=
  deviceError s!"Page ID {id} is outside a device containing {count} pages"

def readPage (id : Nat) : Op MemoryPageDevice PageBytes := fun d =>
  match d.pages[id]? with
  | some page => (.ok page, d)
  | none => (.error (outOfRange id d.pages.length), d)

def writePage (id : Nat) (page : PageBytes) : Op MemoryPageDevice Unit := fun d =>
  if id < d.pages.length ∨ (id = d.pages.length ∧ id < maxPageCount) then
    (.ok (), { d with pages := Bytes.put d.pages id [page] })
  else (.error (outOfRange id d.pages.length), d)

/-- Consecutive pages, each written in turn. -/
def writeEach : Nat → List PageBytes → Op MemoryPageDevice Unit
  | _, [] => pure ()
  | id, page :: run => do
    writePage id page
    writeEach (id + 1) run

def writePages (first : Nat) (run : List PageBytes) : Op MemoryPageDevice Unit :=
  if run = [] then
    Effect.fail (deviceError
      s!"Page device buffers must hold whole {pageSize}-byte pages, not {run.length} bytes")
  else writeEach first run

def flush : Op MemoryPageDevice Unit :=
  Effect.modify (fun d => { d with flushCount := d.flushCount + 1 })

lemma ends_writePage (d : MemoryPageDevice) (id : Nat) (page : PageBytes) :
    (writePage id page).Ends d
      (fun _ d' => id ≤ d.pages.length ∧ d'.pages = Bytes.put d.pages id [page])
      (fun _ d' => d' = d ∧ ¬(id ≤ d.pages.length ∧ id < maxPageCount)) := by
  rw [Effect.Ends, writePage]
  split
  · next heq =>
    split at heq
    · next hin =>
      cases heq
      exact ⟨by omega, rfl⟩
    · cases heq
  · next heq =>
    split at heq
    · cases heq
    · next hout =>
      cases heq
      exact ⟨rfl, fun hin => hout (by omega)⟩

lemma ends_writeEach (run : List PageBytes) (d : MemoryPageDevice) (id : Nat) :
    (writeEach id run).Ends d
      (fun _ d' => (run ≠ [] → id ≤ d.pages.length) ∧
        (id ≤ d.pages.length → d'.pages = Bytes.put d.pages id run))
      (fun _ d' => d.pages.length ≤ d'.pages.length ∧
        (∀ k, (k < id ∨ id + run.length ≤ k) → d'.pages[k]? = d.pages[k]?) ∧
        ¬(id ≤ d.pages.length ∧ id + run.length ≤ maxPageCount)) := by
  induction run generalizing d id with
  | nil => exact ⟨fun hne => absurd rfl hne, fun _ => by simp [Bytes.put]⟩
  | cons page run ih =>
    rw [writeEach, Effect.ends_bind]
    refine (ends_writePage d id page).mono ?_ ?_
    · rintro _ d₁ ⟨hid, hpages⟩
      have hgrown : id + 1 ≤ d₁.pages.length := by
        rw [hpages, Bytes.put]
        simp only [List.length_append, List.length_take, List.length_drop, List.length_singleton]
        omega
      have hle : d.pages.length ≤ d₁.pages.length := by
        rw [hpages]
        exact Bytes.length_put_le hid
      refine (ih d₁ (id + 1)).mono ?_ ?_
      · rintro _ d₂ ⟨-, hput⟩
        refine ⟨fun _ => hid, fun _ => ?_⟩
        rw [hput hgrown, hpages, Bytes.put_cons hid]
      · rintro _ d₂ ⟨hle₂, hkept, hout⟩
        refine ⟨Nat.le_trans hle hle₂, ?_, ?_⟩
        · intro k hk
          rw [List.length_cons] at hk
          rw [hkept k (by omega), hpages]
          exact Bytes.getElem?_put hid (by simp only [List.length_singleton]; omega)
        · rintro ⟨-, hmax⟩
          rw [List.length_cons] at hmax
          exact hout ⟨hgrown, by omega⟩
    · rintro _ _ ⟨rfl, hout⟩
      refine ⟨Nat.le_refl _, fun _ _ => rfl, fun hin => hout ⟨hin.1, ?_⟩⟩
      have := hin.2
      rw [List.length_cons] at this
      omega

lemma ends_readPage (d : MemoryPageDevice) (id : Nat) :
    (readPage id).Ends d (fun page d' => d' = d ∧ d.pages[id]? = some page)
      (fun _ d' => d' = d ∧ d.pages.length ≤ id) := by
  rw [Effect.Ends, readPage]
  rcases hat : d.pages[id]? with _ | page
  · exact ⟨rfl, List.getElem?_eq_none_iff.mp hat⟩
  · exact ⟨rfl, rfl⟩

lemma ends_writePages (d : MemoryPageDevice) (first : Nat) (run : List PageBytes) :
    (writePages first run).Ends d
      (fun _ d' => first ≤ d.pages.length ∧ d'.pages = Bytes.put d.pages first run)
      (fun _ d' => d.pages.length ≤ d'.pages.length ∧
        (∀ k, (k < first ∨ first + run.length ≤ k) → d'.pages[k]? = d.pages[k]?) ∧
        ¬(run ≠ [] ∧ first ≤ d.pages.length ∧ first + run.length ≤ maxPageCount)) := by
  rw [writePages]
  split
  · next hnil => exact ⟨Nat.le_refl _, fun _ _ => rfl, fun hin => hin.1 hnil⟩
  · next hne =>
    refine (ends_writeEach run d first).mono ?_ ?_
    · exact fun _ _ h => ⟨h.1 hne, h.2 (h.1 hne)⟩
    · exact fun _ _ h => ⟨h.1, h.2.1, fun hin => h.2.2 hin.2⟩

instance : PageDevice MemoryPageDevice where
  pages := MemoryPageDevice.pages
  readPage := readPage
  writePage := writePage
  writePages := writePages
  flush := flush
  Healthy _ := True
  readPage_ends d id := (ends_readPage d id).mono
    (fun _ _ h => ⟨congrArg MemoryPageDevice.pages h.1, h.2, fun healthy => healthy⟩)
    (fun _ _ h => ⟨congrArg MemoryPageDevice.pages h.1, fun hin => Nat.not_lt.mpr h.2 hin.2⟩)
  writePage_ends d id page := (ends_writePage d id page).mono
    (fun _ _ h => ⟨h.1, h.2, fun healthy => healthy⟩)
    (fun _ _ h => ⟨Nat.le_of_eq (congrArg (List.length ∘ MemoryPageDevice.pages) h.1.symm),
      fun k _ => congrArg (fun d' : MemoryPageDevice => d'.pages[k]?) h.1,
      fun hin => h.2 hin.2⟩)
  writePages_ends d first run := (ends_writePages d first run).mono
    (fun _ _ h => ⟨h.1, h.2, fun healthy => healthy⟩)
    (fun _ _ h => ⟨h.1, h.2.1, fun hin => h.2.2 hin.2⟩)
  flush_ends _ := ⟨rfl, fun h => h⟩

end MemoryPageDevice

/-- A device together with where each write to it began and how many pages there were then. -/
structure Traced (D : Type) where
  inner : D
  writes : List (Nat × Nat)

namespace Traced
variable {D : Type} [PageDevice D]

def onInner {α : Type} (action : Op D α) : Op (Traced D) α :=
  Effect.focus Traced.inner (fun inner d => { d with inner := inner }) action

/-- Notes a write from page `first` on. -/
def note (first : Nat) (d : Traced D) : Traced D :=
  { d with writes := d.writes ++ [(first, pageCount d.inner)] }

instance : PageDevice (Traced D) where
  pages d := pages d.inner
  readPage id := onInner (readPage id)
  writePage id page := do
    Effect.modify (note id)
    onInner (writePage id page)
  writePages first run := do
    Effect.modify (note first)
    onInner (writePages first run)
  flush := onInner flush
  Healthy d := Healthy d.inner
  readPage_ends d id := by
    rw [onInner, Effect.ends_focus]
    exact readPage_ends d.inner id
  writePage_ends d id page := by
    rw [Effect.ends_bind, Effect.ends_modify, onInner, Effect.ends_focus]
    exact writePage_ends d.inner id page
  writePages_ends d first run := by
    rw [Effect.ends_bind, Effect.ends_modify, onInner, Effect.ends_focus]
    exact writePages_ends d.inner first run
  flush_ends d := by
    rw [onInner, Effect.ends_focus]
    exact flush_ends d.inner

/-- No write began past the end of the device. -/
def Dense (d : Traced D) : Prop :=
  ∀ write ∈ d.writes, write.1 ≤ write.2

end Traced

end TinyJoin
