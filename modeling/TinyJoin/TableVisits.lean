import Mathlib.Data.List.TakeWhile
import TinyJoin.KeyRanges
import TinyJoin.Lib.Sorting

/-! Visits of a table's rows: those of a range, in its order, that a filter accepts, each presented once. -/
namespace TinyJoin
open Sorting

/-! ### Presentations -/

section Presentations
variable {σ ι ρ : Type} {charges : σ → Result σ → Prop} {shows : ι → ρ → Prop}
  {verdict : ρ → Result Bool} {visitor : ρ → σ → Result (VisitControl × σ)}

/-- A visit presents exactly those of some items that a verdict accepts, in order and each once, until the
visitor stops it or a callback or a verdict fails, with charges anywhere between. An item whose verdict
would fail may be passed over. -/
inductive Presents (charges : σ → Result σ → Prop) (shows : ι → ρ → Prop) (verdict : ρ → Result Bool)
    (visitor : ρ → σ → Result (VisitControl × σ)) :
    List ι → σ → Result (VisitOutcome × σ) → Prop where
  | done (s : σ) : Presents charges shows verdict visitor [] s (.ok (.complete, s))
  | charged {items : List ι} {s s' : σ} {result : Result (VisitOutcome × σ)} : charges s (.ok s') →
      Presents charges shows verdict visitor items s' result →
      Presents charges shows verdict visitor items s result
  | refused {items : List ι} {s : σ} {error : EngineError} : charges s (.error error) →
      Presents charges shows verdict visitor items s (.error error)
  | passed {item : ι} {items : List ι} {row : ρ} {s : σ} {result : Result (VisitOutcome × σ)} :
      shows item row → verdict row ≠ .ok true →
      Presents charges shows verdict visitor items s result →
      Presents charges shows verdict visitor (item :: items) s result
  | undecided {item : ι} {items : List ι} {row : ρ} {s : σ} {error : EngineError} :
      shows item row → verdict row = .error error →
      Presents charges shows verdict visitor (item :: items) s (.error error)
  | shown {item : ι} {items : List ι} {row : ρ} {s s' : σ} {result : Result (VisitOutcome × σ)} :
      shows item row → verdict row = .ok true → visitor row s = .ok (.continued, s') →
      Presents charges shows verdict visitor items s' result →
      Presents charges shows verdict visitor (item :: items) s result
  | stopped {item : ι} {items : List ι} {row : ρ} {s s' : σ} :
      shows item row → verdict row = .ok true → visitor row s = .ok (.stop, s') →
      Presents charges shows verdict visitor (item :: items) s (.ok (.stopped, s'))
  | failed {item : ι} {items : List ι} {row : ρ} {s : σ} {error : EngineError} :
      shows item row → verdict row = .ok true → visitor row s = .error error →
      Presents charges shows verdict visitor (item :: items) s (.error error)

namespace Presents
variable {items : List ι} {s : σ} {result : Result (VisitOutcome × σ)}

/-- Items that are named otherwise, and a verdict that says the same of their rows. -/
lemma imp {κ : Type} {shows' : κ → ρ → Prop} {verdict' : ρ → Result Bool} (f : ι → κ)
    (h : Presents charges shows verdict visitor items s result)
    (hsame : ∀ item ∈ items, ∀ row, shows item row → shows' (f item) row ∧ verdict row = verdict' row) :
    Presents charges shows' verdict' visitor (items.map f) s result := by
  induction h with
  | done s => exact .done s
  | charged hcharge _ ih => exact .charged hcharge (ih hsame)
  | refused hcharge => exact .refused hcharge
  | passed hshows hverdict _ ih =>
    obtain ⟨hitem, hsame⟩ := List.forall_mem_cons.mp hsame
    obtain ⟨hshown, heq⟩ := hitem _ hshows
    exact .passed hshown (heq ▸ hverdict) (ih hsame)
  | undecided hshows hverdict =>
    obtain ⟨hshown, heq⟩ := hsame _ List.mem_cons_self _ hshows
    exact .undecided hshown (heq ▸ hverdict)
  | shown hshows hverdict hvisited _ ih =>
    obtain ⟨hitem, hsame⟩ := List.forall_mem_cons.mp hsame
    obtain ⟨hshown, heq⟩ := hitem _ hshows
    exact .shown hshown (heq ▸ hverdict) hvisited (ih hsame)
  | stopped hshows hverdict hvisited =>
    obtain ⟨hshown, heq⟩ := hsame _ List.mem_cons_self _ hshows
    exact .stopped hshown (heq ▸ hverdict) hvisited
  | failed hshows hverdict hvisited =>
    obtain ⟨hshown, heq⟩ := hsame _ List.mem_cons_self _ hshows
    exact .failed hshown (heq ▸ hverdict) hvisited

/-- A visit that a further one follows, unless its visitor stops it. -/
lemma append {items' : List ι} {next : σ → Result (VisitOutcome × σ)}
    (h : Presents charges shows verdict visitor items s result)
    (hnext : ∀ s, Presents charges shows verdict visitor items' s (next s)) :
    Presents charges shows verdict visitor (items ++ items') s
      (result >>= fun visited =>
        if visited.1 = .stopped then .ok (.stopped, visited.2) else next visited.2) := by
  induction h with
  | done s => exact hnext s
  | charged hcharge _ ih => exact .charged hcharge ih
  | refused hcharge => exact .refused hcharge
  | passed hshows hverdict _ ih => exact .passed hshows hverdict ih
  | undecided hshows hverdict => exact .undecided hshows hverdict
  | shown hshows hverdict hvisited _ ih => exact .shown hshows hverdict hvisited ih
  | stopped hshows hverdict hvisited => exact .stopped hshows hverdict hvisited
  | failed hshows hverdict hvisited => exact .failed hshows hverdict hvisited

end Presents

end Presentations

/-! ### One leaf -/

/-- Whether a key lies within a range, if there is one. -/
def liesWithin (keyType : ColumnType) (range : Option KeyRange) (key : List UInt8) : Bool :=
  match withinRange keyType range key with
  | .ok within => within
  | .error _ => false

/-- What the pass makes of an entry: nothing if its record is rejected, or else itself, with whether the
filter must judge it. -/
def flagged (passes : List UInt8 → Option Bool) (entry : TreeEntry) : List (TreeEntry × Bool) :=
  if entry.inlined then
    match passes entry.value with
    | some false => []
    | some true => [(entry, false)]
    | none => [(entry, true)]
  else [(entry, true)]

/-- Whether the pass finds an entry past the range, which it does not look for where its value overflows. -/
def passesRange (keyType : ColumnType) (range : Option KeyRange) (entry : TreeEntry) : Bool :=
  entry.inlined && !liesWithin keyType range entry.key

/-- The entries of a leaf that the pass accepts, up to the first it finds past the range. -/
def admitted (keyType : ColumnType) (range : Option KeyRange) (passes : List UInt8 → Option Bool) :
    List TreeEntry → List (TreeEntry × Bool)
  | [] => []
  | entry :: entries =>
    if passesRange keyType range entry then []
    else flagged passes entry ++ admitted keyType range passes entries

/-- The entries a pass comes to, but for those it skips. -/
def keptCells (cells : List (TreeEntry × Nat)) (skips : List Nat) : List TreeEntry :=
  (cells.filter (fun cell => cell.2 ∉ skips)).map Prod.fst

section Leaf
variable {keyType : ColumnType} {range : Option KeyRange} {passes : List UInt8 → Option Bool}

/-- Each key's place in a range can be told. -/
def RangeTells (keyType : ColumnType) (range : Option KeyRange) (entry : TreeEntry) : Prop :=
  withinRange keyType range entry.key = .ok (liesWithin keyType range entry.key)

lemma keptCells_skip {cell : TreeEntry × Nat} {cells : List (TreeEntry × Nat)} {skips : List Nat}
    (hfresh : cell.2 ∉ cells.map Prod.snd) :
    keptCells (cell :: cells) (cell.2 :: skips) = keptCells cells skips := by
  rw [keptCells, keptCells, List.filter_cons_of_neg (by simp)]
  congr 1
  apply List.filter_congr
  intro other hother
  have hne : other.2 ≠ cell.2 := by
    intro heq
    exact hfresh (heq ▸ List.mem_map_of_mem hother)
  simp [hne]

lemma keptCells_keep {cell : TreeEntry × Nat} {cells : List (TreeEntry × Nat)} {skips : List Nat}
    (hfresh : cell.2 ∉ skips) : keptCells (cell :: cells) skips = cell.1 :: keptCells cells skips := by
  rw [keptCells, List.filter_cons_of_pos (by simpa using hfresh)]
  rfl

lemma passLeaf_kept {entry : TreeEntry} {position : Nat} {cells : List (TreeEntry × Nat)}
    {skips : List Nat} {pass : LeafPass} (hplaced : RangeTells keyType range entry)
    (hhead : skips.head? ≠ some position) :
    passLeaf keyType range passes ((entry, position) :: cells) skips pass =
      if passesRange keyType range entry then .ok { pass with ended := true }
      else passLeaf keyType range passes cells skips
        ⟨pass.accepted ++ flagged passes entry, pass.skipped, pass.examined + 1, pass.ended⟩ := by
  rw [passLeaf, if_neg hhead, passesRange, flagged, show withinRange keyType range entry.key = _ from hplaced]
  cases entry.inlined with
  | false => rfl
  | true =>
    cases liesWithin keyType range entry.key with
    | false => rfl
    | true =>
      cases passes entry.value with
      | none => rfl
      | some passed =>
        cases passed with
        | false =>
          simp only [bind, Except.bind, if_true, List.append_nil]
          rfl
        | true => rfl

/-- What the pass leaves of a leaf. -/
lemma passLeaf_eq {cells : List (TreeEntry × Nat)} {skips : List Nat} {pass : LeafPass}
    (hplaced : ∀ cell ∈ cells, RangeTells keyType range cell.1) (hskips : skips.Sublist (cells.map Prod.snd))
    (hnodup : (cells.map Prod.snd).Nodup) :
    ∃ pass', passLeaf keyType range passes cells skips pass = .ok pass' ∧
      pass'.accepted = pass.accepted ++ admitted keyType range passes (keptCells cells skips) ∧
      (pass'.ended = true → pass.ended = true ∨
        ∃ entry ∈ keptCells cells skips, liesWithin keyType range entry.key = false) := by
  induction cells generalizing skips pass with
  | nil => exact ⟨pass, rfl, (List.append_nil _).symm, .inl⟩
  | cons cell cells ih =>
    obtain ⟨entry, position⟩ := cell
    obtain ⟨hplace, hplaced⟩ := List.forall_mem_cons.mp hplaced
    obtain ⟨hfresh, hnodup⟩ := List.nodup_cons.mp hnodup
    rcases List.sublist_cons_iff.mp hskips with hskips | ⟨rest, rfl, hrest⟩
    · have hkept : position ∉ skips := fun hmem => hfresh (hskips.subset hmem)
      have hhead : skips.head? ≠ some position := fun hhead => hkept (List.mem_of_mem_head? hhead)
      rw [passLeaf_kept hplace hhead, @keptCells_keep (entry, position) cells skips hkept, admitted]
      split
      · next hpast =>
        refine ⟨_, rfl, (List.append_nil _).symm, fun _ => .inr ⟨entry, List.mem_cons_self, ?_⟩⟩
        exact Bool.not_eq_true' _ ▸ (Bool.and_eq_true_iff.mp hpast).2
      · obtain ⟨pass', hpass, haccepted, hended⟩ := @ih skips
          ⟨pass.accepted ++ flagged passes entry, pass.skipped, pass.examined + 1, pass.ended⟩
          hplaced hskips hnodup
        refine ⟨pass', hpass, by rw [haccepted, List.append_assoc], fun h => (hended h).imp_right ?_⟩
        rintro ⟨other, hmem, hout⟩
        exact ⟨other, List.mem_cons_of_mem _ hmem, hout⟩
    · rw [passLeaf, List.head?_cons, if_pos rfl, List.tail_cons,
        @keptCells_skip (entry, position) cells _ hfresh]
      exact ih hplaced hrest hnodup

end Leaf

section Presenting
variable {σ : Type} {table : PagedTable} {range : Option KeyRange} {filter : Option Filter}
  {calls : Callbacks σ}

/-- What the pass over a leaf asks of each record's bytes. -/
def recordPasses (table : PagedTable) (filter : Option Filter) (value : List UInt8) : Option Bool :=
  match filter with
  | some filter => filter.storedTests table.schema table.layout value
  | none => some true

/-- Whether the filter must judge the rows that the pass accepts. -/
def mustJudge (table : PagedTable) (filter : Option Filter) : Bool :=
  (filter.map (fun filter => filter.judges table.schema table.layout)).getD false

/-- An entry can be read, and what the pass says of it, the filter does. -/
structure Visitable (table : PagedTable) (range : Option KeyRange) (filter : Option Filter)
    (entry : TreeEntry) : Prop where
  placed : RangeTells table.leadingKeyType range entry
  opens : ∃ record, table.record entry.key entry.value = .ok record
  rejected : recordPasses table filter entry.value = some false →
    ∀ record, table.record entry.key entry.value = .ok record → acceptsRow filter true record ≠ .ok true
  accepted : recordPasses table filter entry.value = some true → mustJudge table filter = false →
    ∀ record, table.record entry.key entry.value = .ok record → acceptsRow filter true record = .ok true

/-- The entries that a visit presents, as the records they open as, of those its filter accepts. -/
abbrev PresentsEntries (table : PagedTable) (filter : Option Filter) (calls : Callbacks σ) :
    List TreeEntry → σ → Result (VisitOutcome × σ) → Prop :=
  Presents (fun s result => ∃ n, calls.charge n s = result ∨ calls.scanned n s = result)
    (fun entry record => table.record entry.key entry.value = .ok record) (acceptsRow filter true)
    calls.visitor

/-- A visit goes on behind a leaf, unless that ended it. -/
def goOn (next : σ → Result (VisitOutcome × σ)) (ended : Option VisitOutcome × σ) :
    Result (VisitOutcome × σ) :=
  match ended.1 with
  | some outcome => .ok (outcome, ended.2)
  | none => next ended.2

/-- An entry that is presented, or passed over, before the others. -/
lemma presentLeaf_cons {judged flag : Bool} {entry : TreeEntry} {entries : List (TreeEntry × Bool)}
    {items : List TreeEntry} {record : StoredRecord} {next : σ → Result (VisitOutcome × σ)}
    (hends : endsVisit table range entry = .ok false)
    (hopens : table.record entry.key entry.value = .ok record)
    (hverdict : acceptsRow filter (judged || flag) record = acceptsRow filter true record)
    (hrest : ∀ s, PresentsEntries table filter calls items s
      (presentLeaf table range filter judged calls entries s >>= goOn next)) (s : σ) :
    PresentsEntries table filter calls (entry :: items) s
      (presentLeaf table range filter judged calls ((entry, flag) :: entries) s >>= goOn next) := by
  rw [presentLeaf, hends]
  simp only [bind, Except.bind, Bool.false_eq_true, if_false]
  rw [hopens]
  dsimp only
  rw [hverdict]
  cases haccepts : acceptsRow filter true record with
  | error error => exact .undecided hopens haccepts
  | ok accepted =>
    cases accepted with
    | false =>
      refine .passed hopens ?_ (hrest s)
      rw [haccepts]
      simp
    | true =>
      simp only [Bool.not_true, Bool.false_eq_true, if_false]
      cases hvisited : calls.visitor record s with
      | error error => exact .failed hopens haccepts hvisited
      | ok visited =>
        obtain ⟨control, s'⟩ := visited
        cases control with
        | continued => exact .shown hopens haccepts hvisited (hrest s')
        | stop => exact .stopped hopens haccepts hvisited

/-- The entries of a leaf that lie within the range. -/
def within (table : PagedTable) (range : Option KeyRange) (entries : List TreeEntry) : List TreeEntry :=
  entries.filter (fun entry => liesWithin table.leadingKeyType range entry.key)

/-- Once past the range, a visit does not come back to it. -/
abbrev Leaves (table : PagedTable) (range : Option KeyRange) (entries : List TreeEntry) : Prop :=
  FallsAway (fun entry => liesWithin table.leadingKeyType range entry.key) entries

lemma within_cons_of_past {entry : TreeEntry} {entries : List TreeEntry}
    (hleaves : Leaves table range (entry :: entries))
    (hpast : liesWithin table.leadingKeyType range entry.key = false) :
    within table range (entry :: entries) = [] := by
  rw [within, List.filter_eq_nil_iff]
  intro other hother
  rw [hleaves.none_of_head hpast other hother]
  exact Bool.false_ne_true

lemma within_cons_of_lies {entry : TreeEntry} (entries : List TreeEntry)
    (hlies : liesWithin table.leadingKeyType range entry.key = true) :
    within table range (entry :: entries) = entry :: within table range entries :=
  List.filter_cons_of_pos hlies

lemma endsVisit_eq {entry : TreeEntry} (hvisitable : Visitable table range filter entry) :
    endsVisit table range entry =
      .ok (!entry.inlined && !liesWithin table.leadingKeyType range entry.key) := by
  rw [endsVisit]
  cases entry.inlined with
  | true => rfl
  | false =>
    rw [if_neg Bool.false_ne_true, show withinRange _ _ _ = _ from hvisitable.placed]
    rfl

/-- A leaf's entries are presented up to the range's end, and the rest of the visit after them. -/
lemma presentLeaf_presents {kept items : List TreeEntry} {next : σ → Result (VisitOutcome × σ)}
    (hvisitable : ∀ entry ∈ kept, Visitable table range filter entry) (hleaves : Leaves table range kept)
    (hnext : ∀ s, PresentsEntries table filter calls items s (next s))
    (hend : (∃ entry ∈ kept, liesWithin table.leadingKeyType range entry.key = false) → items = [])
    (s : σ) :
    PresentsEntries table filter calls (within table range kept ++ items) s
      (presentLeaf table range filter (mustJudge table filter) calls
        (admitted table.leadingKeyType range (recordPasses table filter) kept) s >>= goOn next) := by
  induction kept generalizing s with
  | nil => exact hnext s
  | cons entry kept ih =>
    obtain ⟨hentry, hvisitable⟩ := List.forall_mem_cons.mp hvisitable
    have hrest := ih hvisitable (List.pairwise_cons.mp hleaves).2
      (fun ⟨other, hmem, hpast⟩ => hend ⟨other, List.mem_cons_of_mem _ hmem, hpast⟩)
    obtain ⟨record, hopens⟩ := hentry.opens
    have hends := endsVisit_eq hentry
    rw [admitted, passesRange]
    cases hlies : liesWithin table.leadingKeyType range entry.key with
    | false =>
      rw [within_cons_of_past hleaves hlies, hend ⟨entry, List.mem_cons_self, hlies⟩]
      rw [hend ⟨entry, List.mem_cons_self, hlies⟩] at hnext
      cases hinlined : entry.inlined with
      | true => exact hnext s
      | false =>
        rw [hinlined, hlies] at hends
        rw [flagged, hinlined]
        simp only [Bool.false_and, Bool.false_eq_true, if_false, List.singleton_append]
        rw [presentLeaf, hends]
        exact .done s
    | true =>
      rw [hlies, Bool.not_true, Bool.and_false] at hends
      rw [Bool.not_true, Bool.and_false, if_neg Bool.false_ne_true, within_cons_of_lies kept hlies,
        List.cons_append]
      have hjudged : ∀ s, PresentsEntries table filter calls (entry :: (within table range kept ++ items)) s
          (presentLeaf table range filter (mustJudge table filter) calls ((entry, true) ::
            admitted table.leadingKeyType range (recordPasses table filter) kept) s >>= goOn next) :=
        presentLeaf_cons hends hopens (by rw [Bool.or_true]) hrest
      rw [flagged]
      split
      · split
        · next hpasses => exact .passed hopens (hentry.rejected hpasses record hopens) (hrest s)
        · next hpasses =>
          refine presentLeaf_cons hends hopens ?_ hrest s
          cases hmust : mustJudge table filter with
          | true => rfl
          | false =>
            rw [hentry.accepted hpasses hmust record hopens]
            cases filter <;> rfl
        · exact hjudged s
      · exact hjudged s

end Presenting

/-! ### Keys passed over -/

/-- A leaf's entries, or a tree's, by ascending keys. -/
def KeysAscend (entries : List TreeEntry) : Prop :=
  entries.Pairwise (fun entry later => entry.key < later.key)

lemma KeysAscend.fallsAway {entries : List TreeEntry} (h : KeysAscend entries) (bound : List UInt8) :
    FallsAway (fun entry => decide (entry.key < bound)) entries := by
  refine List.Pairwise.imp ?_ h
  intro entry later hlt hlater
  exact decide_eq_true (hlt.trans (of_decide_eq_true hlater))

/-- A search of a leaf from a place on finds where its keys are no longer below another. -/
lemma KeysAscend.lt_lowerBound_iff {leaf : Leaf} (h : KeysAscend leaf) {low position : Nat}
    {entry : TreeEntry} (key : List UInt8) (hlow : low ≤ position) (hat : leaf[position]? = some entry) :
    position < low + Tree.lowerBound (leaf.drop low) key ↔ entry.key < key := by
  have hat' : (leaf.drop low)[position - low]? = some entry := by
    rw [List.getElem?_drop, Nat.add_sub_cancel' hlow, hat]
  have hfalls := (show KeysAscend (leaf.drop low) from List.Pairwise.drop h).fallsAway key
  have hiff := hfalls.lt_length_takeWhile_iff hat'
  rw [decide_eq_true_iff] at hiff
  rw [← hiff, Tree.lowerBound]
  omega

lemma range'_sublist {low place stop : Nat} (hle : low ≤ place) (hstop : place ≤ stop) :
    (List.range' place (stop - place)).Sublist (List.range' low (stop - low)) := by
  have hsplit : List.range' low (stop - low) =
      List.range' low (place - low) ++ List.range' place (stop - place) := by
    have happend := @List.range'_append low (place - low) (stop - place) 1
    rw [Nat.one_mul, Nat.add_sub_cancel' hle] at happend
    rw [happend]
    congr 1
    omega
  rw [hsplit]
  exact List.sublist_append_right _ _

/-- What a leaf's search for keys to pass over finds: the places of those it holds, and the keys that a
later leaf may hold. -/
lemma positionsFrom_spec {leaf : Leaf} {last : List UInt8} {low : Nat} {keys : List (List UInt8)}
    (hleaf : KeysAscend leaf) (hlast : ∀ entry ∈ leaf, entry.key ≤ last)
    (hkeys : keys.Pairwise (fun key later => key < later)) (hlow : low ≤ leaf.length) :
    (Tree.positionsFrom leaf last low keys).1.Sublist (List.range' low (leaf.length - low)) ∧
      (∀ position entry, low ≤ position → leaf[position]? = some entry →
        (position ∈ (Tree.positionsFrom leaf last low keys).1 ↔ entry.key ∈ keys)) ∧
      (∀ key, last < key → (key ∈ (Tree.positionsFrom leaf last low keys).2 ↔ key ∈ keys)) ∧
      (Tree.positionsFrom leaf last low keys).2.Sublist keys := by
  induction keys generalizing low with
  | nil =>
    refine ⟨List.nil_sublist _, ?_, fun key _ => Iff.rfl, List.nil_sublist _⟩
    intro position entry _ _
    exact iff_of_false List.not_mem_nil List.not_mem_nil
  | cons key keys ih =>
    obtain ⟨hfirst, hkeys⟩ := List.pairwise_cons.mp hkeys
    rw [Tree.positionsFrom]
    split
    · next hwithin =>
      have hseek := fun position entry => @KeysAscend.lt_lowerBound_iff leaf hleaf low position entry key
      have hbound : low + Tree.lowerBound (leaf.drop low) key ≤ leaf.length := by
        have hle := (List.takeWhile_sublist (fun entry : TreeEntry => decide (entry.key < key))
          (l := leaf.drop low)).length_le
        rw [List.length_drop] at hle
        rw [Tree.lowerBound]
        omega
      dsimp only
      have hle : low ≤ low + Tree.lowerBound (leaf.drop low) key := Nat.le_add_right _ _
      generalize low + Tree.lowerBound (leaf.drop low) key = place at hseek hbound hle
      have hbefore : ∀ position entry, low ≤ position → leaf[position]? = some entry → position < place →
          entry.key ∉ key :: keys := by
        intro position entry hfrom hat hlt hmem
        have hbelow := (hseek position entry hfrom hat).mp hlt
        rcases List.mem_cons.mp hmem with heq | hmem
        · exact absurd heq hbelow.ne
        · exact absurd (hfirst _ hmem) hbelow.not_gt
      have hafter : ∀ position entry, place < position → leaf[position]? = some entry →
          key < entry.key := by
        intro position entry hlt hat
        obtain ⟨hin, rfl⟩ := List.getElem?_eq_some_iff.mp hat
        have hplace : place < leaf.length := by omega
        have hge : key ≤ leaf[place].key := not_lt.mp fun hlt =>
          absurd ((hseek place leaf[place] hle (List.getElem?_eq_getElem hplace)).mpr hlt) (Nat.lt_irrefl _)
        exact hge.trans_lt (List.pairwise_iff_getElem.mp hleaf place position hplace hin hlt)
      split
      · next hfound =>
        obtain ⟨held, hheld, hsame⟩ := Option.map_eq_some_iff.mp hfound
        have hplace := (List.getElem?_eq_some_iff.mp hheld).1
        obtain ⟨hsub, hmem, hrest, htail⟩ := @ih (place + 1) hkeys hplace
        refine ⟨?_, ?_, ?_, htail.trans (List.sublist_cons_self _ _)⟩
        · have hstep : List.range' place (leaf.length - place) =
              place :: List.range' (place + 1) (leaf.length - (place + 1)) := by
            rw [← List.range'_succ]
            congr 1
            omega
          refine List.Sublist.trans ?_ (range'_sublist hle hbound)
          rw [hstep]
          exact hsub.cons_cons place
        · intro position entry hfrom hat
          rcases Nat.lt_trichotomy position place with hlt | rfl | hlt
          · refine iff_of_false ?_ (hbefore position entry hfrom hat hlt)
            intro hin
            rcases List.mem_cons.mp hin with heq | hin
            · omega
            · have hge := (List.mem_range'_1.mp (hsub.subset hin)).1
              omega
          · rw [hheld] at hat
            cases hat
            exact iff_of_true List.mem_cons_self (hsame ▸ List.mem_cons_self)
          · have hne : entry.key ≠ key := (hafter position entry hlt hat).ne'
            rw [List.mem_cons, List.mem_cons, hmem position entry hlt hat]
            exact ⟨fun h => .inr (h.resolve_left hlt.ne'), fun h => .inr (h.resolve_left hne)⟩
        · intro other hother
          rw [hrest other hother, List.mem_cons]
          have hne : other ≠ key := (hwithin.trans_lt hother).ne'
          exact ⟨.inr, fun h => h.resolve_left hne⟩
      · next hmissing =>
        obtain ⟨hsub, hmem, hrest, htail⟩ := @ih place hkeys hbound
        refine ⟨hsub.trans (range'_sublist hle hbound), ?_, ?_, htail.trans (List.sublist_cons_self _ _)⟩
        · intro position entry hfrom hat
          by_cases hlt : position < place
          · refine iff_of_false ?_ (hbefore position entry hfrom hat hlt)
            intro hin
            have hge := (List.mem_range'_1.mp (hsub.subset hin)).1
            omega
          · have hne : entry.key ≠ key := by
              rcases (Nat.le_of_not_lt hlt).eq_or_lt with rfl | hlater
              · intro heq
                exact hmissing (by rw [hat, ← heq]; rfl)
              · exact (hafter position entry hlater hat).ne'
            rw [hmem position entry (Nat.le_of_not_lt hlt) hat, List.mem_cons]
            exact ⟨.inr, fun h => h.resolve_left hne⟩
        · intro other hother
          rw [hrest other hother, List.mem_cons]
          have hne : other ≠ key := (hwithin.trans_lt hother).ne'
          exact ⟨.inr, fun h => h.resolve_left hne⟩
    · next hpast =>
      have hbeyond : ∀ entry ∈ leaf, entry.key < key := fun entry hentry =>
        (hlast entry hentry).trans_lt (not_le.mp hpast)
      refine ⟨List.nil_sublist _, ?_, fun key _ => Iff.rfl, List.Sublist.refl _⟩
      intro position entry _ hat
      have hlt := hbeyond entry (List.mem_of_getElem? hat)
      refine iff_of_false List.not_mem_nil ?_
      intro hmem
      rcases List.mem_cons.mp hmem with heq | hmem
      · exact absurd heq hlt.ne
      · exact absurd (hfirst _ hmem) hlt.not_gt

lemma remaining_forward (leaf : Leaf) (start : Nat) :
    (Tree.remaining leaf start false).map Prod.fst = leaf.drop start ∧
      (Tree.remaining leaf start false).map Prod.snd = List.range' start (leaf.length - start) := by
  rw [Tree.remaining, if_neg Bool.false_ne_true, List.map_drop, List.map_drop]
  constructor
  · rw [List.zipIdx_map_fst]
  · rw [List.zipIdx_map_snd, List.drop_range', Nat.zero_add, Nat.mul_one]

lemma remaining_at {leaf : Leaf} {start : Nat} {backward : Bool} {cell : TreeEntry × Nat}
    (h : cell ∈ Tree.remaining leaf start backward) : leaf[cell.2]? = some cell.1 := by
  have hmem : cell ∈ leaf.zipIdx := by
    rw [Tree.remaining] at h
    split at h
    · exact List.mem_of_mem_take (List.mem_reverse.mp h)
    · exact List.mem_of_mem_drop h
  obtain ⟨hlt, hat⟩ := List.mem_zipIdx' hmem
  exact List.getElem?_eq_some_iff.mpr ⟨hlt, hat.symm⟩

/-- A leaf's pass forward skips the entries whose keys are passed over, and a later leaf may hold the
rest of those. -/
lemma leafPositions_spec {leaf : Leaf} {start : Nat} {except : List (List UInt8)}
    (hleaf : KeysAscend leaf) (hexcept : except.Pairwise (fun key later => key < later))
    (hstart : start ≤ leaf.length) :
    (Tree.leafPositions leaf start except).1.Sublist ((Tree.remaining leaf start false).map Prod.snd) ∧
      keptCells (Tree.remaining leaf start false) (Tree.leafPositions leaf start except).1 =
        (leaf.drop start).filter (fun entry => entry.key ∉ except) ∧
      (∀ key, (∀ entry ∈ leaf, entry.key < key) →
        (key ∈ (Tree.leafPositions leaf start except).2 ↔ key ∈ except)) ∧
      (Tree.leafPositions leaf start except).2.Sublist except := by
  obtain ⟨hfst, hsnd⟩ := remaining_forward leaf start
  rw [hsnd, Tree.leafPositions]
  cases hlast : leaf.getLast? with
  | none =>
    refine ⟨List.nil_sublist _, ?_, fun key _ => Iff.rfl, List.Sublist.refl _⟩
    rw [Tree.remaining, List.getLast?_eq_none_iff.mp hlast, List.drop_nil]
    exact congrArg (fun cells => keptCells cells []) List.drop_nil
  | some last =>
    dsimp only
    have hbelow : ∀ entry ∈ leaf, entry.key ≤ last.key := by
      intro entry hentry
      obtain ⟨before, rfl⟩ := List.getLast?_eq_some_iff.mp hlast
      rcases List.mem_append.mp hentry with hentry | hentry
      · exact ((List.pairwise_append.mp hleaf).2.2 entry hentry last (List.mem_singleton_self _)).le
      · rw [List.mem_singleton.mp hentry]
    obtain ⟨hsub, hmem, hrest, htail⟩ := positionsFrom_spec hleaf hbelow hexcept hstart
    refine ⟨hsub, ?_, fun key hkey => hrest key (hkey last (List.mem_of_getLast? hlast)), htail⟩
    have hsame : (Tree.remaining leaf start false).filter
        (fun cell => cell.2 ∉ (Tree.positionsFrom leaf last.key start except).1) =
          (Tree.remaining leaf start false).filter (fun cell => cell.1.key ∉ except) := by
      apply List.filter_congr
      intro cell hcell
      have hfrom : start ≤ cell.2 := by
        have hin := List.mem_map_of_mem (f := Prod.snd) hcell
        rw [hsnd] at hin
        exact (List.mem_range'_1.mp hin).1
      have hiff := hmem cell.2 cell.1 hfrom (remaining_at hcell)
      simp only [hiff]
    rw [keptCells, hsame, ← hfst, List.filter_map]
    rfl

/-! ### All leaves -/

section Visiting
variable {σ : Type} {table : PagedTable} {range : Option KeyRange} {filter : Option Filter}
  {calls : Callbacks σ}

/-- The entries that a cursor meets in the leaves it moves to. -/
def met (backward : Bool) (places : List (Leaf × Nat)) : List TreeEntry :=
  places.flatMap (fun place => (Tree.remaining place.1 place.2 backward).map Prod.fst)

/-- A visit of a leaf passes over its cells, charges them, presents what is left, and goes on. -/
lemma visitLeaves_cons (backward : Bool) (leaf : Leaf) (start : Nat) (places : List (Leaf × Nat))
    (except : List (List UInt8)) (s : σ) :
    visitLeaves table range backward filter calls ((leaf, start) :: places) except s =
      (passLeaf table.leadingKeyType range (recordPasses table filter)
        (Tree.remaining leaf start backward) (Tree.leafPositions leaf start except).1 ⟨[], 0, 0, false⟩ >>=
      fun pass => calls.charge (pass.examined + pass.skipped) s >>= fun s =>
        calls.scanned pass.examined s >>= fun s =>
          presentLeaf table range filter (mustJudge table filter) calls pass.accepted s >>=
            goOn (fun s => if pass.ended then .ok (.complete, s)
              else visitLeaves table range backward filter calls places
                (Tree.leafPositions leaf start except).2 s)) := by
  rw [visitLeaves]
  rfl

lemma remaining_nodup (leaf : Leaf) (start : Nat) (backward : Bool) :
    ((Tree.remaining leaf start backward).map Prod.snd).Nodup := by
  have hall : (leaf.zipIdx.map Prod.snd).Nodup := by
    rw [List.zipIdx_map_snd]
    exact List.nodup_range'
  rw [Tree.remaining]
  cases backward with
  | true =>
    rw [if_pos rfl, List.map_reverse, List.nodup_reverse]
    exact hall.sublist ((List.take_sublist start _).map _)
  | false =>
    rw [if_neg Bool.false_ne_true]
    exact hall.sublist ((List.drop_sublist start _).map _)

/-- The keys that a visit passes over ascend, as what it meets forward does; and backward it passes over
none. -/
structure PassesOver (backward : Bool) (places : List (Leaf × Nat)) (except : List (List UInt8)) :
    Prop where
  ascend : backward = false → KeysAscend (places.flatMap Prod.fst)
  sorted : except.Pairwise (fun key later => key < later)
  none : backward = true → except = []
  starts : ∀ place ∈ places, place.2 ≤ place.1.length

/-- What a leaf's search leaves of the keys to pass over is all that a later leaf's entries may have. -/
lemma PassesOver.leaf {backward : Bool} {leaf : Leaf} {start : Nat} {places : List (Leaf × Nat)}
    {except : List (List UInt8)} (h : PassesOver backward ((leaf, start) :: places) except) :
    (Tree.leafPositions leaf start except).1.Sublist ((Tree.remaining leaf start backward).map Prod.snd) ∧
      keptCells (Tree.remaining leaf start backward) (Tree.leafPositions leaf start except).1 =
        ((Tree.remaining leaf start backward).map Prod.fst).filter (fun entry => entry.key ∉ except) ∧
      (∀ entry ∈ met backward places,
        (entry.key ∈ (Tree.leafPositions leaf start except).2 ↔ entry.key ∈ except)) ∧
      PassesOver backward places (Tree.leafPositions leaf start except).2 := by
  obtain ⟨hstart, hstarts⟩ := List.forall_mem_cons.mp h.starts
  cases backward with
  | true =>
    obtain rfl := h.none rfl
    have hnone : Tree.leafPositions leaf start [] = ([], []) := by
      rw [Tree.leafPositions]
      cases leaf.getLast? <;> rfl
    rw [hnone]
    refine ⟨List.nil_sublist _, ?_, fun entry _ => Iff.rfl, ?_⟩
    · rw [keptCells, List.filter_eq_self.mpr (by simp), List.filter_eq_self.mpr (by simp)]
    · exact ⟨fun hcontra => (by cases hcontra), .nil, fun _ => rfl, hstarts⟩
  | false =>
    have hascend := h.ascend rfl
    rw [List.flatMap_cons] at hascend
    obtain ⟨hleaf, hrest, hcross⟩ := List.pairwise_append.mp hascend
    obtain ⟨hsub, hkept, hlater, htail⟩ := leafPositions_spec hleaf h.sorted hstart
    refine ⟨hsub, by rw [hkept, (remaining_forward leaf start).1], ?_, ?_⟩
    · intro entry hentry
      obtain ⟨place, hplace, hmem⟩ := List.mem_flatMap.mp hentry
      rw [(remaining_forward place.1 place.2).1] at hmem
      apply hlater
      intro earlier hearlier
      exact hcross earlier hearlier entry
        (List.mem_flatMap.mpr ⟨place, hplace, List.mem_of_mem_drop hmem⟩)
    · exact ⟨fun _ => hrest, h.sorted.sublist htail, fun hcontra => (by cases hcontra), hstarts⟩

/-- A visit of leaves presents what it meets of the range, but for the keys it passes over. -/
lemma visitLeaves_presents {backward : Bool} {places : List (Leaf × Nat)} {except : List (List UInt8)}
    (hvisitable : ∀ entry ∈ met backward places, Visitable table range filter entry)
    (hleaves : Leaves table range (met backward places)) (hpasses : PassesOver backward places except)
    (s : σ) :
    PresentsEntries table filter calls
      (within table range ((met backward places).filter (fun entry => entry.key ∉ except))) s
      (visitLeaves table range backward filter calls places except s) := by
  induction places generalizing except s with
  | nil => exact .done s
  | cons place places ih =>
    obtain ⟨leaf, start⟩ := place
    obtain ⟨hsub, hkept, hsame, hpasses⟩ := hpasses.leaf
    have hmet : met backward ((leaf, start) :: places) =
        (Tree.remaining leaf start backward).map Prod.fst ++ met backward places := rfl
    rw [hmet] at hvisitable hleaves ⊢
    obtain ⟨hmine, htheirs⟩ := List.forall_mem_append.mp hvisitable
    obtain ⟨hleavesHere, hleavesLater, hcross⟩ := List.pairwise_append.mp hleaves
    have hkeptSub : (keptCells (Tree.remaining leaf start backward)
        (Tree.leafPositions leaf start except).1).Sublist
          ((Tree.remaining leaf start backward).map Prod.fst) := by
      rw [hkept]
      exact List.filter_sublist
    have hlater : (met backward places).filter (fun entry => entry.key ∉ except) =
        (met backward places).filter
          (fun entry => entry.key ∉ (Tree.leafPositions leaf start except).2) := by
      apply List.filter_congr
      intro entry hentry
      have hiff := hsame entry hentry
      simp only [hiff]
    have hend : (∃ entry ∈ keptCells (Tree.remaining leaf start backward)
        (Tree.leafPositions leaf start except).1, liesWithin table.leadingKeyType range entry.key = false) →
          within table range ((met backward places).filter (fun entry => entry.key ∉ except)) = [] := by
      rintro ⟨entry, hentry, hpast⟩
      rw [within, List.filter_eq_nil_iff]
      intro other hother hwithin
      have hcontra : liesWithin table.leadingKeyType range entry.key = true :=
        hcross entry (hkeptSub.subset hentry) other (List.mem_of_mem_filter hother) hwithin
      rw [hpast] at hcontra
      cases hcontra
    obtain ⟨pass, hpass, haccepted, hended⟩ := @passLeaf_eq table.leadingKeyType range
      (recordPasses table filter) (Tree.remaining leaf start backward)
      (Tree.leafPositions leaf start except).1 ⟨[], 0, 0, false⟩
      (fun cell hcell => (hmine cell.1 (List.mem_map_of_mem hcell)).placed) hsub
      (remaining_nodup leaf start backward)
    rw [List.filter_append, within, List.filter_append, ← hkept, visitLeaves_cons, hpass]
    simp only [bind, Except.bind]
    cases hcharge : calls.charge (pass.examined + pass.skipped) s with
    | error error => exact .refused ⟨_, .inl hcharge⟩
    | ok charged =>
      refine .charged ⟨_, .inl hcharge⟩ ?_
      dsimp only
      cases hscanned : calls.scanned pass.examined charged with
      | error error => exact .refused ⟨_, .inr hscanned⟩
      | ok scanned =>
        refine .charged ⟨_, .inr hscanned⟩ ?_
        dsimp only
        rw [haccepted, List.nil_append]
        refine presentLeaf_presents (fun entry hentry => hmine entry (hkeptSub.subset hentry))
          (hleavesHere.sublist hkeptSub) ?_ hend scanned
        intro s
        cases hover : pass.ended with
        | true =>
          rcases hended hover with hcontra | hpast
          · cases hcontra
          · rw [hend hpast]
            exact .done s
        | false =>
          rw [hlater]
          exact ih htheirs hleavesLater hpasses s

/-! ### Cursors -/

/-- The keys before a cursor sought backward to a bound, if it was sought to one. -/
def below (bound : Option (List UInt8)) (entry : TreeEntry) : Bool :=
  bound.all (fun bound => decide (entry.key < bound))

lemma KeysAscend.fallsBelow {entries : List TreeEntry} (h : KeysAscend entries)
    (bound : Option (List UInt8)) : FallsAway (below bound) entries := by
  cases bound with
  | none => exact List.pairwise_of_forall fun _ _ _ => rfl
  | some bound => exact h.fallsAway bound

lemma seekIndex_backward (leaf : Leaf) (bound : Option (List UInt8)) :
    Tree.seekIndex leaf bound true = (leaf.takeWhile (below bound)).length := by
  cases bound with
  | none =>
    have hall : leaf.takeWhile (below none) = leaf := List.takeWhile_eq_self_iff.mpr fun _ _ => rfl
    rw [hall]
    rfl
  | some bound => rfl

/-- What a cursor meets of a leaf: forward the entries at or past its bound, and backward those before it,
the last first. -/
lemma remaining_seek {leaf : Leaf} (hleaf : KeysAscend leaf) (bound : List UInt8) :
    (Tree.remaining leaf (Tree.seekIndex leaf (some bound) false) false).map Prod.fst =
      leaf.filter (fun entry => !decide (entry.key < bound)) := by
  rw [(remaining_forward leaf _).1]
  exact (hleaf.fallsAway bound).drop_eq

lemma remaining_seekBackward {leaf : Leaf} (hleaf : KeysAscend leaf) (bound : Option (List UInt8)) :
    (Tree.remaining leaf (Tree.seekIndex leaf bound true) true).map Prod.fst =
      (leaf.filter (below bound)).reverse := by
  rw [Tree.remaining, if_pos rfl, List.map_reverse, List.map_take, List.zipIdx_map_fst,
    seekIndex_backward, (hleaf.fallsBelow bound).take_eq]

/-- The leaves a cursor comes to, in its order. -/
def sought (tree : Tree) (bound : Option (List UInt8)) (backward : Bool) : List (Leaf × Nat) :=
  (if backward then tree.reverse else tree).map (fun leaf => (leaf, Tree.seekIndex leaf bound backward))

/-- Something of a leaf is left for the cursor. -/
def somethingLeft (backward : Bool) (place : Leaf × Nat) : Bool :=
  if backward then 0 < place.2 else place.2 < place.1.length

lemma cursor_eq_ok {tree : Tree} {bound : Option (List UInt8)} {backward : Bool}
    {places : List (Leaf × Nat)} (h : tree.cursor bound backward = .ok places) :
    places = (sought tree bound backward).filter (somethingLeft backward) := by
  cases bound with
  | none => exact (Except.ok.inj h).symm
  | some bound =>
    obtain ⟨_, -, h⟩ := Except.bind_eq_ok.mp h
    exact (Except.ok.inj h).symm

/-- Leaves with nothing left for the cursor would show it nothing. -/
lemma met_filter (backward : Bool) (places : List (Leaf × Nat)) :
    met backward (places.filter (somethingLeft backward)) = met backward places := by
  induction places with
  | nil => rfl
  | cons place places ih =>
    rw [List.filter_cons]
    split
    · rw [met, List.flatMap_cons, ← met, ih, met, met, List.flatMap_cons]
    · next hnone =>
      have hempty : Tree.remaining place.1 place.2 backward = [] := by
        rw [somethingLeft] at hnone
        rw [Tree.remaining]
        cases backward with
        | true =>
          have hzero : place.2 = 0 := by simpa using hnone
          rw [if_pos rfl, hzero]
          rfl
        | false =>
          rw [if_neg Bool.false_ne_true, List.drop_eq_nil_iff, List.length_zipIdx]
          simpa using hnone
      rw [ih, met, met, List.flatMap_cons, hempty]
      rfl

lemma leaf_ascends {tree : Tree} (htree : KeysAscend tree.flatten) {leaf : Leaf} (hleaf : leaf ∈ tree) :
    KeysAscend leaf := (List.pairwise_flatten.mp htree).1 leaf hleaf

lemma met_sought {tree : Tree} (htree : KeysAscend tree.flatten) (bound : List UInt8) :
    met false (sought tree (some bound) false) =
      tree.flatten.filter (fun entry => !decide (entry.key < bound)) := by
  rw [met, sought, if_neg Bool.false_ne_true, List.flatMap_map, List.filter_flatten, List.flatMap]
  congr 1
  apply List.map_congr_left
  intro leaf hleaf
  exact remaining_seek (leaf_ascends htree hleaf) bound

lemma met_soughtBackward {tree : Tree} (htree : KeysAscend tree.flatten)
    (bound : Option (List UInt8)) :
    met true (sought tree bound true) = (tree.flatten.filter (below bound)).reverse := by
  rw [met, sought, if_pos rfl, List.flatMap_map, List.filter_flatten, List.reverse_flatten, List.map_map,
    ← List.map_reverse, List.flatMap]
  congr 1
  apply List.map_congr_left
  intro leaf hleaf
  exact remaining_seekBackward (leaf_ascends htree (List.mem_reverse.mp hleaf)) bound

lemma seekIndex_le (leaf : Leaf) (bound : Option (List UInt8)) (backward : Bool) :
    Tree.seekIndex leaf bound backward ≤ leaf.length := by
  cases bound with
  | none => cases backward <;> simp [Tree.seekIndex]
  | some bound => exact (List.takeWhile_sublist _).length_le

/-! ### Whole visits -/

/-- A list in the order a visit is asked for. -/
def inOrder {α : Type} (order : KeyOrder) (items : List α) : List α :=
  match order with
  | .ascending => items
  | .descending => items.reverse

lemma liesWithin_eq {keyType : ColumnType} {component key : List UInt8} (h : LedBy keyType component key)
    (range : KeyRange) :
    withinRange keyType (some range) key = .ok (range.contains component) ∧
      liesWithin keyType (some range) key = range.contains component := by
  have hwithin : withinRange keyType (some range) key = .ok (range.contains component) := by
    rw [withinRange, leadingKeyComponent_eq h]
    rfl
  exact ⟨hwithin, by rw [liesWithin, hwithin]⟩

/-- The leading component of a key tells whether it lies within a range. -/
lemma rangeTells_of_led {keyType : ColumnType} {entry : TreeEntry}
    (h : ∃ component, LedBy keyType component entry.key) (range : Option KeyRange) :
    RangeTells keyType range entry := by
  obtain ⟨component, hled⟩ := h
  cases range with
  | none => rfl
  | some range => rw [RangeTells, (liesWithin_eq hled range).1, (liesWithin_eq hled range).2]

/-- Keys of one leading type, and bounds that divide them. -/
structure Ranged (keyType : ColumnType) (range : Option KeyRange) (entries : List TreeEntry) : Prop where
  ascend : KeysAscend entries
  led : ∀ entry ∈ entries, ∃ component, LedBy keyType component entry.key
  bounds : ∀ bounded, range = some bounded → bounded.Bounds keyType

namespace Ranged
variable {keyType : ColumnType} {entries : List TreeEntry}

/-- The leading components of ascending keys do not descend. -/
lemma component_le {component key other otherKey : List UInt8} (h : LedBy keyType component key)
    (hother : LedBy keyType other otherKey) (hlt : key < otherKey) : component ≤ other := by
  obtain ⟨k, rest, hk, rfl, rfl⟩ := h
  obtain ⟨k', rest', hk', rfl, rfl⟩ := hother
  exact OrderCode.leading_le (code_cases hk hk') hlt

lemma lies_ascending {bounded : KeyRange} (h : bounded.Bounds keyType) {component key other otherKey : List UInt8}
    (hkey : LedBy keyType component key) (hother : LedBy keyType other otherKey) (hlt : key < otherKey)
    (hstart : ¬key < bounded.start) (hlies : bounded.contains other = true) :
    bounded.contains component = true := by
  obtain ⟨-, hupper⟩ := Bool.and_eq_true_iff.mp hlies
  refine Bool.and_eq_true_iff.mpr ⟨(h.start_le_iff hkey).mp (not_lt.mp hstart), ?_⟩
  rw [Option.all_eq_true] at hupper ⊢
  intro bound hbound
  exact decide_eq_true ((component_le hkey hother hlt).trans (of_decide_eq_true (hupper bound hbound)))

lemma lies_descending {bounded : KeyRange} (h : bounded.Bounds keyType) {component key other otherKey : List UInt8}
    (hkey : LedBy keyType component key) (hother : LedBy keyType other otherKey) (hlt : key < otherKey)
    (hstop : ∀ stop, bounded.stop = some stop → otherKey < stop) (hlies : bounded.contains component = true) :
    bounded.contains other = true := by
  obtain ⟨hlower, -⟩ := Bool.and_eq_true_iff.mp hlies
  refine Bool.and_eq_true_iff.mpr ⟨?_, (h.lt_stop_iff hother).mp hstop⟩
  rw [Option.all_eq_true] at hlower ⊢
  intro bound hbound
  exact decide_eq_true ((of_decide_eq_true (hlower bound hbound)).trans (component_le hkey hother hlt))

/-- Forward from where a range starts, what lies within it comes first, and nothing of it is before. -/
lemma forward {range : Option KeyRange} (h : Ranged keyType range entries) :
    FallsAway (fun entry => liesWithin keyType range entry.key)
        (entries.filter (fun entry => !decide (entry.key < (range.map KeyRange.start).getD []))) ∧
      ∀ entry ∈ entries, liesWithin keyType range entry.key = true →
        (!decide (entry.key < (range.map KeyRange.start).getD [])) = true := by
  cases range with
  | none =>
    refine ⟨List.pairwise_of_forall fun _ _ _ => rfl, fun entry _ _ => ?_⟩
    rw [Option.map_none, Option.getD_none, decide_eq_false (List.not_lt_nil _)]
    rfl
  | some bounded =>
    have hbounds := h.bounds bounded rfl
    constructor
    · refine List.Pairwise.imp_of_mem ?_ (List.Pairwise.sublist List.filter_sublist h.ascend)
      intro entry later hentry hlater hlt hlies
      obtain ⟨hmem, hstart⟩ := List.mem_filter.mp hentry
      obtain ⟨component, hled⟩ := h.led entry hmem
      obtain ⟨other, hotherLed⟩ := h.led later (List.mem_of_mem_filter hlater)
      dsimp only at hlies ⊢
      rw [(liesWithin_eq hotherLed bounded).2] at hlies
      rw [(liesWithin_eq hled bounded).2]
      exact lies_ascending hbounds hled hotherLed hlt (by simpa using hstart) hlies
    · intro entry hentry hlies
      obtain ⟨component, hled⟩ := h.led entry hentry
      rw [(liesWithin_eq hled bounded).2] at hlies
      have hle := (hbounds.start_le_iff hled).mpr (Bool.and_eq_true_iff.mp hlies).1
      simpa using hle

/-- Backward from where a range stops, what lies within it comes first, and nothing of it is behind. -/
lemma backward {range : Option KeyRange} (h : Ranged keyType range entries) :
    FallsAway (fun entry => liesWithin keyType range entry.key)
        (entries.filter (below (range.bind KeyRange.stop))).reverse ∧
      ∀ entry ∈ entries, liesWithin keyType range entry.key = true →
        below (range.bind KeyRange.stop) entry = true := by
  cases range with
  | none => exact ⟨List.pairwise_of_forall fun _ _ _ => rfl, fun _ _ _ => rfl⟩
  | some bounded =>
    have hbounds := h.bounds bounded rfl
    constructor
    · rw [FallsAway, List.pairwise_reverse]
      refine List.Pairwise.imp_of_mem ?_ (List.Pairwise.sublist List.filter_sublist h.ascend)
      intro entry later hentry hlater hlt hlies
      obtain ⟨hmem, hbelow⟩ := List.mem_filter.mp hlater
      obtain ⟨component, hled⟩ := h.led entry (List.mem_of_mem_filter hentry)
      obtain ⟨other, hotherLed⟩ := h.led later hmem
      rw [(liesWithin_eq hled bounded).2] at hlies
      rw [(liesWithin_eq hotherLed bounded).2]
      refine lies_descending hbounds hled hotherLed hlt ?_ hlies
      intro stop hstop
      rw [below, Option.bind_some, hstop] at hbelow
      exact of_decide_eq_true hbelow
    · intro entry hentry hlies
      obtain ⟨component, hled⟩ := h.led entry hentry
      rw [(liesWithin_eq hled bounded).2] at hlies
      have hlt := (hbounds.lt_stop_iff hled).mpr (Bool.and_eq_true_iff.mp hlies).2
      rw [below, Option.bind_some, Option.all_eq_true]
      intro stop hstop
      exact decide_eq_true (hlt stop hstop)

end Ranged

lemma within_filter_of {kept : TreeEntry → Bool} {entries : List TreeEntry}
    (h : ∀ entry ∈ entries, liesWithin table.leadingKeyType range entry.key = true → kept entry = true)
    (other : TreeEntry → Bool) :
    within table range ((entries.filter kept).filter other) = within table range (entries.filter other) := by
  rw [within, within, List.filter_filter, List.filter_filter, List.filter_filter]
  apply List.filter_congr
  intro entry hentry
  cases hlies : liesWithin table.leadingKeyType range entry.key with
  | false => simp
  | true => simp [h entry hentry hlies]

/-- A visit of a tree presents its entries of the range, in the order asked for, but for the keys it
passes over. -/
lemma visitTree_presents {tree : Tree} {order : KeyOrder} {places : List (Leaf × Nat)}
    {except : List (List UInt8)} (hranged : Ranged table.leadingKeyType range tree.flatten)
    (hvisitable : ∀ entry ∈ tree.flatten, Visitable table range filter entry)
    (hexcept : except.Pairwise (fun key later => key < later))
    (hforward : order = .descending → except = [])
    (hopen : PagedStorage.openVisit tree range order = .ok places) (s : σ) :
    PresentsEntries table filter calls
      (inOrder order (within table range (tree.flatten.filter (fun entry => entry.key ∉ except)))) s
      (visitLeaves table range (order = .descending) filter calls places except s) := by
  cases order with
  | ascending =>
    obtain ⟨hfalls, hfirst⟩ := hranged.forward
    have hplaces := @cursor_eq_ok tree (some ((range.map KeyRange.start).getD [])) false places hopen
    have hmet : met false places = tree.flatten.filter
        (fun entry => !decide (entry.key < (range.map KeyRange.start).getD [])) := by
      rw [hplaces, met_filter, met_sought hranged.ascend]
    have hshown : within table range (tree.flatten.filter (fun entry => entry.key ∉ except)) =
        within table range ((met false places).filter (fun entry => entry.key ∉ except)) := by
      rw [hmet, within_filter_of hfirst]
    rw [inOrder, hshown]
    refine visitLeaves_presents ?_ (by rw [hmet]; exact hfalls) ⟨?_, hexcept, ?_, ?_⟩ s
    · intro entry hentry
      rw [hmet] at hentry
      exact hvisitable entry (List.mem_of_mem_filter hentry)
    · intro _
      have hsub : (places.map Prod.fst).Sublist tree := by
        have hall : (sought tree (some ((range.map KeyRange.start).getD [])) false).map Prod.fst = tree := by
          rw [sought, if_neg Bool.false_ne_true, List.map_map]
          exact List.map_id tree
        have hfiltered := (@List.filter_sublist _ (somethingLeft false)
          (sought tree (some ((range.map KeyRange.start).getD [])) false)).map Prod.fst
        rwa [hall, ← hplaces] at hfiltered
      exact List.Pairwise.sublist hsub.flatten hranged.ascend
    · intro hcontra
      cases hcontra
    · rw [hplaces]
      intro place hplace
      obtain ⟨leaf, -, rfl⟩ := List.mem_map.mp (List.mem_of_mem_filter hplace)
      exact seekIndex_le leaf (some _) false
  | descending =>
    obtain rfl := hforward rfl
    obtain ⟨hfalls, hfirst⟩ := hranged.backward
    have hplaces := cursor_eq_ok hopen
    have hmet : met true places =
        (tree.flatten.filter (below (range.bind KeyRange.stop))).reverse := by
      rw [hplaces, met_filter, met_soughtBackward hranged.ascend]
    have hshown : (within table range (tree.flatten.filter (fun entry => entry.key ∉ ([] : List (List UInt8))))).reverse =
        within table range ((met true places).filter (fun entry => entry.key ∉ ([] : List (List UInt8)))) := by
      rw [hmet, List.filter_reverse, within, within, List.filter_reverse, ← within, ← within,
        within_filter_of hfirst]
    rw [inOrder, hshown]
    refine visitLeaves_presents ?_ (by rw [hmet]; exact hfalls) ⟨?_, hexcept, fun _ => rfl, ?_⟩ s
    · intro entry hentry
      rw [hmet, List.mem_reverse] at hentry
      exact hvisitable entry (List.mem_of_mem_filter hentry)
    · intro hcontra
      cases hcontra
    · rw [hplaces]
      intro place hplace
      obtain ⟨leaf, -, rfl⟩ := List.mem_map.mp (List.mem_of_mem_filter hplace)
      exact seekIndex_le _ _ _

end Visiting

end TinyJoin
