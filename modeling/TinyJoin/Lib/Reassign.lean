import Mathlib.Logic.Function.Basic
import Mathlib.Data.List.Nodup

/-! Tables of keyed rows, of which each row becomes another, with a key of its own, all at once. What
that comes to says nothing of an order; edits made one after another, of which the writes come last,
come to it whenever no two rows end with one key. -/
namespace Reassign
variable {κ ρ : Type*}

/-- What each row becomes: a row of the table before, and its key, with a row after, and its key. -/
abbrev Becomes (κ ρ : Type*) : Type _ := κ → ρ → κ → ρ → Prop

/-- The rows after are what the rows before become. -/
def Replaces (becomes : Becomes κ ρ) (table table' : κ → Option ρ) : Prop :=
  ∀ key row, table' key = some row ↔
    ∃ old before, table old = some before ∧ becomes old before key row

/-- Two rows become rows with one key. -/
def Collides (becomes : Becomes κ ρ) (table : κ → Option ρ) : Prop :=
  ∃ old before old' before' key row row', old ≠ old' ∧ table old = some before ∧
    table old' = some before' ∧ becomes old before key row ∧ becomes old' before' key row'

structure Move (κ ρ : Type*) where
  old : κ
  new : κ
  row : ρ

/-- The moves by which the rows of a table become others. A row without a move stays as it is. -/
structure Moves (becomes : Becomes κ ρ) (table : κ → Option ρ) (moves : List (Move κ ρ)) :
    Prop where
  nodup : (moves.map Move.old).Nodup
  moved : ∀ move ∈ moves, ∃ before, table move.old = some before ∧
    ∀ key row, becomes move.old before key row ↔ key = move.new ∧ row = move.row
  unmoved : ∀ old before, table old = some before → old ∉ moves.map Move.old →
    ∀ key row, becomes old before key row ↔ key = old ∧ row = before

section Moves
variable {becomes : Becomes κ ρ} {table : κ → Option ρ} {moves : List (Move κ ρ)}

lemma Moves.becomes_of_mem (h : Moves becomes table moves) {move : Move κ ρ} (hmem : move ∈ moves) :
    ∃ before, table move.old = some before ∧ becomes move.old before move.new move.row := by
  obtain ⟨before, hbefore, hbecomes⟩ := h.moved move hmem
  exact ⟨before, hbefore, (hbecomes _ _).mpr ⟨rfl, rfl⟩⟩

/-- A row with a move becomes what the move says, and any other row stays. -/
lemma Moves.cases (h : Moves becomes table moves) {old : κ} {before : ρ}
    (hbefore : table old = some before) {key : κ} {row : ρ} (hbecomes : becomes old before key row) :
    (∃ move ∈ moves, move.old = old ∧ key = move.new ∧ row = move.row) ∨
      (old ∉ moves.map Move.old ∧ key = old ∧ row = before) := by
  by_cases hmem : old ∈ moves.map Move.old
  · obtain ⟨move, hmove, rfl⟩ := List.mem_map.mp hmem
    obtain ⟨before', hbefore', hiff⟩ := h.moved move hmove
    rw [hbefore] at hbefore'
    cases hbefore'
    exact .inl ⟨move, hmove, rfl, (hiff _ _).mp hbecomes⟩
  · exact .inr ⟨hmem, (h.unmoved old before hbefore hmem _ _).mp hbecomes⟩

/-- Rows collide exactly where two moves have one destination, or one has a row in its way that does
not move. -/
theorem Moves.collides_iff (h : Moves becomes table moves) :
    Collides becomes table ↔ ¬(moves.map Move.new).Nodup ∨
      ∃ move ∈ moves, move.new ∉ moves.map Move.old ∧ (table move.new).isSome = true := by
  constructor
  · rintro ⟨old, before, old', before', key, row, row', hne, hold, hold', hrow, hrow'⟩
    by_contra hnone
    obtain ⟨hnodup, hfree⟩ := not_or.mp hnone
    have hnodup := not_not.mp hnodup
    have hclash : ∀ move ∈ moves, ∀ stays, stays ∉ moves.map Move.old →
        (table stays).isSome = true → move.new ≠ stays := by
      rintro move hmove stays hstays hsome rfl
      exact hfree ⟨move, hmove, hstays, hsome⟩
    rcases h.cases hold hrow with ⟨a, ha, haold, hanew, -⟩ | ⟨hstays, hkey, -⟩ <;>
      rcases h.cases hold' hrow' with ⟨b, hb, hbold, hbnew, -⟩ | ⟨hstays', hkey', -⟩
    · have hab : a = b := List.inj_on_of_nodup_map hnodup ha hb (hanew.symm.trans hbnew)
      exact hne (haold.symm.trans (hab ▸ hbold))
    · exact hclash a ha old' hstays' (by simp [hold']) (hanew.symm.trans hkey')
    · exact hclash b hb old hstays (by simp [hold]) (hbnew.symm.trans hkey)
    · exact hne (hkey.symm.trans hkey')
  · rintro (htwice | ⟨move, hmove, hstays, hsome⟩)
    · by_contra hnone
      refine htwice (List.Nodup.map_on ?_ h.nodup.of_map)
      intro a ha b hb hnew
      obtain ⟨before, hold, hbecomes⟩ := h.becomes_of_mem ha
      obtain ⟨before', hold', hbecomes'⟩ := h.becomes_of_mem hb
      by_contra hab
      have hne : a.old ≠ b.old := fun heq => hab (List.inj_on_of_nodup_map h.nodup ha hb heq)
      exact hnone ⟨_, _, _, _, _, _, _, hne, hold, hold', hbecomes, hnew ▸ hbecomes'⟩
    · obtain ⟨before, hold, hbecomes⟩ := h.becomes_of_mem hmove
      obtain ⟨stays, hstays'⟩ := Option.isSome_iff_exists.mp hsome
      have hne : move.old ≠ move.new := by
        intro heq
        exact hstays (heq ▸ List.mem_map_of_mem hmove)
      exact ⟨_, _, _, _, _, _, _, hne, hold, hstays', hbecomes,
        (h.unmoved _ _ hstays' hstays _ _).mpr ⟨rfl, rfl⟩⟩

end Moves

/-! ### Edits -/

section Edits
variable [DecidableEq κ] {table : κ → Option ρ}

/-- The table after edits made one after another: each leaves a row in its key, or none. -/
def edits (table : κ → Option ρ) (edited : List (κ × Option ρ)) : κ → Option ρ :=
  edited.foldl (fun table edit => Function.update table edit.1 edit.2) table

@[simp] lemma edits_nil : edits table [] = table := rfl

@[simp] lemma edits_cons (edit : κ × Option ρ) (rest : List (κ × Option ρ)) :
    edits table (edit :: rest) = edits (Function.update table edit.1 edit.2) rest := rfl

@[simp] lemma edits_append (first rest : List (κ × Option ρ)) :
    edits table (first ++ rest) = edits (edits table first) rest := List.foldl_append

lemma edits_of_not_mem {edited : List (κ × Option ρ)} {key : κ} (h : key ∉ edited.map Prod.fst) :
    edits table edited key = table key := by
  induction edited generalizing table with
  | nil => rfl
  | cons edit rest ih =>
    rw [List.map_cons, List.mem_cons, not_or] at h
    rw [edits_cons, ih h.2, Function.update_of_ne h.1]

/-- What edits leave in a key is of what it held. -/
lemma edits_congr {other : κ → Option ρ} {key : κ} (h : table key = other key)
    (edited : List (κ × Option ρ)) : edits table edited key = edits other edited key := by
  induction edited generalizing table other with
  | nil => exact h
  | cons edit rest ih =>
    refine ih ?_
    dsimp only
    by_cases hkey : key = edit.1
    · rw [hkey, Function.update_self, Function.update_self]
    · rw [Function.update_of_ne hkey, Function.update_of_ne hkey, h]

lemma edits_of_mem {edited : List (κ × Option ρ)} (hnodup : (edited.map Prod.fst).Nodup) {key : κ}
    {row : Option ρ} (h : (key, row) ∈ edited) : edits table edited key = row := by
  induction edited generalizing table with
  | nil => cases h
  | cons edit rest ih =>
    obtain ⟨hfirst, hrest⟩ := List.nodup_cons.mp hnodup
    rcases List.mem_cons.mp h with rfl | hmem
    · rw [edits_cons, edits_of_not_mem hfirst, Function.update_self]
    · exact ih hrest hmem

lemma edits_removed {removed : List κ} {key : κ} (h : key ∈ removed) :
    edits table (removed.map (fun key => (key, none))) key = none := by
  induction removed generalizing table with
  | nil => cases h
  | cons first rest ih =>
    rw [List.map_cons, edits_cons]
    by_cases hmem : key ∈ rest
    · exact ih hmem
    · rcases List.mem_cons.mp h with rfl | hrest
      · rw [edits_of_not_mem (by simpa using hmem), Function.update_self]
      · exact absurd hrest hmem

/-- Removing rows that move away and then writing every move's row is what the moves say, in whatever
order chains and cycles of moves come. -/
theorem Moves.replaces_edits {becomes : Becomes κ ρ} {moves : List (Move κ ρ)}
    (h : Moves becomes table moves) (hfree : ¬Collides becomes table) {removed : List κ}
    (hremoved : ∀ key, key ∈ removed ↔ ∃ move ∈ moves, move.old = key ∧ move.new ≠ key) :
    Replaces becomes table (edits table (removed.map (fun key => (key, none)) ++
      moves.map (fun move => (move.new, some move.row)))) := by
  obtain ⟨hnodup, hclear⟩ := not_or.mp (fun hany => hfree (h.collides_iff.mpr hany))
  have hnodup := not_not.mp hnodup
  have hwrites : ((moves.map (fun move => (move.new, some move.row))).map Prod.fst).Nodup := by
    rwa [List.map_map]
  intro key row
  rw [edits_append]
  by_cases hnew : key ∈ moves.map Move.new
  · obtain ⟨move, hmove, rfl⟩ := List.mem_map.mp hnew
    rw [edits_of_mem hwrites (List.mem_map_of_mem hmove), Option.some.injEq]
    constructor
    · rintro rfl
      obtain ⟨before, hbefore, hbecomes⟩ := h.becomes_of_mem hmove
      exact ⟨_, before, hbefore, hbecomes⟩
    · rintro ⟨old, before, hold, hbecomes⟩
      rcases h.cases hold hbecomes with ⟨other, hother, -, hkey, rfl⟩ | ⟨hstays, hkey, -⟩
      · rw [List.inj_on_of_nodup_map hnodup hmove hother hkey]
      · exact absurd ⟨move, hmove, hkey ▸ hstays, by simp [hkey, hold]⟩ hclear
  · rw [edits_of_not_mem (by simpa using hnew)]
    have hother : ∀ old before, table old = some before → becomes old before key row →
        old ∉ moves.map Move.old ∧ key = old ∧ row = before := by
      intro old before hold hbecomes
      rcases h.cases hold hbecomes with ⟨move, hmove, -, rfl, -⟩ | hstays
      · exact absurd (List.mem_map_of_mem hmove) hnew
      · exact hstays
    by_cases hold : key ∈ moves.map Move.old
    · obtain ⟨move, hmove, rfl⟩ := List.mem_map.mp hold
      have hmoves : move.new ≠ move.old := fun heq => hnew (heq ▸ List.mem_map_of_mem hmove)
      rw [edits_removed ((hremoved _).mpr ⟨move, hmove, rfl, hmoves⟩)]
      constructor
      · rintro ⟨⟩
      · rintro ⟨old, before, hbefore, hbecomes⟩
        obtain ⟨hstays, rfl, -⟩ := hother old before hbefore hbecomes
        exact absurd hold hstays
    · have hkept : key ∉ (removed.map (fun key => (key, (none : Option ρ)))).map Prod.fst := by
        rw [List.map_map, List.mem_map]
        rintro ⟨removed, hmem, rfl⟩
        obtain ⟨move, hmove, hkey, -⟩ := (hremoved _).mp hmem
        exact hold (hkey ▸ List.mem_map_of_mem hmove)
      rw [edits_of_not_mem hkept]
      constructor
      · intro hrow
        exact ⟨key, row, hrow, (h.unmoved key row hrow hold _ _).mpr ⟨rfl, rfl⟩⟩
      · rintro ⟨old, before, hbefore, hbecomes⟩
        obtain ⟨-, rfl, rfl⟩ := hother old before hbefore hbecomes
        exact hbefore

end Edits
end Reassign
