import Mathlib.Data.List.Perm.Basic
import Mathlib.Data.List.Sort
import Mathlib.Order.Basic

/-! Rows grouped as they come in, by a key: each group holds something of its members, which are the rows
of its key. What the groups are, and the order in which they stand once sorted, is told by the rows
alone, whatever order these came in. -/
namespace Grouping
universe u v w
variable {ρ : Type u} {κ : Type v} {γ : Type w} [DecidableEq κ]

/-- The rows of a key. -/
def members (key : ρ → κ) (rows : List ρ) (k : κ) : List ρ := rows.filter (fun row => key row = k)

/-- One group for each key of the rows, which holds of the key's members what groups do. -/
structure Grouped (key : ρ → κ) (label : γ → κ) (holds : List ρ → γ → Prop) (rows : List ρ)
    (groups : List γ) : Prop where
  nodup : (groups.map label).Nodup
  labels : ∀ k, k ∈ groups.map label ↔ k ∈ rows.map key
  holds : ∀ group ∈ groups, holds (members key rows (label group)) group

variable {key : ρ → κ} {label : γ → κ} {holds : List ρ → γ → Prop} {rows : List ρ} {groups : List γ}

lemma members_concat_same {row : ρ} {k : κ} (h : key row = k) :
    members key (rows ++ [row]) k = members key rows k ++ [row] := by
  simp [members, h]

lemma members_concat_other {row : ρ} {k : κ} (h : key row ≠ k) :
    members key (rows ++ [row]) k = members key rows k := by
  simp [members, h]

lemma members_eq_nil {k : κ} (h : k ∉ rows.map key) : members key rows k = [] := by
  rw [members, List.filter_eq_nil_iff]
  intro row hrow
  rw [decide_eq_true_eq]
  rintro rfl
  exact h (List.mem_map_of_mem hrow)

lemma mem_members {row : ρ} {k : κ} : row ∈ members key rows k ↔ row ∈ rows ∧ key row = k := by
  simp [members]

lemma members_perm {rows' : List ρ} (h : rows.Perm rows') (k : κ) :
    (members key rows k).Perm (members key rows' k) := h.filter _

lemma grouped_nil : Grouped key label holds [] [] :=
  ⟨.nil, fun k => by simp, fun _ h => (nomatch h)⟩

/-- A row joins the group of its key, which is replaced in its place. -/
theorem Grouped.join (h : Grouped key label holds rows groups) {row : ρ} {position : Nat}
    {group group' : γ} (hat : groups[position]? = some group) (hkey : label group = key row)
    (hlabel : label group' = label group)
    (hholds : holds (members key rows (label group)) group →
      holds (members key rows (label group) ++ [row]) group') :
    Grouped key label holds (rows ++ [row]) (groups.set position group') := by
  obtain ⟨hlt, hget⟩ := List.getElem?_eq_some_iff.mp hat
  have hmem := List.mem_of_getElem? hat
  have hsame : (groups.set position group').map label = groups.map label := by
    have hbound : position < (groups.map label).length := by rwa [List.length_map]
    have hlabelled : (groups.map label)[position] = label group := by rw [List.getElem_map, hget]
    rw [List.map_set, hlabel, ← hlabelled, List.set_getElem_self]
  constructor
  · rw [hsame]
    exact h.nodup
  · intro k
    rw [hsame, h.labels, List.map_append, List.mem_append]
    constructor
    · exact .inl
    · rintro (hk | hk)
      · exact hk
      · rw [List.map_cons, List.map_nil, List.mem_singleton] at hk
        rw [hk, ← hkey, ← h.labels]
        exact List.mem_map_of_mem hmem
  · intro other hother
    obtain ⟨index, hindex⟩ := List.mem_iff_getElem?.mp hother
    rw [List.getElem?_set] at hindex
    split_ifs at hindex with hposition
    · obtain rfl := Option.some.inj hindex
      rw [hlabel, members_concat_same hkey.symm]
      exact hholds (h.holds group hmem)
    · -- Labels stand once each, so another position's is not the row's key.
      have hne : key row ≠ label other := by
        intro heq
        apply hposition
        apply (List.getElem?_inj (by rwa [List.length_map]) h.nodup).mp
        rw [List.getElem?_map, List.getElem?_map, hat, hindex, Option.map_some, Option.map_some, hkey,
          heq]
      rw [members_concat_other hne]
      exact h.holds other (List.mem_of_getElem? hindex)

/-- A row of a new key founds a group. -/
theorem Grouped.found (h : Grouped key label holds rows groups) {row : ρ} {group : γ}
    (hnew : key row ∉ groups.map label) (hkey : label group = key row) (hholds : holds [row] group) :
    Grouped key label holds (rows ++ [row]) (groups ++ [group]) := by
  have hnone : members key rows (key row) = [] :=
    members_eq_nil (fun hmem => hnew ((h.labels _).mpr hmem))
  constructor
  · rw [List.map_append, List.map_cons, List.map_nil, hkey]
    rw [← List.concat_eq_append]
    exact h.nodup.concat hnew
  · intro k
    simp only [List.map_append, List.mem_append, h.labels, List.map_cons, List.map_nil, hkey]
  · intro other hother
    rcases List.mem_append.mp hother with hother | hother
    · have hne : key row ≠ label other := fun heq => hnew (heq ▸ List.mem_map_of_mem hother)
      rw [members_concat_other hne]
      exact h.holds other hother
    · obtain rfl := List.mem_singleton.mp hother
      rw [hkey, members_concat_same rfl, hnone]
      exact hholds

/-- The groups in another order are the rows' groups as well. -/
lemma Grouped.perm (h : Grouped key label holds rows groups) {groups' : List γ}
    (hperm : groups'.Perm groups) : Grouped key label holds rows groups' where
  nodup := (hperm.map label).nodup_iff.mpr h.nodup
  labels k := (hperm.map label).mem_iff.trans (h.labels k)
  holds group hgroup := h.holds group (hperm.mem_iff.mp hgroup)

/-- Once the groups stand in a strict order of their labels, rows that came in another order make the
same groups. -/
theorem Grouped.labels_unique {β : Type*} [PartialOrder β] {rank : κ → β} {rows' : List ρ}
    {groups' : List γ} (h : Grouped key label holds rows groups)
    (h' : Grouped key label holds rows' groups') (hperm : rows.Perm rows')
    (hsorted : (groups.map label).Pairwise (fun a b => rank a < rank b))
    (hsorted' : (groups'.map label).Pairwise (fun a b => rank a < rank b)) :
    groups.map label = groups'.map label := by
  have hsame : (groups.map label).Perm (groups'.map label) := by
    rw [List.perm_ext_iff_of_nodup h.nodup h'.nodup]
    intro k
    rw [h.labels, h'.labels]
    exact (hperm.map key).mem_iff
  exact List.Perm.eq_of_pairwise (fun a b _ _ hab hba => absurd hab hba.asymm) hsorted hsorted' hsame

end Grouping
