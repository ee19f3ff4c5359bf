import TinyJoin.Lib.OrderCode

/-! Words by a part that leads them. A bound that no leading part is a proper prefix of cleaves words as it
cleaves their leading parts. -/
namespace OrderCode
universe u
variable {β : Type u} [LinearOrder β]

/-- A word is apart from a bound, is the bound, or has it as a prefix. -/
def Cleaves (bound word : List β) : Prop :=
  Before word bound ∨ bound <+: word ∨ Before bound word

lemma cleaves_of_cases {bound word : List β} (h : Before word bound ∨ word = bound ∨ Before bound word) :
    Cleaves bound word := by
  rcases h with h | rfl | h
  · exact .inl h
  · exact .inr (.inl (List.prefix_refl _))
  · exact .inr (.inr h)

lemma le_append (word rest : List β) : word ≤ word ++ rest := not_lt.mp List.le_append_left

/-- What a lower bound admits of words, it admits of their leading parts. -/
lemma Cleaves.le_append_iff {bound word : List β} (h : Cleaves bound word) (rest : List β) :
    bound ≤ word ++ rest ↔ bound ≤ word := by
  refine ⟨fun hle => ?_, fun hle => hle.trans (le_append word rest)⟩
  rcases h with h | ⟨more, rfl⟩ | h
  · have hlt := (h.append rest []).lt
    rw [List.append_nil] at hlt
    exact absurd hle hlt.not_ge
  · exact le_append bound more
  · exact h.lt.le

/-- Words whose leading parts are apart, or the same, are ordered as those are. -/
lemma leading_le {word other rest more : List β}
    (h : Before word other ∨ word = other ∨ Before other word) (hlt : word ++ rest < other ++ more) :
    word ≤ other := by
  rcases h with h | rfl | h
  · exact h.lt.le
  · exact le_rfl
  · exact absurd hlt ((h.append more rest).lt.not_gt)

/-- Words that a letter greater than another's ends lie past those the other's word leads. -/
lemma append_lt_of_before {p tail word rest : List β} {a b : β} (hab : a < b)
    (h : Before word (p ++ a :: tail)) : word ++ rest < p ++ [b] := by
  induction p generalizing word with
  | nil =>
    cases h with
    | here hlt => exact List.cons_lt_cons_iff.mpr (.inl (hlt.trans hab))
    | there h => exact List.cons_lt_cons_iff.mpr (.inl hab)
  | cons c p ih =>
    cases h with
    | here hlt => exact List.cons_lt_cons_iff.mpr (.inl hlt)
    | there h => exact List.cons_lt_cons_iff.mpr (.inr ⟨rfl, ih h⟩)

lemma append_lt_of_eq {p tail rest : List β} {a b : β} (hab : a < b) :
    (p ++ a :: tail) ++ rest < p ++ [b] := by
  rw [List.append_assoc]
  exact ((Before.here hab : Before (a :: (tail ++ rest)) [b]).prepend p).lt

/-- Words past a bound whose last letters are the greatest there are lie at or past the word its
last other letter is increased in. -/
lemma le_append_of_before {p tail word : List β} {a b : β} (rest : List β)
    (htail : ∀ c ∈ tail, ∀ d, d ≤ c) (hnext : ∀ c, a < c → b ≤ c)
    (h : Before (p ++ a :: tail) word) : p ++ [b] ≤ word ++ rest := by
  have hnone : ∀ {tail : List β} {word : List β}, (∀ c ∈ tail, ∀ d, d ≤ c) → ¬Before tail word := by
    intro tail word hall hbefore
    induction hbefore with
    | here hlt => exact absurd hlt (hall _ List.mem_cons_self _).not_gt
    | there _ ih => exact ih (fun c hc => hall c (List.mem_cons_of_mem _ hc))
  induction p generalizing word with
  | nil =>
    cases h with
    | here hlt =>
      rcases (hnext _ hlt).eq_or_lt with rfl | hlt
      · exact le_append [_] _
      · exact (List.cons_lt_cons_iff.mpr (.inl hlt)).le
    | there h => exact absurd h (hnone htail)
  | cons c p ih =>
    cases h with
    | here hlt => exact (List.cons_lt_cons_iff.mpr (.inl hlt)).le
    | there h => exact List.cons_le_cons c (ih h)

/-- No word lies past a bound of letters that are the greatest there are. -/
lemma le_of_greatest {bound word : List β} (hall : ∀ c ∈ bound, ∀ d, d ≤ c)
    (h : Before word bound ∨ word = bound ∨ Before bound word) : word ≤ bound := by
  rcases h with h | rfl | h
  · exact h.lt.le
  · exact le_rfl
  · induction h with
    | here hlt => exact absurd hlt (hall _ List.mem_cons_self _).not_gt
    | there _ ih => exact List.cons_le_cons _ (ih (fun c hc => hall c (List.mem_cons_of_mem _ hc)))

end OrderCode
