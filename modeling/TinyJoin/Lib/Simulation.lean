import TinyJoin.Lib.Effect

/-! Two effects run side by side, each on a state of its own: they return the same and stay related,
or fail alike. -/
namespace Effect
variable {σ τ ε α β : Type} {R S T : σ → τ → Prop} {m : Effect σ ε α} {n : Effect τ ε α}

lemma bind_assoc {γ : Type} (m : Effect σ ε α) (f : α → Effect σ ε β) (g : β → Effect σ ε γ) :
    (m >>= f) >>= g = m >>= fun a => f a >>= g := by
  funext s
  simp only [Bind.bind]
  rcases m s with ⟨e | a, s'⟩
  · rfl
  · rfl

lemma bind_of_run {f : α → Effect σ ε β} {s s' : σ} {a : α} (h : m s = (.ok a, s')) :
    (m >>= f) s = f a s' := by
  simp only [Bind.bind, h]

/-- A step whose outcome is known. -/
lemma ends_of_run {Q : α → σ → Prop} {E : ε → σ → Prop} {s s' : σ} {a : α} (h : m s = (.ok a, s')) :
    m.Ends s Q E ↔ Q a s' := by
  rw [Ends, h]

/-- What `n` does beside a run of `m` that has ended so. -/
def Alike (S : σ → τ → Prop) : Except ε α × σ → Except ε α × τ → Prop
  | (.ok a, s), (.ok b, t) => a = b ∧ S s t
  | (.error e, _), (.error f, _) => e = f
  | _, _ => False

/-- From states related by `R`, both return the same in states related by `S`, or both fail with the
same error. -/
def Simulates (R S : σ → τ → Prop) (m : Effect σ ε α) (n : Effect τ ε α) : Prop :=
  ∀ s t, R s t → Alike S (m s) (n t)

lemma Simulates.mono {R' S' : σ → τ → Prop} (h : Simulates R S m n) (hR : ∀ s t, R' s t → R s t)
    (hS : ∀ s t, S s t → S' s t) : Simulates R' S' m n := by
  intro s t hst
  have halike := h s t (hR s t hst)
  generalize m s = x at halike ⊢
  generalize n t = y at halike ⊢
  rcases x with ⟨e | a, s'⟩ <;> rcases y with ⟨f | b, t'⟩
  · exact halike
  · exact halike
  · exact halike
  · exact ⟨halike.1, hS s' t' halike.2⟩

lemma simulates_pure {a : α} : Simulates R R (pure a : Effect σ ε α) (pure a : Effect τ ε α) :=
  fun _ _ h => ⟨rfl, h⟩

lemma simulates_fail {e : ε} : Simulates R S (fail e : Effect σ ε α) (fail e : Effect τ ε α) :=
  fun _ _ _ => rfl

lemma Simulates.bind {f : α → Effect σ ε β} {g : α → Effect τ ε β} (h : Simulates R S m n)
    (hf : ∀ a, Simulates S T (f a) (g a)) : Simulates R T (m >>= f) (n >>= g) := by
  intro s t hst
  have halike := h s t hst
  simp only [Bind.bind]
  generalize m s = x at halike ⊢
  generalize n t = y at halike ⊢
  rcases x with ⟨e | a, s'⟩ <;> rcases y with ⟨e' | b, t'⟩
  · exact halike
  · exact halike.elim
  · exact halike.elim
  · obtain ⟨rfl, hs⟩ := halike
    exact hf a s' t' hs

lemma simulates_ite {c : Prop} [Decidable c] {m' : Effect σ ε α} {n' : Effect τ ε α}
    (h : c → Simulates R S m n) (h' : ¬c → Simulates R S m' n') :
    Simulates R S (if c then m else m') (if c then n else n') := by
  by_cases hc : c
  · rw [if_pos hc, if_pos hc]
    exact h hc
  · rw [if_neg hc, if_neg hc]
    exact h' hc

/-- Two sides whose rules leave them no way to differ. -/
lemma Simulates.of_ends {Q : σ → α → σ → Prop} {E : σ → ε → Prop} {W : τ → α → τ → Prop}
    {F : τ → ε → Prop}
    (hm : ∀ s t, R s t → m.Ends s (Q s) (fun e _ => E s e))
    (hn : ∀ s t, R s t → n.Ends t (W t) (fun e _ => F t e))
    (hok : ∀ s t a s' b t', R s t → Q s a s' → W t b t' → a = b ∧ S s' t')
    (herror : ∀ s t e f, R s t → E s e → F t f → e = f)
    (hleft : ∀ s t a s' f, R s t → Q s a s' → ¬F t f)
    (hright : ∀ s t e b t', R s t → E s e → ¬W t b t') : Simulates R S m n := by
  intro s t hst
  have hm := hm s t hst
  have hn := hn s t hst
  rw [Ends] at hm hn
  generalize m s = x at hm ⊢
  generalize n t = y at hn ⊢
  rcases x with ⟨e | a, s'⟩ <;> rcases y with ⟨f | b, t'⟩
  · exact herror s t e f hst hm hn
  · exact hright s t e b t' hst hm hn
  · exact hleft s t a s' f hst hm hn
  · exact hok s t a s' b t' hst hm hn

lemma Simulates.result (h : Simulates R S m n) {s : σ} {t : τ} (hst : R s t) :
    (m s).1 = (n t).1 := by
  have halike := h s t hst
  generalize m s = x at halike ⊢
  generalize n t = y at halike ⊢
  rcases x with ⟨e | a, s'⟩ <;> rcases y with ⟨f | b, t'⟩
  · exact congrArg Except.error halike
  · exact halike.elim
  · exact halike.elim
  · exact congrArg Except.ok halike.1

end Effect
