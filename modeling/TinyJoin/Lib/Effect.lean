import Mathlib.Logic.Basic

/-! Computations that read and change a state and may fail, where a failure keeps the state it had
reached; and what holds when they return and when they fail. -/

/-- A result that needs two steps needs both. -/
lemma Except.bind_eq_ok {ε α β : Type} {x : Except ε α} {f : α → Except ε β} {b : β} :
    (x >>= f) = .ok b ↔ ∃ a, x = .ok a ∧ f a = .ok b := by
  cases x with
  | error e => exact ⟨fun h => (nomatch h), fun ⟨_, h, _⟩ => (nomatch h)⟩
  | ok a => exact ⟨fun h => ⟨a, rfl, h⟩, by rintro ⟨_, ⟨⟩, h⟩; exact h⟩

/-- A result behind a check needs the check. -/
lemma Except.check_bind_eq_ok {ε β : Type} {check : Except ε Unit} {x : Unit → Except ε β} {b : β} :
    (check >>= x) = .ok b ↔ check = .ok () ∧ x () = .ok b := by
  rw [Except.bind_eq_ok]
  exact ⟨fun ⟨_, h⟩ => h, fun h => ⟨(), h⟩⟩

/-- A result behind a refusal needs that it is not refused. -/
lemma Except.ite_error_eq_ok {ε α : Type} {c : Prop} [Decidable c] {e : ε} {x : Except ε α}
    {a : α} : (if c then .error e else x) = .ok a ↔ ¬c ∧ x = .ok a := by
  by_cases h : c
  · rw [if_pos h]
    exact ⟨fun h' => (nomatch h'), fun h' => absurd h h'.1⟩
  · rw [if_neg h]
    exact ⟨fun h' => ⟨h, h'⟩, fun h' => h'.2⟩

lemma Except.mapError_eq_ok {ε α : Type} {f : ε → ε} {x : Except ε α} {a : α} :
    x.mapError f = .ok a ↔ x = .ok a := by
  cases x with
  | ok b => rfl
  | error e => exact ⟨fun h => (nomatch h), fun h => (nomatch h)⟩

lemma Except.map_eq_ok {ε α β : Type} {f : α → β} {x : Except ε α} {b : β} :
    f <$> x = .ok b ↔ ∃ a, x = .ok a ∧ f a = b := by
  cases x with
  | error e => exact ⟨fun h => (nomatch h), fun ⟨_, h, _⟩ => (nomatch h)⟩
  | ok a => exact ⟨fun h => ⟨a, rfl, Except.ok.inj h⟩, by rintro ⟨_, ⟨⟩, rfl⟩; rfl⟩

/-- A computation over the state `σ` which returns an `α` or fails with an `ε`. -/
def Effect (σ ε α : Type) : Type := σ → Except ε α × σ

namespace Effect
variable {σ τ ε α β : Type}

instance : Monad (Effect σ ε) where
  pure a := fun s => (.ok a, s)
  bind m f := fun s =>
    match m s with
    | (.ok a, s') => f a s'
    | (.error e, s') => (.error e, s')

def fail (e : ε) : Effect σ ε α := fun s => (.error e, s)
def get : Effect σ ε σ := fun s => (.ok s, s)
def modify (f : σ → σ) : Effect σ ε Unit := fun s => (.ok (), f s)

/-- A result that neither reads nor changes the state. -/
def ofExcept (r : Except ε α) : Effect σ ε α := fun s => (r, s)

/-- Runs `handler` from the state in which `m` failed. -/
def orElse (m : Effect σ ε α) (handler : ε → Effect σ ε α) : Effect σ ε α := fun s =>
  match m s with
  | (.ok a, s') => (.ok a, s')
  | (.error e, s') => handler e s'

/-- Runs an action on one part of a larger state. -/
def focus (part : σ → τ) (set : τ → σ → σ) (m : Effect τ ε α) : Effect σ ε α := fun s =>
  let (result, t) := m (part s)
  (result, set t s)

/-- Runs an action for each element in turn, up to the first that fails. -/
def forEach (f : β → Effect σ ε Unit) : List β → Effect σ ε Unit
  | [] => pure ()
  | b :: rest => do
    f b
    forEach f rest

/-- From `s`, `m` returns in `Q` or fails in `E`. -/
def Ends (m : Effect σ ε α) (s : σ) (Q : α → σ → Prop) (E : ε → σ → Prop) : Prop :=
  match m s with
  | (.ok a, s') => Q a s'
  | (.error e, s') => E e s'

section Rules
variable {m : Effect σ ε α} {s : σ} {Q Q' : α → σ → Prop} {E E' : ε → σ → Prop}

lemma ends_def : m.Ends s Q E ↔ (∀ a s', m s = (.ok a, s') → Q a s') ∧
    (∀ e s', m s = (.error e, s') → E e s') := by
  rw [Ends]
  rcases m s with ⟨a | e, s'⟩
  · exact ⟨fun h => ⟨fun _ _ h' => (nomatch h'), by rintro _ _ ⟨⟩; exact h⟩,
      fun h => h.2 _ _ rfl⟩
  · exact ⟨fun h => ⟨by rintro _ _ ⟨⟩; exact h, fun _ _ h' => (nomatch h')⟩,
      fun h => h.1 _ _ rfl⟩

lemma Ends.mono (h : m.Ends s Q E) (hQ : ∀ a s', Q a s' → Q' a s')
    (hE : ∀ e s', E e s' → E' e s') : m.Ends s Q' E' := by
  rw [ends_def] at h ⊢
  exact ⟨fun a s' heq => hQ a s' (h.1 a s' heq), fun e s' heq => hE e s' (h.2 e s' heq)⟩

lemma Ends.and (h : m.Ends s Q E) (h' : m.Ends s Q' E') :
    m.Ends s (fun a s' => Q a s' ∧ Q' a s') (fun e s' => E e s' ∧ E' e s') := by
  rw [ends_def] at h h' ⊢
  exact ⟨fun a s' heq => ⟨h.1 a s' heq, h'.1 a s' heq⟩,
    fun e s' heq => ⟨h.2 e s' heq, h'.2 e s' heq⟩⟩

lemma Ends.ok (h : m.Ends s Q E) {a : α} {s' : σ} (heq : m s = (.ok a, s')) : Q a s' :=
  (ends_def.mp h).1 a s' heq

lemma Ends.error (h : m.Ends s Q E) {e : ε} {s' : σ} (heq : m s = (.error e, s')) : E e s' :=
  (ends_def.mp h).2 e s' heq

@[simp] lemma ends_pure {a : α} : (pure a : Effect σ ε α).Ends s Q E ↔ Q a s := Iff.rfl
@[simp] lemma ends_fail {e : ε} : (fail e : Effect σ ε α).Ends s Q E ↔ E e s := Iff.rfl
@[simp] lemma ends_get {Q : σ → σ → Prop} : (get : Effect σ ε σ).Ends s Q E ↔ Q s s := Iff.rfl
@[simp] lemma ends_modify {f : σ → σ} {Q : Unit → σ → Prop} :
    (modify f : Effect σ ε Unit).Ends s Q E ↔ Q () (f s) := Iff.rfl

@[simp] lemma ends_ofExcept_ok {a : α} :
    (ofExcept (.ok a) : Effect σ ε α).Ends s Q E ↔ Q a s := Iff.rfl
@[simp] lemma ends_ofExcept_error {e : ε} :
    (ofExcept (.error e) : Effect σ ε α).Ends s Q E ↔ E e s := Iff.rfl

lemma ends_ofExcept {r : Except ε α} : (ofExcept r : Effect σ ε α).Ends s Q E ↔
    (∀ a, r = .ok a → Q a s) ∧ (∀ e, r = .error e → E e s) := by
  cases r with
  | ok a => exact ⟨fun h => ⟨by rintro _ ⟨⟩; exact h, fun _ h' => (nomatch h')⟩, fun h => h.1 a rfl⟩
  | error e =>
    exact ⟨fun h => ⟨fun _ h' => (nomatch h'), by rintro _ ⟨⟩; exact h⟩, fun h => h.2 e rfl⟩

@[simp] lemma ends_bind {f : α → Effect σ ε β} {Q : β → σ → Prop} :
    (m >>= f).Ends s Q E ↔ m.Ends s (fun a s' => (f a).Ends s' Q E) E := by
  rw [Ends, Ends]
  simp only [bind]
  rcases m s with ⟨a | e, s'⟩
  · rfl
  · rfl

@[simp] lemma ends_map {f : α → β} {Q : β → σ → Prop} :
    (f <$> m).Ends s Q E ↔ m.Ends s (fun a s' => Q (f a) s') E := by
  have hmap : f <$> m = m >>= fun a => pure (f a) := rfl
  rw [hmap, ends_bind]
  simp only [ends_pure]

@[simp] lemma ends_orElse {handler : ε → Effect σ ε α} :
    (m.orElse handler).Ends s Q E ↔ m.Ends s Q (fun e s' => (handler e).Ends s' Q E) := by
  rw [Ends, Ends, orElse]
  rcases m s with ⟨a | e, s'⟩
  · rfl
  · rfl

@[simp] lemma ends_focus {part : σ → τ} {set : τ → σ → σ} {m : Effect τ ε α} :
    (focus part set m).Ends s Q E ↔
      m.Ends (part s) (fun a t => Q a (set t s)) (fun e t => E e (set t s)) := by
  rw [Ends, Ends, focus]
  rcases m (part s) with ⟨a | e, t⟩
  · rfl
  · rfl

/-- A loop keeps what each of its rounds keeps, and passes what each of them checks. -/
lemma ends_forEach_all {f : β → Effect σ ε Unit} {I : σ → Prop} {R : β → Prop}
    {F : ε → σ → Prop} {l : List β} (hs : I s)
    (h : ∀ b ∈ l, ∀ s, I s → (f b).Ends s (fun _ s' => I s' ∧ R b) F) :
    (forEach f l).Ends s (fun _ s' => I s' ∧ ∀ b ∈ l, R b) F := by
  induction l generalizing s with
  | nil => exact ⟨hs, fun _ hb => (nomatch hb)⟩
  | cons b l ih =>
    rw [forEach, ends_bind]
    refine (h b List.mem_cons_self s hs).mono ?_ (fun _ _ hF => hF)
    rintro _ s' ⟨hs', hb⟩
    refine (ih hs' (fun b hb => h b (List.mem_cons_of_mem _ hb))).mono ?_ (fun _ _ hF => hF)
    rintro _ s'' ⟨hs'', hl⟩
    exact ⟨hs'', List.forall_mem_cons.mpr ⟨hb, hl⟩⟩

/-- What holds of the final state, however the action ends. -/
lemma ends_of_final {P : σ → Prop} (h : P (m s).2) : m.Ends s (fun _ s' => P s') (fun _ s' => P s') := by
  rw [ends_def]
  exact ⟨fun _ _ heq => by rw [heq] at h; exact h, fun _ _ heq => by rw [heq] at h; exact h⟩

lemma final_of_ends {P : σ → Prop} (h : m.Ends s (fun _ s' => P s') (fun _ s' => P s')) :
    P (m s).2 := by
  rw [Ends] at h
  rcases heq : m s with ⟨e | a, s'⟩
  · rw [heq] at h
    exact h
  · rw [heq] at h
    exact h

end Rules

/-! What an action does from one state. -/

section Runs
variable {m : Effect σ ε α} {s s' : σ}

lemma bind_of_ok {f : α → Effect σ ε β} {a : α} (h : m s = (.ok a, s')) : (m >>= f) s = f a s' := by
  simp only [bind, h]

lemma bind_of_error {f : α → Effect σ ε β} {e : ε} (h : m s = (.error e, s')) :
    (m >>= f) s = (.error e, s') := by
  simp only [bind, h]

lemma orElse_of_ok {handler : ε → Effect σ ε α} {a : α} (h : m s = (.ok a, s')) :
    m.orElse handler s = (.ok a, s') := by
  simp only [orElse, h]

lemma orElse_of_error {handler : ε → Effect σ ε α} {e : ε} (h : m s = (.error e, s')) :
    m.orElse handler s = handler e s' := by
  simp only [orElse, h]

lemma bind_congr_run {f : α → Effect σ ε β} {n : Effect σ ε α} (h : m s = n s') :
    (m >>= f) s = (n >>= f) s' := by
  simp only [bind, h]

/-- What is behind a failure is not done. -/
lemma bind_fail_bind {f : β → Effect σ ε τ} {e : ε} :
    ((m >>= fun _ => (fail e : Effect σ ε β)) >>= f) s =
      (m >>= fun _ => (fail e : Effect σ ε τ)) s := by
  simp only [bind, fail]
  rcases m s with ⟨_ | _, _⟩
  · rfl
  · rfl

lemma get_bind {f : σ → Effect σ ε β} : (get >>= f) s = f s s := rfl

lemma modify_bind {g : σ → σ} {f : Unit → Effect σ ε β} : (modify g >>= f) s = f () (g s) := rfl

end Runs

lemma ofExcept_ok_bind (a : α) (f : α → Effect σ ε β) : ofExcept (.ok a) >>= f = f a := rfl

/-- However it ends, an action leaves a state with what the state before it had. -/
def Keeps (I : σ → Prop) (m : Effect σ ε α) : Prop :=
  ∀ s, I s → m.Ends s (fun _ s' => I s') (fun _ s' => I s')

section Keeps
variable {I : σ → Prop} {m : Effect σ ε α} {f : α → Effect σ ε β}

lemma keeps_pure (a : α) : Keeps I (pure a : Effect σ ε α) := fun _ h => h
lemma keeps_fail (e : ε) : Keeps I (fail e : Effect σ ε α) := fun _ h => h
lemma keeps_get : Keeps I (get : Effect σ ε σ) := fun _ h => h

lemma keeps_ofExcept (r : Except ε α) : Keeps I (ofExcept r : Effect σ ε α) := fun _ h =>
  ends_ofExcept.mpr ⟨fun _ _ => h, fun _ _ => h⟩

lemma Keeps.bind (h : Keeps I m) (hf : ∀ a, Keeps I (f a)) : Keeps I (m >>= f) := by
  intro s hs
  rw [ends_bind]
  exact (h s hs).mono (fun a s' hs' => hf a s' hs') (fun _ _ hs' => hs')

lemma keeps_modify {f : σ → σ} (h : ∀ s, I s → I (f s)) : Keeps I (modify f : Effect σ ε Unit) := h

lemma Keeps.map {g : α → β} (h : Keeps I m) : Keeps I (g <$> m) := by
  intro s hs
  rw [ends_map]
  exact h s hs

lemma Keeps.orElse {handler : ε → Effect σ ε α} (h : Keeps I m) (hh : ∀ e, Keeps I (handler e)) :
    Keeps I (m.orElse handler) := by
  intro s hs
  rw [ends_orElse]
  exact (h s hs).mono (fun _ _ hs' => hs') (fun e s' hs' => hh e s' hs')

/-- An action on a part of the state keeps what does not depend on that part. -/
lemma keeps_focus {part : σ → τ} {set : τ → σ → σ} {n : Effect τ ε α}
    (h : ∀ t s, I s → I (set t s)) : Keeps I (focus part set n) := by
  intro s hs
  rw [ends_focus]
  exact ends_of_final (h _ s hs)

lemma Keeps.final (h : Keeps I m) {s : σ} (hs : I s) : I (m s).2 := final_of_ends (h s hs)

lemma Keeps.ite {c : Prop} [Decidable c] {n : Effect σ ε α} (h : Keeps I m) (h' : Keeps I n) :
    Keeps I (if c then m else n) := by
  split
  · exact h
  · exact h'

lemma Keeps.forEach {g : β → Effect σ ε Unit} {l : List β} (h : ∀ b ∈ l, Keeps I (g b)) :
    Keeps I (forEach g l) := by
  induction l with
  | nil => exact keeps_pure ()
  | cons b l ih =>
    rw [List.forall_mem_cons] at h
    exact h.1.bind (fun _ => ih h.2)

end Keeps

/-- A loop that only changes the state changes it once for each element, and does not fail. -/
lemma forEach_modify (f : β → σ → σ) (l : List β) (s : σ) :
    forEach (fun b => (modify (f b) : Effect σ ε Unit)) l s =
      (.ok (), l.foldl (fun s b => f b s) s) := by
  induction l generalizing s with
  | nil => rfl
  | cons b l ih => exact ih (f b s)

/-- A loop on a part of the state is the loop's effect on that part. -/
lemma forEach_focus {part : σ → τ} {set : τ → σ → σ} (hpart : ∀ t s, part (set t s) = t)
    (hset : ∀ t t' s, set t' (set t s) = set t' s) (hself : ∀ s, set (part s) s = s)
    (f : β → Effect τ ε Unit) (l : List β) :
    forEach (fun b => focus part set (f b)) l = focus part set (forEach f l) := by
  induction l with
  | nil =>
    funext s
    simp only [forEach, focus, pure, hself]
  | cons b l ih =>
    funext s
    rw [forEach, ih, forEach]
    simp only [bind, focus]
    rcases f b (part s) with ⟨_ | _, t⟩
    · rfl
    · simp only [hpart, hset]

end Effect
