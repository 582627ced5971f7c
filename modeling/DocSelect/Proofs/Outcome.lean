/-!
# Outcomes of steps in order

Every fallible definition of the library chains its steps with the bind of `Except`. Such a
chain is taken apart here: a result has a result of the first step behind it, and an error is
that of the first step or of one behind it. So the errors of a chain are known from those of its
steps. Chains that fail alike and give results that look alike are related step by step, too.
-/

namespace DocSelect.Outcome

variable {ε α β : Type}

/-- A chain of steps gives a result exactly if its first step does and what follows does. -/
theorem bind_eq_ok {x : Except ε α} {f : α → Except ε β} {b : β} :
    x >>= f = .ok b ↔ ∃ a, x = .ok a ∧ f a = .ok b := by
  constructor
  · intro h
    cases x with
    | error e => cases h
    | ok a => exact ⟨a, rfl, h⟩
  · rintro ⟨a, rfl, h⟩
    exact h

/-- A chain of steps fails exactly if its first step does or, behind its result, what follows. -/
theorem bind_eq_error {x : Except ε α} {f : α → Except ε β} {e : ε} :
    x >>= f = .error e ↔ x = .error e ∨ ∃ a, x = .ok a ∧ f a = .error e := by
  cases x with
  | error e' =>
    constructor
    · intro h
      rw [Except.error.inj h]
      exact .inl rfl
    · rintro (h | ⟨a, h, _⟩)
      · rw [Except.error.inj h]
        rfl
      · cases h
  | ok a =>
    constructor
    · intro h
      exact .inr ⟨a, rfl, h⟩
    · rintro (h | ⟨a', ha, h⟩)
      · cases h
      · rwa [← Except.ok.inj ha] at h

/-- What follows goes on from a result. -/
theorem ok_bind (a : α) (f : α → Except ε β) : (.ok a : Except ε α) >>= f = f a := rfl

/-- Errors told in other words leave the results as they are. -/
theorem mapError_eq_ok {ε' : Type} {x : Except ε α} {f : ε → ε'} {a : α} :
    x.mapError f = .ok a ↔ x = .ok a := by
  cases x with
  | error e => exact ⟨nofun, nofun⟩
  | ok b =>
    constructor
    · intro h
      rw [Except.ok.inj h]
    · intro h
      rw [Except.ok.inj h]
      rfl

/-- The results of a list of runs each are that of one of them. -/
theorem mem_of_mapM_eq_ok {γ : Type} {f : γ → Except ε α} {cs : List γ} {as : List α} {a : α}
    (h : cs.mapM f = .ok as) (ha : a ∈ as) : ∃ c ∈ cs, f c = .ok a := by
  induction cs generalizing as with
  | nil =>
    obtain rfl := Except.ok.inj h
    cases ha
  | cons c cs ih =>
    rw [List.mapM_cons] at h
    obtain ⟨b, hb, h⟩ := bind_eq_ok.1 h
    obtain ⟨bs, hbs, h⟩ := bind_eq_ok.1 h
    obtain rfl := Except.ok.inj h
    rcases List.mem_cons.1 ha with rfl | ha
    · exact ⟨c, List.mem_cons_self, hb⟩
    · obtain ⟨d, hd, hfd⟩ := ih hbs ha
      exact ⟨d, List.mem_cons_of_mem c hd, hfd⟩

section Alike

variable {γ δ ζ : Type}

/-- Runs that look alike fail alike or have results that look alike. -/
theorem map_eq_map {f : α → δ} {g : β → δ} {x : Except ε α} {y : Except ε β}
    (h : f <$> x = g <$> y) :
    (∃ e, x = .error e ∧ y = .error e) ∨ ∃ a b, x = .ok a ∧ y = .ok b ∧ f a = g b := by
  cases x with
  | error e =>
    cases y with
    | error e' =>
      obtain rfl : e = e' := Except.error.inj h
      exact .inl ⟨e, rfl, rfl⟩
    | ok b => cases h
  | ok a =>
    cases y with
    | error e' => cases h
    | ok b => exact .inr ⟨a, b, rfl, rfl, Except.ok.inj h⟩

/-- Chains of steps fail alike and give results that look alike if their first steps do, and what
follows such results does. -/
theorem map_bind_congr {f : α → δ} {g : β → ζ} {x y : Except ε α} {k l : α → Except ε β}
    (h : f <$> x = f <$> y) (hk : ∀ a b, f a = f b → g <$> k a = g <$> l b) :
    g <$> (x >>= k) = g <$> (y >>= l) := by
  rcases map_eq_map h with ⟨e, rfl, rfl⟩ | ⟨a, b, rfl, rfl, hab⟩
  · rfl
  · exact hk a b hab

/-- Behind the same first step only what follows its result matters. -/
theorem map_bind_congr_right {g : β → ζ} {x : Except ε α} {k l : α → Except ε β}
    (hk : ∀ a, x = .ok a → g <$> k a = g <$> l a) : g <$> (x >>= k) = g <$> (x >>= l) := by
  cases x with
  | error e => rfl
  | ok a => exact hk a rfl

/-- Steps that fail alike and give results that look alike do so among others. -/
theorem map_mapM_congr {f : γ → Except ε α} {g : α → δ} (before after : List γ) {c d : γ}
    (h : g <$> f c = g <$> f d) :
    List.map g <$> (before ++ c :: after).mapM f =
      List.map g <$> (before ++ d :: after).mapM f := by
  induction before with
  | nil =>
    rw [List.nil_append, List.nil_append, List.mapM_cons, List.mapM_cons]
    refine map_bind_congr h fun a b hab ↦ map_bind_congr_right fun as _ ↦ ?_
    simp [hab]
  | cons b before ih =>
    rw [List.cons_append, List.cons_append, List.mapM_cons, List.mapM_cons]
    refine map_bind_congr_right fun a _ ↦ map_bind_congr ih fun as bs habs ↦ ?_
    simp [habs]

end Alike

section FailsOnly

/-- A run has no errors but some. -/
def FailsOnly (P : ε → Prop) (x : Except ε α) : Prop := ∀ e, x = .error e → P e

variable {P Q : ε → Prop} {x : Except ε α} {f : α → Except ε β}

/-- A result is no error. -/
theorem failsOnly_ok (a : α) : FailsOnly P (.ok a : Except ε α) := by
  intro e h
  cases h

/-- An error is the only one of its run. -/
theorem failsOnly_error {e : ε} (h : P e) : FailsOnly P (.error e : Except ε α) := by
  intro e' he
  rwa [← Except.error.inj he]

/-- The errors of a run are among more errors. -/
theorem FailsOnly.mono (h : FailsOnly P x) (hpq : ∀ e, P e → Q e) : FailsOnly Q x :=
  fun e he ↦ hpq e (h e he)

/-- A chain of steps has no errors but those of its first step and of what follows. -/
theorem FailsOnly.bind (h : FailsOnly P x) (hf : ∀ a, x = .ok a → FailsOnly P (f a)) :
    FailsOnly P (x >>= f) := by
  intro e he
  rcases bind_eq_error.1 he with he | ⟨a, ha, he⟩
  · exact h e he
  · exact hf a ha e he

end FailsOnly

section Unites

variable {γ α' β' γ' : Type}

/-- A run gives a result exactly if two others do, and then the three results are related. Which
error it has is left open. -/
inductive Unites (R : α → β → γ → Prop) : Except ε α → Except ε β → Except ε γ → Prop where
  | ok {a : α} {b : β} {c : γ} (h : R a b c) : Unites R (.ok a) (.ok b) (.ok c)
  | left {e e' : ε} {z : Except ε γ} : Unites R (.error e) (.error e') z
  | right {e e' : ε} {y : Except ε β} : Unites R (.error e) y (.error e')

variable {R : α → β → γ → Prop} {R' : α' → β' → γ' → Prop} {x : Except ε α} {y : Except ε β}
  {z : Except ε γ}

/-- Runs that give results together and relate them are united. -/
theorem Unites.of_iff (hok : (∃ a, x = .ok a) ↔ (∃ b, y = .ok b) ∧ ∃ c, z = .ok c)
    (h : ∀ a b c, x = .ok a → y = .ok b → z = .ok c → R a b c) : Unites R x y z := by
  cases y with
  | error e' =>
    cases x with
    | error e => exact .left
    | ok a =>
      obtain ⟨⟨b, hb⟩, _⟩ := hok.1 ⟨a, rfl⟩
      cases hb
  | ok b =>
    cases z with
    | error e' =>
      cases x with
      | error e => exact .right
      | ok a =>
        obtain ⟨_, c, hc⟩ := hok.1 ⟨a, rfl⟩
        cases hc
    | ok c =>
      obtain ⟨a, rfl⟩ := hok.2 ⟨⟨b, rfl⟩, c, rfl⟩
      exact .ok (h a b c rfl rfl rfl)

/-- United runs give results together. -/
theorem Unites.exists_iff (h : Unites R x y z) :
    (∃ a, x = .ok a) ↔ (∃ b, y = .ok b) ∧ ∃ c, z = .ok c := by
  cases h <;> simp

/-- The results of united runs are related. -/
theorem Unites.rel {a : α} {b : β} {c : γ} (h : Unites R x y z) (hx : x = .ok a) (hy : y = .ok b)
    (hz : z = .ok c) : R a b c := by
  subst hx hy hz
  cases h with
  | ok h => exact h

/-- Chains of steps are united if their first steps are and what follows related results is. -/
theorem Unites.bind {f : α → Except ε α'} {g : β → Except ε β'} {k : γ → Except ε γ'}
    (h : Unites R x y z) (hk : ∀ a b c, R a b c → Unites R' (f a) (g b) (k c)) :
    Unites R' (x >>= f) (y >>= g) (z >>= k) := by
  cases h with
  | ok h => exact hk _ _ _ h
  | left => exact .left
  | right => exact .right

end Unites

end DocSelect.Outcome
