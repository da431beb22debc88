/-!
# Outcomes

Reading and rendering end with their first failure. These are the steps by which a proof goes
through what succeeded, or finds what failed.
-/

namespace TypedTemplate

variable {ε α β : Type}

theorem map_eq_ok {f : α → β} {x : Except ε α} {b : β} :
    x.map f = .ok b ↔ ∃ a, x = .ok a ∧ f a = b := by
  cases x <;> simp [Except.map]

theorem map_eq_error {f : α → β} {x : Except ε α} {e : ε} : x.map f = .error e ↔ x = .error e := by
  cases x <;> simp [Except.map]

theorem toOption_eq_some {x : Except ε α} {a : α} : x.toOption = some a ↔ x = .ok a := by
  cases x <;> simp [Except.toOption]

theorem exists_of_isOk {x : Except ε α} (h : x.isOk = true) : ∃ a, x = .ok a := by
  cases x with
  | ok a => exact ⟨a, rfl⟩
  | error => cases h

/-- What does not succeed fails. -/
theorem exists_error_iff {x : Except ε α} : (∃ e, x = .error e) ↔ ¬∃ a, x = .ok a := by
  cases x <;> simp

/-- A computation that can be carried out shows that it succeeds, and with what. -/
theorem exists_eq_ok {x : Except ε α} {p : α → Bool}
    (h : (match x with | .ok a => p a | .error _ => false) = true) :
    ∃ a, x = .ok a ∧ p a = true := by
  cases x with
  | ok a => exact ⟨a, rfl, h⟩
  | error => cases h

/-- A computation that can be carried out shows that it fails, and with what. -/
theorem exists_eq_error {x : Except ε α} {p : ε → Bool}
    (h : (match x with | .ok _ => false | .error e => p e) = true) :
    ∃ e, x = .error e ∧ p e = true := by
  cases x with
  | ok a => cases h
  | error e => exact ⟨e, rfl, h⟩

/-- The failure, where there is one. -/
def failure? : Except ε α → Option ε
  | .ok _ => none
  | .error e => some e

theorem failure?_eq_none {x : Except ε α} : failure? x = none ↔ ∃ a, x = .ok a := by
  cases x <;> simp [failure?]

theorem failure?_eq_some {x : Except ε α} {e : ε} : failure? x = some e ↔ x = .error e := by
  cases x <;> simp [failure?]

/-- No member of a list fails where all of them succeed. -/
theorem findSome?_failure?_eq_none {f : β → Except ε α} {l : List β} :
    l.findSome? (fun b => failure? (f b)) = none ↔ ∀ b ∈ l, ∃ a, f b = .ok a := by
  simp only [List.findSome?_eq_none_iff, failure?_eq_none]

/-- A function goes through a list step by step, up to the first failure. -/
structure RunsBy {γ : Type} (step : α → Except ε β) (join : α → β → γ → γ) (c : γ)
    (run : List α → Except ε γ) : Prop where
  nil : run [] = .ok c
  cons : ∀ a as, run (a :: as) =
    match step a with
    | .error e => .error e
    | .ok b => (run as).map (join a b)

/-- What goes through a list fails because a step does. -/
theorem RunsBy.exists_of_error {γ : Type} {step : α → Except ε β} {join : α → β → γ → γ} {c : γ}
    {run : List α → Except ε γ} (hrun : RunsBy step join c run) {as : List α} {e : ε}
    (h : run as = .error e) : ∃ a ∈ as, step a = .error e := by
  induction as with
  | nil => rw [hrun.nil] at h; cases h
  | cons a as ih =>
    rw [hrun.cons] at h
    cases ha : step a with
    | error e' => rw [ha] at h; cases h; exact ⟨a, List.mem_cons_self, ha⟩
    | ok b =>
      rw [ha] at h
      obtain ⟨a', hmem, ha'⟩ := ih (map_eq_error.mp h)
      exact ⟨a', List.mem_cons_of_mem _ hmem, ha'⟩

/-! ## Both ways to end -/

/-- A computation succeeds with what is good, or fails with what is bad. -/
def EndsIn (good : α → Prop) (bad : ε → Prop) : Except ε α → Prop
  | .ok a => good a
  | .error e => bad e

namespace EndsIn

variable {good : α → Prop} {bad : ε → Prop} {x : Except ε α}

theorem intro (hok : ∀ a, x = .ok a → good a) (herror : ∀ e, x = .error e → bad e) :
    EndsIn good bad x := by
  cases x with
  | ok a => exact hok a rfl
  | error e => exact herror e rfl

theorem of_ok (h : EndsIn good bad x) {a : α} (hx : x = .ok a) : good a := by
  subst hx
  exact h

theorem of_error (h : EndsIn good bad x) {e : ε} (hx : x = .error e) : bad e := by
  subst hx
  exact h

theorem map {goods : β → Prop} {f : α → β} (h : EndsIn good bad x)
    (hf : ∀ a, x = .ok a → good a → goods (f a)) : EndsIn goods bad (x.map f) := by
  cases x with
  | ok a => exact hf a rfl h
  | error e => exact h

/-- What every step keeps or fails badly from, a run keeps or fails badly from. -/
theorem foldlM {P : β → Prop} {f : β → α → Except ε β} {as : List α}
    (step : ∀ a ∈ as, ∀ b, P b → EndsIn P bad (f b a)) {b : β} (hb : P b) :
    EndsIn P bad (as.foldlM f b) := by
  induction as generalizing b with
  | nil => exact hb
  | cons a as ih =>
    rw [List.forall_mem_cons] at step
    have hfirst := step.1 b hb
    rw [List.foldlM_cons]
    cases ha : f b a with
    | error e => exact hfirst.of_error ha
    | ok c => exact ih step.2 (hfirst.of_ok ha)

end EndsIn

/-! ## Two computations -/

/-- **Two computations end alike**: with the same value, or with failures that look the same. -/
inductive EndsAlike {δ : Type} (view : ε → δ) : Except ε α → Except ε α → Prop where
  | ok (a : α) : EndsAlike view (.ok a) (.ok a)
  | error {e e' : ε} (same : view e = view e') : EndsAlike view (.error e) (.error e')

namespace EndsAlike

variable {δ : Type} {view : ε → δ} {x y z : Except ε α}

theorem refl (x : Except ε α) : EndsAlike view x x := by
  cases x with
  | ok a => exact .ok a
  | error e => exact .error rfl

theorem of_eq (h : x = y) : EndsAlike view x y := h ▸ refl x

theorem trans (h : EndsAlike view x y) (h' : EndsAlike view y z) : EndsAlike view x z := by
  cases h with
  | ok => exact h'
  | error same => cases h' with | error same' => exact .error (same.trans same')

/-- Nothing is lost where failures are looked at in full. -/
theorem eq (h : EndsAlike id x y) : x = y := by
  cases h with
  | ok => rfl
  | error same => exact congrArg Except.error same

theorem toOption_eq (h : EndsAlike view x y) : x.toOption = y.toOption := by
  cases h <;> rfl

theorem map (h : EndsAlike view x y) (f : α → β) : EndsAlike view (x.map f) (y.map f) := by
  cases h with
  | ok a => exact .ok (f a)
  | error same => exact .error same

end EndsAlike

/-- **Runs end alike** if their first steps do and the rest does. -/
theorem RunsBy.cons_alike {β' γ δ : Type} {view : ε → δ} {step : β → Except ε α}
    {step' : β' → Except ε α} {join : β → α → γ → γ} {join' : β' → α → γ → γ} {c c' : γ}
    {run : List β → Except ε γ} {run' : List β' → Except ε γ} (hrun : RunsBy step join c run)
    (hrun' : RunsBy step' join' c' run') {b : β} {b' : β'} {bs : List β} {bs' : List β'}
    (hfirst : EndsAlike view (step b) (step' b')) (hjoin : join b = join' b')
    (hrest : EndsAlike view (run bs) (run' bs')) :
    EndsAlike view (run (b :: bs)) (run' (b' :: bs')) := by
  rw [hrun.cons, hrun'.cons]
  generalize step b = x at hfirst
  generalize step' b' = y at hfirst
  cases hfirst with
  | ok a => exact hjoin ▸ hrest.map (join b a)
  | error same => exact .error same

end TypedTemplate
