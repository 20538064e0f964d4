-- When a computation that may fail succeeds: its parts did, and the result is
-- made from theirs.

namespace ChannelProtocol

variable {ε α β : Type}

/-- The computation gives a value. -/
def Succeeds (outcome : Except ε α) : Prop := ∃ value, outcome = .ok value

theorem succeeds_ok (value : α) : Succeeds (.ok value : Except ε α) := ⟨value, rfl⟩

theorem not_succeeds_error (error : ε) : ¬ Succeeds (.error error : Except ε α) := by
  rintro ⟨value, h⟩
  cases h

instance Succeeds.decidable (outcome : Except ε α) : Decidable (Succeeds outcome) :=
  match outcome with
  | .ok value => .isTrue (succeeds_ok value)
  | .error error => .isFalse (not_succeeds_error error)

/-- Whether a computation gives a certain value can be told without comparing errors. -/
instance decidableEqOk [DecidableEq α] (outcome : Except ε α) (value : α) :
    Decidable (outcome = .ok value) :=
  match outcome with
  | .ok other => decidable_of_iff (other = value) (by simp)
  | .error _ => .isFalse (by simp)

theorem succeeds_ite_iff {condition : Prop} [Decidable condition] {value : α} {error : ε} :
    Succeeds (if condition then .ok value else .error error) ↔ condition := by
  split
  · rename_i h
    exact iff_of_true (succeeds_ok value) h
  · rename_i h
    exact iff_of_false (not_succeeds_error error) h

/-! ## One computation after another -/

theorem bind_eq_ok_iff {first : Except ε α} {next : α → Except ε β} {result : β} :
    (first >>= next) = .ok result ↔ ∃ value, first = .ok value ∧ next value = .ok result := by
  cases first with
  | error error => simp [bind, Except.bind]
  | ok value => simp [bind, Except.bind]

theorem bind_eq_error_iff {first : Except ε α} {next : α → Except ε β} {error : ε} :
    (first >>= next) = .error error ↔
      first = .error error ∨ ∃ value, first = .ok value ∧ next value = .error error := by
  cases first with
  | error other => simp [bind, Except.bind]
  | ok value => simp [bind, Except.bind]

theorem map_eq_ok_iff {first : Except ε α} {f : α → β} {result : β} :
    first.map f = .ok result ↔ ∃ value, first = .ok value ∧ f value = result := by
  cases first with
  | error error => simp [Except.map]
  | ok value => simp [Except.map]

theorem map_eq_error_iff {first : Except ε α} {f : α → β} {error : ε} :
    first.map f = .error error ↔ first = .error error := by
  cases first with
  | error other => simp [Except.map]
  | ok value => simp [Except.map]

@[simp]
theorem succeeds_map_iff {first : Except ε α} {f : α → β} :
    Succeeds (first.map f) ↔ Succeeds first := by
  cases first with
  | error error => simp [Except.map, not_succeeds_error]
  | ok value => simp [Except.map, succeeds_ok]

@[simp]
theorem mapError_ok {δ : Type} (f : ε → δ) (value : α) :
    (.ok value : Except ε α).mapError f = .ok value := rfl

@[simp]
theorem mapError_error {δ : Type} (f : ε → δ) (error : ε) :
    (.error error : Except ε α).mapError f = .error (f error) := rfl

theorem mapError_eq_ok_iff {δ : Type} {first : Except ε α} {f : ε → δ} {value : α} :
    first.mapError f = .ok value ↔ first = .ok value := by
  cases first with
  | error error => simp
  | ok other => simp

theorem mapError_eq_error_iff {δ : Type} {first : Except ε α} {f : ε → δ} {error : δ} :
    first.mapError f = .error error ↔ ∃ cause, first = .error cause ∧ f cause = error := by
  cases first with
  | error cause => simp
  | ok value => simp

@[simp]
theorem succeeds_mapError_iff {δ : Type} {first : Except ε α} {f : ε → δ} :
    Succeeds (first.mapError f) ↔ Succeeds first := by
  unfold Succeeds
  simp only [mapError_eq_ok_iff]

theorem succeeds_bind_iff {first : Except ε α} {next : α → Except ε β} :
    Succeeds (first >>= next) ↔ ∃ value, first = .ok value ∧ Succeeds (next value) := by
  unfold Succeeds
  constructor
  · rintro ⟨result, h⟩
    obtain ⟨value, hv, hr⟩ := bind_eq_ok_iff.mp h
    exact ⟨value, hv, result, hr⟩
  · rintro ⟨value, hv, result, hr⟩
    exact ⟨result, bind_eq_ok_iff.mpr ⟨value, hv, hr⟩⟩

theorem succeeds_bind_pure_iff {first : Except ε α} {f : α → β} :
    Succeeds (first >>= fun value => pure (f value)) ↔ Succeeds first :=
  succeeds_map_iff

/-- Computations that agree in what `f` sees of their values agree in what `g` sees in the end, if
what follows them does. -/
theorem map_bind_congr {γ δ : Type} {first second : Except ε α} {next next' : α → Except ε β}
    {f : α → γ} {g : β → δ} (same : first.map f = second.map f)
    (after : ∀ value value', f value = f value' → (next value).map g = (next' value').map g) :
    (first >>= next).map g = (second >>= next').map g := by
  cases first with
  | error error => cases second <;> simp_all [Except.map, bind, Except.bind]
  | ok value =>
    cases second with
    | error error => simp [Except.map] at same
    | ok value' => exact after value value' (Except.ok.inj same)

/-! ## Lists of computations -/

/-- A list of computations is computed to the values of its members. -/
theorem mapM_eq_ok_iff {f : α → Except ε β} {inputs : List α} {results : List β} :
    inputs.mapM f = .ok results ↔ inputs.map f = results.map .ok := by
  induction inputs generalizing results with
  | nil => cases results <;> simp [pure, Except.pure]
  | cons input rest ih =>
    rw [List.mapM_cons, bind_eq_ok_iff, List.map_cons]
    constructor
    · rintro ⟨value, hv, h⟩
      obtain ⟨values, hvs, h⟩ := bind_eq_ok_iff.mp h
      cases h
      rw [hv, ih.mp hvs, List.map_cons]
    · intro h
      cases results with
      | nil => simp at h
      | cons value values =>
        rw [List.map_cons, List.cons.injEq] at h
        exact ⟨value, h.1, bind_eq_ok_iff.mpr ⟨values, ih.mpr h.2, rfl⟩⟩

/-- A list of computations fails as the first of its members that fails. -/
theorem mapM_eq_error_iff {f : α → Except ε β} {inputs : List α} {error : ε} :
    inputs.mapM f = .error error ↔
      ∃ before input after, inputs = before ++ input :: after ∧
        (∀ other ∈ before, Succeeds (f other)) ∧ f input = .error error := by
  induction inputs with
  | nil => simp [pure, Except.pure]
  | cons first rest ih =>
    rw [List.mapM_cons, bind_eq_error_iff]
    constructor
    · rintro (failed | ⟨value, here, failed⟩)
      · exact ⟨[], first, rest, rfl, by simp, failed⟩
      · rcases bind_eq_error_iff.mp failed with failed | ⟨values, -, failed⟩
        · obtain ⟨before, input, after, rfl, all, failed⟩ := ih.mp failed
          refine ⟨first :: before, input, after, rfl, ?_, failed⟩
          exact List.forall_mem_cons.mpr ⟨⟨value, here⟩, all⟩
        · cases failed
    · rintro ⟨before, input, after, split, all, failed⟩
      cases before with
      | nil =>
        cases split
        exact .inl failed
      | cons other before =>
        obtain ⟨rfl, rfl⟩ := List.cons.inj split
        obtain ⟨⟨value, here⟩, all⟩ := List.forall_mem_cons.mp all
        refine .inr ⟨value, here, bind_eq_error_iff.mpr (.inl ?_)⟩
        exact ih.mpr ⟨before, input, after, rfl, all, failed⟩

/-- The values of a list of computations that all succeed are those of its members. -/
theorem mem_iff_of_map_eq_ok {f : α → Except ε β} {inputs : List α} {results : List β}
    (all : inputs.map f = results.map .ok) (result : β) :
    result ∈ results ↔ ∃ input ∈ inputs, f input = .ok result := by
  rw [← List.mem_map, all]
  simp

/-- What inputs and results have in common one by one they have in common as lists. -/
theorem map_eq_map_of_map_eq_ok {γ : Type} {f : α → Except ε β} {g : α → γ} {k : β → γ}
    (each : ∀ input result, f input = .ok result → g input = k result) {inputs : List α}
    {results : List β} (all : inputs.map f = results.map .ok) : inputs.map g = results.map k := by
  induction inputs generalizing results with
  | nil => cases results <;> simp_all
  | cons input rest ih =>
    cases results with
    | nil => cases all
    | cons result others =>
      rw [List.map_cons, List.map_cons, List.cons.injEq] at all
      rw [List.map_cons, List.map_cons, each input result all.1, ih all.2]

/-- Computations that agree on each member of a list agree on the list. -/
theorem mapM_congr {f g : α → Except ε β} {inputs : List α}
    (same : ∀ input ∈ inputs, f input = g input) : inputs.mapM f = inputs.mapM g := by
  induction inputs with
  | nil => rfl
  | cons input rest ih =>
    obtain ⟨here, later⟩ := List.forall_mem_cons.mp same
    rw [List.mapM_cons, List.mapM_cons, here, ih later]

/-- Computations that all succeed are those of some list of values. -/
theorem exists_eq_map_ok_iff {outcomes : List (Except ε α)} :
    (∃ values : List α, outcomes = values.map .ok) ↔ ∀ outcome ∈ outcomes, Succeeds outcome := by
  constructor
  · rintro ⟨values, rfl⟩ outcome hm
    obtain ⟨value, -, rfl⟩ := List.mem_map.mp hm
    exact succeeds_ok value
  · intro h
    induction outcomes with
    | nil => exact ⟨[], rfl⟩
    | cons outcome rest ih =>
      obtain ⟨value, rfl⟩ := h outcome (by simp)
      obtain ⟨values, rfl⟩ := ih fun other hm => h other (by simp [hm])
      exact ⟨value :: values, rfl⟩

/-- The values of computations of which the first succeeds start with its value. -/
theorem exists_ok_cons_iff {value : α} {rest : List (Except ε α)} {p : List α → Prop} :
    (∃ values : List α, .ok value :: rest = values.map .ok ∧ p values) ↔
      ∃ values : List α, rest = values.map .ok ∧ p (value :: values) := by
  constructor
  · rintro ⟨values, same, h⟩
    obtain ⟨_, values, rfl, first, rfl⟩ := List.map_eq_cons_iff.mp same.symm
    cases first
    exact ⟨values, rfl, h⟩
  · rintro ⟨values, rfl, h⟩
    exact ⟨value :: values, rfl, h⟩

theorem succeeds_mapM_iff {f : α → Except ε β} {inputs : List α} :
    Succeeds (inputs.mapM f) ↔ ∀ input ∈ inputs, Succeeds (f input) := by
  have h := @exists_eq_map_ok_iff _ _ (inputs.map f)
  simp only [List.forall_mem_map] at h
  rw [← h]
  unfold Succeeds
  simp only [mapM_eq_ok_iff]

end ChannelProtocol
