-- Lookups of names. Where the names in all entries have an entry, no check
-- calls a name without one. Where all entries are close to a validator that
-- looks at the payload, few lookups follow each other, and all calls end.
import ChannelProtocol.Proofs.Registry.Calls

namespace ChannelProtocol

/-- A validator that is part of another one, at any depth. Names are not followed. -/
inductive Validator.Within (inner : Validator) : Validator → Prop
  | refl : Within inner inner
  | optional {outer : Validator} : Within inner outer → Within inner (.optional outer)
  | array {element : Validator} : Within inner element → Within inner (.array element)
  | object {slots : List Slot} {slot : Slot} : slot ∈ slots → Within inner slot.validator →
      Within inner (.object slots)

namespace Registry

open Relation

/-- A number of lookups on one payload, one after the other, with options between them or not. -/
inductive Follows (registry : Registry) : Nat → Call → Call → Prop
  | refl (call : Call) : Follows registry 0 call call
  | option {count : Nat} {inner : Validator} {payload : Payload} {next last : Call} :
      registry.Calls (.optional inner, payload) next → Follows registry count next last →
      Follows registry count (.optional inner, payload) last
  | lookup {count : Nat} {name : String} {payload : Payload} {next last : Call} :
      registry.Calls (.named name, payload) next → Follows registry count next last →
      Follows registry (count + 1) (.named name, payload) last

/-- All names in a validator have an entry. -/
def Bound (registry : Registry) (validator : Validator) : Prop :=
  ∀ name, Validator.Within (.named name) validator → registry.contains name

variable {registry : Registry}

theorem contains_iff_get? {name : String} :
    registry.contains name ↔ ∃ entry, registry.get? name = some entry := by
  unfold contains Table.contains get?
  cases registry.table.get? name <;> simp

theorem within_of_calls {call next : Call} (step : registry.Calls call next) {part : Validator}
    (within : part.Within next.1) :
    part.Within call.1 ∨ ∃ name entry, registry.get? name = some entry ∧ part.Within entry := by
  cases step with
  | option => exact .inl (.optional within)
  | lookup found => exact .inr ⟨_, _, found, within⟩
  | item => exact .inl (.array within)
  | slot mem => exact .inl (.object mem within)

/-- What is part of a validator that a check comes to is part of the first one, or of an entry. -/
theorem within_of_reaches {call last : Call} (reached : ReflTransGen registry.Calls call last)
    {part : Validator} (within : part.Within last.1) :
    part.Within call.1 ∨ ∃ name entry, registry.get? name = some entry ∧ part.Within entry := by
  induction reached with
  | refl => exact .inl within
  | tail _ step ih =>
    rcases within_of_calls step within with within | known
    · exact ih within
    · exact .inr known

/-- Where the names in all entries have an entry, a check that starts with such names only calls
such names. -/
theorem Bound.reaches
    (entries : ∀ name entry, registry.get? name = some entry → registry.Bound entry)
    {call last : Call} (bound : registry.Bound call.1)
    (reached : ReflTransGen registry.Calls call last) : registry.Bound last.1 := by
  intro name within
  rcases within_of_reaches reached within with own | ⟨_, entry, found, inner⟩
  · exact bound name own
  · exact entries _ entry found name inner

/-- Every entry is bare, or a name whose entry is. -/
def Shallow (registry : Registry) : Prop :=
  ∀ name entry, registry.get? name = some entry →
    entry.isBare ∨ ∃ target final, entry = .named target ∧ registry.get? target = some final ∧
      final.isBare

/-- A bare validator does not look anything up. -/
theorem Follows.eq_zero {count : Nat} {call last : Call} (bare : call.1.isBare)
    (follows : registry.Follows count call last) : count = 0 := by
  induction follows with
  | refl => rfl
  | option step _ ih =>
    cases step
    exact ih bare
  | lookup => cases bare

theorem Follows.le_two (shallow : registry.Shallow) {count : Nat} {call last : Call}
    (follows : registry.Follows count call last) : count ≤ 2 := by
  induction follows with
  | refl => omega
  | option _ _ ih => exact ih
  | lookup step rest _ =>
    cases step with
    | lookup found =>
      rcases shallow _ _ found with bare | ⟨target, final, rfl, last, bare⟩
      · rw [rest.eq_zero bare]
        omega
      · cases rest with
        | refl => omega
        | lookup step rest =>
          cases step with
          | lookup found' =>
            rw [last] at found'
            cases found'
            rw [rest.eq_zero bare]

/-- A bare validator calls only what is smaller, after its options. -/
theorem acc_of_isBare {payload : Payload}
    (smaller : ∀ validator value, sizeOf value < sizeOf payload →
      Acc (Function.swap registry.Calls) (validator, value))
    {validator : Validator} (bare : validator.isBare) :
    Acc (Function.swap registry.Calls) (validator, payload) := by
  fun_induction Validator.isBare validator with
  | case1 inner ih =>
    refine ⟨_, fun next step => ?_⟩
    cases step
    exact ih bare
  | case2 => cases bare
  | case3 validator noOption noName =>
    refine ⟨_, fun next step => ?_⟩
    cases step with
    | option => exact absurd rfl (noOption _)
    | lookup => exact absurd rfl (noName _)
    | item mem => exact smaller _ _ (Payload.sizeOf_item_lt mem)
    | slot => exact smaller _ _ (Payload.sizeOf_valueAt_lt _ _)

theorem acc_of_smaller (shallow : registry.Shallow) {payload : Payload}
    (smaller : ∀ validator value, sizeOf value < sizeOf payload →
      Acc (Function.swap registry.Calls) (validator, value)) (validator : Validator) :
    Acc (Function.swap registry.Calls) (validator, payload) := by
  fun_induction Validator.isBare validator with
  | case1 inner ih =>
    refine ⟨_, fun next step => ?_⟩
    cases step
    exact ih
  | case2 name =>
    refine ⟨_, fun next step => ?_⟩
    cases step with
    | lookup found =>
      rcases shallow _ _ found with bare | ⟨target, final, rfl, last, bare⟩
      · exact acc_of_isBare smaller bare
      · refine ⟨_, fun next step => ?_⟩
        cases step with
        | lookup found' =>
          rw [last] at found'
          cases found'
          exact acc_of_isBare smaller bare
  | case3 validator noOption noName =>
    have rule := Validator.isRule_of_ne noOption noName
    exact acc_of_isBare smaller (Validator.isBare_of_isRule rule)

/-- Where every entry is close to the payload, all calls end. The induction is on the size of the
payload. -/
theorem Shallow.wellFounded (shallow : registry.Shallow) :
    WellFounded (Function.swap registry.Calls) := by
  refine ⟨fun ⟨validator, payload⟩ => ?_⟩
  induction size : sizeOf payload using Nat.strongRecOn generalizing payload validator with
  | ind n ih =>
    subst size
    exact acc_of_smaller shallow (fun validator value smaller => ih _ smaller _ _ rfl) validator

end Registry

end ChannelProtocol
