-- The checks in the course of a check: behind an option, at the entry of a
-- name, in the items of an array and in the fields of an object. A failure
-- comes from the head of one of them.
import ChannelProtocol.Proofs.Registry.Checks
import Mathlib.Logic.Relation
import Mathlib.Order.WellFounded

namespace ChannelProtocol.Registry

open Relation

/-- A validator on a payload. What is not there is null. -/
abbrev Call := Validator × Payload

/-- One check calls another one. -/
inductive Calls (registry : Registry) : Call → Call → Prop
  | option {inner : Validator} {payload : Payload} : payload.isThere →
      Calls registry (.optional inner, payload) (inner, payload)
  | lookup {name : String} {entry : Validator} {payload : Payload} :
      registry.get? name = some entry → Calls registry (.named name, payload) (entry, payload)
  | item {element : Validator} {items : List Payload} {item : Payload} : item ∈ items →
      Calls registry (.array element, .array items) (element, item)
  | slot {slots : List Slot} {fields : List PayloadField} {slot : Slot} : slot ∈ slots →
      Calls registry (.object slots, .object fields)
        (slot.validator, Payload.valueAt slot.name fields)

variable {registry : Registry} {channels : Channels} {path : List PathStep} {payload : Payload}

/-! ## Settling is calling -/

/-- How the calls on one payload end. An endless name was seen before, or it comes back to
itself. -/
def Ends (registry : Registry) (seen : List String) (start : Call) : Settled → Prop
  | .leftOut => True
  | .rule validator => ReflTransGen registry.Calls start (validator, start.2)
  | .unknown name =>
    ReflTransGen registry.Calls start (.named name, start.2) ∧ registry.get? name = none
  | .endless name =>
    ReflTransGen registry.Calls start (.named name, start.2) ∧
      (name ∈ seen ∨ TransGen registry.Calls (.named name, start.2) (.named name, start.2))

theorem Ends.head {seen : List String} {validator next : Validator} {settled : Settled}
    (step : registry.Calls (validator, payload) (next, payload))
    (h : registry.Ends seen (next, payload) settled) :
    registry.Ends seen (validator, payload) settled := by
  cases settled with
  | leftOut => trivial
  | rule => exact ReflTransGen.head step h
  | unknown => exact ⟨ReflTransGen.head step h.1, h.2⟩
  | endless => exact ⟨ReflTransGen.head step h.1, h.2⟩

/-- A name that has just been seen is not among those before, but then it comes back to itself. -/
theorem Ends.lookup {seen : List String} {name : String} {entry : Validator} {settled : Settled}
    (found : registry.get? name = some entry)
    (h : registry.Ends (name :: seen) (entry, payload) settled) :
    registry.Ends seen (.named name, payload) settled := by
  have step : registry.Calls (.named name, payload) (entry, payload) := .lookup found
  refine Ends.head step ?_
  cases settled with
  | endless last =>
    refine ⟨h.1, h.2.elim (fun mem => ?_) .inr⟩
    rcases List.mem_cons.mp mem with rfl | mem
    · exact .inr (.head' step h.1)
    · exact .inl mem
  | leftOut | rule | unknown => exact h

theorem ends_settle (seen : List String) (validator : Validator) :
    registry.Ends seen (validator, payload) (registry.settle payload.isThere seen validator) := by
  fun_induction registry.settle payload.isThere seen validator with
  | case1 seen inner there ih => exact ih.head (.option there)
  | case2 => trivial
  | case3 seen name used => exact ⟨.refl, .inl used⟩
  | case4 seen name fresh missing => exact ⟨.refl, missing⟩
  | case5 seen name fresh entry found _ ih => exact ih.lookup found
  | case6 => exact ReflTransGen.refl

/-! ## Where failures come from -/

/-- A failure among the items is the failure of one of them, and those before it pass. -/
theorem exists_item_of_error {element : Validator} {position : Nat} {items : List Payload}
    {failure : Failure}
    (h : registry.checkItems channels path element position items = .error failure) :
    ∃ before item after, items = before ++ item :: after ∧
      (∀ earlier ∈ before, ∃ place,
        Succeeds (registry.checkAt channels place element earlier)) ∧
      registry.checkAt channels (path ++ [.index (position + before.length)]) element item =
        .error failure := by
  induction items generalizing position with
  | nil => simp [checkItems] at h
  | cons item rest ih =>
    rw [checkItems] at h
    rcases bind_eq_error_iff.mp h with failed | ⟨value, passed, h⟩
    · exact ⟨[], item, rest, rfl, by simp, failed⟩
    · rcases bind_eq_error_iff.mp h with failed | ⟨values, -, h⟩
      · obtain ⟨before, culprit, after, rfl, all, failed⟩ := ih failed
        refine ⟨item :: before, culprit, after, rfl, ?_, ?_⟩
        · exact List.forall_mem_cons.mpr ⟨⟨_, value, passed⟩, all⟩
        · rwa [List.length_cons, ← Nat.add_assoc, Nat.add_right_comm]
      · cases h

/-- A failure among the declared fields is the failure of one of them, and those before it
pass. -/
theorem exists_slot_of_error {slots : List Slot} {fields checked : List PayloadField}
    {failure : Failure}
    (h : registry.checkSlots channels path slots fields checked = .error failure) :
    ∃ before slot after, slots = before ++ slot :: after ∧
      (∀ earlier ∈ before, ∃ place, Succeeds (registry.checkAt channels place earlier.validator
        (Payload.valueAt earlier.name fields))) ∧
      registry.checkAt channels (path ++ [.key slot.name]) slot.validator
        (Payload.valueAt slot.name fields) = .error failure := by
  unfold checkSlots at h
  induction slots generalizing checked with
  | nil => cases h
  | cons slot rest ih =>
    rw [List.foldlM_cons, checkSlot_eq] at h
    rcases bind_eq_error_iff.mp h with failed | ⟨next, passed, h⟩
    · rcases bind_eq_error_iff.mp failed with failed | ⟨value, -, failed⟩
      · exact ⟨[], slot, rest, rfl, by simp, failed⟩
      · cases value <;> cases failed
    · obtain ⟨before, culprit, after, rfl, all, failed⟩ := ih h
      obtain ⟨value, passed, -⟩ := bind_eq_ok_iff.mp passed
      refine ⟨slot :: before, culprit, after, rfl, ?_, failed⟩
      exact List.forall_mem_cons.mpr ⟨⟨_, value, passed⟩, all⟩

/-- A failure is the verdict at the head of a check that was called. -/
theorem exists_call_of_error {validator : Validator} {failure : Failure}
    (h : registry.checkAt channels path validator payload = .error failure) :
    ∃ last : Call, ReflTransGen registry.Calls (validator, payload) last ∧
      ∃ place, verdict channels place last.2 (registry.settle last.2.isThere [] last.1) =
        .error failure := by
  induction validator, payload using checkAt_induction registry generalizing path with
  | head validator payload noItems noFields =>
    rw [checkAt_eq_verdict noItems noFields] at h
    exact ⟨_, .refl, path, h⟩
  | array validator element items settled ih =>
    rw [checkAt_array_of_settle settled, map_eq_error_iff] at h
    obtain ⟨before, item, after, parts, -, failed⟩ := exists_item_of_error h
    have mem : item ∈ items := by simp [parts]
    obtain ⟨last, reached, head⟩ := ih item mem failed
    have called : registry.Ends [] (validator, .array items) _ := ends_settle [] validator
    rw [Payload.isThere_array, settled] at called
    exact ⟨last, called.trans (reached.head (.item mem)), head⟩
  | object validator slots fields settled ih =>
    rw [checkAt_object_of_settle settled, map_eq_error_iff] at h
    obtain ⟨before, slot, after, parts, -, failed⟩ := exists_slot_of_error h
    have mem : slot ∈ slots := by simp [parts]
    obtain ⟨last, reached, head⟩ := ih slot mem failed
    have called : registry.Ends [] (validator, .object fields) _ := ends_settle [] validator
    rw [Payload.isThere_object, settled] at called
    exact ⟨last, called.trans (reached.head (.slot mem)), head⟩

/-! ## Names that are unknown or endless -/

/-- A rule complains about payloads only, and not about names. -/
theorem complaint?_ne {validator : Validator} {name : String} :
    complaint? channels payload validator ≠ some (.unknownType name) ∧
      complaint? channels payload validator ≠ some (.endlessType name) := by
  unfold complaint? complaint?.expect
  constructor <;> repeat' split
  all_goals simp

theorem verdict_eq_error {settled : Settled} {failure : Failure}
    (h : verdict channels path payload settled = .error failure) :
    (∃ name, settled = .unknown name ∧ failure.complaint = .unknownType name) ∨
    (∃ name, settled = .endless name ∧ failure.complaint = .endlessType name) ∨
    ∃ rule, settled = .rule rule ∧ complaint? channels payload rule = some failure.complaint := by
  cases settled with
  | leftOut => cases h
  | unknown name =>
    cases h
    exact .inl ⟨name, rfl, rfl⟩
  | endless name =>
    cases h
    exact .inr (.inl ⟨name, rfl, rfl⟩)
  | rule rule =>
    rw [verdict] at h
    split at h
    · rename_i complained
      cases h
      exact .inr (.inr ⟨rule, rfl, complained⟩)
    · cases h

theorem unknown_of_verdict {settled : Settled} {failure : Failure} {name : String}
    (h : verdict channels path payload settled = .error failure)
    (late : failure.complaint = .unknownType name) : settled = .unknown name := by
  rcases verdict_eq_error h with ⟨_, rfl, same⟩ | ⟨_, -, same⟩ | ⟨_, -, complained⟩
  · rw [late] at same
    cases same
    rfl
  · rw [late] at same
    cases same
  · rw [late] at complained
    exact absurd complained complaint?_ne.1

theorem endless_of_verdict {settled : Settled} {failure : Failure} {name : String}
    (h : verdict channels path payload settled = .error failure)
    (late : failure.complaint = .endlessType name) : settled = .endless name := by
  rcases verdict_eq_error h with ⟨_, -, same⟩ | ⟨_, rfl, same⟩ | ⟨_, -, complained⟩
  · rw [late] at same
    cases same
  · rw [late] at same
    cases same
    rfl
  · rw [late] at complained
    exact absurd complained complaint?_ne.2

/-- A check that fails at an unknown name has called that name. -/
theorem exists_missing_of_error {validator : Validator} {failure : Failure} {name : String}
    (h : registry.checkAt channels path validator payload = .error failure)
    (late : failure.complaint = .unknownType name) :
    ∃ value, ReflTransGen registry.Calls (validator, payload) (.named name, value) ∧
      registry.get? name = none := by
  obtain ⟨⟨last, value⟩, reached, place, head⟩ := exists_call_of_error h
  have ends := @ends_settle registry value [] last
  rw [unknown_of_verdict head late] at ends
  exact ⟨value, reached.trans ends.1, ends.2⟩

/-- A check that fails at an endless name has called a name that comes back to itself. -/
theorem exists_cycle_of_error {validator : Validator} {failure : Failure} {name : String}
    (h : registry.checkAt channels path validator payload = .error failure)
    (late : failure.complaint = .endlessType name) :
    ∃ value, TransGen registry.Calls (.named name, value) (.named name, value) := by
  obtain ⟨⟨last, value⟩, -, place, head⟩ := exists_call_of_error h
  have ends := @ends_settle registry value [] last
  rw [endless_of_verdict head late] at ends
  exact ⟨value, ends.2.resolve_left List.not_mem_nil⟩

/-! ## Where calls end -/

theorem not_transGen_of_wellFounded (finite : WellFounded (Function.swap registry.Calls))
    (call : Call) : ¬ TransGen registry.Calls call call :=
  fun cycle => finite.transGen.irrefl.irrefl call (transGen_swap.mpr cycle)

/-- The names that were seen matter only to an endless one. -/
theorem settle_of_not_endless {present : Bool} {seen fewer : List String} {validator : Validator}
    (sub : fewer ⊆ seen) (h : ∀ name, registry.settle present seen validator ≠ .endless name) :
    registry.settle present fewer validator = registry.settle present seen validator := by
  fun_induction registry.settle present seen validator generalizing fewer with
  | case1 seen inner there ih =>
    rw [settle, if_pos there]
    exact ih sub h
  | case2 seen inner absent => rw [settle, if_neg absent]
  | case3 seen name used => exact absurd rfl (h name)
  | case4 seen name fresh missing => exact settle_unknown (fun mem => fresh (sub mem)) missing
  | case5 seen name fresh entry found _ ih =>
    rw [settle_named (fun mem => fresh (sub mem)) found]
    exact ih (List.cons_subset_cons name sub) h
  | case6 seen validator noOption noName =>
    exact settle_of_isRule (Validator.isRule_of_ne noOption noName)

/-- Where calls end, a name is checked as its entry. -/
theorem checkAt_lookup (finite : WellFounded (Function.swap registry.Calls)) {name : String}
    {entry : Validator} (found : registry.get? name = some entry) :
    registry.checkAt channels path (.named name) payload =
      registry.checkAt channels path entry payload := by
  refine checkAt_congr ?_
  rw [settle_named List.not_mem_nil found]
  refine (settle_of_not_endless (List.nil_subset _) fun last endless => ?_).symm
  have ends := @ends_settle registry payload [name] entry
  rw [endless] at ends
  have cycle := (ends.lookup found).2.resolve_left List.not_mem_nil
  exact not_transGen_of_wellFounded finite _ cycle

end ChannelProtocol.Registry
