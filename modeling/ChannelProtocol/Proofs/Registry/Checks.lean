-- What the check of a payload comes down to: a verdict at its head, and the
-- checks of its items or fields.
import ChannelProtocol.Proofs.Success
import ChannelProtocol.Registry.Check

namespace ChannelProtocol

namespace Payload

/-- Whether there is a payload at all. -/
def isThere : Payload → Bool
  | .null => false
  | _ => true

theorem isThere_array (items : List Payload) : (Payload.array items).isThere = true := rfl

theorem isThere_object (fields : List PayloadField) : (Payload.object fields).isThere = true := rfl

theorem isThere_eq_false_iff {payload : Payload} : payload.isThere = false ↔ payload = .null := by
  cases payload <;> simp [isThere]

/-- The value under a name, which is null where there is none. -/
def valueAt (name : String) (fields : List PayloadField) : Payload :=
  (field? name fields).getD .null

theorem sizeOf_item_lt {items : List Payload} {item : Payload} (mem : item ∈ items) :
    sizeOf item < sizeOf (Payload.array items) := by
  have := List.sizeOf_lt_of_mem mem
  rw [Payload.array.sizeOf_spec]
  omega

theorem sizeOf_valueAt_lt (name : String) (fields : List PayloadField) :
    sizeOf (valueAt name fields) < sizeOf (Payload.object fields) := by
  rw [Payload.object.sizeOf_spec]
  induction fields with
  | nil => simp [valueAt, field?]
  | cons field rest ih =>
    rw [List.cons.sizeOf_spec]
    by_cases same : field.name = name
    · obtain ⟨other, value⟩ := field
      have first : valueAt name (⟨other, value⟩ :: rest) = value := by
        simp only at same
        simp [valueAt, field?, same]
      rw [first, PayloadField.mk.sizeOf_spec]
      omega
    · have later : valueAt name (field :: rest) = valueAt name rest := by
        simp [valueAt, field?, same]
      rw [later]
      omega

end Payload

/-! ## Heads -/

namespace Validator

/-- A validator that is neither a name nor an option. -/
def isRule : Validator → Bool
  | .optional _ | .named _ => false
  | _ => true

theorem isRule_of_ne {validator : Validator} (noOption : ∀ inner, validator ≠ .optional inner)
    (noName : ∀ name, validator ≠ .named name) : validator.isRule := by
  cases validator <;> simp_all [isRule]

/-- A validator with no name at its head, also not behind options. -/
def isBare : Validator → Bool
  | .optional inner => inner.isBare
  | .named _ => false
  | _ => true

theorem isBare_of_isRule {validator : Validator} (rule : validator.isRule) :
    validator.isBare := by
  cases validator <;> simp_all [isRule, isBare]

/-- A rule that does not look into a payload. -/
def isLeaf : Validator → Bool
  | .array _ | .object _ => false
  | validator => validator.isRule

end Validator

namespace Registry

variable {registry : Registry} {channels : Channels} {path : List PathStep} {payload : Payload}

attribute [local simp] settle checkAt

theorem settle_of_isRule {present : Bool} {seen : List String} {validator : Validator}
    (rule : validator.isRule) : registry.settle present seen validator = .rule validator := by
  cases validator <;> simp_all [Validator.isRule]

@[simp]
theorem settle_array {present : Bool} {seen : List String} (element : Validator) :
    registry.settle present seen (.array element) = .rule (.array element) :=
  settle_of_isRule rfl

@[simp]
theorem settle_object {present : Bool} {seen : List String} (slots : List Slot) :
    registry.settle present seen (.object slots) = .rule (.object slots) :=
  settle_of_isRule rfl

theorem settle_named {present : Bool} {seen : List String} {name : String} {entry : Validator}
    (fresh : name ∉ seen) (found : registry.get? name = some entry) :
    registry.settle present seen (.named name) = registry.settle present (name :: seen) entry := by
  rw [settle, dif_neg fresh]
  split
  · rename_i missing
    rw [found] at missing
    cases missing
  · rename_i other same
    rw [found] at same
    cases same
    rfl

theorem settle_unknown {present : Bool} {seen : List String} {name : String}
    (fresh : name ∉ seen) (missing : registry.get? name = none) :
    registry.settle present seen (.named name) = .unknown name := by
  rw [settle, dif_neg fresh]
  split
  · rfl
  · rename_i found
    rw [missing] at found
    cases found

/-- Where no name is at the head, it does not matter which names were seen. -/
theorem settle_of_isBare {present : Bool} {seen : List String} {validator : Validator}
    (bare : validator.isBare) :
    registry.settle present seen validator = registry.settle present [] validator := by
  fun_induction Validator.isBare validator with
  | case1 inner ih =>
    rw [settle, settle]
    split
    · exact ih bare
    · rfl
  | case2 => cases bare
  | case3 validator noOption noName =>
    have rule := Validator.isRule_of_ne noOption noName
    rw [settle_of_isRule rule, settle_of_isRule rule]

/-- A check sees only what is left of a validator. -/
theorem checkAt_congr {validator other : Validator}
    (h : registry.settle payload.isThere [] validator = registry.settle payload.isThere [] other) :
    registry.checkAt channels path validator payload =
      registry.checkAt channels path other payload := by
  cases payload with
  | null =>
    simp only [Payload.isThere] at h
    rw [checkAt, checkAt, checkAbsent, checkAbsent, h]
  | bool | number | string | array | object =>
    simp only [Payload.isThere] at h
    rw [checkAt, checkAt, h]

theorem checkAt_optional_null (inner : Validator) :
    registry.checkAt channels path (.optional inner) .null = .ok none := by
  rw [checkAt, checkAbsent, settle]
  rfl

theorem checkAt_optional (there : payload.isThere) (inner : Validator) :
    registry.checkAt channels path (.optional inner) payload =
      registry.checkAt channels path inner payload := by
  refine checkAt_congr ?_
  rw [settle, if_pos there]

/-- A name is checked as its entry, if that does not start with another name. -/
theorem checkAt_named {name : String} {entry : Validator} (found : registry.get? name = some entry)
    (bare : entry.isBare) :
    registry.checkAt channels path (.named name) payload =
      registry.checkAt channels path entry payload := by
  refine checkAt_congr ?_
  rw [settle_named List.not_mem_nil found, settle_of_isBare bare]

theorem checkSlot_eq (slot : Slot) (fields : List PayloadField) :
    registry.checkSlot channels path slot fields =
      registry.checkAt channels path slot.validator (Payload.valueAt slot.name fields) := by
  induction fields with
  | nil => rw [checkSlot, Payload.valueAt, Payload.field?, Option.getD_none, checkAt]
  | cons field rest ih =>
    obtain ⟨name, value⟩ := field
    rw [checkSlot, Payload.valueAt, Payload.field?]
    split
    · rfl
    · exact ih

/-- What is missing is checked as null is. -/
theorem check_eq {validator : Validator} (input : Option Payload) :
    registry.check channels validator input =
      registry.checkAt channels [] validator (input.getD .null) := by
  cases input with
  | none => rw [check, Option.getD_none, checkAt]
  | some payload => rw [check, Option.getD_some]

/-! ## Going on from the head -/

/-- Where there are no items and no fields to go on to, the verdict at the head is all. -/
theorem checkAt_eq_verdict {validator : Validator}
    (noItems : payload.kind = .array →
      ∀ element, registry.settle true [] validator ≠ .rule (.array element))
    (noFields : payload.kind = .object →
      ∀ slots, registry.settle true [] validator ≠ .rule (.object slots)) :
    registry.checkAt channels path validator payload =
      verdict channels path payload (registry.settle payload.isThere [] validator) := by
  cases payload with
  | null => rw [checkAt, checkAbsent, Payload.isThere]
  | bool | number | string => simp [Payload.isThere]
  | array items =>
    rw [checkAt]
    split
    · rename_i element settled
      exact absurd settled (noItems rfl element)
    · rfl
  | object fields =>
    rw [checkAt]
    split
    · rename_i slots settled
      exact absurd settled (noFields rfl slots)
    · rfl

theorem checkAt_array_of_settle {validator element : Validator} {items : List Payload}
    (settled : registry.settle true [] validator = .rule (.array element)) :
    registry.checkAt channels path validator (.array items) =
      (registry.checkItems channels path element 0 items).map (some ∘ .array) := by
  rw [checkAt, settled]
  rfl

/-- The checks of the declared fields in turn, after some that were collected. -/
def checkSlots (registry : Registry) (channels : Channels) (path : List PathStep)
    (slots : List Slot) (fields checked : List PayloadField) : Except Failure (List PayloadField) :=
  slots.foldlM (fun checked slot => do
    match ← registry.checkSlot channels (path ++ [.key slot.name]) slot fields with
    | some value => return Payload.setField slot.name value checked
    | none => return checked) checked

theorem checkAt_object_of_settle {validator : Validator} {slots : List Slot}
    {fields : List PayloadField}
    (settled : registry.settle true [] validator = .rule (.object slots)) :
    registry.checkAt channels path validator (.object fields) =
      (registry.checkSlots channels path slots fields []).map (some ∘ .object) := by
  rw [checkAt, settled]
  rfl

/-- What holds where the verdict is all, and goes up from the items and the declared fields, holds
of every check. The induction is on the size of the payload, as names may lead from a validator to
itself. -/
@[elab_as_elim]
theorem checkAt_induction (registry : Registry) {motive : Validator → Payload → Prop}
    (head : ∀ validator payload,
      (payload.kind = .array →
        ∀ element, registry.settle true [] validator ≠ .rule (.array element)) →
      (payload.kind = .object →
        ∀ slots, registry.settle true [] validator ≠ .rule (.object slots)) →
      motive validator payload)
    (array : ∀ validator element items,
      registry.settle true [] validator = .rule (.array element) →
      (∀ item ∈ items, motive element item) → motive validator (.array items))
    (object : ∀ validator slots fields,
      registry.settle true [] validator = .rule (.object slots) →
      (∀ slot ∈ slots, motive slot.validator (Payload.valueAt slot.name fields)) →
      motive validator (.object fields))
    (validator : Validator) (payload : Payload) : motive validator payload := by
  induction size : sizeOf payload using Nat.strongRecOn generalizing payload validator with
  | ind n ih =>
    subst size
    cases payload with
    | null | bool | number | string =>
      apply head
      · intro kind
        cases kind
      · intro kind
        cases kind
    | array items =>
      by_cases within : ∃ element, registry.settle true [] validator = .rule (.array element)
      · obtain ⟨element, settled⟩ := within
        refine array validator element items settled fun item mem => ?_
        exact ih _ (Payload.sizeOf_item_lt mem) element item rfl
      · apply head
        · exact fun _ element settled => within ⟨element, settled⟩
        · intro kind
          cases kind
    | object fields =>
      by_cases within : ∃ slots, registry.settle true [] validator = .rule (.object slots)
      · obtain ⟨slots, settled⟩ := within
        refine object validator slots fields settled fun slot mem => ?_
        exact ih _ (Payload.sizeOf_valueAt_lt _ _) slot.validator _ rfl
      · apply head
        · intro kind
          cases kind
        · exact fun _ slots settled => within ⟨slots, settled⟩

/-! ## Verdicts -/

theorem complaint?_expect_iff {kind : Payload.Kind} :
    complaint?.expect payload kind = none ↔ payload.kind = kind := by
  unfold complaint?.expect
  split <;> simp_all

theorem refersTo_iff {fit : String → Bool} :
    refersTo channels fit payload ↔
      ∃ guid kind, payload.guid? = some guid ∧ channels guid = some kind ∧ fit kind := by
  unfold refersTo
  cases h : payload.guid? with
  | none => simp
  | some guid => simp [Option.any_eq_true]

theorem complaint?_enum_iff {literals : List String} :
    complaint? channels payload (.enum literals) = none ↔
      ∃ text ∈ literals, payload = .string text := by
  cases payload <;> simp [complaint?]

/-! ## When a check succeeds -/

theorem succeeds_verdict_iff {validator : Validator} :
    Succeeds (verdict channels path payload (.rule validator)) ↔
      complaint? channels payload validator = none := by
  rw [verdict]
  split
  · rename_i complaint h
    simp [h, not_succeeds_error]
  · rename_i h
    simp [h, succeeds_ok]

theorem checkAt_of_isLeaf {validator : Validator} (leaf : validator.isLeaf) :
    registry.checkAt channels path validator payload =
      verdict channels path payload (.rule validator) := by
  have settled (present : Bool) : registry.settle present [] validator = .rule validator := by
    refine settle_of_isRule ?_
    cases validator <;> simp_all [Validator.isLeaf, Validator.isRule]
  rw [checkAt_eq_verdict, settled]
  · rintro - element same
    cases (settled true).symm.trans same
    cases leaf
  · rintro - slots same
    cases (settled true).symm.trans same
    cases leaf

theorem succeeds_checkAt_leaf_iff {validator : Validator} (leaf : validator.isLeaf) :
    Succeeds (registry.checkAt channels path validator payload) ↔
      complaint? channels payload validator = none := by
  rw [checkAt_of_isLeaf leaf, succeeds_verdict_iff]

theorem succeeds_checkItems_iff {element : Validator} {position : Nat} {items : List Payload} :
    Succeeds (registry.checkItems channels path element position items) ↔
      ∀ index item, items[index]? = some item → Succeeds
        (registry.checkAt channels (path ++ [.index (position + index)]) element item) := by
  induction items generalizing position with
  | nil => simp [checkItems, succeeds_ok]
  | cons item rest ih =>
    rw [checkItems, succeeds_bind_iff]
    constructor
    · rintro ⟨value, first, others⟩ index other h
      cases index with
      | zero =>
        cases h
        exact ⟨value, first⟩
      | succ index =>
        have step := ih.mp (succeeds_bind_pure_iff.mp others) index other h
        rwa [Nat.add_right_comm] at step
    · intro all
      obtain ⟨value, first⟩ := all 0 item rfl
      refine ⟨value, first, succeeds_bind_pure_iff.mpr (ih.mpr fun index other h => ?_)⟩
      have step := all (index + 1) other h
      rwa [← Nat.add_assoc, Nat.add_right_comm] at step

theorem succeeds_checkAt_array_iff {element : Validator} :
    Succeeds (registry.checkAt channels path (.array element) payload) ↔
      ∃ items, payload = .array items ∧
        ∀ index item, items[index]? = some item →
          Succeeds (registry.checkAt channels (path ++ [.index index]) element item) := by
  cases payload with
  | array items =>
    rw [checkAt_array_of_settle (settle_array _), succeeds_map_iff, succeeds_checkItems_iff]
    simp only [Nat.zero_add, Payload.array.injEq, exists_eq_left']
  | null | bool | number | string | object =>
    simp [checkAt, checkAbsent, succeeds_verdict_iff, complaint?, complaint?.expect, Payload.kind]

/-- What was collected does not matter to whether the checks succeed. -/
theorem succeeds_checkSlots_iff {slots : List Slot} {fields checked : List PayloadField} :
    Succeeds (registry.checkSlots channels path slots fields checked) ↔
      ∀ slot ∈ slots, Succeeds (registry.checkAt channels (path ++ [.key slot.name])
        slot.validator (Payload.valueAt slot.name fields)) := by
  unfold checkSlots
  induction slots generalizing checked with
  | nil => simp [succeeds_ok, pure, Except.pure]
  | cons slot rest ih =>
    rw [List.foldlM_cons, succeeds_bind_iff, List.forall_mem_cons, ← checkSlot_eq]
    constructor
    · rintro ⟨next, first, others⟩
      obtain ⟨value, first, -⟩ := bind_eq_ok_iff.mp first
      exact ⟨⟨value, first⟩, ih.mp others⟩
    · rintro ⟨⟨value, first⟩, others⟩
      cases value with
      | none => exact ⟨_, bind_eq_ok_iff.mpr ⟨_, first, rfl⟩, ih.mpr others⟩
      | some value => exact ⟨_, bind_eq_ok_iff.mpr ⟨_, first, rfl⟩, ih.mpr others⟩

theorem succeeds_checkAt_object_iff {slots : List Slot} :
    Succeeds (registry.checkAt channels path (.object slots) payload) ↔
      ∃ fields, payload = .object fields ∧
        ∀ slot ∈ slots, Succeeds (registry.checkAt channels (path ++ [.key slot.name])
          slot.validator (Payload.valueAt slot.name fields)) := by
  cases payload with
  | object fields =>
    rw [checkAt_object_of_settle (settle_object _), succeeds_map_iff, succeeds_checkSlots_iff]
    simp only [Payload.object.injEq, exists_eq_left']
  | null | bool | number | string | array =>
    simp [checkAt, checkAbsent, succeeds_verdict_iff, complaint?, complaint?.expect, Payload.kind]

theorem succeeds_validate_iff {name : String} :
    Succeeds (registry.validate channels name payload) ↔
      Succeeds (registry.checkAt channels [] (.named name) payload) :=
  succeeds_map_iff

end Registry

end ChannelProtocol
