-- Checking what a check gave back. A payload without its undeclared fields passes
-- the same check unchanged: what was left out may be left out again, and what was
-- kept is kept.
import ChannelProtocol.Proofs.Registry.Lookups

namespace ChannelProtocol

/-- After a field is set it has the value, and the other fields are as before. -/
theorem Payload.field?_setField (name other : String) (value : Payload)
    (fields : List PayloadField) :
    field? name (setField other value fields) =
      if name = other then some value else field? name fields := by
  induction fields with
  | nil => simp [setField, field?, eq_comm]
  | cons field rest ih =>
    unfold setField
    by_cases same : field.name = other
    · rw [if_pos same, field?, field?, same]
      by_cases h : name = other
      · simp [h]
      · simp [h, Ne.symm h]
    · rw [if_neg same, field?, field?, ih]
      by_cases h : field.name = name
      · simp [h, h ▸ same]
      · simp [h]

namespace Validator

/-- No object in a validator declares a field twice. -/
def SlotsApart (validator : Validator) : Prop :=
  ∀ slots, Within (.object slots) validator → (slots.map Slot.name).Nodup

theorem slotsApart_of_isLeaf {validator : Validator} (leaf : validator.isLeaf) :
    validator.SlotsApart := by
  intro slots within
  cases within <;> cases leaf

theorem slotsApart_named (name : String) : SlotsApart (.named name) := by
  intro slots within
  cases within

theorem slotsApart_optional_iff {inner : Validator} :
    SlotsApart (.optional inner) ↔ inner.SlotsApart := by
  refine ⟨fun h slots within => h slots (.optional within), fun h slots within => ?_⟩
  cases within with
  | optional within => exact h slots within

theorem slotsApart_array_iff {element : Validator} :
    SlotsApart (.array element) ↔ element.SlotsApart := by
  refine ⟨fun h slots within => h slots (.array within), fun h slots within => ?_⟩
  cases within with
  | array within => exact h slots within

theorem slotsApart_object_iff {slots : List Slot} :
    SlotsApart (.object slots) ↔
      (slots.map Slot.name).Nodup ∧ ∀ slot ∈ slots, slot.validator.SlotsApart := by
  refine ⟨fun h => ⟨h slots .refl, fun slot mem inner within => h inner (.object mem within)⟩, ?_⟩
  rintro ⟨distinct, all⟩ inner within
  cases within with
  | refl => exact distinct
  | object mem within => exact all _ mem inner within

end Validator

namespace Registry

open Relation

variable {registry : Registry} {channels : Channels} {path : List PathStep} {payload : Payload}
  {validator : Validator} {result : Option Payload}

/-! ## Payloads that are given on as they are -/

theorem settle_ne_leftOut (seen : List String) (validator : Validator) :
    registry.settle true seen validator ≠ .leftOut := by
  fun_induction registry.settle true seen validator with
  | case1 seen inner _ ih => exact ih
  | case2 seen inner absent => exact absurd rfl absent
  | case3 | case4 | case6 => simp
  | case5 seen name fresh entry found _ ih => exact ih

/-- What passes is given on, unless it is left out. -/
theorem verdict_eq_ok {settled : Settled}
    (h : verdict channels path payload settled = .ok result) :
    settled = .leftOut ∧ result = none ∨ result = present? payload := by
  cases settled with
  | leftOut =>
    cases h
    exact .inl ⟨rfl, rfl⟩
  | unknown | endless => cases h
  | rule rule =>
    rw [verdict] at h
    split at h
    · cases h
    · cases h
      exact .inr rfl

theorem eq_some_of_verdict (there : payload.isThere)
    (h : verdict channels path payload (registry.settle true [] validator) = .ok result) :
    result = some payload := by
  rcases verdict_eq_ok h with ⟨left, -⟩ | same
  · exact absurd left (settle_ne_leftOut [] validator)
  · rw [same]
    cases payload with
    | null => cases there
    | bool | number | string | array | object => rfl

/-! ## Checking again -/

/-- The result of a check that passes the same check unchanged. It is there exactly if the payload
was. -/
structure Clean (registry : Registry) (channels : Channels) (path : List PathStep)
    (validator : Validator) (payload : Payload) (result : Option Payload) : Prop where
  again : registry.checkAt channels path validator (result.getD .null) = .ok result
  absent : result = none ↔ payload = .null
  there : result ≠ some .null

theorem Clean.unchanged (there : payload.isThere)
    (checked : registry.checkAt channels path validator payload = .ok result)
    (same : result = some payload) :
    registry.Clean channels path validator payload result := by
  subst same
  have notNull : payload ≠ .null := by
    rintro rfl
    cases there
  exact ⟨checked, by simp [notNull], by simp [notNull]⟩

theorem checkItems_again {element : Validator} {position : Nat} {items kept : List Payload}
    (clean : ∀ item ∈ items, ∀ place result,
      registry.checkAt channels place element item = .ok result →
        registry.Clean channels place element item result)
    (checked : registry.checkItems channels path element position items = .ok kept) :
    registry.checkItems channels path element position kept = .ok kept := by
  induction items generalizing position kept with
  | nil =>
    cases checked
    rfl
  | cons item rest ih =>
    rw [checkItems] at checked
    obtain ⟨first, here, checked⟩ := bind_eq_ok_iff.mp checked
    obtain ⟨others, later, checked⟩ := bind_eq_ok_iff.mp checked
    cases checked
    obtain ⟨cleanHere, cleanRest⟩ := List.forall_mem_cons.mp clean
    rw [checkItems, (cleanHere _ _ here).again, ih cleanRest later]
    rfl

theorem checkSlots_congr {slots : List Slot} {fields others start : List PayloadField}
    (same : ∀ slot ∈ slots,
      registry.checkAt channels (path ++ [.key slot.name]) slot.validator
          (Payload.valueAt slot.name fields) =
        registry.checkAt channels (path ++ [.key slot.name]) slot.validator
          (Payload.valueAt slot.name others)) :
    registry.checkSlots channels path slots fields start =
      registry.checkSlots channels path slots others start := by
  unfold checkSlots
  induction slots generalizing start with
  | nil => rfl
  | cons slot rest ih =>
    obtain ⟨here, later⟩ := List.forall_mem_cons.mp same
    rw [List.foldlM_cons, List.foldlM_cons, checkSlot_eq, checkSlot_eq, here]
    simp only [ih later]

/-- The checks of distinct fields, after some that were collected: each is found under its name
as it was checked, and the others are as they were. -/
theorem field?_of_checkSlots {slots : List Slot} {fields start kept : List PayloadField}
    (distinct : (slots.map Slot.name).Nodup)
    (checked : registry.checkSlots channels path slots fields start = .ok kept) :
    (∀ name ∉ slots.map Slot.name, Payload.field? name kept = Payload.field? name start) ∧
    ∀ slot ∈ slots, Payload.field? slot.name start = none →
      registry.checkAt channels (path ++ [.key slot.name]) slot.validator
        (Payload.valueAt slot.name fields) = .ok (Payload.field? slot.name kept) := by
  unfold checkSlots at checked
  induction slots generalizing start with
  | nil =>
    cases checked
    simp
  | cons slot rest ih =>
    rw [List.foldlM_cons] at checked
    obtain ⟨next, here, checked⟩ := bind_eq_ok_iff.mp checked
    obtain ⟨value, here, stored⟩ := bind_eq_ok_iff.mp here
    rw [checkSlot_eq] at here
    obtain ⟨fresh, distinct⟩ := List.nodup_cons.mp distinct
    obtain ⟨others, found⟩ := ih distinct checked
    -- The field is stored under its own name, if there is one.
    have stored (name : String) : Payload.field? name next =
        if name = slot.name then value.or (Payload.field? name start)
        else Payload.field? name start := by
      cases value with
      | none =>
        cases stored
        simp
      | some value =>
        cases stored
        rw [Payload.field?_setField]
        simp
    constructor
    · intro name other
      rw [List.map_cons, List.mem_cons, not_or] at other
      rw [others name other.2, stored, if_neg other.1]
    · intro declared mem missing
      rcases List.mem_cons.mp mem with rfl | mem
      · rw [others _ fresh, stored, if_pos rfl, missing, Option.or_none]
        exact here
      · have apart : declared.name ≠ slot.name := fun same =>
          fresh (same ▸ List.mem_map_of_mem mem)
        exact found declared mem (by rw [stored, if_neg apart, missing])

/-- The second pass over an object finds each field as the first one has left it. -/
theorem checkSlots_again {slots : List Slot} {fields kept : List PayloadField}
    (clean : ∀ slot ∈ slots, ∀ place result,
      registry.checkAt channels place slot.validator (Payload.valueAt slot.name fields) =
          .ok result →
        registry.Clean channels place slot.validator (Payload.valueAt slot.name fields) result)
    (distinct : (slots.map Slot.name).Nodup)
    (checked : registry.checkSlots channels path slots fields [] = .ok kept) :
    registry.checkSlots channels path slots kept [] = .ok kept := by
  rw [← checked]
  refine checkSlots_congr fun slot mem => ?_
  have here := (field?_of_checkSlots distinct checked).2 slot mem rfl
  rw [here]
  exact (clean slot mem _ _ here).again

/-- The rule behind a validator has its fields apart, if the validator and all entries do. -/
theorem slotsApart_of_settle (payload : Payload)
    (entries : ∀ name entry, registry.get? name = some entry → entry.SlotsApart)
    (own : validator.SlotsApart) {rule : Validator}
    (settled : registry.settle payload.isThere [] validator = .rule rule) : rule.SlotsApart := by
  have ends := @ends_settle registry payload [] validator
  rw [settled] at ends
  intro slots within
  rcases within_of_reaches ends within with within | ⟨_, entry, found, within⟩
  · exact own slots within
  · exact entries _ entry found slots within

/-- What a check gives back passes the same check. -/
theorem clean_of_checkAt
    (entries : ∀ name entry, registry.get? name = some entry → entry.SlotsApart)
    (own : validator.SlotsApart)
    (checked : registry.checkAt channels path validator payload = .ok result) :
    registry.Clean channels path validator payload result := by
  induction validator, payload using checkAt_induction registry generalizing path result with
  | head validator payload noItems noFields =>
    have head := checked
    rw [checkAt_eq_verdict noItems noFields] at head
    cases there : payload.isThere with
    | true =>
      rw [there] at head
      exact .unchanged there checked (eq_some_of_verdict there head)
    | false =>
      obtain rfl := Payload.isThere_eq_false_iff.mp there
      have none : result = none := by
        rcases verdict_eq_ok head with ⟨-, same⟩ | same <;> exact same
      subst none
      exact ⟨checked, by simp, by simp⟩
  | array validator element items settled ih =>
    rw [checkAt_array_of_settle settled] at checked
    obtain ⟨kept, here, rfl⟩ := map_eq_ok_iff.mp checked
    have apart := Validator.slotsApart_array_iff.mp
      (slotsApart_of_settle (.array items) entries own settled)
    refine ⟨?_, by simp, by simp⟩
    have again := checkItems_again (fun item mem place result passed =>
      ih item mem apart passed) here
    exact (checkAt_array_of_settle settled).trans (by rw [again]; rfl)
  | object validator slots fields settled ih =>
    rw [checkAt_object_of_settle settled] at checked
    obtain ⟨kept, here, rfl⟩ := map_eq_ok_iff.mp checked
    obtain ⟨distinct, apart⟩ := Validator.slotsApart_object_iff.mp
      (slotsApart_of_settle (.object fields) entries own settled)
    refine ⟨?_, by simp, by simp⟩
    have again := checkSlots_again (fun slot mem place result passed =>
      ih slot mem (apart slot mem) passed) distinct here
    exact (checkAt_object_of_settle settled).trans (by rw [again]; rfl)

/-- Where no object declares a field twice, a check that succeeds gives back what the same check
gives back unchanged. The result is undefined exactly if the input was, and never null. -/
theorem check_idempotent
    (entries : ∀ name entry, registry.get? name = some entry → entry.SlotsApart)
    (own : validator.SlotsApart) {input : Option Payload}
    (checked : registry.check channels validator input = .ok result) :
    registry.check channels validator result = .ok result ∧
    (result = none ↔ input = none ∨ input = some .null) ∧
    result ≠ some .null := by
  rw [check_eq] at checked ⊢
  obtain ⟨again, absent, there⟩ := clean_of_checkAt entries own checked
  refine ⟨again, absent.trans ?_, there⟩
  cases input with
  | none => simp
  | some payload => simp

/-- Points that may have a next one. -/
def pointSlots : List Slot := [
  ⟨"x", .number⟩,
  ⟨"tags", .array (.optional .string)⟩,
  ⟨"next", .optional (.named "Point")⟩]

def pointRegistry : Registry where
  table := { entries := [("Point", ⟨.object pointSlots, .object "Point"⟩)], distinct := by decide }

/-- A point with a field too many, a tag that is not there and a last point that says so. -/
def loosePoint : Payload := .object [
  ⟨"color", .string "red"⟩,
  ⟨"next", .object [⟨"next", .null⟩, ⟨"tags", .array []⟩, ⟨"x", .number ⟨2, 0⟩⟩]⟩,
  ⟨"x", .number ⟨1, 0⟩⟩,
  ⟨"tags", .array [.string "a", .null]⟩]

def cleanPoint : Payload := .object [
  ⟨"x", .number ⟨1, 0⟩⟩,
  ⟨"tags", .array [.string "a", .null]⟩,
  ⟨"next", .object [⟨"x", .number ⟨2, 0⟩⟩, ⟨"tags", .array []⟩]⟩]

theorem check_loosePoint (channels : Channels) :
    pointRegistry.check channels (.named "Point") (some loosePoint) = .ok (some cleanPoint) := by
  have point (present : Bool) : pointRegistry.settle present [] (.named "Point") =
      .rule (.object pointSlots) := by
    rw [settle_named List.not_mem_nil rfl, settle_object]
  have next (present : Bool) : pointRegistry.settle present [] (.optional (.named "Point")) =
      if present then .rule (.object pointSlots) else .leftOut := by
    rw [settle, point]
  have tag (present : Bool) : pointRegistry.settle present [] (.optional .string) =
      if present then .rule .string else .leftOut := by
    rw [settle, settle_of_isRule rfl]
  have x (present : Bool) : pointRegistry.settle present [] .number = .rule .number :=
    settle_of_isRule rfl
  simp [check, loosePoint, cleanPoint, checkAt, checkItems, checkSlot, checkAbsent, point, next,
    tag, x, pointSlots, verdict, complaint?, complaint?.expect, Payload.kind, present?,
    Payload.setField, bind, Except.bind, pure, Except.pure]

theorem pointSlots_apart : Validator.SlotsApart (.object pointSlots) := by
  refine Validator.slotsApart_object_iff.mpr ⟨by decide, ?_⟩
  simp only [pointSlots, List.forall_mem_cons, Validator.slotsApart_array_iff,
    Validator.slotsApart_optional_iff]
  exact ⟨Validator.slotsApart_of_isLeaf rfl, Validator.slotsApart_of_isLeaf rfl,
    Validator.slotsApart_named "Point", by simp⟩

theorem loosePoint_checked_twice :
    (∀ name entry, pointRegistry.get? name = some entry → entry.SlotsApart) ∧
    pointRegistry.check (fun _ => none) (.named "Point") (some loosePoint) =
      .ok (some cleanPoint) ∧
    pointRegistry.check (fun _ => none) (.named "Point") (some cleanPoint) =
      .ok (some cleanPoint) := by
  have entries : ∀ name entry, pointRegistry.get? name = some entry → entry.SlotsApart := by
    intro name entry found
    obtain ⟨registered, held, rfl⟩ := Option.map_eq_some_iff.mp found
    have mem := (Table.get?_eq_some_iff ..).mp held
    cases List.mem_singleton.mp mem
    exact pointSlots_apart
  have checked := check_loosePoint fun _ => none
  obtain ⟨again, -⟩ := check_idempotent entries (Validator.slotsApart_named "Point") checked
  exact ⟨entries, checked, again⟩

end Registry

end ChannelProtocol
