-- Null and nothing. A payload is checked as it is without its null fields, at every
-- depth: it fails in the same place for the same reason, or the results are the
-- same without theirs.
import ChannelProtocol.Proofs.Registry.Sanitizing

namespace ChannelProtocol

namespace Payload

mutual

/-- The payload without the fields that are null, at every depth. The items of an array stay. -/
def strip : Payload → Payload
  | .array items => .array (stripItems items)
  | .object fields => .object (stripFields fields fields)
  | payload => payload

def stripItems : List Payload → List Payload
  | [] => []
  | item :: rest => item.strip :: stripItems rest

/-- Of some fields of an object those under whose name there is something. If each has a name of
its own, these are the fields that are not null. -/
def stripFields (all : List PayloadField) : List PayloadField → List PayloadField
  | [] => []
  | ⟨name, value⟩ :: rest =>
    if (valueAt name all).isThere then ⟨name, value.strip⟩ :: stripFields all rest
    else stripFields all rest

end

/-- The fields with a payload stripped in each of them. -/
def stripValues (fields : List PayloadField) : List PayloadField :=
  fields.map fun field => ⟨field.name, field.value.strip⟩

/-! ## What stripping leaves alone -/

theorem sizeOf_field_lt {fields : List PayloadField} {field : PayloadField}
    (mem : field ∈ fields) : sizeOf field.value < sizeOf (Payload.object fields) := by
  obtain ⟨name, value⟩ := field
  have inside := List.sizeOf_lt_of_mem mem
  rw [PayloadField.mk.sizeOf_spec] at inside
  rw [Payload.object.sizeOf_spec]
  simp only
  omega

@[simp]
theorem strip_null : strip .null = .null := by
  rw [strip]
  all_goals simp

@[simp]
theorem kind_strip (payload : Payload) : payload.strip.kind = payload.kind := by
  cases payload <;> simp [strip, kind]

@[simp]
theorem isThere_strip (payload : Payload) : payload.strip.isThere = payload.isThere := by
  cases payload <;> simp [strip, isThere]

theorem stripItems_eq (items : List Payload) : stripItems items = items.map strip := by
  induction items with
  | nil => simp [stripItems]
  | cons item rest ih => simp [stripItems, ih]

theorem field?_stripFields (all fields : List PayloadField) (name : String) :
    field? name (stripFields all fields) =
      if (valueAt name all).isThere then (field? name fields).map strip else none := by
  induction fields with
  | nil => simp [stripFields, field?]
  | cons field rest ih =>
    obtain ⟨other, value⟩ := field
    rw [stripFields, field?]
    by_cases same : other = name
    · subst same
      by_cases there : (valueAt other all).isThere
      · simp [there, field?]
      · simp [there, ih]
    · by_cases there : (valueAt other all).isThere
      · simp [there, field?, same, ih]
      · simp [there, same, ih]

/-- A field is found stripped, or not at all if it is null. -/
theorem valueAt_stripFields (name : String) (fields : List PayloadField) :
    valueAt name (stripFields fields fields) = (valueAt name fields).strip := by
  have found := field?_stripFields fields fields name
  by_cases there : (valueAt name fields).isThere
  · rw [valueAt, found, if_pos there, valueAt]
    cases field? name fields <;> simp
  · have null := isThere_eq_false_iff.mp (Bool.eq_false_iff.mpr there)
    rw [valueAt, found, if_neg there, null]
    simp

theorem valueAt_stripValues (name : String) (fields : List PayloadField) :
    valueAt name (stripValues fields) = (valueAt name fields).strip := by
  have found : field? name (stripValues fields) = (field? name fields).map strip := by
    unfold stripValues
    induction fields with
    | nil => simp [field?]
    | cons field rest ih =>
      by_cases same : field.name = name <;> simp [field?, same, ih]
  rw [valueAt, found, valueAt]
  cases field? name fields <;> simp

/-- What is left of an object can be told from its stripped values. -/
theorem stripFields_eq (all fields : List PayloadField) :
    stripFields all fields =
      (stripValues fields).filter fun field => (valueAt field.name (stripValues all)).isThere := by
  simp only [valueAt_stripValues, isThere_strip]
  induction fields with
  | nil => simp [stripFields, stripValues]
  | cons field rest ih =>
    obtain ⟨name, value⟩ := field
    rw [stripFields, ih]
    by_cases there : (valueAt name all).isThere <;> simp [stripValues, there]

theorem strip_object_congr {fields others : List PayloadField}
    (same : stripValues fields = stripValues others) :
    strip (.object fields) = strip (.object others) := by
  rw [strip, strip, stripFields_eq fields, stripFields_eq others, same]

theorem stripValues_setField (name : String) (value : Payload) (fields : List PayloadField) :
    stripValues (setField name value fields) = setField name value.strip (stripValues fields) := by
  unfold stripValues
  induction fields with
  | nil => simp [setField]
  | cons field rest ih =>
    by_cases same : field.name = name <;> simp [setField, same, ih]

theorem mem_stripFields {all fields : List PayloadField} {kept : PayloadField}
    (mem : kept ∈ stripFields all fields) :
    (valueAt kept.name all).isThere ∧
      ∃ value, ⟨kept.name, value⟩ ∈ fields ∧ kept.value = value.strip := by
  rw [stripFields_eq, List.mem_filter, valueAt_stripValues, isThere_strip] at mem
  obtain ⟨mapped, there⟩ := mem
  obtain ⟨⟨name, value⟩, listed, rfl⟩ := List.mem_map.mp mapped
  exact ⟨there, value, listed, rfl⟩

/-- Nothing is left to strip. The induction is on the size of the payload, as the values of an
object are members of its fields. -/
theorem strip_strip (payload : Payload) : payload.strip.strip = payload.strip := by
  induction size : sizeOf payload using Nat.strongRecOn generalizing payload with
  | ind n ih =>
    subst size
    cases payload with
    | null | bool | number | string => simp [strip]
    | array items =>
      simp only [strip, stripItems_eq, List.map_map, Payload.array.injEq]
      exact List.map_congr_left fun item mem => ih _ (sizeOf_item_lt mem) item rfl
    | object fields =>
      have again : stripValues (stripFields fields fields) = stripFields fields fields := by
        refine (List.map_congr_left fun kept mem => ?_).trans (List.map_id _)
        obtain ⟨-, value, listed, same⟩ := mem_stripFields mem
        have smaller := ih _ (sizeOf_field_lt listed) value rfl
        rw [same, smaller, ← same]
        cases kept
        rfl
      rw [strip, strip, stripFields_eq, again, Payload.object.injEq, List.filter_eq_self]
      intro kept mem
      rw [valueAt_stripFields, isThere_strip]
      exact (mem_stripFields mem).1

/-! ## Heads -/

theorem guid?_object (fields : List PayloadField) :
    guid? (.object fields) =
      match valueAt "guid" fields with
      | .string guid => some guid
      | _ => none := by
  rw [guid?, valueAt]
  rcases field? "guid" fields with _ | value
  · rfl
  · cases value <;> rfl

theorem guid?_strip (payload : Payload) : payload.strip.guid? = payload.guid? := by
  cases payload with
  | null | bool | number | string | array => simp [strip, guid?]
  | object fields =>
    rw [strip, guid?_object, guid?_object, valueAt_stripFields]
    cases valueAt "guid" fields <;> simp [strip]

end Payload

namespace Registry

open Payload

variable {registry : Registry} {channels : Channels} {path : List PathStep} {payload : Payload}
  {validator : Validator}

theorem refersTo_strip (fit : String → Bool) :
    refersTo channels fit payload.strip = refersTo channels fit payload := by
  unfold refersTo
  rw [guid?_strip]

theorem present?_strip (payload : Payload) :
    present? payload.strip = (present? payload).map strip := by
  cases payload <;> simp [strip, present?]

/-- The head of a payload is judged without a look at its null fields. -/
theorem complaint?_strip (validator : Validator) :
    complaint? channels payload.strip validator = complaint? channels payload validator := by
  cases validator with
  | enum literals => cases payload <;> simp [complaint?, strip]
  | any | optional | named | undefined | string | binary | number | boolean | array | object =>
    simp [complaint?, complaint?.expect]
  | anyChannel | channel => simp [complaint?, refersTo_strip]

theorem verdict_strip (settled : Settled) :
    (verdict channels path payload.strip settled).map (Option.map strip) =
      (verdict channels path payload settled).map (Option.map strip) := by
  cases settled with
  | leftOut | unknown | endless => rfl
  | rule rule =>
    rw [verdict, verdict, complaint?_strip]
    cases complaint? channels payload rule with
    | some complaint => rfl
    | none =>
      have given : (present? payload.strip).map strip = (present? payload).map strip := by
        rw [present?_strip]
        cases present? payload <;> simp [strip_strip]
      simp [Except.map, given]

/-! ## Items and fields -/

theorem checkItems_strip {element : Validator} {position : Nat} {items : List Payload}
    (each : ∀ item ∈ items, ∀ place,
      (registry.checkAt channels place element item.strip).map (Option.map strip) =
        (registry.checkAt channels place element item).map (Option.map strip)) :
    (registry.checkItems channels path element position (stripItems items)).map stripItems =
      (registry.checkItems channels path element position items).map stripItems := by
  induction items generalizing position with
  | nil => simp [stripItems]
  | cons item rest ih =>
    obtain ⟨here, later⟩ := List.forall_mem_cons.mp each
    rw [stripItems, checkItems, checkItems]
    refine map_bind_congr (here _) fun first second same => ?_
    refine map_bind_congr (ih later) fun others others' tail => ?_
    have given : (first.getD .null).strip = (second.getD .null).strip := by
      have strip_getD (result : Option Payload) :
          (result.getD .null).strip = (result.map strip).getD .null := by
        cases result <;> simp
      rw [strip_getD, strip_getD, same]
    simp [Except.map, pure, Except.pure, stripItems, given, tail]

/-- The fields are checked alike, and what is collected stays alike. -/
theorem checkSlots_strip {slots : List Slot} {fields start start' : List PayloadField}
    (each : ∀ slot ∈ slots, ∀ place,
      (registry.checkAt channels place slot.validator (valueAt slot.name fields).strip).map
          (Option.map strip) =
        (registry.checkAt channels place slot.validator (valueAt slot.name fields)).map
          (Option.map strip))
    (same : stripValues start' = stripValues start) :
    (registry.checkSlots channels path slots (stripFields fields fields) start').map stripValues =
      (registry.checkSlots channels path slots fields start).map stripValues := by
  unfold checkSlots
  induction slots generalizing start start' with
  | nil => simp [Except.map, pure, Except.pure, same]
  | cons slot rest ih =>
    obtain ⟨here, later⟩ := List.forall_mem_cons.mp each
    rw [List.foldlM_cons, List.foldlM_cons, checkSlot_eq, checkSlot_eq, valueAt_stripFields]
    refine map_bind_congr (f := stripValues) ?_ fun next next' alike => ih later alike
    refine map_bind_congr (here _) fun value value' alike => ?_
    cases value <;> cases value' <;> simp only [Option.map_none, Option.map_some, reduceCtorEq,
      Option.some.injEq] at alike
    · simp [Except.map, pure, Except.pure, same]
    · simp [Except.map, pure, Except.pure, stripValues_setField, same, alike]

/-! ## Whole payloads -/

/-- A payload without its null fields is checked as the payload itself, and the results differ in
null fields only. -/
theorem checkAt_strip (path : List PathStep) (validator : Validator) (payload : Payload) :
    (registry.checkAt channels path validator payload.strip).map (Option.map strip) =
      (registry.checkAt channels path validator payload).map (Option.map strip) := by
  induction validator, payload using checkAt_induction registry generalizing path with
  | head validator payload noItems noFields =>
    rw [checkAt_eq_verdict noItems noFields]
    rw [← kind_strip] at noItems noFields
    rw [checkAt_eq_verdict noItems noFields, isThere_strip, verdict_strip]
  | array validator element items settled ih =>
    rw [strip, checkAt, checkAt, settled]
    refine map_bind_congr (checkItems_strip fun item mem place => ih item mem place)
      fun kept kept' alike => ?_
    simp [Except.map, pure, Except.pure, strip, alike]
  | object validator slots fields settled ih =>
    rw [strip, checkAt, checkAt, settled]
    refine map_bind_congr (checkSlots_strip (fun slot mem place => ih slot mem place) rfl)
      fun kept kept' alike => ?_
    simp [Except.map, pure, Except.pure, strip_object_congr alike]

/-- Null and nothing are the same in every check. Without its null fields a payload fails in the
same place for the same reason, and if it passes, the results are the same without theirs. -/
theorem check_strip (registry : Registry) (channels : Channels) (validator : Validator)
    (payload : Payload) :
    (∀ failure, registry.check channels validator (some payload.strip) = .error failure ↔
      registry.check channels validator (some payload) = .error failure) ∧
    ∀ result result', registry.check channels validator (some payload) = .ok result →
      registry.check channels validator (some payload.strip) = .ok result' →
        result'.map strip = result.map strip := by
  have alike := @checkAt_strip registry channels [] validator payload
  rw [check, check]
  constructor
  · intro failure
    rw [← map_eq_error_iff, alike, map_eq_error_iff]
  · intro result result' checked checked'
    rw [checked, checked'] at alike
    exact Except.ok.inj alike

/-- A note of any kind, and a size that may be left out. -/
def noteValidator : Validator := .object [⟨"note", .any⟩, ⟨"size", .optional .number⟩]

/-- A note with a null inside, and a size that is null. -/
def nullNote : Payload := .object [
  ⟨"size", .null⟩,
  ⟨"note", .object [⟨"by", .null⟩, ⟨"tags", .array [.null]⟩]⟩]

/-- What may be anything is given on with its nulls, so that the results differ in them. -/
theorem nullNote_checked_alike :
    ∃ result result',
      Registry.empty.check (fun _ => none) noteValidator (some nullNote) = .ok result ∧
      Registry.empty.check (fun _ => none) noteValidator (some nullNote.strip) = .ok result' ∧
      result' ≠ result ∧ result'.map strip = result.map strip := by
  have note (present : Bool) : Registry.empty.settle present [] .any = .rule .any :=
    settle_of_isRule rfl
  have size (present : Bool) : Registry.empty.settle present [] (.optional .number) =
      if present then .rule .number else .leftOut := by
    rw [settle, settle_of_isRule rfl]
  have checked : Registry.empty.check (fun _ => none) noteValidator (some nullNote) =
      .ok (some (.object [⟨"note", .object [⟨"by", .null⟩, ⟨"tags", .array [.null]⟩]⟩])) := by
    simp [check, noteValidator, nullNote, checkAt, checkSlot, checkAbsent, note, size, verdict,
      complaint?, present?, setField, bind, Except.bind, pure, Except.pure]
  have checked' : Registry.empty.check (fun _ => none) noteValidator (some nullNote.strip) =
      .ok (some (.object [⟨"note", .object [⟨"tags", .array [.null]⟩]⟩])) := by
    simp [check, noteValidator, nullNote, strip, stripFields, stripItems, valueAt, field?, isThere,
      checkAt, checkSlot, checkAbsent, note, size, verdict, complaint?, present?, setField, bind,
      Except.bind, pure, Except.pure]
  exact ⟨_, _, checked, checked', by simp, (check_strip _ _ _ _).2 _ _ checked checked'⟩

end Registry

end ChannelProtocol
