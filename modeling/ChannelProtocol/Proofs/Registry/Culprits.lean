-- Who is to blame for a failed check. The path of a failure leads to a part of the
-- payload and to a validator that rejects it at its head, and all that is checked
-- on the way before it passes.
import ChannelProtocol.Proofs.Registry.Calls

namespace ChannelProtocol

/-! ## The text of a path -/

namespace Registry

/-- The text of a step that is not the first one. -/
def PathStep.text : PathStep → String
  | .key name => "." ++ name
  | .index position => "[" ++ toString position ++ "]"

/-- The keys of a path joined by dots, and its positions in brackets. -/
def joinedPath : List PathStep → String
  | [] => ""
  | .key name :: rest => name ++ String.join (rest.map PathStep.text)
  | .index position :: rest =>
    PathStep.text (.index position) ++ String.join (rest.map PathStep.text)

def PathStep.isEmptyKey : PathStep → Bool
  | .key name => name == ""
  | .index _ => false

theorem foldl_extendPath {path : String} (started : path ≠ "") (steps : List PathStep) :
    steps.foldl extendPath path = path ++ String.join (steps.map PathStep.text) := by
  induction steps generalizing path with
  | nil => simp
  | cons step rest ih =>
    have one : extendPath path step = path ++ step.text := by
      cases step <;> simp [extendPath, PathStep.text, started, String.append_assoc]
    have further : extendPath path step ≠ "" := by simp [one, started]
    rw [List.foldl_cons, ih further, one, List.map_cons, String.join_cons, String.append_assoc]

/-- Empty keys leave no trace at the start of a path. -/
theorem pathText_eq (path : List PathStep) :
    pathText path = joinedPath (path.dropWhile PathStep.isEmptyKey) := by
  unfold pathText
  induction path with
  | nil => rfl
  | cons step rest ih =>
    rw [List.foldl_cons]
    cases step with
    | key name =>
      by_cases empty : name = ""
      · subst empty
        simpa [extendPath, PathStep.isEmptyKey] using ih
      · rw [List.dropWhile_cons_of_neg (by simp [PathStep.isEmptyKey, empty])]
        simp [extendPath, joinedPath, foldl_extendPath empty]
    | index position =>
      rw [List.dropWhile_cons_of_neg (by simp [PathStep.isEmptyKey]), foldl_extendPath]
      · simp [extendPath, joinedPath, PathStep.text]
      · simp [extendPath]

theorem pathText_of_started {step : PathStep} (started : step.isEmptyKey = false)
    (rest : List PathStep) : pathText (step :: rest) = joinedPath (step :: rest) := by
  rw [pathText_eq, List.dropWhile_cons_of_neg (by simp [started])]

theorem length_joinedPath_le (path : List PathStep) :
    (joinedPath path).length ≤ (String.join (path.map PathStep.text)).length := by
  cases path with
  | nil => simp [joinedPath]
  | cons step rest =>
    cases step with
    | key name => simp [joinedPath, PathStep.text]
    | index position => simp [joinedPath]

theorem length_pathText_le (path : List PathStep) :
    (pathText path).length ≤ (joinedPath path).length := by
  rw [pathText_eq]
  induction path with
  | nil => simp
  | cons step rest ih =>
    by_cases empty : step.isEmptyKey
    · rw [List.dropWhile_cons_of_pos empty]
      refine ih.trans ((length_joinedPath_le rest).trans ?_)
      cases step with
      | key name => simp [joinedPath]
      | index position => cases empty
    · rw [List.dropWhile_cons_of_neg empty]

/-- The text of a path has a dot for each key but the first, unless an empty key comes first and
another key comes second. -/
theorem pathText_eq_joinedPath_iff (path : List PathStep) :
    pathText path = joinedPath path ↔ ∀ name rest, path ≠ .key "" :: .key name :: rest := by
  constructor
  · rintro same name rest rfl
    have dropped : pathText (.key "" :: .key name :: rest) = pathText (.key name :: rest) := by
      simp [pathText, extendPath]
    have shorter := length_pathText_le (.key name :: rest)
    have longer := congrArg String.length (dropped.symm.trans same)
    simp only [joinedPath, List.map_cons, String.join_cons, PathStep.text, String.length_append]
      at shorter longer
    have dot : ".".length = 1 := rfl
    have none : "".length = 0 := rfl
    omega
  · intro apart
    cases path with
    | nil => rfl
    | cons step rest =>
      by_cases empty : step.isEmptyKey
      · cases step with
        | index position => cases empty
        | key name =>
          obtain rfl : name = "" := by simpa [PathStep.isEmptyKey] using empty
          have dropped : pathText (.key "" :: rest) = pathText rest := by
            simp [pathText, extendPath]
          rw [dropped]
          cases rest with
          | nil => rfl
          | cons second rest =>
            cases second with
            | key name => exact absurd rfl (apart name rest)
            | index position =>
              rw [pathText_of_started rfl]
              simp [joinedPath]
      · exact pathText_of_started (by simpa using empty) rest

end Registry

/-! ## Following a path -/

namespace Payload

open Registry (PathStep)

/-- What a step leads to: an item, or a field, which is null where there is none. -/
def step? : PathStep → Payload → Option Payload
  | .key name, .object fields => some (valueAt name fields)
  | .index position, .array items => items[position]?
  | _, _ => none

/-- What a path leads to. -/
def follow : List PathStep → Payload → Option Payload
  | [], payload => some payload
  | step :: rest, payload => (step? step payload).bind (follow rest)

end Payload

namespace Registry

open Relation

/-- The check of a payload on its own succeeds. -/
def Accepts (registry : Registry) (channels : Channels) (validator : Validator)
    (payload : Payload) : Prop :=
  Succeeds (registry.check channels validator (some payload))

/-- A path leads from a validator on a payload to another one on a part of it, through options
and names. All items and declared fields before those on the way are accepted. -/
inductive Walks (registry : Registry) (channels : Channels) :
    List PathStep → Call → Call → Prop
  | here (call : Call) : Walks registry channels [] call call
  | option {steps : List PathStep} {inner : Validator} {payload : Payload} {last : Call} :
      payload.isThere → Walks registry channels steps (inner, payload) last →
      Walks registry channels steps (.optional inner, payload) last
  | lookup {steps : List PathStep} {name : String} {entry : Validator} {payload : Payload}
      {last : Call} :
      registry.get? name = some entry → Walks registry channels steps (entry, payload) last →
      Walks registry channels steps (.named name, payload) last
  | item {steps : List PathStep} {element : Validator} {items before after : List Payload}
      {item : Payload} {last : Call} :
      items = before ++ item :: after →
      (∀ earlier ∈ before, registry.Accepts channels element earlier) →
      Walks registry channels steps (element, item) last →
      Walks registry channels (.index before.length :: steps) (.array element, .array items) last
  | slot {steps : List PathStep} {slots before after : List Slot} {slot : Slot}
      {fields : List PayloadField} {last : Call} :
      slots = before ++ slot :: after →
      (∀ earlier ∈ before,
        registry.Accepts channels earlier.validator (Payload.valueAt earlier.name fields)) →
      Walks registry channels steps (slot.validator, Payload.valueAt slot.name fields) last →
      Walks registry channels (.key slot.name :: steps) (.object slots, .object fields) last

/-- The kind of the payloads that a validator is for. -/
def expected? : Validator → Option Payload.Kind
  | .undefined => some .undefined
  | .string | .binary => some .string
  | .number => some .number
  | .boolean => some .boolean
  | .array _ => some .array
  | .object _ => some .object
  | _ => none

/-- A validator rejects a payload at its head. -/
inductive Rejects (registry : Registry) (channels : Channels) :
    Validator → Payload → Complaint → Prop
  | kind {validator : Validator} {payload : Payload} {expected : Payload.Kind} :
      expected? validator = some expected → payload.kind ≠ expected →
      Rejects registry channels validator payload (.mismatch expected payload.kind)
  | literal {literals : List String} {payload : Payload} :
      (∀ text ∈ literals, payload ≠ .string text) →
      Rejects registry channels (.enum literals) payload (.notOneOf literals)
  | anyChannel {payload : Payload} :
      (∀ guid, payload.guid? = some guid → channels guid = none) →
      Rejects registry channels .anyChannel payload .notAnyChannel
  | channel {kinds : List String} {payload : Payload} :
      (∀ guid kind, payload.guid? = some guid → channels guid = some kind → kind ∉ kinds) →
      Rejects registry channels (.channel kinds) payload (.notChannel kinds)
  | unknown {name : String} {payload : Payload} : registry.get? name = none →
      Rejects registry channels (.named name) payload (.unknownType name)
  /-- A name that comes back to itself never looks at the payload. -/
  | endless {name : String} {payload : Payload} :
      TransGen registry.Calls (.named name, payload) (.named name, payload) →
      Rejects registry channels (.named name) payload (.endlessType name)

variable {registry : Registry} {channels : Channels} {path : List PathStep} {payload : Payload}
  {validator : Validator}

theorem Walks.follow {steps : List PathStep} {start last : Call}
    (walk : registry.Walks channels steps start last) :
    Payload.follow steps start.2 = some last.2 := by
  induction walk with
  | here call => rfl
  | option _ _ ih => exact ih
  | lookup _ _ ih => exact ih
  | item parts _ _ ih =>
    subst parts
    simpa [Payload.follow, Payload.step?] using ih
  | slot _ _ _ ih => simpa [Payload.follow, Payload.step?] using ih

/-! ## Accepting does not depend on the place -/

theorem succeeds_verdict_congr {other : List PathStep} {settled : Settled}
    (passed : Succeeds (verdict channels path payload settled)) :
    Succeeds (verdict channels other payload settled) := by
  cases settled with
  | leftOut => exact succeeds_ok none
  | unknown | endless => exact absurd passed (not_succeeds_error _)
  | rule rule => exact succeeds_verdict_iff.mpr (succeeds_verdict_iff.mp passed)

theorem succeeds_checkAt_congr (other : List PathStep)
    (passed : Succeeds (registry.checkAt channels path validator payload)) :
    Succeeds (registry.checkAt channels other validator payload) := by
  induction validator, payload using checkAt_induction registry generalizing path other with
  | head validator payload noItems noFields =>
    rw [checkAt_eq_verdict noItems noFields] at passed ⊢
    exact succeeds_verdict_congr passed
  | array validator element items settled ih =>
    rw [checkAt_array_of_settle settled, succeeds_map_iff, succeeds_checkItems_iff] at passed ⊢
    intro index item found
    exact ih item (List.mem_of_getElem? found) _ (passed index item found)
  | object validator slots fields settled ih =>
    rw [checkAt_object_of_settle settled, succeeds_map_iff, succeeds_checkSlots_iff] at passed ⊢
    intro slot mem
    exact ih slot mem _ (passed slot mem)

theorem accepts_of_succeeds (passed : Succeeds (registry.checkAt channels path validator payload)) :
    registry.Accepts channels validator payload := by
  unfold Accepts
  rw [check]
  exact succeeds_checkAt_congr [] passed

/-! ## Heads -/

theorem rejects_of_complaint {complaint : Complaint}
    (h : complaint? channels payload validator = some complaint) :
    registry.Rejects channels validator payload complaint := by
  have expects {kind : Payload.Kind} (own : expected? validator = some kind)
      (h : complaint?.expect payload kind = some complaint) :
      registry.Rejects channels validator payload complaint := by
    unfold complaint?.expect at h
    split at h
    · cases h
    · rename_i other
      cases h
      exact .kind own other
  cases validator with
  | any | optional | named => cases h
  | undefined | string | binary | number | boolean | array | object => exact expects rfl h
  | enum literals =>
    have none : complaint? channels payload (.enum literals) ≠ none := by simp [h]
    have told : complaint = .notOneOf literals := by
      cases payload <;> simp_all [complaint?]
    subst told
    exact .literal fun text mem same => none (complaint?_enum_iff.mpr ⟨text, mem, same⟩)
  | anyChannel =>
    rw [complaint?] at h
    split at h
    · cases h
    · rename_i unfit
      cases h
      refine .anyChannel fun guid referred => ?_
      cases live : channels guid with
      | none => rfl
      | some kind => exact absurd (refersTo_iff.mpr ⟨guid, kind, referred, live, rfl⟩) unfit
  | channel kinds =>
    rw [complaint?] at h
    split at h
    · cases h
    · rename_i unfit
      cases h
      refine .channel fun guid kind referred live mem => unfit (refersTo_iff.mpr ?_)
      exact ⟨guid, kind, referred, live, by simpa using mem⟩

/-- The validator at which the names and options of another one end. -/
def Settled.last? : Settled → Option Validator
  | .leftOut => none
  | .rule validator => some validator
  | .unknown name | .endless name => some (.named name)

theorem Walks.of_settle {seen : List String} {target : Validator} {steps : List PathStep}
    {last : Call}
    (ends : (registry.settle payload.isThere seen validator).last? = some target)
    (walk : registry.Walks channels steps (target, payload) last) :
    registry.Walks channels steps (validator, payload) last := by
  fun_induction registry.settle payload.isThere seen validator with
  | case1 seen inner there ih => exact .option there (ih ends)
  | case2 => cases ends
  | case3 | case4 | case6 =>
    cases ends
    exact walk
  | case5 seen name fresh entry found _ ih => exact .lookup found (ih ends)

theorem path_of_verdict {settled : Settled} {failure : Failure}
    (h : verdict channels path payload settled = .error failure) : failure.path = path := by
  cases settled with
  | leftOut => cases h
  | unknown | endless =>
    cases h
    rfl
  | rule rule =>
    rw [verdict] at h
    split at h
    · cases h
      rfl
    · cases h

/-- A verdict against a payload is that of the validator at which names and options end. -/
theorem rejects_of_verdict {failure : Failure}
    (h : verdict channels path payload (registry.settle payload.isThere [] validator) =
      .error failure) :
    failure.path = path ∧ ∃ target,
      registry.Walks channels [] (validator, payload) (target, payload) ∧
      registry.Rejects channels target payload failure.complaint := by
  have ends := @ends_settle registry payload [] validator
  refine ⟨path_of_verdict h, ?_⟩
  rcases verdict_eq_error h with ⟨name, settled, told⟩ | ⟨name, settled, told⟩ |
    ⟨rule, settled, complained⟩
  · rw [settled] at ends
    refine ⟨.named name, .of_settle (by rw [settled]; rfl) (.here _), ?_⟩
    rw [told]
    exact .unknown ends.2
  · rw [settled] at ends
    refine ⟨.named name, .of_settle (by rw [settled]; rfl) (.here _), ?_⟩
    rw [told]
    exact .endless (ends.2.resolve_left List.not_mem_nil)
  · refine ⟨rule, .of_settle (by rw [settled]; rfl) (.here _), ?_⟩
    exact rejects_of_complaint complained

/-! ## Whole payloads -/

/-- A failure below a path leads on from there to its culprit. -/
theorem exists_culprit {failure : Failure}
    (failed : registry.checkAt channels path validator payload = .error failure) :
    ∃ steps culprit, failure.path = path ++ steps ∧
      registry.Walks channels steps (validator, payload) culprit ∧
      registry.Rejects channels culprit.1 culprit.2 failure.complaint := by
  induction validator, payload using checkAt_induction registry generalizing path with
  | head validator payload noItems noFields =>
    rw [checkAt_eq_verdict noItems noFields] at failed
    obtain ⟨place, target, walk, rejects⟩ := rejects_of_verdict failed
    exact ⟨[], (target, payload), by rw [place, List.append_nil], walk, rejects⟩
  | array validator element items settled ih =>
    rw [checkAt_array_of_settle settled, map_eq_error_iff] at failed
    obtain ⟨before, item, after, parts, passed, failed⟩ := exists_item_of_error failed
    obtain ⟨steps, culprit, place, walk, rejects⟩ := ih item (by simp [parts]) failed
    have ends : (registry.settle (Payload.array items).isThere [] validator).last? =
        some (.array element) := by
      rw [Payload.isThere_array, settled]
      rfl
    refine ⟨.index before.length :: steps, culprit, ?_, .of_settle ends ?_, rejects⟩
    · rw [place, Nat.zero_add, List.append_assoc, List.singleton_append]
    · refine .item parts (fun earlier mem => ?_) walk
      obtain ⟨place, passed⟩ := passed earlier mem
      exact accepts_of_succeeds passed
  | object validator slots fields settled ih =>
    rw [checkAt_object_of_settle settled, map_eq_error_iff] at failed
    obtain ⟨before, slot, after, parts, passed, failed⟩ := exists_slot_of_error failed
    obtain ⟨steps, culprit, place, walk, rejects⟩ := ih slot (by simp [parts]) failed
    have ends : (registry.settle (Payload.object fields).isThere [] validator).last? =
        some (.object slots) := by
      rw [Payload.isThere_object, settled]
      rfl
    refine ⟨.key slot.name :: steps, culprit, ?_, .of_settle ends ?_, rejects⟩
    · rw [place, List.append_assoc, List.singleton_append]
    · refine .slot parts (fun earlier mem => ?_) walk
      obtain ⟨place, passed⟩ := passed earlier mem
      exact accepts_of_succeeds passed

theorem Rejects.found {expected found : Payload.Kind}
    (rejects : registry.Rejects channels validator payload (.mismatch expected found)) :
    found = payload.kind := by
  cases rejects
  rfl

/-- A failed check blames the right part of the payload. Its path leads to a validator that rejects
what is there at its head, for the reason that is told, and all that comes before on the way is
accepted. The text of the path is that of its steps without the empty keys at the start: it has the
keys joined by dots and the positions in brackets, unless it starts with an empty key and another
key. -/
theorem check_blames_culprit {input : Option Payload} {failure : Failure}
    (failed : registry.check channels validator input = .error failure) :
    (∃ culprit : Call,
      registry.Walks channels failure.path (validator, input.getD .null) culprit ∧
      (input.getD .null).follow failure.path = some culprit.2 ∧
      registry.Rejects channels culprit.1 culprit.2 failure.complaint ∧
      ∀ expected found, failure.complaint = .mismatch expected found →
        found = culprit.2.kind) ∧
    pathText failure.path = joinedPath (failure.path.dropWhile PathStep.isEmptyKey) ∧
    (pathText failure.path = joinedPath failure.path ↔
      ∀ name rest, failure.path ≠ .key "" :: .key name :: rest) := by
  refine ⟨?_, pathText_eq failure.path, pathText_eq_joinedPath_iff failure.path⟩
  rw [check_eq] at failed
  obtain ⟨steps, culprit, place, walk, rejects⟩ := exists_culprit failed
  rw [List.nil_append] at place
  subst place
  refine ⟨culprit, walk, walk.follow, rejects, fun expected found told => ?_⟩
  rw [told] at rejects
  exact rejects.found

/-- Boxes of items with names. -/
def boxRegistry : Registry where
  table := {
    entries := [
      ("Box", ⟨.object [⟨"label", .optional .string⟩, ⟨"items", .array (.named "Item")⟩],
        .object "Box"⟩),
      ("Item", ⟨.object [⟨"name", .string⟩], .object "Item"⟩)]
    distinct := by decide }

/-- A box whose second item has a number for its name. -/
def misnamedBox : Payload := .object [
  ⟨"items", .array [.object [⟨"name", .string "a"⟩], .object [⟨"name", .number ⟨1, 0⟩⟩]]⟩]

theorem misnamedBox_blamed :
    ∃ failure culprit,
      boxRegistry.check (fun _ => none) (.named "Box") (some misnamedBox) = .error failure ∧
      pathText failure.path = "items[1].name" ∧
      failure.complaint = .mismatch .string .number ∧
      boxRegistry.Walks (fun _ => none) failure.path (.named "Box", misnamedBox) culprit ∧
      misnamedBox.follow failure.path = some culprit.2 ∧
      boxRegistry.Rejects (fun _ => none) culprit.1 culprit.2 failure.complaint := by
  have box : boxRegistry.settle true [] (.named "Box") =
      .rule (.object [⟨"label", .optional .string⟩, ⟨"items", .array (.named "Item")⟩]) := by
    rw [settle_named List.not_mem_nil rfl, settle_object]
  have item : boxRegistry.settle true [] (.named "Item") = .rule (.object [⟨"name", .string⟩]) := by
    rw [settle_named List.not_mem_nil rfl, settle_object]
  have name : boxRegistry.settle true [] .string = .rule .string := settle_of_isRule rfl
  have label : boxRegistry.settle false [] (.optional .string) = .leftOut := by
    rw [settle, if_neg (by simp)]
  have failed : boxRegistry.check (fun _ => none) (.named "Box") (some misnamedBox) =
      .error ⟨[.key "items", .index 1, .key "name"], .mismatch .string .number⟩ := by
    simp [check, misnamedBox, checkAt, checkItems, checkSlot, checkAbsent, box, item, name, label,
      verdict, complaint?, complaint?.expect, Payload.kind, present?, Payload.setField, bind,
      Except.bind, pure, Except.pure]
  obtain ⟨culprit, walk, reached, rejects, -⟩ := (check_blames_culprit failed).1
  exact ⟨_, culprit, failed, by decide, rfl, walk, reached, rejects⟩

/-- An object with a field that has no name and one that has. -/
def namelessValidator : Validator := .object [
  ⟨"", .object [⟨"a", .string⟩]⟩,
  ⟨"a", .string⟩]

def namelessFields : List PayloadField := [⟨"", .object []⟩, ⟨"a", .string "ok"⟩]

/-- The path `a` is told for a field below the one without a name. With the keys joined by dots the
text leads to another field only, which is accepted. -/
theorem emptyKey_hides_culprit :
    ∃ failure,
      Registry.empty.check (fun _ => none) namelessValidator (some (.object namelessFields)) =
        .error failure ∧
      pathText failure.path = "a" ∧
      ∀ steps culprit, joinedPath steps = "a" →
        Registry.empty.Walks (fun _ => none) steps (namelessValidator, .object namelessFields)
          culprit →
        ¬ Registry.empty.Rejects (fun _ => none) culprit.1 culprit.2 failure.complaint := by
  have name (present : Bool) : Registry.empty.settle present [] .string = .rule .string :=
    settle_of_isRule rfl
  have failed : Registry.empty.check (fun _ => none) namelessValidator
      (some (.object namelessFields)) =
        .error ⟨[.key "", .key "a"], .mismatch .string .undefined⟩ := by
    simp [check, namelessValidator, namelessFields, checkAt, checkSlot, checkAbsent, name, verdict,
      complaint?, complaint?.expect, Payload.kind, bind, Except.bind]
  refine ⟨_, failed, by decide, fun steps culprit text walk rejects => ?_⟩
  unfold namelessValidator at walk
  cases walk with
  | here => exact absurd text (by decide)
  | @slot rest _ before after slot _ _ parts _ walk =>
    cases before with
    | nil =>
      obtain ⟨rfl, -⟩ := List.cons.inj parts
      cases walk with
      | here => exact absurd text (by decide)
      | slot =>
        have first := congrArg (fun path => path.toList.head?) text
        simp [joinedPath, PathStep.text] at first
    | cons first before =>
      obtain ⟨-, parts⟩ := List.cons.inj parts
      cases before with
      | nil =>
        obtain ⟨rfl, -⟩ := List.cons.inj parts
        cases walk with
        | here => cases rejects.found
      | cons second before => simp at parts

end Registry

end ChannelProtocol
