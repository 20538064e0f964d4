-- The payloads of a type, and that a compiled document checks for exactly
-- them.
import ChannelProtocol.Proofs.Compiled.Acceptance
import ChannelProtocol.Proofs.Registry.Checks

namespace ChannelProtocol

/-! ## The payloads of a type -/

namespace TypeScript

open Schema Registry

/-- The kind of payloads that a keyword stands for. -/
def Keyword.kind? : Keyword → Option Payload.Kind
  | .string => some .string
  | .number => some .number
  | .boolean => some .boolean
  | .undefined => some .undefined
  | _ => none

/-- A payload inhabits a type of a file. A synonym stands for its type. An interface stands for
the live channels: `Channel` for all of them, and the type of a channel for those of its kind. -/
inductive Inhabits (file : Module) (channels : Channels) : Ty → Payload → Prop
  | any (payload : Payload) : Inhabits file channels (.keyword .any) payload
  | keyword {word : Keyword} {payload : Payload} : word.kind? = some payload.kind →
      Inhabits file channels (.keyword word) payload
  | literal (text : String) : Inhabits file channels (.literal text) (.string text)
  | union {members : List Ty} {member : Ty} {payload : Payload} : member ∈ members →
      Inhabits file channels member payload → Inhabits file channels (.union members) payload
  | array {element : Ty} {items : List Payload} :
      (∀ item ∈ items, Inhabits file channels element item) →
      Inhabits file channels (.array element) (.array items)
  | object {listed : List Field} {fields : List PayloadField} :
      (∀ field ∈ listed, field.optional = false ∨ Payload.valueAt field.name fields ≠ .null →
        Inhabits file channels field.ty (Payload.valueAt field.name fields)) →
      Inhabits file channels (.object listed) (.object fields)
  | synonym {name : String} {ty : Ty} {payload : Payload} :
      file.definition? name = some { name, body := .synonym ty } →
      Inhabits file channels ty payload → Inhabits file channels (.ref name) payload
  | interface {name guid kind : String} {bases : List String} {members : List Member}
      {payload : Payload} :
      file.definition? name = some { name, body := .interface bases members } →
      payload.guid? = some guid → channels guid = some kind →
      name = "Channel" ∨ name = channelTypeName kind → Inhabits file channels (.ref name) payload

variable {file : Module} {channels : Channels} {payload : Payload}

theorem inhabits_keyword_iff {word : Keyword} {kind : Payload.Kind} (h : word.kind? = some kind) :
    Inhabits file channels (.keyword word) payload ↔ payload.kind = kind := by
  constructor
  · intro inhabits
    cases inhabits with
    | any => cases h
    | keyword same =>
      rw [h] at same
      cases same
      rfl
  · rintro rfl
    exact .keyword h

theorem inhabits_literals_iff {texts : List String} :
    Inhabits file channels (.literals texts) payload ↔ ∃ text ∈ texts, payload = .string text := by
  constructor
  · intro inhabits
    cases inhabits with
    | union mem inhabits =>
      obtain ⟨text, known, rfl⟩ := List.mem_map.mp mem
      cases inhabits
      exact ⟨text, known, rfl⟩
  · rintro ⟨text, mem, rfl⟩
    exact .union (List.mem_map_of_mem mem) (.literal text)

theorem inhabits_array_iff {element : Ty} :
    Inhabits file channels (.array element) payload ↔
      ∃ items, payload = .array items ∧ ∀ item ∈ items, Inhabits file channels element item := by
  constructor
  · intro inhabits
    cases inhabits with
    | array all => exact ⟨_, rfl, all⟩
  · rintro ⟨items, rfl, all⟩
    exact .array all

theorem inhabits_object_iff {listed : List Field} :
    Inhabits file channels (.object listed) payload ↔
      ∃ fields, payload = .object fields ∧ ∀ field ∈ listed,
        field.optional = false ∨ Payload.valueAt field.name fields ≠ .null →
          Inhabits file channels field.ty (Payload.valueAt field.name fields) := by
  constructor
  · intro inhabits
    cases inhabits with
    | object all => exact ⟨_, rfl, all⟩
  · rintro ⟨fields, rfl, all⟩
    exact .object all

theorem inhabits_synonym_iff {name : String} {ty : Ty}
    (found : file.definition? name = some { name, body := .synonym ty }) :
    Inhabits file channels (.ref name) payload ↔ Inhabits file channels ty payload := by
  refine ⟨fun inhabits => ?_, .synonym found⟩
  cases inhabits with
  | synonym found' inhabits =>
    rw [found] at found'
    cases found'
    exact inhabits
  | interface found' =>
    rw [found] at found'
    cases found'

theorem inhabits_interface_iff {name : String} {bases : List String} {members : List Member}
    (found : file.definition? name = some { name, body := .interface bases members }) :
    Inhabits file channels (.ref name) payload ↔
      ∃ guid kind, payload.guid? = some guid ∧ channels guid = some kind ∧
        (name = "Channel" ∨ name = channelTypeName kind) := by
  constructor
  · intro inhabits
    cases inhabits with
    | synonym found' =>
      rw [found] at found'
      cases found'
    | interface _ guid live fit => exact ⟨_, _, guid, live, fit⟩
  · rintro ⟨guid, kind, known, live, fit⟩
    exact .interface found known live fit

end TypeScript

namespace Compiled

open Schema TypeScript Registry

/-! ## Members without a list -/

/-- A member whose list is undeclared, with the name of its type and the type that it gets. -/
inductive Undeclared (doc : Document) : String → TypeScript.Ty → Prop
  | event {name event : String} {channel : Channel} {body : Event} :
      doc.channel? name = some channel → (event, body) ∈ channel.events.entries →
      body.parameters = none → Undeclared doc (eventName name event) (.object [])
  | parameters {name command : String} {channel : Channel} {body : Command} :
      doc.channel? name = some channel → (command, body) ∈ channel.commands.entries →
      body.parameters = none → Undeclared doc (paramsName name command) (.object [])
  | returns {name command : String} {channel : Channel} {body : Command} :
      doc.channel? name = some channel → (command, body) ∈ channel.commands.entries →
      body.returns = none → Undeclared doc (resultName name command) (.keyword .void)

variable {doc : Document} {schemaName : String} {compiled : Compiled}

/-- The two sides of a name whose list is undeclared. -/
theorem sides_of_undeclared (built : ofDocument doc schemaName = .ok compiled) {name : String}
    {ty : TypeScript.Ty} (undeclared : Undeclared doc name ty) :
    compiled.declarations.definition? name = some { name, body := .synonym ty } ∧
      compiled.registry.get? name = some (.optional (.object [])) := by
  have validator {location : Location} {declared : Option (List Property)} (h : declared = none) :
      declaredValidator doc location declared = .ok (.optional (.object [])) := by
    rw [h]
    rfl
  have parts {location : Location} {declared : Option (List Property)} (h : declared = none) :
      resolveDeclared doc location declared = .ok [] := by
    rw [h]
    rfl
  have result {location : Location} {declared : Option (List Property)} (h : declared = none) :
      resultTy doc location declared = .ok (.keyword .void) := by
    rw [h]
    rfl
  rw [get?_registry_iff built]
  cases undeclared with
  | event found he h =>
    exact ⟨definition?_of_declares built (.event found he (parts h)),
      _, .event found he (validator h)⟩
  | parameters found hc h =>
    exact ⟨definition?_of_declares built (.parameters found hc (parts h)),
      _, .parameters found hc (validator h)⟩
  | returns found hc h =>
    exact ⟨definition?_of_declares built (.result found hc (result h)),
      _, .result found hc (validator h)⟩

/-! ## Twins have the same payloads -/

/-- A field is checked unless it may be left out and is not there. -/
theorem succeeds_checkAt_slot_iff {registry : Registry} {channels : Channels}
    {path : List PathStep} {payload : Payload} {field : ResolvedField} :
    Succeeds (registry.checkAt channels path field.slot.validator payload) ↔
      (field.type.optional = false ∨ payload ≠ .null →
        Succeeds (registry.checkAt channels path field.type.validator payload)) := by
  unfold ResolvedField.slot
  cases field.type.optional with
  | false => simp
  | true =>
    cases there : payload.isThere with
    | false =>
      cases Payload.isThere_eq_false_iff.mp there
      simp [checkAt_optional_null, succeeds_ok]
    | true =>
      have present : payload ≠ .null := by
        rintro rfl
        cases there
      simp [checkAt_optional there, present]

/-- An object is checked for the payloads of its type, if so is each field for what is in the
payload. -/
theorem succeeds_checkAt_objectValidator_iff {registry : Registry} {channels : Channels}
    {file : Module} {payload : Payload} {fields : List ResolvedField}
    (inner : ∀ field ∈ fields, ∀ value path, sizeOf value < sizeOf payload →
      (Succeeds (registry.checkAt channels path field.type.validator value) ↔
        Inhabits file channels field.type.ts value)) (path : List PathStep) :
    Succeeds (registry.checkAt channels path (objectValidator fields) payload) ↔
      Inhabits file channels (objectTs fields) payload := by
  rw [objectValidator, objectTs, succeeds_checkAt_object_iff, inhabits_object_iff]
  refine exists_congr fun values => and_congr_right ?_
  rintro rfl
  rw [List.forall_mem_map, List.forall_mem_map]
  refine forall_congr' fun field => imp_congr_right fun mem => ?_
  rw [succeeds_checkAt_slot_iff]
  refine imp_congr_right fun _ => inner field mem _ _ ?_
  exact Payload.sizeOf_valueAt_lt field.name values

theorem complaint?_channel_iff (built : ofDocument doc schemaName = .ok compiled)
    {channels : Channels} {payload : Payload} {name : String} (known : doc.isChannel name) :
    complaint? channels payload (.channel [name]) = none ↔
      Inhabits compiled.declarations channels (.ref (channelTypeName name)) payload := by
  obtain ⟨channel, found⟩ := Option.isSome_iff_exists.mp known
  have defined : compiled.declarations.definition? (channelTypeName name) =
      some { name := channelTypeName name, body := .interface _ _ } :=
    definition?_of_declares built (.channel found)
  have other := channelTypeName_ne built found
  have own (kind : String) : channelTypeName name = channelTypeName kind ↔ kind = name := by
    simpa [channelTypeName] using eq_comm
  rw [inhabits_interface_iff defined]
  simp [complaint?, refersTo_iff, other, own]

/-- A rule accepts exactly the payloads of its twin, if so do all validators on what is smaller
than the payload. -/
theorem succeeds_checkAt_rule_iff (built : ofDocument doc schemaName = .ok compiled)
    {channels : Channels} {payload : Payload}
    (smaller : ∀ {ty : TypeScript.Ty} {validator : Validator} (value : Payload)
      (path : List PathStep), sizeOf value < sizeOf payload → Twin doc ty validator →
      (Succeeds (compiled.registry.checkAt channels path validator value) ↔
        Inhabits compiled.declarations channels ty value))
    {path : List PathStep} {ty : TypeScript.Ty} {validator : Validator}
    (twin : Twin doc ty validator) (rule : validator.isRule) :
    Succeeds (compiled.registry.checkAt channels path validator payload) ↔
      Inhabits compiled.declarations channels ty payload := by
  cases twin with
  | string | boolean | number | undefined =>
    rw [succeeds_checkAt_leaf_iff rfl, inhabits_keyword_iff rfl]
    exact complaint?_expect_iff
  | any => exact iff_of_true ((succeeds_checkAt_leaf_iff rfl).mpr rfl) (.any payload)
  | binary =>
    rw [inhabits_synonym_iff (definition?_of_declares built .binary),
      succeeds_checkAt_leaf_iff rfl, inhabits_keyword_iff rfl]
    exact complaint?_expect_iff
  | anyChannel =>
    rw [inhabits_interface_iff (definition?_of_declares built .anyChannel),
      succeeds_checkAt_leaf_iff rfl]
    simp [complaint?, refersTo_iff]
  | channel known => rw [succeeds_checkAt_leaf_iff rfl, complaint?_channel_iff built known]
  | array twin =>
    rw [succeeds_checkAt_array_iff, inhabits_array_iff]
    refine exists_congr fun items => and_congr_right ?_
    rintro rfl
    have each (index : Nat) {item : Payload} (mem : item ∈ items) :=
      smaller item (path ++ [.index index]) (Payload.sizeOf_item_lt mem) twin
    constructor
    · intro all item mem
      obtain ⟨index, h⟩ := List.mem_iff_getElem?.mp mem
      exact (each index mem).mp (all index item h)
    · intro all index item h
      have mem := List.mem_of_getElem? h
      exact (each index mem).mpr (all item mem)
  | literals texts =>
    rw [succeeds_checkAt_leaf_iff rfl, complaint?_enum_iff, inhabits_literals_iff]
  | object twins =>
    refine succeeds_checkAt_objectValidator_iff (fun field mem value path less => ?_) path
    exact smaller value path less (twins field mem)
  | named => cases rule

/-- A validator accepts exactly the payloads of its twin. A name is looked up once at most before
the payload gets smaller, so the induction is on its size. -/
theorem succeeds_checkAt_iff_inhabits (built : ofDocument doc schemaName = .ok compiled)
    {channels : Channels} {payload : Payload} {path : List PathStep} {ty : TypeScript.Ty}
    {validator : Validator} (twin : Twin doc ty validator) :
    Succeeds (compiled.registry.checkAt channels path validator payload) ↔
      Inhabits compiled.declarations channels ty payload := by
  induction size : sizeOf payload using Nat.strongRecOn generalizing payload path ty validator with
  | ind n ih =>
    subst size
    have rules {path : List PathStep} {ty : TypeScript.Ty} {validator : Validator} :=
      @succeeds_checkAt_rule_iff _ _ _ built channels payload
        (fun _ _ less twin => ih _ less twin rfl) path ty validator
    by_cases rule : validator.isRule
    · exact rules twin rule
    · cases twin with
      | named known =>
        obtain ⟨ty, validator, twin, defined, entry, rule⟩ := twins_of_name built (.inl known)
        rw [checkAt_named entry (Validator.isBare_of_isRule rule), inhabits_synonym_iff defined]
        exact rules twin rule
      | string | boolean | number | undefined | any | binary | anyChannel | channel | array
      | literals | object => exact absurd rfl rule

/-! ## Compiled documents -/

theorem succeeds_checkAt_undeclared_iff {registry : Registry} {channels : Channels}
    {path : List PathStep} {payload : Payload} :
    Succeeds (registry.checkAt channels path (.optional (.object [])) payload) ↔
      payload = .null ∨ payload.kind = .object := by
  cases payload with
  | null => simp [checkAt_optional_null, succeeds_ok]
  | bool | number | string | array | object =>
    rw [checkAt_optional rfl, succeeds_checkAt_object_iff]
    simp [Payload.kind]

/-- The type and the validator of a name agree in a compiled document. For an object, an enum, an
initializer, and a member with a list, a payload is valid exactly if it inhabits the type. For a
member without a list any object is valid, and nothing at all is too. -/
theorem validate_succeeds_iff_inhabits (built : ofDocument doc schemaName = .ok compiled) :
    (∀ name, doc.isNamedType name ∨ (∃ place list, doc.Surface name place list) →
      ∃ ty, compiled.declarations.definition? name = some { name, body := .synonym ty } ∧
        ∀ channels payload, Succeeds (compiled.registry.validate channels name payload) ↔
          Inhabits compiled.declarations channels ty payload) ∧
    ∀ name ty, Undeclared doc name ty →
      compiled.declarations.definition? name = some { name, body := .synonym ty } ∧
        ∀ channels payload, Succeeds (compiled.registry.validate channels name payload) ↔
          payload = .null ∨ payload.kind = .object := by
  constructor
  · intro name known
    obtain ⟨ty, validator, twin, defined, entry, rule⟩ := twins_of_name built known
    refine ⟨ty, defined, fun channels payload => ?_⟩
    rw [succeeds_validate_iff, checkAt_named entry (Validator.isBare_of_isRule rule)]
    exact succeeds_checkAt_iff_inhabits built twin
  · intro name ty undeclared
    obtain ⟨defined, entry⟩ := sides_of_undeclared built undeclared
    refine ⟨defined, fun channels payload => ?_⟩
    rw [succeeds_validate_iff, checkAt_named entry rfl, succeeds_checkAt_undeclared_iff]

theorem pageDocument_agrees :
    ∃ compiled, ofDocument pageDocument "protocol.yml" = .ok compiled ∧
      (∃ ty, compiled.declarations.definition? (paramsName "Node" "click") =
          some { name := paramsName "Node" "click", body := .synonym ty } ∧
        ∀ channels payload,
          Succeeds (compiled.registry.validate channels (paramsName "Node" "click") payload) ↔
            Inhabits compiled.declarations channels ty payload) ∧
      compiled.declarations.definition? (resultName "Node" "click") =
          some { name := resultName "Node" "click", body := .synonym (.keyword .void) } ∧
        ∀ channels payload,
          Succeeds (compiled.registry.validate channels (resultName "Node" "click") payload) ↔
            payload = .null ∨ payload.kind = .object := by
  obtain ⟨compiled, built⟩ := pageDocument_compiles
  obtain ⟨declared, undeclared⟩ := validate_succeeds_iff_inhabits built
  exact ⟨compiled, built, declared _ (.inr ⟨_, _, .parameters rfl (.head _) rfl⟩),
    undeclared _ _ (.returns rfl (.head _) rfl)⟩

end Compiled

end ChannelProtocol
