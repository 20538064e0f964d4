-- The type names in a declarations file. Each one is defined in the file,
-- imported, built into the language, or a parameter of its definition.
import ChannelProtocol.Proofs.Compiled.Acceptance
import Mathlib.Data.List.Induction

namespace ChannelProtocol

/-! ## The names that a definition mentions -/

namespace TypeScript

mutual

/-- The type names in a type. -/
def Ty.mentions : Ty → List String
  | .keyword _ | .literal _ => []
  | .array element => element.mentions
  | .union members => Ty.mentionsAll members
  | .object fields => Field.mentionsAll fields
  | .ref name => [name]
  | .generic name arguments => name :: Ty.mentionsAll arguments
  | .function parameters result => Field.mentionsAll parameters ++ result.mentions
  | .conditional check bound hit miss =>
    check.mentions ++ bound.mentions ++ hit.mentions ++ miss.mentions

def Ty.mentionsAll : List Ty → List String
  | [] => []
  | ty :: rest => ty.mentions ++ Ty.mentionsAll rest

def Field.mentionsAll : List Field → List String
  | [] => []
  | ⟨_, ty, _⟩ :: rest => ty.mentions ++ Field.mentionsAll rest

end

attribute [local simp] Ty.mentions Ty.mentionsAll Field.mentionsAll

theorem Ty.mem_mentionsAll_iff {types : List Ty} {name : String} :
    name ∈ Ty.mentionsAll types ↔ ∃ ty ∈ types, name ∈ ty.mentions := by
  induction types with
  | nil => simp
  | cons ty rest ih => simp [ih]

theorem Field.mem_mentionsAll_iff {fields : List Field} {name : String} :
    name ∈ Field.mentionsAll fields ↔ ∃ field ∈ fields, name ∈ field.ty.mentions := by
  induction fields with
  | nil => simp
  | cons field rest ih =>
    obtain ⟨_, ty, _⟩ := field
    simp [ih]

def Member.mentions : Member → List String
  | .property field => field.ty.mentions
  | .method _ parameters result => Field.mentionsAll parameters ++ result.mentions

/-- The type names in a definition, without the name that it defines. -/
def Definition.mentions (named : Definition) : List String :=
  match named.body with
  | .interface bases members => bases ++ members.flatMap Member.mentions
  | .synonym ty => ty.mentions

/-- A type name that a definition of a file may mention. -/
inductive InScope (file : Module) (named : Definition) (name : String) : Prop
  | defined : name ∈ file.definitions.map Definition.name → InScope file named name
  | imported {line : Import} : line ∈ file.imports → name ∈ line.names → InScope file named name
  | builtIn : name = "Promise" ∨ name = "this" → InScope file named name
  | parameter : name ∈ named.parameters → InScope file named name

end TypeScript

namespace Compiled

open Schema TypeScript

/-! ## Names that are declared -/

variable {doc : Document}

theorem mem_declaredNames_of_entity {owner name : String} {entity : Entity}
    (found : doc.get? owner = some entity) (mem : name ∈ entityNames (owner, entity)) :
    name ∈ declaredNames doc := by
  unfold declaredNames
  refine List.mem_append_left _ (List.mem_append_right _ ?_)
  exact List.mem_flatMap.mpr ⟨_, (Table.get?_eq_some_iff ..).mp found, mem⟩

theorem mem_declaredNames_of_channel {owner name : String} {channel : Channel}
    (found : doc.channel? owner = some channel)
    (mem : name ∈ entityNames (owner, .channel channel)) : name ∈ declaredNames doc :=
  mem_declaredNames_of_entity (Document.channel?_eq_some_iff.mp found) mem

theorem channelTypeName_mem_declaredNames {name : String} (known : doc.isChannel name) :
    channelTypeName name ∈ declaredNames doc := by
  obtain ⟨channel, found⟩ := Option.isSome_iff_exists.mp known
  exact mem_declaredNames_of_channel found (by simp [entityNames])

theorem mem_declaredNames_of_isNamedType {name : String} (known : doc.isNamedType name) :
    name ∈ declaredNames doc := by
  unfold Document.isNamedType at known
  split at known
  · rename_i list found
    exact mem_declaredNames_of_entity found (by simp [entityNames])
  · rename_i literals found
    exact mem_declaredNames_of_entity found (by simp [entityNames])
  · cases known

theorem eventName_mem_declaredNames {owner event : String} {channel : Channel}
    (found : doc.channel? owner = some channel) (mem : event ∈ channel.events.names) :
    eventName owner event ∈ declaredNames doc := by
  refine mem_declaredNames_of_channel found ?_
  simp only [entityNames, List.mem_append, List.mem_map]
  exact .inl (.inr ⟨event, mem, rfl⟩)

theorem commandNames_mem_declaredNames {owner command : String} {channel : Channel}
    (found : doc.channel? owner = some channel) (mem : command ∈ channel.commands.names) :
    paramsName owner command ∈ declaredNames doc ∧
      resultName owner command ∈ declaredNames doc := by
  refine ⟨mem_declaredNames_of_channel found ?_, mem_declaredNames_of_channel found ?_⟩
  · simp only [entityNames, List.mem_append, List.mem_flatMap]
    exact .inr ⟨command, mem, by simp⟩
  · simp only [entityNames, List.mem_append, List.mem_flatMap]
    exact .inr ⟨command, mem, by simp⟩

/-! ## What each definition mentions -/

/-- A resolved type mentions only what is declared. -/
theorem mentions_twin {ty : TypeScript.Ty} {validator : Validator} (twin : Twin doc ty validator)
    {name : String} (mem : name ∈ ty.mentions) : name ∈ declaredNames doc := by
  induction twin with
  | string | boolean | number | undefined | any => simp [Ty.mentions] at mem
  | binary | anyChannel =>
    rw [Ty.mentions, List.mem_singleton] at mem
    simp [mem, declaredNames]
  | named known =>
    rw [Ty.mentions, List.mem_singleton] at mem
    rw [mem]
    exact mem_declaredNames_of_isNamedType known
  | channel known =>
    rw [Ty.mentions, List.mem_singleton] at mem
    rw [mem]
    exact channelTypeName_mem_declaredNames known
  | array _ ih =>
    rw [Ty.mentions] at mem
    exact ih mem
  | literals texts =>
    rw [Ty.literals, Ty.mentions, Ty.mem_mentionsAll_iff] at mem
    obtain ⟨_, listed, mem⟩ := mem
    obtain ⟨text, -, rfl⟩ := List.mem_map.mp listed
    simp [Ty.mentions] at mem
  | object _ ih =>
    rw [objectTs, Ty.mentions, Field.mem_mentionsAll_iff] at mem
    obtain ⟨_, listed, mem⟩ := mem
    obtain ⟨field, known, rfl⟩ := List.mem_map.mp listed
    exact ih field known mem

theorem mentions_optionalFields {fields : List ResolvedField} {name : String}
    (mem : name ∈ (objectTs (optionalFields fields)).mentions) :
    name ∈ (objectTs fields).mentions := by
  rw [objectTs, Ty.mentions, Field.mem_mentionsAll_iff] at mem ⊢
  obtain ⟨field, listed, mem⟩ := mem
  exact ⟨field, List.map_subset _ (List.filter_subset_self _) listed, mem⟩

theorem mentions_resolveDeclared {location : Location} {declared : Option (List Property)}
    {fields : List ResolvedField} (h : resolveDeclared doc location declared = .ok fields)
    {name : String} (mem : name ∈ (objectTs fields).mentions) : name ∈ declaredNames doc := by
  cases declared with
  | none =>
    cases h
    simp [objectTs, Ty.mentions, Field.mentionsAll] at mem
  | some list => exact mentions_twin (Document.twin_of_resolve h) mem

theorem mentions_resultTy {location : Location} {declared : Option (List Property)}
    {ty : TypeScript.Ty} (h : resultTy doc location declared = .ok ty) {name : String}
    (mem : name ∈ ty.mentions) : name ∈ declaredNames doc := by
  cases declared with
  | none =>
    cases h
    simp [Ty.mentions] at mem
  | some list =>
    obtain ⟨fields, resolved, rfl⟩ := map_eq_ok_iff.mp h
    exact mentions_twin (Document.twin_of_resolve resolved) mem

theorem mentions_listener {channel event name : String}
    (mem : name ∈ (listener channel event).mentions) :
    name = eventName channel event ∨ name = "this" := by
  simpa [listener, Member.mentions, Field.mentionsAll, Ty.mentions] using mem

theorem mentions_anyEvent {channel name : String} {events : List String}
    (mem : name ∈ (anyEvent channel events).mentions) :
    ∃ event ∈ events, name = eventName channel event := by
  cases events with
  | nil => simp [anyEvent, Ty.mentions] at mem
  | cons first rest =>
    rw [anyEvent, Ty.mentions, Ty.mem_mentionsAll_iff] at mem
    · obtain ⟨_, listed, mem⟩ := mem
      obtain ⟨event, known, rfl⟩ := List.mem_map.mp listed
      rw [Ty.mentions, List.mem_singleton] at mem
      exact ⟨event, known, mem⟩
    · simp

theorem mentions_commandMethod {channel command name : String} {body : Command}
    (mem : name ∈ (commandMethod channel (command, body)).mentions) :
    name = paramsName channel command ∨ name = "CallMetadata" ∨ name = "Promise" ∨
      name = resultName channel command := by
  simpa [commandMethod, Member.mentions, Field.mentionsAll, Ty.promise, Ty.mentions,
    Ty.mentionsAll] using mem

theorem mentions_projectionTy {typeName : String → String} {fallback : Keyword}
    {channels : List String} {name : String}
    (mem : name ∈ (projectionTy typeName fallback channels).mentions) :
    name = "T" ∨ ∃ channel ∈ channels, name = channelTypeName channel ∨ name = typeName channel := by
  induction channels using List.reverseRecOn with
  | nil => simp [projectionTy, Ty.mentions] at mem
  | append_singleton channels last ih =>
    rw [projectionTy_concat] at mem
    simp only [Ty.mentions, List.mem_append, List.mem_singleton] at mem
    rcases mem with ((h | h) | h) | mem
    · exact .inl h
    · exact .inr ⟨last, by simp, .inl h⟩
    · exact .inr ⟨last, by simp, .inr h⟩
    · rcases ih mem with h | ⟨channel, known, h⟩
      · exact .inl h
      · exact .inr ⟨channel, List.mem_append_left _ known, h⟩

theorem baseName_mem_declaredNames
    (known : ∀ child parent, doc.Extends child parent → doc.isChannel parent) (name : String) :
    baseName ⟨doc.parentLinks⟩ name ∈ declaredNames doc := by
  unfold baseName
  split
  · rename_i parent h
    exact channelTypeName_mem_declaredNames (known name parent (Lineage.parent?_parentLinks.mp h))
  · simp [declaredNames]

/-- A definition mentions what is declared for the document, its own parameters, and a few names
that no file declares. -/
theorem mentions_declares
    (known : ∀ child parent, doc.Extends child parent → doc.isChannel parent)
    {new : Declaration} (h : Declares doc new) {name : String}
    (mem : name ∈ new.definition.mentions) :
    name ∈ declaredNames doc ∨ name = "CallMetadata" ∨ (name = "Promise" ∨ name = "this") ∨
      name ∈ new.definition.parameters := by
  cases h with
  | binary | anyChannel => simp [synonym, interface, Definition.mentions, Ty.mentions] at mem
  | initializer _ hf | object _ hf =>
    exact .inl (mentions_twin (Document.twin_of_resolve hf) mem)
  | event _ _ hf | parameters _ _ hf => exact .inl (mentions_resolveDeclared hf mem)
  | options _ _ hf =>
    exact .inl (mentions_resolveDeclared hf (mentions_optionalFields mem))
  | result _ _ ht => exact .inl (mentions_resultTy ht mem)
  | enum => exact .inl (mentions_twin (.literals _) mem)
  | eventTarget found =>
    simp only [interface, Definition.mentions, List.nil_append, List.mem_flatMap,
      List.mem_map] at mem
    obtain ⟨_, ⟨event, he, rfl⟩, mem⟩ := mem
    rcases mentions_listener mem with rfl | rfl
    · exact .inl (eventName_mem_declaredNames found he)
    · exact .inr (.inr (.inl (.inr rfl)))
  | events found =>
    obtain ⟨event, he, rfl⟩ := mentions_anyEvent mem
    exact .inl (eventName_mem_declaredNames found he)
  | @channel owner channel found =>
    simp only [interface, Definition.mentions, List.mem_append, List.mem_cons, List.not_mem_nil,
      or_false, List.flatMap_cons, List.mem_flatMap, List.mem_map] at mem
    rcases mem with (rfl | rfl) | mem | ⟨_, ⟨⟨command, body⟩, hc, rfl⟩, mem⟩
    · exact .inl (mem_declaredNames_of_channel found (by simp [entityNames]))
    · exact .inl (baseName_mem_declaredNames known owner)
    · simp [kindMark, Member.mentions, Ty.mentions] at mem
    · have listed : command ∈ channel.commands.names := List.mem_map_of_mem hc
      obtain ⟨parameters, result⟩ := commandNames_mem_declaredNames found listed
      rcases mentions_commandMethod mem with rfl | rfl | rfl | rfl
      · exact .inl parameters
      · exact .inr (.inl rfl)
      · exact .inr (.inr (.inl (.inl rfl)))
      · exact .inl result
  | projection h =>
    obtain ⟨title, typeName, fallback, rule, rfl⟩ := mem_projections_iff.mp h
    rcases mentions_projectionTy mem with rfl | ⟨owner, listed, h⟩
    · exact .inr (.inr (.inr (List.mem_singleton.mpr rfl)))
    · obtain ⟨⟨_, channel⟩, entry, rfl⟩ := List.mem_map.mp listed
      have found := Document.mem_channels_iff.mp entry
      refine .inl (mem_declaredNames_of_channel found ?_)
      rcases h with rfl | rfl
      · simp [entityNames]
      · cases rule <;> simp [entityNames]

/-! ## The file -/

theorem parameters_declares {new : Declaration} (h : Declares doc new) :
    new.definition.parameters = [] ∨
      new.definition.parameters = ["T"] ∧ new.definition.name ∈ projectionNames := by
  cases h with
  | projection h =>
    obtain ⟨title, typeName, fallback, rule, rfl⟩ := mem_projections_iff.mp h
    exact .inr ⟨rfl, mem_projectionNames_iff.mpr ⟨_, _, rule⟩⟩
  | _ => exact .inl rfl

/-- The declarations file of a document is closed. No name is defined twice, and each type name
in a definition is defined in the file, is the imported one, is built in, or is the parameter of
the projection that it stands in. -/
theorem declarations_closed {lineage : Lineage} {schemaName : String} {file : Module}
    (ancestry : Lineage.ofDocument doc = .ok lineage)
    (built : declarationsModule doc lineage schemaName = .ok file) :
    (file.definitions.map Definition.name).Nodup ∧
    (∀ named ∈ file.definitions, ∀ name ∈ named.mentions, InScope file named name) ∧
    file.imports.flatMap Import.names = ["CallMetadata"] ∧
    ∀ named ∈ file.definitions, named.parameters = [] ∨
      named.parameters = ["T"] ∧ named.name ∈ projectionNames := by
  obtain ⟨known, -, rfl⟩ := Lineage.ofDocument_eq_ok_iff.mp ancestry
  obtain ⟨distinct, members⟩ := definitions_declarationsModule built
  have imports : file.imports =
      [{ names := ["CallMetadata"], source := "./callMetadata", typeOnly := true }] := by
    obtain ⟨items, -, h⟩ := bind_eq_ok_iff.mp built
    cases h
    rfl
  refine ⟨distinct, fun named mem name mentioned => ?_, by simp [imports], fun named mem => ?_⟩
  · obtain ⟨origin, declared⟩ := (members named).mp mem
    rcases mentions_declares known declared mentioned with h | rfl | h | h
    · rw [← names_declarationsModule built] at h
      exact .defined h
    · have listed : "CallMetadata" ∈ file.imports.flatMap Import.names := by simp [imports]
      obtain ⟨line, here, names⟩ := List.mem_flatMap.mp listed
      exact .imported here names
    · exact .builtIn h
    · exact .parameter h
  · obtain ⟨origin, declared⟩ := (members named).mp mem
    exact parameters_declares declared

theorem pageDocument_closed_declarations :
    ∃ lineage file, Lineage.ofDocument pageDocument = .ok lineage ∧
      declarationsModule pageDocument lineage "protocol.yml" = .ok file ∧
      (file.definitions.map Definition.name).Nodup ∧
      (∀ named ∈ file.definitions, ∀ name ∈ named.mentions, InScope file named name) ∧
      file.imports.flatMap Import.names = ["CallMetadata"] ∧
      ∀ named ∈ file.definitions, named.parameters = [] ∨
        named.parameters = ["T"] ∧ named.name ∈ projectionNames := by
  obtain ⟨lineage, ancestry⟩ := pageDocument_lineage
  obtain ⟨compiled, built⟩ := pageDocument_compiles
  obtain ⟨-, -, rfl⟩ := Lineage.ofDocument_eq_ok_iff.mp ancestry
  have declared := (files_of_ofDocument built).1
  exact ⟨_, _, ancestry, declared, declarations_closed ancestry declared⟩

end Compiled

end ChannelProtocol
