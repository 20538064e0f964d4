-- The two sides of a compiled document: the type of a name in the declarations
-- and its validator in the registry come from the same fields.
import ChannelProtocol.Compiled
import ChannelProtocol.Proofs.Compiled.Names
import ChannelProtocol.Proofs.Registry.Checks
import ChannelProtocol.Proofs.Schema.Twins

namespace ChannelProtocol.Compiled

open Schema TypeScript

/-! ## What a document compiles to -/

variable {doc : Document} {schemaName : String} {compiled : Compiled}

theorem parts_of_ofDocument (built : ofDocument doc schemaName = .ok compiled) :
    ∃ declarations registry,
      declarationsModule doc ⟨doc.parentLinks⟩ schemaName = .ok declarations ∧
      documentRegistry doc ⟨doc.parentLinks⟩ = .ok registry ∧
      compiled = {
        declarations
        validators := validatorsModule registry schemaName
        registry
        snapshots := Schema.snapshots doc ⟨doc.parentLinks⟩
        pauses := Schema.pauses doc ⟨doc.parentLinks⟩ } := by
  obtain ⟨lineage, ancestry, h⟩ := bind_eq_ok_iff.mp built
  obtain ⟨-, -, rfl⟩ := Lineage.ofDocument_eq_ok_iff.mp (mapError_eq_ok_iff.mp ancestry)
  obtain ⟨declarations, declared, h⟩ := bind_eq_ok_iff.mp h
  obtain ⟨registry, registered, h⟩ := bind_eq_ok_iff.mp h
  cases h
  exact ⟨declarations, registry, declared, registered, rfl⟩

theorem files_of_ofDocument (built : ofDocument doc schemaName = .ok compiled) :
    declarationsModule doc ⟨doc.parentLinks⟩ schemaName = .ok compiled.declarations ∧
      documentRegistry doc ⟨doc.parentLinks⟩ = .ok compiled.registry := by
  obtain ⟨declarations, registry, declared, registered, rfl⟩ := parts_of_ofDocument built
  exact ⟨declared, registered⟩

/-- A compiled document has a lineage. -/
theorem ancestry_of_ofDocument (built : ofDocument doc schemaName = .ok compiled) :
    (∀ child parent, doc.Extends child parent → doc.isChannel parent) ∧
      ∀ name, ¬ Relation.TransGen doc.Extends name name := by
  obtain ⟨lineage, ancestry, -⟩ := bind_eq_ok_iff.mp built
  obtain ⟨known, acyclic, -⟩ := Lineage.ofDocument_eq_ok_iff.mp (mapError_eq_ok_iff.mp ancestry)
  exact ⟨known, acyclic⟩

theorem traces_of_ofDocument (built : ofDocument doc schemaName = .ok compiled) :
    compiled.snapshots = Schema.snapshots doc ⟨doc.parentLinks⟩ ∧
      compiled.pauses = Schema.pauses doc ⟨doc.parentLinks⟩ := by
  obtain ⟨declarations, registry, -, -, rfl⟩ := parts_of_ofDocument built
  exact ⟨rfl, rfl⟩

/-- A synonym that is declared is found under its name. -/
theorem definition?_of_declares (built : ofDocument doc schemaName = .ok compiled)
    {named : Definition} {origin : Origin} (h : Declares doc ⟨named, origin⟩) :
    compiled.declarations.definition? named.name = some named := by
  obtain ⟨distinct, members⟩ :=
    definitions_declarationsModule (files_of_ofDocument built).1
  exact (Module.definition?_eq_some_iff distinct).mpr ⟨(members named).mpr ⟨origin, h⟩, rfl⟩

/-- The type of a channel is not `Channel`, which extends nothing. -/
theorem channelTypeName_ne (built : ofDocument doc schemaName = .ok compiled) {name : String}
    {channel : Channel} (found : doc.channel? name = some channel) :
    channelTypeName name ≠ "Channel" := by
  intro same
  have defined := definition?_of_declares built (.channel found)
  have general : compiled.declarations.definition? "Channel" =
      some { name := "Channel", body := .interface [] [] } :=
    definition?_of_declares built .anyChannel
  simp only [same, general] at defined
  cases defined

theorem get?_registry_iff (built : ofDocument doc schemaName = .ok compiled) {name : String}
    {validator : Validator} :
    compiled.registry.get? name = some validator ↔
      ∃ origin, Registers doc ⟨name, validator, origin⟩ :=
  get?_documentRegistry_iff (files_of_ofDocument built).2

/-! ## The lists of a document -/

theorem forall_entityRegistrations_succeeds (built : ofDocument doc schemaName = .ok compiled)
    {name : String} {entity : Entity} (found : doc.get? name = some entity) :
    ∀ new ∈ entityRegistrations doc ⟨doc.parentLinks⟩ (name, entity), Succeeds new := by
  intro new mem
  have ok := (succeeds_documentRegistry_iff.mp ⟨_, (files_of_ofDocument built).2⟩).1
  exact ok new (List.mem_flatMap.mpr ⟨_, (Table.get?_eq_some_iff ..).mp found, mem⟩)

/-- All members of a channel have a validator. -/
theorem succeeds_channelValidators (built : ofDocument doc schemaName = .ok compiled)
    {name : String} {channel : Channel} (found : doc.channel? name = some channel) :
    Succeeds (doc.resolve (.member (.named name) "initializer") channel.initializer) ∧
    (∀ entry ∈ channel.events.entries,
      Succeeds (declaredValidator doc (.member (.named name) entry.1) entry.2.parameters)) ∧
    ∀ entry ∈ channel.commands.entries,
      Succeeds (declaredValidator doc (.member (.member (.named name) entry.1) "parameters")
        entry.2.parameters) ∧
      Succeeds (declaredValidator doc (.member (.member (.named name) entry.1) "returns")
        entry.2.returns) :=
  forall_channelRegistrations_succeeds_iff.mp
    (forall_entityRegistrations_succeeds built (Document.channel?_eq_some_iff.mp found))

theorem succeeds_resolve_of_declared {location : Location} {declared : Option (List Property)}
    {list : List Property} (h : declared = some list)
    (ok : Succeeds (declaredValidator doc location declared)) :
    Succeeds (doc.resolve location list) := by
  rw [h] at ok
  exact succeeds_map_iff.mp ok

/-- Every declared list is resolved at its place. -/
theorem resolve_of_surface (built : ofDocument doc schemaName = .ok compiled) {name : String}
    {place : Location} {list : List Property} (surface : doc.Surface name place list) :
    ∃ fields, doc.resolve place list = .ok fields := by
  cases surface with
  | initializer found => exact (succeeds_channelValidators built found).1
  | event found he h =>
    exact succeeds_resolve_of_declared h ((succeeds_channelValidators built found).2.1 _ he)
  | parameters found hc h =>
    exact succeeds_resolve_of_declared h ((succeeds_channelValidators built found).2.2 _ hc).1
  | returns found hc h =>
    exact succeeds_resolve_of_declared h ((succeeds_channelValidators built found).2.2 _ hc).2
  | object found =>
    have made := forall_entityRegistrations_succeeds built found _ (List.mem_singleton.mpr rfl)
    exact succeeds_map_iff.mp made

/-- The two sides of a name whose list is declared. -/
theorem sides_of_surface (built : ofDocument doc schemaName = .ok compiled) {name : String}
    {place : Location} {list : List Property} (surface : doc.Surface name place list)
    {fields : List ResolvedField} (resolved : doc.resolve place list = .ok fields) :
    compiled.declarations.definition? name =
        some { name, body := .synonym (objectTs fields) } ∧
      compiled.registry.get? name = some (objectValidator fields) := by
  have validator {declared : Option (List Property)} (h : declared = some list) :
      declaredValidator doc place declared = .ok (objectValidator fields) := by
    rw [h, declaredValidator, resolved]
    rfl
  have parts {declared : Option (List Property)} (h : declared = some list) :
      resolveDeclared doc place declared = .ok fields := by
    rw [h]
    exact resolved
  have result {declared : Option (List Property)} (h : declared = some list) :
      resultTy doc place declared = .ok (objectTs fields) := by
    rw [h, resultTy, resolved]
    rfl
  rw [get?_registry_iff built]
  cases surface with
  | initializer found =>
    exact ⟨definition?_of_declares built (.initializer found resolved),
      _, .initializer found resolved⟩
  | event found he h =>
    exact ⟨definition?_of_declares built (.event found he (parts h)),
      _, .event found he (validator h)⟩
  | parameters found hc h =>
    exact ⟨definition?_of_declares built (.parameters found hc (parts h)),
      _, .parameters found hc (validator h)⟩
  | returns found hc h =>
    exact ⟨definition?_of_declares built (.result found hc (result h)),
      _, .result found hc (validator h)⟩
  | object found =>
    exact ⟨definition?_of_declares built (.object found resolved), _, .object found resolved⟩

/-- The two sides of an object, an enum or a declared list are twins. -/
theorem twins_of_name (built : ofDocument doc schemaName = .ok compiled) {name : String}
    (known : doc.isNamedType name ∨ ∃ place list, doc.Surface name place list) :
    ∃ ty validator, Twin doc ty validator ∧
      compiled.declarations.definition? name = some { name, body := .synonym ty } ∧
      compiled.registry.get? name = some validator ∧ validator.isRule := by
  have list {place : Location} {list : List Property} (surface : doc.Surface name place list) :
      ∃ ty validator, Twin doc ty validator ∧
        compiled.declarations.definition? name = some { name, body := .synonym ty } ∧
        compiled.registry.get? name = some validator ∧ validator.isRule := by
    obtain ⟨fields, resolved⟩ := resolve_of_surface built surface
    obtain ⟨defined, entry⟩ := sides_of_surface built surface resolved
    exact ⟨_, _, Document.twin_of_resolve resolved, defined, entry, rfl⟩
  rcases known with known | ⟨place, properties, surface⟩
  · unfold Document.isNamedType at known
    split at known
    · rename_i properties found
      exact list (.object found)
    · rename_i literals found
      exact ⟨_, _, .literals literals, definition?_of_declares built (.enum found),
        (get?_registry_iff built).mpr ⟨_, .enum found⟩, rfl⟩
    · cases known
  · exact list surface

end ChannelProtocol.Compiled
