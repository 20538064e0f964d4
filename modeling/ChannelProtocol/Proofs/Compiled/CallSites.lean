-- Validators that are found by channel, member and role. A declared member is
-- found with the validator of its own list, and a command that a channel takes
-- over is checked as that of the parent. Names are glued together, so that a
-- lookup may also find what belongs to another channel.
import ChannelProtocol.Proofs.Compiled.LateBinding
import ChannelProtocol.Registry.Check

namespace ChannelProtocol

open Registry (Role callSiteName)

/-! ## Names of entries -/

/-- Of a name that is glued together, the role and the rest can be told. -/
theorem Registry.Role.suffix_append_inj {first second : String} {role other : Role}
    (same : first ++ role.suffix = second ++ other.suffix) : first = second ∧ role = other := by
  -- The last five characters differ from role to role.
  have last (base : String) (role : Role) :
      (base ++ role.suffix).toList.reverse.take 5 = role.suffix.toList.reverse.take 5 := by
    rw [String.toList_append, List.reverse_append, List.take_append_of_le_length]
    cases role <;> decide
  have ends := last first role
  rw [same, last second other] at ends
  have alike : role = other := by
    cases role <;> cases other <;> first | rfl | exact absurd ends (by decide)
  subst alike
  exact ⟨by simpa using same, rfl⟩

namespace Compiled

open Schema TypeScript

variable {doc : Document} {schemaName : String} {compiled : Compiled}

/-- A channel has a validator for a member in a role: it declares the member, or its direct parent
declares the command whose parameters it takes. -/
inductive Offers (doc : Document) : Role → String → String → Prop
  | initializer {name : String} : doc.isChannel name → Offers doc .initializer name ""
  | event {name event : String} {channel : Channel} : doc.channel? name = some channel →
      event ∈ channel.events.names → Offers doc .event name event
  | params {name command : String} {channel : Channel} : doc.channel? name = some channel →
      command ∈ channel.commands.names → Offers doc .params name command
  | result {name command : String} {channel : Channel} : doc.channel? name = some channel →
      command ∈ channel.commands.names → Offers doc .result name command
  | inherited {name parent command : String} {definition : Channel} :
      doc.Extends name parent → doc.channel? parent = some definition →
      command ∈ definition.commands.names → Offers doc .params name command

theorem initializerName_eq (channel : String) :
    initializerName channel = callSiteName channel "" .initializer := by
  unfold callSiteName
  rw [show titleCase "" = "" from rfl, String.append_empty]
  rfl

/-- Each validator that a channel offers has an entry under its name. -/
theorem isSome_of_offers (built : ofDocument doc schemaName = .ok compiled) {role : Role}
    {name member : String} (offers : Offers doc role name member) :
    (compiled.registry.find? name member role).isSome := by
  rw [Option.isSome_iff_exists]
  unfold Registry.find?
  simp only [get?_registry_iff built]
  have params {name command : String} {channel : Channel} (found : doc.channel? name = some channel)
      (mem : command ∈ channel.commands.names) :
      ∃ validator origin, Registers doc ⟨callSiteName name command .params, validator, origin⟩ := by
    obtain ⟨⟨_, body⟩, held, rfl⟩ := List.mem_map.mp mem
    obtain ⟨validator, made⟩ := ((succeeds_channelValidators built found).2.2 _ held).1
    exact ⟨validator, _, .parameters found held made⟩
  cases offers with
  | initializer known =>
    obtain ⟨channel, found⟩ := Option.isSome_iff_exists.mp known
    obtain ⟨fields, resolved⟩ := (succeeds_channelValidators built found).1
    rw [← initializerName_eq]
    exact ⟨_, _, .initializer found resolved⟩
  | event found mem =>
    obtain ⟨⟨_, body⟩, held, rfl⟩ := List.mem_map.mp mem
    obtain ⟨validator, made⟩ := (succeeds_channelValidators built found).2.1 _ held
    exact ⟨validator, _, .event found held made⟩
  | params found mem => exact params found mem
  | result found mem =>
    obtain ⟨⟨_, body⟩, held, rfl⟩ := List.mem_map.mp mem
    obtain ⟨validator, made⟩ := ((succeeds_channelValidators built found).2.2 _ held).2
    exact ⟨validator, _, .result found held made⟩
  | inherited extended parent mem =>
    obtain ⟨channel, found, extended⟩ := extended
    by_cases own : member ∈ channel.commands.names
    · exact params found own
    · exact ⟨_, _, .inherited found extended parent mem own⟩

/-- What is registered is offered by a channel in some role, or it is an object or an enum. -/
theorem offers_of_registers {new : Registration} (registers : Registers doc new) :
    (∃ role name member, Offers doc role name member ∧ new.name = callSiteName name member role) ∨
      doc.isNamedType new.name := by
  cases registers with
  | @initializer name _ _ found _ =>
    refine .inl ⟨.initializer, name, "", .initializer ?_, initializerName_eq name⟩
    rw [Document.isChannel, found]
    rfl
  | @event name event _ _ _ found held _ =>
    exact .inl ⟨.event, name, event, .event found (List.mem_map_of_mem held), rfl⟩
  | @parameters name command _ _ _ found held _ =>
    exact .inl ⟨.params, name, command, .params found (List.mem_map_of_mem held), rfl⟩
  | @result name command _ _ _ found held _ =>
    exact .inl ⟨.result, name, command, .result found (List.mem_map_of_mem held), rfl⟩
  | @inherited name parent command channel _ found extended declared mem _ =>
    exact .inl ⟨.params, name, command, .inherited ⟨channel, found, extended⟩ declared mem, rfl⟩
  | object found =>
    right
    simp [Document.isNamedType, found]
  | enum found =>
    right
    simp [Document.isNamedType, found]

/-- An entry is found exactly if some channel offers one whose name is glued together to the same
text, or if an object or an enum has this text for its name. -/
theorem isSome_find?_iff (built : ofDocument doc schemaName = .ok compiled) {role : Role}
    {name member : String} :
    (compiled.registry.find? name member role).isSome ↔
      (∃ other own, Offers doc role other own ∧
        other ++ titleCase own = name ++ titleCase member) ∨
      doc.isNamedType (callSiteName name member role) := by
  constructor
  · intro found
    obtain ⟨validator, found⟩ := Option.isSome_iff_exists.mp found
    obtain ⟨origin, registers⟩ := (get?_registry_iff built).mp found
    rcases offers_of_registers registers with ⟨_, other, own, offers, same⟩ | named
    · obtain ⟨glued, rfl⟩ := Role.suffix_append_inj same
      exact .inl ⟨other, own, offers, glued.symm⟩
    · exact .inr named
  · rintro (⟨other, own, offers, glued⟩ | named)
    · have found := isSome_of_offers built offers
      unfold Registry.find? callSiteName at found ⊢
      rwa [glued] at found
    · obtain ⟨_, validator, -, -, found, -⟩ := twins_of_name built (.inl named)
      unfold Registry.find?
      rw [found]
      rfl

/-! ## Members and their own lists -/

/-- The validator that a list gives at its place: that of an object with the fields of the list,
or of an empty object that may be left out where no list is declared. -/
inductive Gives (doc : Document) (place : Location) : Option (List Property) → Validator → Prop
  | declared {list : List Property} {fields : List ResolvedField} :
      doc.resolve place list = .ok fields → Gives doc place (some list) (objectValidator fields)
  | undeclared : Gives doc place none (.optional (.object []))

theorem gives_of_declaredValidator {place : Location} {declared : Option (List Property)}
    {validator : Validator} (made : declaredValidator doc place declared = .ok validator) :
    Gives doc place declared validator := by
  cases declared with
  | none =>
    cases made
    exact .undeclared
  | some list =>
    obtain ⟨fields, resolved, rfl⟩ := map_eq_ok_iff.mp made
    exact .declared resolved

/-- What is registered under the name of a call is found there. -/
theorem find_of_registers (built : ofDocument doc schemaName = .ok compiled)
    {name member : String} {role : Role} {validator : Validator} {origin : Origin}
    (registers : Registers doc ⟨callSiteName name member role, validator, origin⟩) :
    compiled.registry.find name member role = .ok validator := by
  have entry := (get?_registry_iff built).mpr ⟨origin, registers⟩
  unfold Registry.find Registry.find?
  rw [entry]

/-- A name is checked as its entry, also where no payload is there. -/
theorem check_named (built : ofDocument doc schemaName = .ok compiled) {name : String}
    {entry : Validator} (found : compiled.registry.get? name = some entry)
    (channels : Registry.Channels) (payload : Option Payload) :
    compiled.registry.check channels (.named name) payload =
      compiled.registry.check channels entry payload := by
  rw [Registry.check_eq, Registry.check_eq]
  exact Registry.checkAt_lookup (shallow_registry built).wellFounded found

/-- A command that a channel takes over from its parent is found, and a check against it gives what
a check against that of the parent gives. -/
theorem find_inherited (built : ofDocument doc schemaName = .ok compiled)
    {name parent command : String} {channel definition : Channel}
    (found : doc.channel? name = some channel) (extended : channel.parent = some parent)
    (declared : doc.channel? parent = some definition)
    (mem : command ∈ definition.commands.names) (missing : command ∉ channel.commands.names) :
    ∃ own taken, compiled.registry.find name command .params = .ok own ∧
      compiled.registry.find parent command .params = .ok taken ∧
      ∀ channels payload, compiled.registry.check channels own payload =
        compiled.registry.check channels taken payload := by
  obtain ⟨⟨command, body⟩, held, rfl⟩ := List.mem_map.mp mem
  obtain ⟨taken, made⟩ := ((succeeds_channelValidators built declared).2.2 _ held).1
  have registers := Registers.parameters declared held made
  refine ⟨.named (paramsName parent command), taken, ?_, find_of_registers built registers, ?_⟩
  · exact find_of_registers built (.inherited found extended declared mem missing)
  · intro channels payload
    exact check_named built ((get?_registry_iff built).mpr ⟨_, registers⟩) channels payload

/-- In a compiled document every event and every command that a channel declares is found with the
validator of its own list, and every command that it takes over from its direct parent is checked
as the command of the parent. -/
theorem find_finds_own_member (built : ofDocument doc schemaName = .ok compiled) {name : String}
    {channel : Channel} (found : doc.channel? name = some channel) :
    (∀ event body, channel.events.get? event = some body → ∃ validator,
      compiled.registry.find name event .event = .ok validator ∧
        Gives doc (.member (.named name) event) body.parameters validator) ∧
    (∀ command body, channel.commands.get? command = some body → ∃ params result,
      compiled.registry.find name command .params = .ok params ∧
      Gives doc (.member (.member (.named name) command) "parameters") body.parameters params ∧
      compiled.registry.find name command .result = .ok result ∧
      Gives doc (.member (.member (.named name) command) "returns") body.returns result) ∧
    ∀ parent, channel.parent = some parent → ∃ definition, doc.channel? parent = some definition ∧
      ∀ command ∈ definition.commands.names, command ∉ channel.commands.names → ∃ own taken,
        compiled.registry.find name command .params = .ok own ∧
        compiled.registry.find parent command .params = .ok taken ∧
        ∀ channels payload, compiled.registry.check channels own payload =
          compiled.registry.check channels taken payload := by
  obtain ⟨-, events, commands⟩ := succeeds_channelValidators built found
  refine ⟨fun event body declared => ?_, fun command body declared => ?_, fun parent extended => ?_⟩
  · have held := (Table.get?_eq_some_iff ..).mp declared
    obtain ⟨validator, made⟩ := events _ held
    exact ⟨validator, find_of_registers built (.event found held made),
      gives_of_declaredValidator made⟩
  · have held := (Table.get?_eq_some_iff ..).mp declared
    obtain ⟨⟨params, taken⟩, result, given⟩ := commands _ held
    exact ⟨params, result, find_of_registers built (.parameters found held taken),
      gives_of_declaredValidator taken, find_of_registers built (.result found held given),
      gives_of_declaredValidator given⟩
  · have known := (ancestry_of_ofDocument built).1 name parent ⟨channel, found, extended⟩
    obtain ⟨definition, declared⟩ := Option.isSome_iff_exists.mp known
    refine ⟨definition, declared, fun command mem missing => ?_⟩
    exact find_inherited built found extended declared mem missing

/-- A page has its own command, which declares nothing, and takes over that of a node. -/
theorem page_finds_members :
    ∃ compiled, ofDocument pageDocument "protocol.yml" = .ok compiled ∧
      compiled.registry.find "Page" "close" .params = .ok (.optional (.object [])) ∧
      compiled.registry.find "Page" "close" .result = .ok (.optional (.object [])) ∧
      ∃ own taken, compiled.registry.find "Page" "click" .params = .ok own ∧
        compiled.registry.find "Node" "click" .params = .ok taken ∧
        ∀ channels payload, compiled.registry.check channels own payload =
          compiled.registry.check channels taken payload := by
  obtain ⟨compiled, built⟩ := pageDocument_compiles
  have found : pageDocument.channel? "Page" = some _ := rfl
  obtain ⟨-, commands, inherited⟩ := find_finds_own_member built found
  obtain ⟨params, result, takes, taken, gives, given⟩ := commands "close" {} rfl
  obtain ⟨definition, declared, inherited⟩ := inherited "Node" rfl
  cases declared
  cases taken
  cases given
  exact ⟨compiled, built, takes, gives, inherited "click" (by decide) (by decide)⟩

/-! ## Whose validator is found -/

/-- In a compiled document a lookup finds something exactly if the channel offers a member of the
same name up to the case of its first letter, or another channel offers a member whose name, glued
to that of its channel, gives the same text, or an object or an enum has the name that is looked
up. -/
theorem lookup_finds_glued_name (built : ofDocument doc schemaName = .ok compiled)
    (name member : String) (role : Role) :
    (compiled.registry.find? name member role).isSome ↔
      (∃ own, Offers doc role name own ∧ titleCase own = titleCase member) ∨
      (∃ other own, other ≠ name ∧ Offers doc role other own ∧
        other ++ titleCase own = name ++ titleCase member) ∨
      doc.isNamedType (callSiteName name member role) := by
  rw [isSome_find?_iff built, ← or_assoc]
  refine or_congr_left ⟨?_, ?_⟩
  · rintro ⟨other, own, offers, glued⟩
    by_cases same : other = name
    · subst same
      exact .inl ⟨own, offers, by simpa using glued⟩
    · exact .inr ⟨other, own, same, offers, glued⟩
  · rintro (⟨own, offers, same⟩ | ⟨other, own, -, offers, glued⟩)
    · exact ⟨name, own, offers, by rw [same]⟩
    · exact ⟨other, own, offers, glued⟩

/-- A page finds the parameters of a command of its node, whose first letter may be of either
case. -/
theorem page_finds_click :
    ∃ compiled, ofDocument pageDocument "protocol.yml" = .ok compiled ∧
      (compiled.registry.find? "Page" "Click" .params).isSome := by
  obtain ⟨compiled, built⟩ := pageDocument_compiles
  have extended : pageDocument.Extends "Page" "Node" := ⟨_, rfl, rfl⟩
  exact ⟨compiled, built, (lookup_finds_glued_name built "Page" "Click" .params).mpr
    (.inl ⟨"click", .inherited extended rfl (by decide), by decide⟩)⟩

/-- A channel without members, and one with a longer name that has some. -/
def gluedDocument : Document where
  entities := {
    entries := [
      ("Page", .channel {
        parent := none
        initializer := []
        commands := .empty
        events := .empty }),
      ("PageFoo", .channel {
        parent := none
        initializer := []
        commands := { entries := [("bar", {})], distinct := by decide }
        events := { entries := [("bar", {})], distinct := by decide } })]
    distinct := by decide }

/-- A document in which no channel extends another one has a lineage. -/
theorem succeeds_lineage_of_roots (alone : ∀ child parent, ¬ doc.Extends child parent) :
    Succeeds (Lineage.ofDocument doc) := by
  refine ⟨_, Lineage.ofDocument_eq_ok_iff.mpr ⟨?_, ?_, rfl⟩⟩
  · intro child parent extended
    exact absurd extended (alone child parent)
  · intro name loop
    obtain ⟨parent, first, -⟩ := Relation.TransGen.head'_iff.mp loop
    exact alone name parent first

theorem gluedDocument_compiles : Succeeds (ofDocument gluedDocument "protocol.yml") := by
  have finite (mixin : String) : ¬ gluedDocument.Endless mixin := by
    rintro ⟨held, _, _, _, found, -⟩
    have mem := (Table.get?_eq_some_iff ..).mp (Document.mixin?_eq_some_iff.mp found)
    simp [gluedDocument] at mem
  have alone (child parent : String) : ¬ gluedDocument.Extends child parent := by
    rintro ⟨channel, found, extended⟩
    have mem := mem_entries_of_channel? found
    simp only [gluedDocument, List.mem_cons, List.not_mem_nil, or_false, Prod.mk.injEq,
      Entity.channel.injEq] at mem
    rcases mem with ⟨-, rfl⟩ | ⟨-, rfl⟩ <;> cases extended
  have nothing := Document.sound_nil gluedDocument
  refine (succeeds_ofDocument_iff_entities finite).mpr
    ⟨succeeds_lineage_of_roots alone, ?_, by decide +kernel⟩
  intro entry mem
  simp only [gluedDocument, List.mem_cons, List.not_mem_nil, or_false] at mem
  rcases mem with rfl | rfl <;> simp [EntitySound, SoundIfDeclared, Table.empty, nothing]

/-- The members of the longer name are found for the shorter one, which has none. -/
theorem gluedDocument_lends_members :
    ∃ compiled, ofDocument gluedDocument "protocol.yml" = .ok compiled ∧
      isIdentifier "fooBar" ∧
      (∀ role ∈ [Role.params, .result, .event],
        (compiled.registry.find? "Page" "fooBar" role).isSome) ∧
      ∃ channel, gluedDocument.channel? "Page" = some channel ∧ channel.parent = none ∧
        channel.commands.names = [] ∧ channel.events.names = [] := by
  obtain ⟨compiled, built⟩ := gluedDocument_compiles
  refine ⟨compiled, built, by decide, ?_, _, rfl, rfl, rfl, rfl⟩
  have glued : "PageFoo" ++ titleCase "bar" = "Page" ++ titleCase "fooBar" := by decide
  have found (role : Role) (offers : Offers gluedDocument role "PageFoo" "bar") :
      (compiled.registry.find? "Page" "fooBar" role).isSome :=
    (isSome_find?_iff built).mpr (.inl ⟨"PageFoo", "bar", offers, glued⟩)
  simp only [List.forall_mem_cons]
  exact ⟨found _ (.params rfl (by decide)), found _ (.result rfl (by decide)),
    found _ (.event rfl (by decide)), nofun⟩

end Compiled

end ChannelProtocol
