-- Documents as YAML values. What was read from a value without tags can be
-- spelled, and reads back as it was: an undeclared section stays undeclared, a
-- declared one stays empty, and every word stands for what it stood for.
import ChannelProtocol.Proofs.Schema.Spelling

namespace ChannelProtocol

theorem Table.ofList_entries {α : Type} (table : Table α) : ofList table.entries = table := by
  have same := entries_ofList table.distinct
  generalize ofList table.entries = other at same
  cases other
  cases table
  simpa using same

namespace Schema

open Yaml (Value Entry)

/-! ## Spelling -/

/-- The field of a declared section. -/
def spellSection (name : String) (section? : Option (List Property)) : List (String × Value) :=
  (section?.map fun properties => (name, spellList properties)).toList

/-- The members of a table under their names. -/
def spellTable {α : Type} (spell : α → Value) (table : Table α) : Value :=
  record (table.entries.map fun entry => (entry.1, spell entry.2))

def Tracing.spell (tracing : Tracing) : Value :=
  record [("snapshot", .bool tracing.snapshot),
    ("pausesBeforeInput", .bool tracing.pausesBeforeInput)]

def Command.spell (command : Command) : Value :=
  record (spellSection "parameters" command.parameters ++ spellSection "returns" command.returns
    ++ [("tracing", command.tracing.spell)])

def Event.spell (event : Event) : Value := record (spellSection "parameters" event.parameters)

def Channel.spell (channel : Channel) : Value :=
  record (("type", .string "interface")
    :: (channel.parent.map fun parent => ("extends", Value.string parent)).toList
    ++ [("initializer", spellList channel.initializer),
      ("commands", spellTable Command.spell channel.commands),
      ("events", spellTable Event.spell channel.events)])

def Entity.spell : Entity → Value
  | .channel definition => definition.spell
  | .object properties => record [("type", .string "object"), ("properties", spellList properties)]
  | .enum literals =>
    record [("type", .string "enum"), ("literals", .sequence (literals.map .string))]
  | .mixin properties => record [("type", .string "mixin"), ("properties", spellList properties)]

/-- A document as a value: its entities under their names. -/
def Document.spell (doc : Document) : Value := spellTable Entity.spell doc.entities

/-! ## What can be spelled -/

variable {channels : List String} {location : Location}

/-- The declared lists of a command can be spelled. -/
structure Command.Spellable (channels : List String) (command : Command) : Prop where
  parameters : ∀ list ∈ command.parameters, SpellableList channels list
  returns : ∀ list ∈ command.returns, SpellableList channels list

structure Event.Spellable (channels : List String) (event : Event) : Prop where
  parameters : ∀ list ∈ event.parameters, SpellableList channels list

/-- All lists of a channel can be spelled, and its members have names of methods. -/
structure Channel.Spellable (channels : List String) (channel : Channel) : Prop where
  initializer : SpellableList channels channel.initializer
  commands : ∀ entry ∈ channel.commands.entries,
    TypeScript.isIdentifier entry.1 ∧ entry.2.Spellable channels
  events : ∀ entry ∈ channel.events.entries,
    TypeScript.isIdentifier entry.1 ∧ entry.2.Spellable channels

def Entity.Spellable (channels : List String) : Entity → Prop
  | .channel definition => definition.Spellable channels
  | .object properties | .mixin properties => SpellableList channels properties
  | .enum literals => "" ∉ literals

/-! ## Reading what is spelled -/

theorem readNamedSection_spell {fields : List (String × Value)} {name : String}
    {section? : Option (List Property)} (found : fields.lookup name = section?.map spellList)
    (spellable : ∀ list ∈ section?, SpellableList channels list) :
    readNamedSection channels location name (recordEntries fields) = .ok section? := by
  unfold readNamedSection
  rw [lookup_record, found]
  cases section? with
  | none => rfl
  | some list => exact readSection_spellList (spellable list rfl) location

theorem readTracing_spell (tracing : Tracing) :
    readTracing location (some tracing.spell) = .ok tracing := rfl

theorem readCommand_spell {command : Command} (spellable : command.Spellable channels) :
    readCommand channels location command.spell = .ok command := by
  obtain ⟨parameters, returns, tracing⟩ := command
  generalize same : spellSection "parameters" parameters ++ spellSection "returns" returns
    ++ [("tracing", tracing.spell)] = fields
  have takes : fields.lookup "parameters" = parameters.map spellList := by
    rw [← same]
    cases parameters <;> cases returns <;> rfl
  have gives : fields.lookup "returns" = returns.map spellList := by
    rw [← same]
    cases parameters <;> cases returns <;> rfl
  have traced : Yaml.lookup "tracing" (recordEntries fields) = some tracing.spell := by
    rw [lookup_record, ← same]
    cases parameters <;> cases returns <;> rfl
  have spelled : (⟨parameters, returns, tracing⟩ : Command).spell =
      .mapping (recordEntries fields) := by
    rw [← same]
    rfl
  rw [spelled]
  refine bind_eq_ok_iff.mpr ⟨_, rfl, ?_⟩
  refine bind_eq_ok_iff.mpr ⟨_, readNamedSection_spell takes spellable.parameters, ?_⟩
  refine bind_eq_ok_iff.mpr ⟨_, readNamedSection_spell gives spellable.returns, ?_⟩
  rw [traced]
  exact bind_eq_ok_iff.mpr ⟨_, readTracing_spell tracing, rfl⟩

theorem readEvent_spell {event : Event} (spellable : event.Spellable channels) :
    readEvent channels location event.spell = .ok event := by
  obtain ⟨parameters⟩ := event
  have takes : (spellSection "parameters" parameters).lookup "parameters" =
      parameters.map spellList := by
    cases parameters <;> rfl
  refine bind_eq_ok_iff.mpr ⟨_, rfl, ?_⟩
  exact bind_eq_ok_iff.mpr ⟨_, readNamedSection_spell takes spellable.parameters, rfl⟩

/-- Members that read back one by one read back together. -/
theorem readMembers_spell {α : Type} {owner part : String}
    {read : Location → Value → Except Error α} {spell : α → Value} {table : Table α}
    (names : ∀ entry ∈ table.entries, TypeScript.isIdentifier entry.1)
    (back : ∀ entry ∈ table.entries, ∀ location, read location (spell entry.2) = .ok entry.2) :
    readMembers owner part read (some (spellTable spell table)) = .ok table := by
  refine bind_eq_ok_iff.mpr ⟨some _, rfl, ?_⟩
  refine bind_eq_ok_iff.mpr ⟨table.entries, mapM_eq_ok_iff.mpr ?_, ?_⟩
  · unfold recordEntries
    rw [List.map_map, List.map_map]
    refine List.map_congr_left fun entry mem => ?_
    have named : memberName (.member (.named owner) part) (.string entry.1) = .ok entry.1 :=
      if_pos (names entry mem)
    refine bind_eq_ok_iff.mpr ⟨_, named, ?_⟩
    exact bind_eq_ok_iff.mpr ⟨_, back entry mem _, rfl⟩
  · rw [Table.ofList_entries]
    rfl

theorem readChannel_spell (name : String) {channel : Channel}
    (spellable : channel.Spellable channels) :
    ∃ entries, channel.spell = .mapping entries ∧ typeWord? entries = some "interface" ∧
      readChannel channels name entries = .ok channel := by
  obtain ⟨parent, initializer, commands, events⟩ := channel
  generalize same : ("type", Value.string "interface")
    :: (parent.map fun parent => ("extends", Value.string parent)).toList
    ++ [("initializer", spellList initializer), ("commands", spellTable Command.spell commands),
      ("events", spellTable Event.spell events)] = fields
  have extended : Yaml.lookup "extends" (recordEntries fields) = parent.map Value.string := by
    rw [lookup_record, ← same]
    cases parent <;> rfl
  have opened : fields.lookup "initializer" = (some initializer).map spellList := by
    rw [← same]
    cases parent <;> rfl
  have commanded : Yaml.lookup "commands" (recordEntries fields) =
      some (spellTable Command.spell commands) := by
    rw [lookup_record, ← same]
    cases parent <;> rfl
  have raised : Yaml.lookup "events" (recordEntries fields) =
      some (spellTable Event.spell events) := by
    rw [lookup_record, ← same]
    cases parent <;> rfl
  refine ⟨recordEntries fields, ?_, ?_, ?_⟩
  · rw [← same]
    rfl
  · rw [← same]
    exact typeWord?_record _ _
  · have parented : readParent (.member (.named name) "extends") (parent.map Value.string) =
        .ok parent := by
      cases parent <;> rfl
    unfold readChannel
    rw [extended, commanded, raised]
    refine bind_eq_ok_iff.mpr ⟨_, parented, ?_⟩
    refine bind_eq_ok_iff.mpr ⟨_, readNamedSection_spell opened ?_, ?_⟩
    · simpa using spellable.initializer
    refine bind_eq_ok_iff.mpr ⟨commands, readMembers_spell ?_ ?_, ?_⟩
    · exact fun entry mem => (spellable.commands entry mem).1
    · exact fun entry mem location => readCommand_spell (spellable.commands entry mem).2
    refine bind_eq_ok_iff.mpr ⟨events, readMembers_spell ?_ ?_, rfl⟩
    · exact fun entry mem => (spellable.events entry mem).1
    · exact fun entry mem location => readEvent_spell (spellable.events entry mem).2

theorem readBody_spell {name word : String} {properties : List Property}
    (spellable : SpellableList channels properties) :
    readBody channels name (recordEntries
      [("type", .string word), ("properties", spellList properties)]) = .ok properties := by
  refine bind_eq_ok_iff.mpr ⟨some properties, readNamedSection_spell rfl ?_, rfl⟩
  simpa using spellable

/-- An entity that can be spelled reads back under every name. -/
theorem readEntity_spell {name : String} {entity : Entity}
    (spellable : entity.Spellable channels) :
    readEntity channels name entity.spell = .ok entity := by
  cases entity with
  | channel definition =>
    obtain ⟨entries, spelled, typed, read⟩ := readChannel_spell name spellable
    rw [Entity.spell, spelled, readEntity, typed]
    simp [isChannelWord, read, Except.map]
  | object properties =>
    rw [Entity.spell, record, readEntity, typeWord?_record]
    simp [isChannelWord, readBody_spell spellable, Except.map]
  | enum literals =>
    have full : "" ∉ literals := spellable
    rw [Entity.spell, record, readEntity, typeWord?_record]
    simp [isChannelWord, readLiterals_spell full, Except.map]
  | mixin properties =>
    rw [Entity.spell, record, readEntity, typeWord?_record]
    simp [isChannelWord, readBody_spell spellable, Except.map]

/-! ## The keys of what is spelled -/

theorem plain_spellTable {α : Type} {spell : α → Value} {table : Table α}
    (each : ∀ entry ∈ table.entries, (spell entry.2).Plain) : (spellTable spell table).Plain := by
  apply plain_record
  · rw [List.map_map]
    exact table.distinct
  · intro field mem
    obtain ⟨entry, held, rfl⟩ := List.mem_map.mp mem
    exact each entry held

theorem plain_spellSection {name : String} {section? : Option (List Property)}
    (spellable : ∀ list ∈ section?, SpellableList channels list) :
    ∀ field ∈ spellSection name section?, field.2.Plain := by
  cases section? with
  | none => simp [spellSection]
  | some list => simpa [spellSection] using plain_spellList (spellable list rfl)

theorem plain_spell_tracing (tracing : Tracing) : tracing.spell.Plain := by
  apply plain_record
  · simp
  · simpa using ⟨Value.plain_scalar rfl, Value.plain_scalar rfl⟩

theorem plain_spell_command {command : Command} (spellable : command.Spellable channels) :
    command.spell.Plain := by
  apply plain_record
  · cases command.parameters <;> cases command.returns <;> simp [spellSection]
  · rw [List.forall_mem_append, List.forall_mem_append, List.forall_mem_singleton]
    exact ⟨⟨plain_spellSection spellable.parameters, plain_spellSection spellable.returns⟩,
      plain_spell_tracing command.tracing⟩

theorem plain_spell_event {event : Event} (spellable : event.Spellable channels) :
    event.spell.Plain := by
  apply plain_record
  · cases event.parameters <;> simp [spellSection]
  · exact plain_spellSection spellable.parameters

theorem plain_spell_channel {channel : Channel} (spellable : channel.Spellable channels) :
    channel.spell.Plain := by
  have commands : (spellTable Command.spell channel.commands).Plain :=
    plain_spellTable fun entry mem => plain_spell_command (spellable.commands entry mem).2
  have events : (spellTable Event.spell channel.events).Plain :=
    plain_spellTable fun entry mem => plain_spell_event (spellable.events entry mem).2
  have initializer := plain_spellList spellable.initializer
  apply plain_record
  · cases channel.parent <;> simp
  · cases channel.parent <;> simp [commands, events, initializer]

/-- What is spelled of an entity has no tags and no key twice. -/
theorem plain_spell_entity {entity : Entity} (spellable : entity.Spellable channels) :
    entity.spell.Plain := by
  cases entity with
  | channel definition => exact plain_spell_channel spellable
  | object properties | mixin properties =>
    apply plain_record
    · simp
    · simp [plain_spellList spellable]
  | enum literals =>
    apply plain_record
    · simp
    · simp [plain_strings literals]

/-! ## What is read can be spelled -/

theorem spellable_channel {name : String} {channel : Channel}
    (lists : ∀ list ∈ entityLists (name, .channel channel), SpellableList channels list.2)
    (events : ∀ event ∈ channel.events.names, TypeScript.isIdentifier event)
    (commands : ∀ command ∈ channel.commands.names, TypeScript.isIdentifier command) :
    channel.Spellable channels := by
  simp only [entityLists, List.cons_append, List.forall_mem_cons, List.forall_mem_append] at lists
  obtain ⟨initializer, ofEvents, ofCommands⟩ := lists
  refine ⟨initializer, fun entry mem => ⟨commands _ (List.mem_map_of_mem mem), ?_⟩,
    fun entry mem => ⟨events _ (List.mem_map_of_mem mem), ?_⟩⟩
  · have inside := fun list held => ofCommands list (List.mem_flatMap.mpr ⟨entry, mem, held⟩)
    simp only [commandLists, List.forall_mem_append] at inside
    exact ⟨by simpa using inside.1, by simpa using inside.2⟩
  · have inside := fun list held => ofEvents list (List.mem_flatMap.mpr ⟨entry, mem, held⟩)
    exact ⟨by simpa [eventLists] using inside⟩

/-- What is read from an untagged value can be spelled. -/
theorem spellable_readEntity {name : String} {value : Value} {entity : Entity}
    (plain : value.Plain) (read : readEntity channels name value = .ok entity) :
    entity.Spellable channels := by
  have lists (list : Location × List Property) (mem : list ∈ entityLists (name, entity)) :
      SpellableList channels list.2 :=
    spellableList_of_readIn plain (readIn_readEntity .refl read list mem)
  obtain ⟨entries, word, -, -, ⟨-, channel, made, rfl⟩ | ⟨-, other⟩⟩ := readEntity_cases read
  · obtain ⟨events, commands⟩ := membersNamed_of_readChannel made
    exact spellable_channel lists events commands
  · rcases other with ⟨literals, full, rfl⟩ | ⟨properties, -, rfl | rfl⟩
    · exact full
    · exact lists (.named name, properties) (by simp [entityLists])
    · exact lists (.named name, properties) (by simp [entityLists])

/-! ## Documents -/

theorem names_of_readFrom {root : Value} {named : List (String × Entity)}
    (all : ReadFrom root named) : named.map Prod.fst = keyTexts (rootEntries root) := by
  have keys : (rootEntries root).map (fun entry => entry.key.asString?) =
      named.map fun entry => some entry.1 :=
    map_eq_map_of_map_eq_ok (fun _ _ made => (readNamedEntity_eq_ok_iff.mp made).1) all
  have texts := congrArg (List.filterMap id) keys
  simpa [List.filterMap_map, Function.comp_def, keyTexts] using texts.symm

theorem plain_rootEntries {root : Value} (plain : root.Plain) :
    (Value.mapping (rootEntries root)).Plain := by
  unfold rootEntries
  split
  · exact plain
  · simp [Value.plain_mapping_iff]

/-- The entities that are read from an untagged root are those of the document, and each can be
spelled. -/
theorem readFrom_entries {root : Value} {doc : Document} (plain : root.Plain)
    (read : Document.ofValue root = .ok doc) :
    ReadFrom root doc.entities.entries ∧ ∀ entry ∈ doc.entities.entries,
      entry.2.Spellable (channelNames (rootEntries root)) := by
  obtain ⟨named, all, rfl⟩ := exists_readFrom read
  have mapping := plain_rootEntries plain
  have distinct : (named.map Prod.fst).Nodup := by
    rw [names_of_readFrom all]
    exact nodup_keyTexts mapping
  rw [Table.entries_ofList distinct]
  refine ⟨all, fun entry mem => ?_⟩
  obtain ⟨source, held, made⟩ := (mem_iff_of_map_eq_ok all entry).mp mem
  exact spellable_readEntity ((Value.plain_mapping_iff.mp mapping).2 source held).2
    (readNamedEntity_eq_ok_iff.mp made).2

theorem map_readNamedEntity_spell {entries : List (String × Entity)}
    (spellable : ∀ entry ∈ entries, entry.2.Spellable channels) :
    (recordEntries (entries.map fun entry => (entry.1, entry.2.spell))).map
      (readNamedEntity channels) = entries.map .ok := by
  unfold recordEntries
  rw [List.map_map, List.map_map]
  refine List.map_congr_left fun entry mem => ?_
  exact readNamedEntity_eq_ok_iff.mpr ⟨rfl, readEntity_spell (spellable entry mem)⟩

/-- A document reads back if its entities can be spelled with the names of its channels. -/
theorem ofValue_spell {doc : Document}
    (spellable : ∀ entry ∈ doc.entities.entries,
      entry.2.Spellable (doc.channels.map Prod.fst)) :
    Document.ofValue doc.spell = .ok doc := by
  have all := map_readNamedEntity_spell spellable
  have same := channelNames_eq all
  rw [Document.spell, spellTable, record, Document.ofValue, same]
  refine bind_eq_ok_iff.mpr ⟨_, mapM_eq_ok_iff.mpr all, ?_⟩
  rw [Table.ofList_entries]
  rfl

/-- A root without tags is plain if it has no key twice, which all that is read from a text has
not. -/
theorem plain_of_untagged {root : Value} (untagged : root.Untagged)
    (origin : root.KeysDistinct ∨ ∃ text, Yaml.read text = .ok root) : root.Plain := by
  rcases origin with distinct | ⟨text, parsed⟩
  · exact Value.plain_iff.mpr ⟨untagged, distinct⟩
  · exact Value.plain_iff.mpr ⟨untagged, Yaml.keysDistinct_of_read parsed⟩

/-- A document that was read from a root without tags reads back from its own spelling, which has
no tags either and no key twice. -/
theorem ofValue_retracts {root : Value} {doc : Document} (untagged : root.Untagged)
    (origin : root.KeysDistinct ∨ ∃ text, Yaml.read text = .ok root)
    (read : Document.ofValue root = .ok doc) :
    Document.ofValue doc.spell = .ok doc ∧ doc.spell.Untagged ∧ doc.spell.KeysDistinct := by
  obtain ⟨all, spellable⟩ := readFrom_entries (plain_of_untagged untagged origin) read
  have channels : channelNames (rootEntries root) = doc.channels.map Prod.fst :=
    channelNames_eq all
  rw [channels] at spellable
  have plain : doc.spell.Plain :=
    plain_spellTable fun entry mem => plain_spell_entity (spellable entry mem)
  exact ⟨ofValue_spell spellable, Value.plain_iff.mp plain⟩

/-- A root with words in unusual forms, a channel named like a type, sections that are empty, null
and left out, and a mixin that is spliced twice. -/
def oddRoot : Value :=
  record [
    ("string", record [("type", .string "channel"), ("extends", .string "Node"),
      ("initializer", record [("text", .string "string"), ("twice", .string "foo??"),
        ("$mixin", .string "Sized"), ("late", .string " Node ?"),
        ("$mixinAgain", .string "Sized")]),
      ("commands", record [("stop", .null), ("go", record [("parameters", record []),
        ("tracing", record [("snapshot", .bool true)])])])]),
    ("Node", record [("type", .string "interface"), ("events", record [("up",
      record [("parameters", record [("all", record [("type", .string "array?"),
        ("items", .string "json")])])])])]),
    ("Sized", record [("type", .string "mixin"), ("properties", record [("size",
      record [("type", .string "enum"),
        ("literals", .sequence [.string "small", .number (.int 1), .bool true])])])])]

def oddDocument : Document where
  entities := ⟨[
    ("string", .channel {
      parent := some "Node"
      initializer := [.field "text" ⟨.string, false⟩, .field "twice" ⟨.reference "foo?", true⟩,
        .splice "Sized", .field "late" ⟨.reference "Node ", true⟩, .splice "Sized"]
      commands := ⟨[("stop", {}),
        ("go", { parameters := some [], tracing := { snapshot := true } })], by decide⟩
      events := .empty }),
    ("Node", .channel {
      parent := none
      initializer := []
      commands := .empty
      events := ⟨[("up", { parameters := some [.field "all" ⟨.array ⟨.any, false⟩, true⟩] })],
        by decide⟩ }),
    ("Sized", .mixin [.field "size" ⟨.literals ["small", "1", "true"], false⟩])], by decide⟩

theorem oddRoot_plain : oddRoot.Plain := by
  have nothing : Value.null.Plain := Value.plain_scalar rfl
  have flag : (Value.bool true).Plain := Value.plain_scalar rfl
  have number : (Value.number (.int 1)).Plain := Value.plain_scalar rfl
  simp [oddRoot, record, recordEntries, plainEntry, Value.plain_mapping_iff,
    Value.plain_sequence_iff, Value.same, nothing, flag, number]

/-- The document of that root reads back, with its undeclared sections and its empty one. -/
theorem oddRoot_retracts :
    oddRoot.Untagged ∧ oddRoot.KeysDistinct ∧ Document.ofValue oddRoot = .ok oddDocument ∧
      Document.ofValue oddDocument.spell = .ok oddDocument := by
  obtain ⟨untagged, distinct⟩ := Value.plain_iff.mp oddRoot_plain
  have read : Document.ofValue oddRoot = .ok oddDocument := rfl
  exact ⟨untagged, distinct, read, (ofValue_retracts untagged (.inl distinct) read).1⟩

end Schema

end ChannelProtocol
