-- Which words of a schema name channels: the first look at the entries of a
-- document and the reading of its entities agree on it, at every depth.
import ChannelProtocol.Proofs.Schema.Ancestry
import ChannelProtocol.Proofs.Schema.Reading

namespace ChannelProtocol.Schema

open Yaml (Value Entry)

variable {channels : List String} {source : Value} {location : Location}

/-! ## Words -/

/-- What a shape names is a channel exactly if it is taken for one. -/
def Shape.Told (channels : List String) : Shape → Prop
  | .channel name => name ∈ channels
  | .reference name => name ∉ channels
  | _ => True

theorem told_shapeOfWord (channels : List String) (word : String) :
    (shapeOfWord channels word).Told channels := by
  unfold shapeOfWord
  repeat' split
  all_goals trivial

/-- What is read from a value is told apart by the names of the channels. -/
theorem told_of_readIn {shape : Shape} {optional : Bool}
    (read : ReadIn channels source ⟨shape, optional⟩) : shape.Told channels := by
  cases read with
  | word text same =>
    obtain ⟨base, rfl⟩ := exists_shapeOfWord same
    exact told_shapeOfWord channels base
  | array | literals | object => trivial

/-! ## Two looks at an entry -/

theorem readNamedEntity_eq_ok_iff {entry : Entry} {named : String × Entity} :
    readNamedEntity channels entry = .ok named ↔
      entry.key.asString? = some named.1 ∧
        readEntity channels named.1 entry.value = .ok named.2 := by
  obtain ⟨name, entity⟩ := named
  unfold readNamedEntity
  simp only [bind_eq_ok_iff, keyText_eq_ok_iff, pure, Except.pure, Except.ok.injEq, Prod.mk.injEq]
  constructor
  · rintro ⟨_, keyed, _, read, rfl, rfl⟩
    exact ⟨keyed, read⟩
  · rintro ⟨keyed, read⟩
    exact ⟨name, keyed, entity, read, rfl, rfl⟩

/-- The first look at an entry finds a channel exactly if a channel is then read from it. -/
theorem channelName?_eq {entry : Entry} {named : String × Entity}
    (read : readNamedEntity channels entry = .ok named) :
    channelName? entry = (Document.channelEntry? named).map Prod.fst := by
  obtain ⟨keyed, read⟩ := readNamedEntity_eq_ok_iff.mp read
  obtain ⟨name, entity⟩ := named
  obtain ⟨key, value⟩ := entry
  obtain ⟨entries, word, rfl, typed, kind⟩ := readEntity_cases read
  have looked : ((Value.mapping entries).get? "type").bind Value.asString? = some word := typed
  unfold channelName?
  rw [looked]
  rcases kind with ⟨isChannel, channel, -, rfl⟩ | ⟨other, kind⟩
  · simpa [isChannel, Document.channelEntry?] using keyed
  · rcases kind with ⟨literals, -, rfl⟩ | ⟨properties, -, rfl | rfl⟩ <;>
      simp [other, Document.channelEntry?]

/-! ## Documents -/

/-- The entries of the root of a document. -/
def rootEntries : Value → List Entry
  | .mapping entries => entries
  | _ => []

theorem within_of_mem_rootEntries {root : Value} {entry : Entry} (mem : entry ∈ rootEntries root) :
    entry.value.Within root := by
  cases root with
  | mapping entries => exact .value mem .refl
  | null | bool | number | string | sequence | tagged => cases mem

/-- The entities that are read from the root of a document, with their names. -/
def ReadFrom (root : Value) (named : List (String × Entity)) : Prop :=
  (rootEntries root).map (readNamedEntity (channelNames (rootEntries root))) = named.map .ok

theorem exists_readFrom {root : Value} {doc : Document} (read : Document.ofValue root = .ok doc) :
    ∃ named, ReadFrom root named ∧ doc = ⟨.ofList named⟩ := by
  unfold Document.ofValue at read
  split at read
  · cases read
    exact ⟨[], rfl, rfl⟩
  · obtain ⟨named, all, same⟩ := bind_eq_ok_iff.mp read
    cases same
    exact ⟨named, mapM_eq_ok_iff.mp all, rfl⟩
  · cases read

/-- The names of the channels are those of the entities that are read as channels. -/
theorem channelNames_eq {entries : List Entry} {named : List (String × Entity)}
    (all : entries.map (readNamedEntity channels) = named.map .ok) :
    channelNames entries = (named.filterMap Document.channelEntry?).map Prod.fst := by
  unfold channelNames
  induction entries generalizing named with
  | nil => cases named <;> simp_all
  | cons entry rest ih =>
    cases named with
    | nil => cases all
    | cons first others =>
      rw [List.map_cons, List.map_cons, List.cons.injEq] at all
      rw [List.filterMap_cons, List.filterMap_cons, channelName?_eq all.1, ih all.2]
      cases Document.channelEntry? first <;> rfl

section

variable {root : Value} {named : List (String × Entity)} (all : ReadFrom root named)
include all

theorem mem_channelNames_of_isChannel {name : String}
    (isChannel : (⟨.ofList named⟩ : Document).isChannel name) :
    name ∈ channelNames (rootEntries root) := by
  obtain ⟨channel, found⟩ := Option.isSome_iff_exists.mp isChannel
  rw [Document.channel?_eq_some_iff, Document.get?, Table.get?_eq_some_iff] at found
  rw [channelNames_eq all, List.mem_map]
  refine ⟨(name, channel), ?_, rfl⟩
  exact List.mem_filterMap.mpr ⟨_, Table.mem_of_mem_ofList found, rfl⟩

theorem isChannel_of_mem_channelNames (distinct : (named.map Prod.fst).Nodup) {name : String}
    (mem : name ∈ channelNames (rootEntries root)) :
    (⟨.ofList named⟩ : Document).isChannel name := by
  rw [channelNames_eq all, List.mem_map] at mem
  obtain ⟨⟨name, channel⟩, mem, rfl⟩ := mem
  have kept : (name, channel) ∈ (⟨.ofList named⟩ : Document).channels := by
    rw [Document.channels, Table.entries_ofList distinct]
    exact mem
  rw [Document.isChannel, Document.mem_channels_iff.mp kept]
  rfl

theorem readIn_of_readFrom {entry : String × Entity} (mem : entry ∈ named) :
    ∀ list ∈ entityLists entry,
      ListReadIn (channelNames (rootEntries root)) root list.2 := by
  obtain ⟨source, held, read⟩ := (mem_iff_of_map_eq_ok all entry).mp mem
  exact readIn_readEntity (within_of_mem_rootEntries held) (readNamedEntity_eq_ok_iff.mp read).2

/-- What stands in a list of the document, at any depth, is read from the root. -/
theorem readIn_of_mem_propertyLists {list : Location × List Property}
    (mem : list ∈ (⟨.ofList named⟩ : Document).propertyLists) {inner : Shape}
    (holds : (Shape.object list.2).Holds inner) :
    ∃ optional, ReadIn (channelNames (rootEntries root)) root ⟨inner, optional⟩ := by
  obtain ⟨entry, mem, inside⟩ := List.mem_flatMap.mp mem
  exact (readIn_of_readFrom all (Table.mem_of_mem_ofList mem) list inside).holds holds

end

/-! ## Names of members -/

/-- All members of the channels of a document have identifiers for names. -/
def MembersNamed (doc : Document) : Prop :=
  ∀ name channel, doc.channel? name = some channel →
    (∀ event ∈ channel.events.names, TypeScript.isIdentifier event) ∧
      ∀ command ∈ channel.commands.names, TypeScript.isIdentifier command

theorem membersNamed_of_readChannel {name : String} {entries : List Entry} {channel : Channel}
    (read : readChannel channels name entries = .ok channel) :
    (∀ event ∈ channel.events.names, TypeScript.isIdentifier event) ∧
      ∀ command ∈ channel.commands.names, TypeScript.isIdentifier command := by
  obtain ⟨parent, -, read⟩ := bind_eq_ok_iff.mp read
  obtain ⟨initializer, -, read⟩ := bind_eq_ok_iff.mp read
  obtain ⟨commands, commanded, read⟩ := bind_eq_ok_iff.mp read
  obtain ⟨events, raised, rest⟩ := bind_eq_ok_iff.mp read
  cases rest
  constructor
  · intro event mem
    obtain ⟨entry, held, rfl⟩ := List.mem_map.mp mem
    exact (exists_read_of_readMembers raised held).1
  · intro command mem
    obtain ⟨entry, held, rfl⟩ := List.mem_map.mp mem
    exact (exists_read_of_readMembers commanded held).1

/-- A document that was read has members with identifiers for names. -/
theorem membersNamed_of_read {root : Value} {doc : Document}
    (read : Document.ofValue root = .ok doc) : MembersNamed doc := by
  intro name channel found
  obtain ⟨named, all, rfl⟩ := exists_readFrom read
  rw [Document.channel?_eq_some_iff, Document.get?, Table.get?_eq_some_iff] at found
  have mem := Table.mem_of_mem_ofList found
  obtain ⟨source, -, made⟩ := (mem_iff_of_map_eq_ok all _).mp mem
  obtain ⟨entries, word, -, -, kind⟩ := readEntity_cases (readNamedEntity_eq_ok_iff.mp made).2
  rcases kind with ⟨-, definition, opened, same⟩ | ⟨-, ⟨literals, -, other⟩ | ⟨list, -, other⟩⟩
  · cases same
    exact membersNamed_of_readChannel opened
  · cases other
  · rcases other with other | other <;> cases other

/-! ## Whole documents -/

/-- A document has an entity for each text among the keys of its root, where the text first came,
with what was last given for it. So exactly if no text comes twice there is one entity for each
key, and then every word that was taken for a channel, at any depth, names one and is resolved.
No word that was taken for a reference ever names a channel. -/
theorem ofValue_classifies {root : Value} {doc : Document}
    (read : Document.ofValue root = .ok doc) :
    ∃ named, ReadFrom root named ∧
      doc.names = (named.map Prod.fst).eraseDups ∧
      (∀ name, doc.get? name = named.reverse.lookup name) ∧
      (doc.entities.entries = named ↔ (named.map Prod.fst).Nodup) ∧
      (∀ list ∈ doc.propertyLists, ∀ name, (Shape.object list.2).Holds (.reference name) →
        ¬ doc.isChannel name) ∧
      ((named.map Prod.fst).Nodup → ∀ list ∈ doc.propertyLists, ∀ name,
        (Shape.object list.2).Holds (.channel name) → doc.isChannel name ∧
          ∀ path location, Succeeds (doc.resolveShape path location (.channel name))) := by
  obtain ⟨named, all, rfl⟩ := exists_readFrom read
  refine ⟨named, all, Table.names_ofList named, Table.get?_ofList named, ⟨?_, ?_⟩, ?_, ?_⟩
  · intro kept
    rw [← kept]
    exact (Table.ofList named).distinct
  · exact Table.entries_ofList
  · intro list mem name holds isChannel
    obtain ⟨optional, read⟩ := readIn_of_mem_propertyLists all mem holds
    exact told_of_readIn read (mem_channelNames_of_isChannel all isChannel)
  · intro distinct list mem name holds
    obtain ⟨optional, read⟩ := readIn_of_mem_propertyLists all mem holds
    have isChannel := isChannel_of_mem_channelNames all distinct (told_of_readIn read)
    refine ⟨isChannel, fun path location => ?_⟩
    rw [Document.resolveShape, if_pos isChannel]
    exact succeeds_ok _

/-- An entry with an untagged key. -/
def plainEntry (name : String) (value : Value) : Entry := ⟨.string name, value⟩

/-- An object whose field holds an array of what a word names. -/
def arrayOwner (word : String) : Value :=
  .mapping [plainEntry "type" (.string "object"), plainEntry "properties" (.mapping
    [plainEntry "all" (.mapping
      [plainEntry "type" (.string "array"), plainEntry "items" (.string word)])])]

/-- A channel that is named before it comes. -/
def forwardRoot : Value :=
  .mapping [plainEntry "Owner" (arrayOwner "Page"),
    plainEntry "Page" (.mapping [plainEntry "type" (.string "interface")])]

def ownerEntity : Entity := .object [.field "all" ⟨.array ⟨.channel "Page", false⟩, false⟩]

def forwardDocument : Document where
  entities := ⟨[("Owner", ownerEntity), ("Page", .channel ⟨none, [], .empty, .empty⟩)], by decide⟩

/-- All entities of the document are kept, and the word in the array is resolved as a channel. -/
theorem forwardRoot_classified :
    ∃ named, ReadFrom forwardRoot named ∧ forwardDocument.entities.entries = named ∧
      ∀ path location, Succeeds (forwardDocument.resolveShape path location (.channel "Page")) := by
  have read : Document.ofValue forwardRoot = .ok forwardDocument := rfl
  obtain ⟨named, all, -, -, kept, -, channels⟩ := ofValue_classifies read
  have same : named = forwardDocument.entities.entries := by
    have all' : ReadFrom forwardRoot forwardDocument.entities.entries := rfl
    exact (List.map_inj_right fun _ _ => Except.ok.inj).mp (all.symm.trans all')
  have distinct : (named.map Prod.fst).Nodup := by
    rw [same]
    exact forwardDocument.entities.distinct
  have holds : (Shape.object [.field "all" ⟨.array ⟨.channel "Page", false⟩, false⟩]).Holds
      (.channel "Page") := .field List.mem_cons_self (.element (.self _))
  refine ⟨named, all, kept.mpr distinct, ?_⟩
  exact (channels distinct (.named "Owner", _) List.mem_cons_self "Page" holds).2

/-- The same channel, and an object whose key is the same word with a tag. -/
def taggedRoot : Value :=
  .mapping [plainEntry "Page" (.mapping [plainEntry "type" (.string "interface")]),
    ⟨.tagged "t" (.string "Page"), .mapping [plainEntry "type" (.string "object")]⟩,
    plainEntry "Owner" (arrayOwner "Page")]

def taggedDocument : Document where
  entities := ⟨[("Page", .object []), ("Owner", ownerEntity)], by decide⟩

/-- Of three entities two are left, and a word was taken for a channel that is an object. -/
theorem taggedRoot_drops_channel :
    Document.ofValue taggedRoot = .ok taggedDocument ∧
      (rootEntries taggedRoot).length = 3 ∧ taggedDocument.names = ["Page", "Owner"] ∧
      (∃ list ∈ taggedDocument.propertyLists, (Shape.object list.2).Holds (.channel "Page")) ∧
      ¬ taggedDocument.isChannel "Page" ∧
      ¬ Succeeds (taggedDocument.resolveShape [] .document (.channel "Page")) := by
  refine ⟨rfl, rfl, rfl, ⟨(.named "Owner", _), List.mem_of_mem_tail List.mem_cons_self, ?_⟩, ?_, ?_⟩
  · exact .field List.mem_cons_self (.element (.self _))
  · decide
  · rw [Document.resolveShape]
    decide

end ChannelProtocol.Schema
