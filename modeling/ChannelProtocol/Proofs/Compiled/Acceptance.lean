-- Which documents compile: those with a sound ancestry, with sound lists and
-- with names that are all different.
import ChannelProtocol.Proofs.Compiled.Surface

namespace ChannelProtocol.Schema

/-! ## Sound entities -/

/-- A list is sound unless it is undeclared. -/
def SoundIfDeclared (doc : Document) (declared : Option (List Property)) : Prop :=
  ∀ list, declared = some list → doc.Sound list

/-- All lists of an entity are sound. A mixin has none of its own. -/
def EntitySound (doc : Document) : Entity → Prop
  | .channel channel =>
    doc.Sound channel.initializer ∧
      (∀ entry ∈ channel.events.entries, SoundIfDeclared doc entry.2.parameters) ∧
      ∀ entry ∈ channel.commands.entries,
        SoundIfDeclared doc entry.2.parameters ∧ SoundIfDeclared doc entry.2.returns
  | .object list => doc.Sound list
  | .enum _ | .mixin _ => True

theorem forall_surface_iff {doc : Document} :
    (∀ name place list, doc.Surface name place list → doc.Sound list) ↔
      ∀ entry ∈ doc.entities.entries, EntitySound doc entry.2 := by
  constructor
  · rintro sound ⟨name, entity⟩ mem
    have found : doc.get? name = some entity := (Table.get?_eq_some_iff ..).mpr mem
    cases entity with
    | channel channel =>
      have found := Document.channel?_eq_some_iff.mpr found
      refine ⟨sound _ _ _ (.initializer found), fun entry he list h => ?_,
        fun entry hc => ⟨fun list h => ?_, fun list h => ?_⟩⟩
      · exact sound _ _ list (.event found he h)
      · exact sound _ _ list (.parameters found hc h)
      · exact sound _ _ list (.returns found hc h)
    | object list => exact sound _ _ list (.object found)
    | enum literals => trivial
    | mixin list => trivial
  · intro sound name place list surface
    cases surface with
    | initializer found => exact (sound _ (Compiled.mem_entries_of_channel? found)).1
    | event found he h => exact (sound _ (Compiled.mem_entries_of_channel? found)).2.1 _ he _ h
    | parameters found hc h =>
      exact ((sound _ (Compiled.mem_entries_of_channel? found)).2.2 _ hc).1 _ h
    | returns found hc h =>
      exact ((sound _ (Compiled.mem_entries_of_channel? found)).2.2 _ hc).2 _ h
    | object found => exact sound _ ((Table.get?_eq_some_iff ..).mp found)

end ChannelProtocol.Schema

namespace ChannelProtocol.Compiled

open Schema Relation

/-! ## What is made from sound lists -/

section

variable {doc : Document} (finite : ∀ mixin, ¬ doc.Endless mixin)

include finite

/-- What is made from a list, or from nothing, is made exactly if the list is sound. -/
theorem succeeds_iff_soundIfDeclared {α : Type} {location : Location}
    (make : Option (List Property) → Except (Stop Error) α) (nothing : Succeeds (make none))
    (resolved : ∀ list, Succeeds (make (some list)) ↔ Succeeds (doc.resolve location list))
    (declared : Option (List Property)) :
    Succeeds (make declared) ↔ SoundIfDeclared doc declared := by
  unfold SoundIfDeclared
  cases declared with
  | none => exact iff_of_true nothing nofun
  | some list =>
    rw [resolved list, Document.succeeds_resolve_iff finite]
    constructor
    · rintro sound _ ⟨⟩
      exact sound
    · intro sound
      exact sound list rfl

theorem succeeds_resolveDeclared_iff (location : Location) (declared : Option (List Property)) :
    Succeeds (resolveDeclared doc location declared) ↔ SoundIfDeclared doc declared :=
  succeeds_iff_soundIfDeclared finite (resolveDeclared doc location) (succeeds_ok _)
    (fun _ => Iff.rfl) declared

theorem succeeds_resultTy_iff (location : Location) (declared : Option (List Property)) :
    Succeeds (resultTy doc location declared) ↔ SoundIfDeclared doc declared :=
  succeeds_iff_soundIfDeclared finite (resultTy doc location) (succeeds_ok _)
    (fun _ => succeeds_map_iff) declared

theorem succeeds_declaredValidator_iff (location : Location)
    (declared : Option (List Property)) :
    Succeeds (declaredValidator doc location declared) ↔ SoundIfDeclared doc declared :=
  succeeds_iff_soundIfDeclared finite (declaredValidator doc location) (succeeds_ok _)
    (fun _ => succeeds_map_iff) declared

theorem succeeds_initializerDeclaration_iff (name : String) (channel : Channel) :
    Succeeds (initializerDeclaration doc name channel) ↔ doc.Sound channel.initializer := by
  rw [← Document.succeeds_resolve_iff finite (.member (.named name) "initializer")]
  exact succeeds_bind_pure_iff

theorem succeeds_eventDeclarations_iff (name : String) (entry : String × Event) :
    Succeeds (eventDeclarations doc name entry) ↔ SoundIfDeclared doc entry.2.parameters := by
  rw [← succeeds_resolveDeclared_iff finite (.member (.named name) entry.1)]
  exact succeeds_bind_pure_iff

theorem succeeds_commandDeclarations_iff (name : String) (entry : String × Command) :
    Succeeds (commandDeclarations doc name entry) ↔
      SoundIfDeclared doc entry.2.parameters ∧ SoundIfDeclared doc entry.2.returns := by
  rw [← succeeds_resolveDeclared_iff finite (.member (.member (.named name) entry.1) "parameters"),
    ← succeeds_resultTy_iff finite (.member (.member (.named name) entry.1) "returns")]
  unfold commandDeclarations
  rw [succeeds_bind_iff]
  constructor
  · rintro ⟨fields, hf, h⟩
    exact ⟨⟨fields, hf⟩, succeeds_bind_pure_iff.mp h⟩
  · rintro ⟨⟨fields, hf⟩, h⟩
    exact ⟨fields, hf, succeeds_bind_pure_iff.mpr h⟩

theorem forall_channelSteps_succeeds_iff (lineage : Lineage) (name : String) (channel : Channel) :
    (∀ step ∈ channelSteps doc lineage name channel, Succeeds step) ↔
      EntitySound doc (.channel channel) := by
  simp only [channelSteps, List.cons_append, List.nil_append, List.forall_mem_cons,
    List.forall_mem_append, List.forall_mem_flatMap, List.forall_mem_map,
    forall_declareAll_succeeds_iff, succeeds_after_iff, succeeds_map_iff,
    succeeds_initializerDeclaration_iff finite, succeeds_eventDeclarations_iff finite,
    succeeds_commandDeclarations_iff finite, succeeds_ok, true_and, EntitySound]
  constructor
  · rintro ⟨initializer, events, commands, -⟩
    exact ⟨initializer, events, commands⟩
  · rintro ⟨initializer, events, commands⟩
    exact ⟨initializer, events, commands, events, commands⟩

theorem forall_entitySteps_succeeds_iff (lineage : Lineage) (entry : String × Entity) :
    (∀ step ∈ entitySteps doc lineage entry, Succeeds step) ↔ EntitySound doc entry.2 := by
  obtain ⟨name, entity⟩ := entry
  cases entity with
  | channel channel => exact forall_channelSteps_succeeds_iff finite lineage name channel
  | object list =>
    simp [entitySteps, succeeds_ok, Document.succeeds_resolve_iff finite, EntitySound]
  | enum literals => simp [entitySteps, succeeds_ok, EntitySound]
  | mixin list => simp [entitySteps, EntitySound]

theorem forall_entityRegistrations_succeeds_iff (lineage : Lineage) (entry : String × Entity) :
    (∀ new ∈ entityRegistrations doc lineage entry, Succeeds new) ↔ EntitySound doc entry.2 := by
  obtain ⟨name, entity⟩ := entry
  cases entity with
  | channel channel =>
    rw [forall_channelRegistrations_succeeds_iff]
    simp only [Document.succeeds_resolve_iff finite, succeeds_declaredValidator_iff finite,
      EntitySound]
  | object list => simp [entityRegistrations, Document.succeeds_resolve_iff finite, EntitySound]
  | enum literals => simp [entityRegistrations, succeeds_ok, EntitySound]
  | mixin list => simp [entityRegistrations, EntitySound]

end

/-! ## What a document is compiled from -/

theorem succeeds_ofDocument_iff {doc : Document} {schemaName : String} :
    Succeeds (ofDocument doc schemaName) ↔
      Succeeds (Lineage.ofDocument doc) ∧
      Succeeds (declarationsModule doc ⟨doc.parentLinks⟩ schemaName) ∧
      Succeeds (documentRegistry doc ⟨doc.parentLinks⟩) := by
  constructor
  · rintro ⟨compiled, built⟩
    obtain ⟨lineage, ancestry, -⟩ := bind_eq_ok_iff.mp built
    obtain ⟨declared, registered⟩ := files_of_ofDocument built
    exact ⟨⟨lineage, mapError_eq_ok_iff.mp ancestry⟩, ⟨_, declared⟩, ⟨_, registered⟩⟩
  · rintro ⟨⟨lineage, ancestry⟩, ⟨declarations, declared⟩, registered⟩
    obtain ⟨-, -, rfl⟩ := Lineage.ofDocument_eq_ok_iff.mp ancestry
    refine succeeds_bind_iff.mpr ⟨_, mapError_eq_ok_iff.mpr ancestry,
      succeeds_bind_iff.mpr ⟨declarations, declared, ?_⟩⟩
    exact succeeds_bind_pure_iff.mpr registered

/-- The same, entity by entity. -/
theorem succeeds_ofDocument_iff_entities {doc : Document} (finite : ∀ mixin, ¬ doc.Endless mixin)
    {schemaName : String} :
    Succeeds (ofDocument doc schemaName) ↔
      Succeeds (Lineage.ofDocument doc) ∧
      (∀ entry ∈ doc.entities.entries, EntitySound doc entry.2) ∧
      (derivedNames doc).Nodup := by
  have steps : (∀ step ∈ documentSteps doc ⟨doc.parentLinks⟩, Succeeds step) ↔
      ∀ entry ∈ doc.entities.entries, EntitySound doc entry.2 := by
    simp only [documentSteps, List.forall_mem_append, List.forall_mem_map, succeeds_ok,
      List.forall_mem_flatMap, forall_entitySteps_succeeds_iff finite, implies_true, true_and,
      and_true]
  have registrations : (∀ new ∈ doc.entities.entries.flatMap
      (entityRegistrations doc ⟨doc.parentLinks⟩), Succeeds new) ↔
      ∀ entry ∈ doc.entities.entries, EntitySound doc entry.2 := by
    simp only [List.forall_mem_flatMap, forall_entityRegistrations_succeeds_iff finite]
  rw [succeeds_ofDocument_iff, succeeds_declarationsModule_iff, succeeds_documentRegistry_iff,
    steps, registrations, and_and_and_comm, and_self_iff, ← nodup_derivedNames_iff]

/-! ## A document that compiles -/

/-- Points that refer to each other, and a page that takes over the command of a node. The mixin
is spliced in a list and in an inline object of the same list. -/
def pageDocument : Document where
  entities := {
    entries := [
      ("Timed", .mixin [.field "timeout" ⟨.number, true⟩]),
      ("Button", .enum ["left", "right"]),
      ("Point", .object [.field "x" ⟨.number, false⟩, .field "next" ⟨.reference "Point", true⟩]),
      ("Node", .channel {
        parent := none
        initializer := [.field "page" ⟨.channel "Page", false⟩]
        commands := {
          entries := [("click", { parameters := some [
            .splice "Timed",
            .field "button" ⟨.reference "Button", true⟩,
            .field "moves" ⟨.array ⟨.object [.field "to" ⟨.reference "Point", false⟩,
              .splice "Timed"], false⟩, false⟩] })]
          distinct := by decide }
        events := {
          entries := [("moved", { parameters := some [
            .field "path" ⟨.array ⟨.reference "Point", false⟩, false⟩] })]
          distinct := by decide } }),
      ("Page", .channel {
        parent := some "Node"
        initializer := []
        commands := { entries := [("close", {})], distinct := by decide }
        events := .empty })]
    distinct := by decide }

/-- The lists of the document, and that of its inline object. -/
def pageLists : List (List Property) := [
  [.field "timeout" ⟨.number, true⟩],
  [.field "x" ⟨.number, false⟩, .field "next" ⟨.reference "Point", true⟩],
  [.field "page" ⟨.channel "Page", false⟩],
  [.splice "Timed",
    .field "button" ⟨.reference "Button", true⟩,
    .field "moves" ⟨.array ⟨.object [.field "to" ⟨.reference "Point", false⟩,
      .splice "Timed"], false⟩, false⟩],
  [.field "to" ⟨.reference "Point", false⟩, .splice "Timed"],
  [.field "path" ⟨.array ⟨.reference "Point", false⟩, false⟩],
  []]

theorem timed_of_mixin? {mixin : String} {held : List Property}
    (found : pageDocument.mixin? mixin = some held) :
    held = [.field "timeout" ⟨.number, true⟩] := by
  have mem := (Table.get?_eq_some_iff ..).mp (Document.mixin?_eq_some_iff.mp found)
  have both : mixin = "Timed" ∧ held = [.field "timeout" ⟨.number, true⟩] := by
    simpa [pageDocument] using mem
  exact both.2

theorem pageDocument_finite (mixin : String) : ¬ pageDocument.Endless mixin := by
  refine Document.not_endless_of_flat (fun owner held inner found inline => ?_) mixin
  rw [timed_of_mixin? found] at inline
  obtain ⟨name, ty, h, object⟩ := inline
  cases List.mem_singleton.mp h
  cases object

theorem pageLists_sound : ∀ list ∈ pageLists, pageDocument.Sound list := by
  have timed : (pageDocument.mixin? "Timed").isSome := rfl
  have point : pageDocument.isNamedType "Point" := rfl
  have button : pageDocument.isNamedType "Button" := rfl
  have page : pageDocument.isChannel "Page" := rfl
  have acyclic : ¬ TransGen pageDocument.Splices "Timed" "Timed" := by
    intro h
    obtain ⟨other, ⟨held, found, mem⟩, -⟩ := TransGen.head'_iff.mp h
    rw [timed_of_mixin? found] at mem
    simp at mem
  refine Document.sound_of_closed (fun list mem => ?_) fun list mem other step => ?_
  · simp only [pageLists, List.mem_cons, List.not_mem_nil, or_false] at mem
    rcases mem with rfl | rfl | rfl | rfl | rfl | rfl | rfl <;>
      constructor <;> grind [Shape.innermost]
  · cases step with
    | mixin _ found =>
      rw [timed_of_mixin? found]
      simp [pageLists]
    | inline inline =>
      obtain ⟨name, ty, h, object⟩ := inline
      simp only [pageLists, List.mem_cons, List.not_mem_nil, or_false] at mem
      rcases mem with rfl | rfl | rfl | rfl | rfl | rfl | rfl <;>
        grind [pageLists, Shape.innermost]

theorem page_node_of_extends {child parent : String}
    (h : pageDocument.Extends child parent) : child = "Page" ∧ parent = "Node" := by
  obtain ⟨channel, found, extended⟩ := h
  have mem := mem_entries_of_channel? found
  simp only [pageDocument, List.mem_cons, List.not_mem_nil, or_false, Prod.mk.injEq,
    Entity.channel.injEq, reduceCtorEq, and_false, false_or] at mem
  rcases mem with ⟨rfl, rfl⟩ | ⟨rfl, rfl⟩
  · cases extended
  · cases extended
    exact ⟨rfl, rfl⟩

/-- A document in which one channel extends another one has a lineage. -/
theorem succeeds_lineage_of_single {doc : Document} {child parent : String}
    (only : ∀ first second, doc.Extends first second → first = child ∧ second = parent)
    (known : doc.isChannel parent) (other : child ≠ parent) :
    Succeeds (Lineage.ofDocument doc) := by
  refine ⟨_, Lineage.ofDocument_eq_ok_iff.mpr ⟨?_, ?_, rfl⟩⟩
  · intro first second h
    rw [(only first second h).2]
    exact known
  · intro name loop
    obtain ⟨_, first, -⟩ := TransGen.head'_iff.mp loop
    obtain ⟨_, -, last⟩ := TransGen.tail'_iff.mp loop
    exact other ((only _ _ first).1.symm.trans (only _ _ last).2)

theorem pageDocument_lineage : Succeeds (Lineage.ofDocument pageDocument) :=
  succeeds_lineage_of_single (fun _ _ => page_node_of_extends) rfl (by decide)

theorem pageDocument_compiles : Succeeds (ofDocument pageDocument "protocol.yml") := by
  have sound := pageLists_sound
  simp only [pageLists, List.forall_mem_cons] at sound
  obtain ⟨-, point, initializer, click, -, moved, nothing, -⟩ := sound
  refine (succeeds_ofDocument_iff_entities pageDocument_finite).mpr
    ⟨pageDocument_lineage, ?_, ?_⟩
  · intro entry mem
    simp only [pageDocument, List.mem_cons, List.not_mem_nil, or_false] at mem
    rcases mem with rfl | rfl | rfl | rfl | rfl <;>
      simp [EntitySound, SoundIfDeclared, Table.empty, point, initializer, click, moved, nothing]
  · decide +kernel

/-! ## Which documents compile -/

/-- Where no mixin comes back to itself through an inline object, a document compiles exactly if
every channel extends a channel and none extends itself in the end, its lists are sound with all
that they lead to, and no name is derived twice. -/
theorem ofDocument_accepts_iff {doc : Document} (finite : ∀ mixin, ¬ doc.Endless mixin)
    (schemaName : String) :
    Succeeds (ofDocument doc schemaName) ↔
      ((∀ child parent, doc.Extends child parent → doc.isChannel parent) ∧
        ∀ name, ¬ TransGen doc.Extends name name) ∧
      (∀ name place list, doc.Surface name place list → doc.Sound list) ∧
      (derivedNames doc).Nodup := by
  rw [succeeds_ofDocument_iff_entities finite, forall_surface_iff]
  simp only [Succeeds, Lineage.ofDocument_eq_ok_iff, exists_and_left, exists_eq, and_true]

theorem pageDocument_accepted :
    (∀ mixin, ¬ pageDocument.Endless mixin) ∧
    Succeeds (ofDocument pageDocument "protocol.yml") ∧
    ((∀ child parent, pageDocument.Extends child parent → pageDocument.isChannel parent) ∧
      ∀ name, ¬ TransGen pageDocument.Extends name name) ∧
    (∀ name place list, pageDocument.Surface name place list → pageDocument.Sound list) ∧
    (derivedNames pageDocument).Nodup :=
  ⟨pageDocument_finite, pageDocument_compiles,
    (ofDocument_accepts_iff pageDocument_finite "protocol.yml").mp pageDocument_compiles⟩

end ChannelProtocol.Compiled
