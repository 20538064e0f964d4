-- The declarations and the registry of a document. Where the declarations are
-- made, the registry can only fail at a name that a channel takes over from its
-- parent, and what it holds beside such names are types of the declarations.
import ChannelProtocol.Proofs.Compiled.Acceptance
import Mathlib.Data.List.Flatten

namespace ChannelProtocol

/-! ## Collisions -/

namespace Registry

/-- Registrations that are all there fail only at a name that an entry or an earlier one has. -/
theorem collision_of_registerAll {registry : Registry} {news : List Registration}
    {stop : Stop Schema.Error} (h : registry.registerAll (news.map .ok) = .error stop) :
    ∃ earlier new later old, news = earlier ++ new :: later ∧
      old ∈ registry.entries ++ earlier.map Registration.entry ∧ old.1 = new.name ∧
      stop = .fails (.nameCollision new.name old.2.origin new.origin) := by
  induction news generalizing registry with
  | nil => cases h
  | cons new rest ih =>
    rw [List.map_cons, registerAll] at h
    split at h
    · rename_i failure failed
      cases h
      unfold register at failed
      split at failed
      · rename_i old found
        cases failed
        have listed := (Table.get?_eq_some_iff ..).mp found
        exact ⟨[], new, rest, (new.name, old), rfl, List.mem_append_left _ listed, rfl, rfl⟩
      · cases failed
    · rename_i next registered
      obtain ⟨earlier, other, later, old, rfl, mem, same, rfl⟩ := ih h
      refine ⟨new :: earlier, other, later, old, rfl, ?_, same, rfl⟩
      rw [(register_eq_ok_iff.mp registered).2, List.append_assoc] at mem
      exact mem

/-- The names of the entries that are not taken over from a parent, in order. -/
def ownNames (registry : Registry) : List String :=
  (registry.entries.filter fun entry => !entry.2.origin.isInherited).map Prod.fst

end Registry

namespace Compiled

open Schema TypeScript

variable {doc : Document}

/-! ## What is declared can be registered -/

theorem succeeds_declaredValidator_of_resolveDeclared {location : Location}
    {declared : Option (List Property)} (h : Succeeds (resolveDeclared doc location declared)) :
    Succeeds (declaredValidator doc location declared) := by
  cases declared with
  | none => exact succeeds_ok _
  | some list => exact succeeds_map_iff.mpr h

theorem succeeds_declaredValidator_of_resultTy {location : Location}
    {declared : Option (List Property)} (h : Succeeds (resultTy doc location declared)) :
    Succeeds (declaredValidator doc location declared) := by
  cases declared with
  | none => exact succeeds_ok _
  | some list => exact succeeds_map_iff.mpr (succeeds_map_iff.mp h)

/-- An entity whose types are declared has all its registrations. -/
theorem entityRegistrations_of_entitySteps {lineage : Lineage} {entry : String × Entity}
    (ok : ∀ step ∈ entitySteps doc lineage entry, Succeeds step) :
    ∀ new ∈ entityRegistrations doc lineage entry, Succeeds new := by
  obtain ⟨name, entity⟩ := entry
  cases entity with
  | channel channel =>
    simp only [entitySteps, channelSteps, List.cons_append, List.nil_append, List.forall_mem_cons,
      List.forall_mem_append, List.forall_mem_flatMap, List.forall_mem_map,
      forall_declareAll_succeeds_iff, succeeds_map_iff] at ok
    obtain ⟨-, -, initializer, -, -, -, events, commands⟩ := ok
    rw [forall_channelRegistrations_succeeds_iff]
    refine ⟨succeeds_bind_pure_iff.mp initializer, fun entry mem => ?_, fun entry mem => ?_⟩
    · exact succeeds_declaredValidator_of_resolveDeclared
        (succeeds_bind_pure_iff.mp (events entry mem))
    · obtain ⟨news, made⟩ := commands entry mem
      obtain ⟨fields, ty, parameters, returns, -⟩ := commandDeclarations_eq_ok_iff.mp made
      exact ⟨succeeds_declaredValidator_of_resolveDeclared ⟨fields, parameters⟩,
        succeeds_declaredValidator_of_resultTy ⟨ty, returns⟩⟩
  | object list =>
    have resolved := ok _ (List.mem_cons_of_mem _ (List.mem_singleton.mpr rfl))
    simpa [entityRegistrations] using succeeds_map_iff.mp resolved
  | enum literals => simp [entityRegistrations, succeeds_ok]
  | mixin list => simp [entityRegistrations]

/-- Where the declarations are made, all registrations of the document are there. -/
theorem registrations_of_declarationsModule {lineage : Lineage} {schemaName : String}
    {file : Module} (built : declarationsModule doc lineage schemaName = .ok file) :
    ∃ news : List Registration,
      doc.entities.entries.flatMap (entityRegistrations doc lineage) = news.map .ok := by
  have ok := (succeeds_declarationsModule_iff.mp ⟨file, built⟩).1
  refine exists_eq_map_ok_iff.mpr (List.forall_mem_flatMap.mpr fun entry mem => ?_)
  apply entityRegistrations_of_entitySteps
  intro step h
  apply ok
  simp only [documentSteps, List.mem_append, List.mem_flatMap]
  exact .inl (.inl (.inr ⟨entry, mem, h⟩))

/-! ## Names of the two files -/

theorem sharedNames_sublist (entry : String × Entity) :
    (sharedNames entry).Sublist (entityNames entry) := by
  obtain ⟨name, entity⟩ := entry
  cases entity with
  | channel channel =>
    have commands : (channel.commands.names.flatMap fun command =>
        [paramsName name command, resultName name command]).Sublist
          (channel.commands.names.flatMap fun command =>
            [paramsName name command, optionsName name command, resultName name command]) := by
      apply List.Sublist.flatMap_right
      intro command _
      exact .cons_cons _ (.cons _ (.refl _))
    unfold sharedNames entityNames
    refine List.Sublist.append ?_ commands
    rw [← List.singleton_append]
    exact List.Sublist.append (.cons_cons _ (List.nil_sublist _)) (.refl _)
  | object list => exact .refl _
  | enum literals => exact .refl _
  | mixin list => exact .refl _

theorem flatMap_sharedNames_sublist (doc : Document) :
    (doc.entities.entries.flatMap sharedNames).Sublist (declaredNames doc) := by
  have entities : (doc.entities.entries.flatMap sharedNames).Sublist
      (doc.entities.entries.flatMap entityNames) :=
    List.Sublist.flatMap_right _ fun entry _ => sharedNames_sublist entry
  unfold declaredNames
  exact (entities.trans (List.sublist_append_right _ _)).trans (List.sublist_append_left _ _)

/-- A part of a list without repetition is what is left when only its members are kept. -/
theorem filter_eq_of_sublist {whole part : List String} {keep : String → Bool}
    (distinct : whole.Nodup) (sub : part.Sublist whole)
    (kept : ∀ name ∈ whole, keep name ↔ name ∈ part) : whole.filter keep = part := by
  have all : part.filter keep = part :=
    List.filter_eq_self.mpr fun name mem => (kept name (sub.subset mem)).mpr mem
  have inside : whole.filter keep ⊆ part := by
    intro name mem
    obtain ⟨mem, h⟩ := List.mem_filter.mp mem
    exact (kept name mem).mp h
  have filtered : part.Sublist (whole.filter keep) := by
    rw [← all]
    exact sub.filter keep
  have short := (List.subperm_of_subset (distinct.filter keep) inside).length_le
  exact (filtered.eq_of_length_le short).symm

/-- Two registrations with one name are not both own members. -/
theorem inherited_of_same_name {news earlier later : List Registration} {new old : Registration}
    (distinct : ((news.filter fun new => !new.origin.isInherited).map Registration.name).Nodup)
    (split : news = earlier ++ new :: later) (mem : old ∈ earlier) (same : old.name = new.name) :
    old.origin.isInherited ∨ new.origin.isInherited := by
  by_contra own
  simp only [not_or, Bool.not_eq_true] at own
  have kept : (news.filter fun new => !new.origin.isInherited) =
      (earlier.filter fun new => !new.origin.isInherited) ++
        new :: later.filter fun new => !new.origin.isInherited := by
    simp [split, own.2]
  rw [kept, List.map_append, List.map_cons, List.nodup_append] at distinct
  have here : old ∈ earlier.filter fun new => !new.origin.isInherited := by
    simp [mem, own.1]
  exact distinct.2.2 _ (List.mem_map_of_mem here) _ (by simp) same

/-! ## Aliases -/

theorem declaredValidator_ne_named {location : Location} {declared : Option (List Property)}
    {validator : Validator} (h : declaredValidator doc location declared = .ok validator)
    (target : String) : validator ≠ .named target := by
  cases declared with
  | none =>
    cases h
    simp
  | some list =>
    obtain ⟨fields, -, rfl⟩ := map_eq_ok_iff.mp h
    simp [objectValidator]

/-- What is taken over from a parent is what stands for another entry. -/
theorem isInherited_iff_named {new : Registration} (h : Registers doc new) :
    new.origin.isInherited ↔ ∃ target, new.validator = .named target := by
  cases h with
  | inherited => exact iff_of_true rfl ⟨_, rfl⟩
  | event _ _ made | parameters _ _ made | result _ _ made =>
    refine iff_of_false Bool.false_ne_true ?_
    rintro ⟨target, named⟩
    exact declaredValidator_ne_named made target named
  | initializer | object | enum =>
    refine iff_of_false Bool.false_ne_true ?_
    rintro ⟨target, named⟩
    cases named

theorem mem_inheritedNames_of_registers {new : Registration} (h : Registers doc new)
    (inherited : new.origin.isInherited) :
    new.name ∈ doc.entities.entries.flatMap (inheritedNames doc) := by
  cases h with
  | @inherited name parent command channel definition found hp hd mem missing =>
    refine List.mem_flatMap.mpr ⟨_, mem_entries_of_channel? found, ?_⟩
    have absent : channel.commands.contains command = false := by
      rw [← Bool.not_eq_true, Table.contains_iff]
      exact missing
    simp only [inheritedNames, hp, Option.bind_some, hd, List.mem_map, List.mem_filter]
    exact ⟨command, ⟨mem, by simp [absent]⟩, rfl⟩
  | initializer | event | parameters | result | object | enum => cases inherited

/-! ## Own members -/

theorem resolveDeclared_of_declaredValidator {location : Location}
    {declared : Option (List Property)} {validator : Validator}
    (h : declaredValidator doc location declared = .ok validator) :
    Succeeds (resolveDeclared doc location declared) ∧
      Succeeds (resultTy doc location declared) := by
  cases declared with
  | none => exact ⟨succeeds_ok _, succeeds_ok _⟩
  | some list =>
    obtain ⟨fields, resolved, -⟩ := map_eq_ok_iff.mp h
    exact ⟨⟨fields, resolved⟩, succeeds_map_iff.mpr ⟨fields, resolved⟩⟩

/-- What a document registers of its own, it declares as a synonym, for the same reason. -/
theorem declares_of_registers {new : Registration} (h : Registers doc new)
    (own : new.origin.isInherited = false) :
    ∃ ty, Declares doc (synonym new.name ty new.origin) := by
  cases h with
  | initializer found resolved => exact ⟨_, .initializer found resolved⟩
  | event found he made =>
    obtain ⟨⟨fields, resolved⟩, -⟩ := resolveDeclared_of_declaredValidator made
    exact ⟨_, .event found he resolved⟩
  | parameters found hc made =>
    obtain ⟨⟨fields, resolved⟩, -⟩ := resolveDeclared_of_declaredValidator made
    exact ⟨_, .parameters found hc resolved⟩
  | result found hc made =>
    obtain ⟨-, ty, resolved⟩ := resolveDeclared_of_declaredValidator made
    exact ⟨ty, .result found hc resolved⟩
  | object found resolved => exact ⟨_, .object found resolved⟩
  | enum found => exact ⟨_, .enum found⟩
  | inherited => cases own

variable {registry : Registry}

theorem ownNames_documentRegistry
    (registered : documentRegistry doc ⟨doc.parentLinks⟩ = .ok registry) :
    registry.ownNames = doc.entities.entries.flatMap sharedNames := by
  obtain ⟨news, steps, -, same⟩ := Registry.registerAll_eq_ok_iff.mp registered
  have entries : registry.entries = news.map Registration.entry := same
  rw [← (registrations_names steps).2, Registry.ownNames, entries, List.filter_map, List.map_map]
  rfl

theorem contains_documentRegistry_iff
    (registered : documentRegistry doc ⟨doc.parentLinks⟩ = .ok registry) {name : String} :
    registry.contains name ↔ name ∈ doc.entities.entries.flatMap sharedNames ∨
      name ∈ doc.entities.entries.flatMap (inheritedNames doc) := by
  obtain ⟨news, steps, -, same⟩ := Registry.registerAll_eq_ok_iff.mp registered
  have names : registry.table.names = news.map Registration.name := by
    have entries : registry.table.entries = news.map Registration.entry := same
    rw [Table.names, entries, List.map_map]
    rfl
  rw [Registry.contains, Table.contains_iff, names, (registrations_names steps).1,
    ← (List.flatMap_append_perm doc.entities.entries sharedNames (inheritedNames doc)).mem_iff,
    List.mem_append]

/-- A name that a channel takes over is none of the declarations, if both files are made. -/
theorem not_mem_declaredNames_of_inherited
    (distinct : (declaredNames doc).Nodup)
    (registered : documentRegistry doc ⟨doc.parentLinks⟩ = .ok registry) {name : String}
    (mem : name ∈ doc.entities.entries.flatMap (inheritedNames doc)) :
    name ∉ declaredNames doc := by
  intro declared
  rw [(declaredNames_perm doc).nodup_iff] at distinct
  have all := (nodup_derivedNames_iff doc).mpr
    ⟨distinct, (succeeds_documentRegistry_iff.mp ⟨registry, registered⟩).2⟩
  have apart := (List.nodup_append.mp all).2.2
  exact apart name ((declaredNames_perm doc).mem_iff.mp declared) name mem rfl

/-- Where the declarations are made, only names that are taken over can be in the way of the
registry. -/
theorem inherited_of_documentRegistry_error {schemaName : String} {file : Module}
    {stop : Stop Error} (built : declarationsModule doc ⟨doc.parentLinks⟩ schemaName = .ok file)
    (failed : documentRegistry doc ⟨doc.parentLinks⟩ = .error stop) :
    ∃ name first second, stop = .fails (.nameCollision name first second) ∧
      (first.isInherited ∨ second.isInherited) := by
  obtain ⟨news, steps⟩ := registrations_of_declarationsModule built
  unfold documentRegistry at failed
  rw [steps] at failed
  obtain ⟨earlier, new, later, old, split, mem, same, rfl⟩ :=
    Registry.collision_of_registerAll failed
  -- The registry is empty at the start, so the other one is an earlier registration.
  obtain ⟨first, before, rfl⟩ : ∃ first ∈ earlier, first.entry = old := by
    simpa [Registry.empty, Registry.entries, Table.empty] using mem
  have distinct : (declaredNames doc).Nodup :=
    names_declarationsModule built ▸ (definitions_declarationsModule built).1
  have shared := distinct.sublist (flatMap_sharedNames_sublist doc)
  rw [← (registrations_names steps).2] at shared
  exact ⟨_, _, _, rfl, inherited_of_same_name shared split before same⟩

/-- The declared names that a registry knows are its own, in order. -/
theorem filter_contains_declaredNames (distinct : (declaredNames doc).Nodup)
    (registered : documentRegistry doc ⟨doc.parentLinks⟩ = .ok registry) :
    (declaredNames doc).filter registry.contains = registry.ownNames := by
  rw [ownNames_documentRegistry registered]
  refine filter_eq_of_sublist distinct (flatMap_sharedNames_sublist doc) fun name declared => ?_
  rw [contains_documentRegistry_iff registered]
  refine ⟨fun h => h.resolve_right fun inherited => ?_, .inl⟩
  exact not_mem_declaredNames_of_inherited distinct registered inherited declared

/-! ## The two files -/

/-- Where the declarations of a document are made, its registry is made too, unless a name that a
channel takes over meets another one. The own entries of the registry are the initializers, events,
parameters and results of the channels and the objects and enums, in this order, and they are
those synonyms of the declarations. No name that is taken over is declared. -/
theorem registry_agrees_with_declarations {lineage : Lineage} {schemaName : String} {file : Module}
    (ancestry : Lineage.ofDocument doc = .ok lineage)
    (built : declarationsModule doc lineage schemaName = .ok file) :
    (Succeeds (documentRegistry doc lineage) ∨
      ∃ name first second,
        documentRegistry doc lineage = .error (.fails (.nameCollision name first second)) ∧
          (first.isInherited ∨ second.isInherited)) ∧
    ∀ registry, documentRegistry doc lineage = .ok registry →
      registry.ownNames = doc.entities.entries.flatMap sharedNames ∧
      registry.ownNames = (file.definitions.map Definition.name).filter registry.contains ∧
      (∀ name ∈ registry.ownNames,
        ∃ ty, file.definition? name = some { name, body := .synonym ty }) ∧
      ∀ entry ∈ registry.entries,
        (entry.2.origin.isInherited ↔ ∃ target, entry.2.validator = .named target) ∧
        (entry.2.origin.isInherited → entry.1 ∉ file.definitions.map Definition.name) := by
  obtain ⟨-, -, rfl⟩ := Lineage.ofDocument_eq_ok_iff.mp ancestry
  obtain ⟨defined, members⟩ := definitions_declarationsModule built
  have names := names_declarationsModule built
  have distinct : (declaredNames doc).Nodup := names ▸ defined
  constructor
  · cases outcome : documentRegistry doc ⟨doc.parentLinks⟩ with
    | ok registry => exact .inl (succeeds_ok registry)
    | error stop =>
      obtain ⟨name, first, second, rfl, inherited⟩ :=
        inherited_of_documentRegistry_error built outcome
      exact .inr ⟨name, first, second, rfl, inherited⟩
  · intro registry registered
    refine ⟨ownNames_documentRegistry registered, ?_, fun name mem => ?_,
      fun entry mem => ⟨?_, fun inherited => ?_⟩⟩
    · rw [names, filter_contains_declaredNames distinct registered]
    · obtain ⟨entry, kept, rfl⟩ := List.mem_map.mp mem
      obtain ⟨listed, origin⟩ := List.mem_filter.mp kept
      have registers := (mem_documentRegistry_iff registered).mp listed
      obtain ⟨ty, declares⟩ := declares_of_registers registers (by simpa using origin)
      exact ⟨ty, (Module.definition?_eq_some_iff defined).mpr
        ⟨(members _).mpr ⟨_, declares⟩, rfl⟩⟩
    · exact isInherited_iff_named ((mem_documentRegistry_iff registered).mp mem)
    · rw [names]
      have registers := (mem_documentRegistry_iff registered).mp mem
      exact not_mem_declaredNames_of_inherited distinct registered
        (mem_inheritedNames_of_registers registers inherited)

/-- An object has the name for the parameters that a page takes over from a node. -/
def clashDocument : Document where
  entities := {
    entries := [
      ("Node", .channel {
        parent := none
        initializer := []
        commands := { entries := [("click", {})], distinct := by decide }
        events := .empty }),
      ("Page", .channel {
        parent := some "Node"
        initializer := []
        commands := .empty
        events := .empty }),
      ("PageClickParams", .object [])]
    distinct := by decide }

theorem clashDocument_lineage : Succeeds (Lineage.ofDocument clashDocument) := by
  have only (child parent : String) (h : clashDocument.Extends child parent) :
      child = "Page" ∧ parent = "Node" := by
    obtain ⟨channel, found, extended⟩ := h
    have mem := mem_entries_of_channel? found
    simp only [clashDocument, List.mem_cons, List.not_mem_nil, or_false, Prod.mk.injEq,
      Entity.channel.injEq, reduceCtorEq, and_false] at mem
    rcases mem with ⟨rfl, rfl⟩ | ⟨rfl, rfl⟩
    · cases extended
    · cases extended
      exact ⟨rfl, rfl⟩
  exact succeeds_lineage_of_single only rfl (by decide)

theorem clashDocument_declared (schemaName : String) :
    Succeeds (declarationsModule clashDocument ⟨clashDocument.parentLinks⟩ schemaName) := by
  have finite (mixin : String) : ¬ clashDocument.Endless mixin := by
    rintro ⟨held, _, _, _, found, -⟩
    have mem := (Table.get?_eq_some_iff ..).mp (Document.mixin?_eq_some_iff.mp found)
    simp [clashDocument] at mem
  have nothing : clashDocument.Sound [] := Document.sound_nil clashDocument
  refine succeeds_declarationsModule_iff.mpr ⟨?_, by decide +kernel⟩
  simp only [documentSteps, List.forall_mem_append, List.forall_mem_map, succeeds_ok,
    List.forall_mem_flatMap, forall_entitySteps_succeeds_iff finite, implies_true, true_and,
    and_true]
  intro entry mem
  simp only [clashDocument, List.mem_cons, List.not_mem_nil, or_false] at mem
  rcases mem with rfl | rfl | rfl <;> simp [EntitySound, SoundIfDeclared, Table.empty, nothing]

theorem registries_of_page_and_clash :
    (∃ lineage file registry, Lineage.ofDocument pageDocument = .ok lineage ∧
      declarationsModule pageDocument lineage "protocol.yml" = .ok file ∧
      documentRegistry pageDocument lineage = .ok registry ∧
      registry.ownNames = ["Button", "Point", "NodeInitializer", "NodeMovedEvent",
        "NodeClickParams", "NodeClickResult", "PageInitializer", "PageCloseParams",
        "PageCloseResult"] ∧
      registry.ownNames = (file.definitions.map Definition.name).filter registry.contains) ∧
    ∃ lineage file, Lineage.ofDocument clashDocument = .ok lineage ∧
      declarationsModule clashDocument lineage "protocol.yml" = .ok file ∧
      ∃ name first second,
        documentRegistry clashDocument lineage =
            .error (.fails (.nameCollision name first second)) ∧
          (first.isInherited ∨ second.isInherited) := by
  constructor
  · obtain ⟨lineage, ancestry⟩ := pageDocument_lineage
    obtain ⟨compiled, built⟩ := pageDocument_compiles
    obtain ⟨-, -, rfl⟩ := Lineage.ofDocument_eq_ok_iff.mp ancestry
    obtain ⟨declared, registered⟩ := files_of_ofDocument built
    obtain ⟨own, shared, -⟩ :=
      (registry_agrees_with_declarations ancestry declared).2 _ registered
    exact ⟨_, _, _, ancestry, declared, registered, own.trans (by decide +kernel), shared⟩
  · obtain ⟨lineage, ancestry⟩ := clashDocument_lineage
    obtain ⟨-, -, rfl⟩ := Lineage.ofDocument_eq_ok_iff.mp ancestry
    obtain ⟨file, declared⟩ := clashDocument_declared "protocol.yml"
    refine ⟨_, _, ancestry, declared, ?_⟩
    have twice : ¬ (clashDocument.entities.entries.flatMap fun entry =>
        sharedNames entry ++ inheritedNames clashDocument entry).Nodup := by decide +kernel
    refine (registry_agrees_with_declarations ancestry declared).1.resolve_left fun made => ?_
    exact twice (succeeds_documentRegistry_iff.mp made).2

/-! ## Documents that are never compiled -/

theorem endless_mem_of_assemble {known : Table Origin} {steps : List (Except (Stop Error) Step)}
    (h : assemble known steps = .error .endless) : .error .endless ∈ steps := by
  induction steps generalizing known with
  | nil => cases h
  | cons step rest ih =>
    rcases step with stop | new | item
    · cases h
      exact List.mem_cons_self
    · rw [assemble] at h
      split at h
      · cases h
      · exact List.mem_cons_of_mem _ (ih (map_eq_error_iff.mp h))
    · exact List.mem_cons_of_mem _ (ih (map_eq_error_iff.mp h))

theorem endless_mem_of_after {α : Type} {others : List (Except (Stop Error) α)} {step : Step}
    (h : after others step = .error .endless) : .error .endless ∈ others := by
  rcases bind_eq_error_iff.mp h with h | ⟨values, -, h⟩
  · obtain ⟨before, input, later, rfl, -, h⟩ := mapM_eq_error_iff.mp h
    simp [show input = .error .endless from h]
  · cases h

theorem eq_of_endless_mem_declareAll {outcome : Except (Stop Error) (List Declaration)}
    (h : .error .endless ∈ declareAll outcome) : outcome = .error .endless := by
  cases outcome with
  | error stop => simpa [declareAll, eq_comm] using h
  | ok news => simp [declareAll] at h

/-- The resolution of a declared list of the document has no end. -/
def HasEndless (doc : Document) : Prop :=
  ∃ name location list, doc.Surface name location list ∧ doc.resolve location list = .error .endless

theorem exists_of_resolveDeclared {location : Location} {declared : Option (List Property)}
    (h : resolveDeclared doc location declared = .error .endless) :
    ∃ list, declared = some list ∧ doc.resolve location list = .error .endless := by
  cases declared with
  | none => cases h
  | some list => exact ⟨list, rfl, h⟩

theorem exists_of_resultTy {location : Location} {declared : Option (List Property)}
    (h : resultTy doc location declared = .error .endless) :
    ∃ list, declared = some list ∧ doc.resolve location list = .error .endless := by
  cases declared with
  | none => cases h
  | some list => exact ⟨list, rfl, map_eq_error_iff.mp h⟩

theorem hasEndless_of_eventDeclarations {name event : String} {channel : Channel} {body : Event}
    (found : doc.channel? name = some channel) (he : (event, body) ∈ channel.events.entries)
    (h : eventDeclarations doc name (event, body) = .error .endless) : HasEndless doc := by
  rcases bind_eq_error_iff.mp h with h | ⟨fields, -, h⟩
  · obtain ⟨list, declared, endless⟩ := exists_of_resolveDeclared h
    exact ⟨_, _, list, .event found he declared, endless⟩
  · cases h

theorem hasEndless_of_commandDeclarations {name command : String} {channel : Channel}
    {body : Command} (found : doc.channel? name = some channel)
    (hc : (command, body) ∈ channel.commands.entries)
    (h : commandDeclarations doc name (command, body) = .error .endless) : HasEndless doc := by
  rcases bind_eq_error_iff.mp h with h | ⟨fields, -, h⟩
  · obtain ⟨list, declared, endless⟩ := exists_of_resolveDeclared h
    exact ⟨_, _, list, .parameters found hc declared, endless⟩
  · rcases bind_eq_error_iff.mp h with h | ⟨result, -, h⟩
    · obtain ⟨list, declared, endless⟩ := exists_of_resultTy h
      exact ⟨_, _, list, .returns found hc declared, endless⟩
    · cases h

theorem hasEndless_of_channelSteps {lineage : Lineage} {name : String} {channel : Channel}
    (found : doc.channel? name = some channel)
    (h : .error .endless ∈ channelSteps doc lineage name channel) : HasEndless doc := by
  have event (h : .error .endless ∈ channel.events.entries.map (eventDeclarations doc name)) :
      HasEndless doc := by
    obtain ⟨entry, he, h⟩ := List.mem_map.mp h
    exact hasEndless_of_eventDeclarations found he h
  have command (h : .error .endless ∈ channel.commands.entries.map (commandDeclarations doc name)) :
      HasEndless doc := by
    obtain ⟨entry, hc, h⟩ := List.mem_map.mp h
    exact hasEndless_of_commandDeclarations found hc h
  simp only [channelSteps, List.mem_append, List.mem_cons, List.not_mem_nil, or_false,
    List.mem_flatMap, reduceCtorEq, false_or] at h
  rcases h with (((h | h | h) | ⟨outcome, mem, h⟩) | ⟨outcome, mem, h⟩)
  · rcases bind_eq_error_iff.mp (map_eq_error_iff.mp h.symm) with h | ⟨fields, -, h⟩
    · exact ⟨_, _, _, .initializer found, h⟩
    · cases h
  · exact event (endless_mem_of_after h.symm)
  · exact command (endless_mem_of_after h.symm)
  · exact event (eq_of_endless_mem_declareAll h ▸ mem)
  · exact command (eq_of_endless_mem_declareAll h ▸ mem)

theorem hasEndless_of_entitySteps {lineage : Lineage} {entry : String × Entity}
    (listed : entry ∈ doc.entities.entries) (h : .error .endless ∈ entitySteps doc lineage entry) :
    HasEndless doc := by
  obtain ⟨name, entity⟩ := entry
  have found : doc.get? name = some entity := (Table.get?_eq_some_iff ..).mpr listed
  cases entity with
  | channel channel =>
    exact hasEndless_of_channelSteps (Document.channel?_eq_some_iff.mpr found) h
  | object list =>
    simp only [entitySteps, List.mem_cons, List.not_mem_nil, or_false, reduceCtorEq, false_or] at h
    exact ⟨_, _, list, .object found, map_eq_error_iff.mp h.symm⟩
  | enum literals => simp [entitySteps] at h
  | mixin list => simp [entitySteps] at h

/-- Only a list whose resolution has no end keeps a document from being compiled or refused. -/
theorem hasEndless_of_ofDocument {schemaName : String}
    (h : ofDocument doc schemaName = .error .endless) : HasEndless doc := by
  rcases bind_eq_error_iff.mp h with h | ⟨lineage, ancestry, h⟩
  · obtain ⟨error, -, h⟩ := mapError_eq_error_iff.mp h
    cases h
  obtain ⟨-, -, rfl⟩ := Lineage.ofDocument_eq_ok_iff.mp (mapError_eq_ok_iff.mp ancestry)
  rcases bind_eq_error_iff.mp h with h | ⟨file, declared, h⟩
  · rcases bind_eq_error_iff.mp h with h | ⟨items, -, h⟩
    · have mem := endless_mem_of_assemble h
      simp only [documentSteps, List.mem_append, List.mem_map, List.mem_flatMap, reduceCtorEq,
        and_false, exists_false, false_or, or_false] at mem
      obtain ⟨entry, listed, mem⟩ := mem
      exact hasEndless_of_entitySteps listed mem
    · cases h
  · rcases bind_eq_error_iff.mp h with h | ⟨registry, -, h⟩
    · obtain ⟨name, first, second, h, -⟩ := inherited_of_documentRegistry_error declared h
      cases h
    · cases h

end Compiled

end ChannelProtocol
