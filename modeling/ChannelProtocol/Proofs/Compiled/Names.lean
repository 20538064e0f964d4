-- The names that are derived from a document. The declarations and the
-- registry know some names in common, and each knows some of its own. A name
-- of the one kind never meets a name of the other, so both files are free of
-- collisions exactly if all derived names together are different.
import ChannelProtocol.Proofs.Compiled.Declarations
import ChannelProtocol.Proofs.Compiled.Registrations
import Mathlib.Data.List.Perm.Basic

namespace ChannelProtocol.Schema

/-! ## The names -/

def entityNames : String × Entity → List String
  | (name, .channel channel) =>
    [initializerName name, eventTargetName name, eventsName name, channelTypeName name]
      ++ channel.events.names.map (eventName name)
      ++ channel.commands.names.flatMap fun command =>
        [paramsName name command, optionsName name command, resultName name command]
  | (name, .object _) | (name, .enum _) => [name]
  | (_, .mixin _) => []

/-- The names for the commands that a channel takes over from its parent. -/
def inheritedNames (doc : Document) : String × Entity → List String
  | (name, .channel channel) =>
    match channel.parent.bind doc.channel? with
    | some parent =>
      (parent.commands.names.filter fun command => !channel.commands.contains command).map
        (paramsName name)
    | none => []
  | _ => []

/-- The names that every declarations file has. -/
def fixedNames : List String :=
  ["Binary", "Channel", "InitializerTraits", "EventsTraits", "EventTargetTraits"]

def projectionNames : List String := ["InitializerTraits", "EventsTraits", "EventTargetTraits"]

/-- The names of a document's types, in the order of the declarations. -/
def declaredNames (doc : Document) : List String :=
  ["Binary", "Channel"] ++ doc.entities.entries.flatMap entityNames ++ projectionNames

def derivedNames (doc : Document) : List String :=
  fixedNames ++ doc.entities.entries.flatMap entityNames
    ++ doc.entities.entries.flatMap (inheritedNames doc)

/-- The names that the declarations and the registry have in common. -/
def sharedNames : String × Entity → List String
  | (name, .channel channel) =>
    initializerName name :: channel.events.names.map (eventName name)
      ++ channel.commands.names.flatMap fun command =>
        [paramsName name command, resultName name command]
  | (name, .object _) | (name, .enum _) => [name]
  | (_, .mixin _) => []

/-- The names of an entity that only the declarations have. -/
def staticNames : String × Entity → List String
  | (name, .channel channel) =>
    [eventTargetName name, eventsName name, channelTypeName name]
      ++ channel.commands.names.map (optionsName name)
  | _ => []

/-- Whether a name comes from a command that a channel takes over from its parent. -/
def Origin.isInherited : Origin → Bool
  | .inherited .. => true
  | _ => false

/-! ## How names end -/

/-- The last six characters of a name, from its end. -/
def ending (name : String) : List Char := name.toList.reverse.take 6

theorem ending_append (base suffix : String) (h : 6 ≤ suffix.toList.length) :
    ending (base ++ suffix) = ending suffix := by
  unfold ending
  rw [String.toList_append, List.reverse_append, List.take_append_of_le_length (by simpa using h)]

theorem ending_inheritedNames {doc : Document} {entry : String × Entity} {name : String}
    (h : name ∈ inheritedNames doc entry) : ending name = ending "Params" := by
  obtain ⟨owner, entity⟩ := entry
  cases entity with
  | channel channel =>
    simp only [inheritedNames] at h
    split at h
    · obtain ⟨command, -, rfl⟩ := List.mem_map.mp h
      exact ending_append _ _ (by decide)
    · simp at h
  | _ => simp [inheritedNames] at h

theorem ending_staticNames {entry : String × Entity} {name : String}
    (h : name ∈ staticNames entry) : ending name ≠ ending "Params" := by
  obtain ⟨owner, entity⟩ := entry
  cases entity with
  | channel channel =>
    simp only [staticNames, List.mem_append, List.mem_cons, List.not_mem_nil, or_false,
      List.mem_map] at h
    rcases h with (rfl | rfl | rfl) | ⟨command, -, rfl⟩
    · rw [eventTargetName, ending_append _ _ (by decide)]
      decide
    · rw [eventsName, ending_append _ _ (by decide)]
      decide
    · rw [channelTypeName, ending_append _ _ (by decide)]
      decide
    · rw [optionsName, ending_append _ _ (by decide)]
      decide
  | _ => simp [staticNames] at h

theorem ending_fixedNames {name : String} (h : name ∈ fixedNames) :
    ending name ≠ ending "Params" := by
  revert name
  decide

/-! ## Two files, one space of names -/

theorem commandNames_perm (name : String) (commands : List String) :
    (commands.flatMap fun command =>
      [paramsName name command, optionsName name command, resultName name command]).Perm
      ((commands.flatMap fun command => [paramsName name command, resultName name command])
        ++ commands.map (optionsName name)) := by
  rw [List.map_eq_flatMap]
  refine List.Perm.trans ?_ (List.flatMap_append_perm ..).symm
  exact List.Perm.flatMap_left _ fun command _ => .cons _ (.swap ..)

theorem entityNames_perm (entry : String × Entity) :
    (entityNames entry).Perm (sharedNames entry ++ staticNames entry) := by
  obtain ⟨name, entity⟩ := entry
  cases entity with
  | channel channel =>
    refine List.perm_iff_count.mpr fun other => ?_
    have commands := (commandNames_perm name channel.commands.names).count_eq other
    simp only [entityNames, sharedNames, staticNames, List.count_append, List.count_cons,
      List.count_nil] at commands ⊢
    omega
  | object list => simp [entityNames, sharedNames, staticNames]
  | enum literals => simp [entityNames, sharedNames, staticNames]
  | mixin list => simp [entityNames, sharedNames, staticNames]

theorem declaredNames_perm (doc : Document) :
    (declaredNames doc).Perm (fixedNames ++ doc.entities.entries.flatMap entityNames) := by
  refine List.perm_iff_count.mpr fun name => ?_
  simp only [declaredNames, projectionNames, fixedNames, List.count_append, List.count_cons,
    List.count_nil]
  omega

theorem flatMap_entityNames_perm (entries : List (String × Entity)) :
    (entries.flatMap entityNames).Perm
      (entries.flatMap sharedNames ++ entries.flatMap staticNames) :=
  (List.Perm.flatMap_left _ fun entry _ => entityNames_perm entry).trans
    (List.flatMap_append_perm ..).symm

/-- All derived names are different exactly if those of the declarations are and those of the
registry are. -/
theorem nodup_derivedNames_iff (doc : Document) :
    (derivedNames doc).Nodup ↔
      (fixedNames ++ doc.entities.entries.flatMap entityNames).Nodup ∧
        (doc.entities.entries.flatMap fun entry =>
          sharedNames entry ++ inheritedNames doc entry).Nodup := by
  have perm := flatMap_entityNames_perm doc.entities.entries
  rw [← (List.flatMap_append_perm doc.entities.entries sharedNames (inheritedNames doc)).nodup_iff]
  unfold derivedNames
  constructor
  · intro h
    obtain ⟨declared, inherited, apart⟩ := List.nodup_append.mp h
    have shared : (doc.entities.entries.flatMap sharedNames).Nodup := by
      have all := perm.nodup_iff.mp (List.nodup_append.mp declared).2.1
      exact (List.nodup_append.mp all).1
    refine ⟨declared, List.nodup_append.mpr ⟨shared, inherited, fun a ha b hb => ?_⟩⟩
    refine apart a (List.mem_append_right _ ?_) b hb
    exact perm.mem_iff.mpr (List.mem_append_left _ ha)
  · rintro ⟨declared, registered⟩
    obtain ⟨-, inherited, apart⟩ := List.nodup_append.mp registered
    refine List.nodup_append.mpr ⟨declared, inherited, fun a ha b hb => ?_⟩
    obtain ⟨entry, -, hi⟩ := List.mem_flatMap.mp hb
    -- A name that only the declarations have ends in another way than an inherited one.
    have other (h : ending a ≠ ending "Params") : a ≠ b := by
      rintro rfl
      exact h (ending_inheritedNames hi)
    rcases List.mem_append.mp ha with ha | ha
    · exact other (ending_fixedNames ha)
    · rcases List.mem_append.mp (perm.mem_iff.mp ha) with ha | ha
      · exact apart a ha b hb
      · obtain ⟨_, -, hs⟩ := List.mem_flatMap.mp ha
        exact other (ending_staticNames hs)

end ChannelProtocol.Schema

namespace ChannelProtocol.Compiled

open Schema TypeScript

theorem mem_projectionNames_iff {title : String} :
    title ∈ projectionNames ↔ ∃ typeName fallback, Projection title typeName fallback := by
  simp only [projectionNames, List.mem_cons, List.not_mem_nil, or_false]
  constructor
  · rintro (rfl | rfl | rfl)
    · exact ⟨_, _, .initializer⟩
    · exact ⟨_, _, .events⟩
    · exact ⟨_, _, .eventTarget⟩
  · rintro ⟨_, _, rule⟩
    cases rule with
    | initializer => exact .inl rfl
    | events => exact .inr (.inl rfl)
    | eventTarget => exact .inr (.inr rfl)

/-! ## The names of steps and registrations -/

/-- The name that a step declares once it succeeds. -/
def declaredName? : Except (Stop Error) Step → Option String
  | .ok step => step.name?
  | .error _ => none

@[simp]
theorem declaredName?_ok (step : Step) : declaredName? (.ok step) = step.name? := rfl

/-- The name under which something is registered once that succeeds. -/
def registeredName? : Except (Stop Error) Registration → Option String
  | .ok new => some new.name
  | .error _ => none

/-- The same, unless the name is taken over from a parent. -/
def ownName? : Except (Stop Error) Registration → Option String
  | .ok new => if new.origin.isInherited then none else some new.name
  | .error _ => none

theorem filterMap_registeredName?_ok (news : List Registration) :
    (news.map .ok).filterMap registeredName? = news.map Registration.name := by
  rw [List.filterMap_map, ← List.filterMap_eq_map]
  rfl

theorem filterMap_ownName?_ok (news : List Registration) :
    (news.map .ok).filterMap ownName? =
      (news.filter fun new => !new.origin.isInherited).map Registration.name := by
  induction news with
  | nil => rfl
  | cons new rest ih =>
    by_cases h : new.origin.isInherited <;> simp [ownName?, h, ih]

theorem filterMap_declareAll {outcome : Except (Stop Error) (List Declaration)}
    {news : List Declaration}
    (h : outcome = .ok news) :
    (declareAll outcome).filterMap declaredName? = news.map (·.definition.name) := by
  subst h
  simp [declareAll, declaredName?, Step.name?, Function.comp_def]

theorem eventDeclarations_names {doc : Document} {name : String} {entry : String × Event}
    (h : Succeeds (eventDeclarations doc name entry)) :
    (declareAll (eventDeclarations doc name entry)).filterMap declaredName? =
      [eventName name entry.1] := by
  obtain ⟨news, h⟩ := h
  obtain ⟨fields, -, rfl⟩ := eventDeclarations_eq_ok_iff.mp h
  exact filterMap_declareAll h

theorem commandDeclarations_names {doc : Document} {name : String} {entry : String × Command}
    (h : Succeeds (commandDeclarations doc name entry)) :
    (declareAll (commandDeclarations doc name entry)).filterMap declaredName? =
      [paramsName name entry.1, optionsName name entry.1, resultName name entry.1] := by
  obtain ⟨news, h⟩ := h
  obtain ⟨fields, ty, -, -, rfl⟩ := commandDeclarations_eq_ok_iff.mp h
  exact filterMap_declareAll h

theorem after_name {α : Type} {others : List (Except (Stop Error) α)} {step : Step}
    (h : Succeeds (after others step)) : declaredName? (after others step) = step.name? := by
  obtain ⟨done, h⟩ := h
  rw [h, (after_eq_ok_iff.mp h).2]
  rfl

theorem channelSteps_names {doc : Document} {lineage : Lineage} {name : String} {channel : Channel}
    (ok : ∀ step ∈ channelSteps doc lineage name channel, Succeeds step) :
    (channelSteps doc lineage name channel).filterMap declaredName? =
      entityNames (name, .channel channel) := by
  simp only [channelSteps, List.cons_append, List.nil_append, List.forall_mem_cons,
    List.forall_mem_append, List.forall_mem_flatMap, List.forall_mem_map,
    forall_declareAll_succeeds_iff] at ok
  obtain ⟨-, -, initializer, target, -, self, events, commands⟩ := ok
  have first : declaredName? ((initializerDeclaration doc name channel).map .declare) =
      some (initializerName name) := by
    obtain ⟨_, h⟩ := initializer
    obtain ⟨_, h', rfl⟩ := map_eq_ok_iff.mp h
    obtain ⟨_, -, h'⟩ := bind_eq_ok_iff.mp h'
    cases h'
    rw [h]
    rfl
  have payloads : ((channel.events.entries.map (eventDeclarations doc name)).flatMap
      declareAll).filterMap declaredName? = channel.events.names.map (eventName name) := by
    rw [List.flatMap_map, List.filterMap_flatMap, Table.names, List.map_map, List.map_eq_flatMap]
    exact List.flatMap_congr fun entry mem => eventDeclarations_names (events entry mem)
  have members : ((channel.commands.entries.map (commandDeclarations doc name)).flatMap
      declareAll).filterMap declaredName? = channel.commands.names.flatMap fun command =>
        [paramsName name command, optionsName name command, resultName name command] := by
    rw [List.flatMap_map, List.filterMap_flatMap, Table.names, List.flatMap_map]
    exact List.flatMap_congr fun entry mem => commandDeclarations_names (commands entry mem)
  simp only [channelSteps, List.filterMap_append, payloads, members, List.filterMap_cons, first,
    after_name target, after_name self, declaredName?_ok, Step.name?, List.filterMap_nil]
  rfl

theorem entitySteps_names {doc : Document} {lineage : Lineage} {entry : String × Entity}
    (ok : ∀ step ∈ entitySteps doc lineage entry, Succeeds step) :
    (entitySteps doc lineage entry).filterMap declaredName? = entityNames entry := by
  obtain ⟨name, entity⟩ := entry
  cases entity with
  | channel channel => exact channelSteps_names ok
  | object list =>
    have resolved := ok _ (List.mem_cons_of_mem _ (List.mem_singleton.mpr rfl))
    obtain ⟨fields, h⟩ := succeeds_map_iff.mp resolved
    simp only [entitySteps, h]
    rfl
  | enum literals => rfl
  | mixin list => rfl

/-- The steps of a document declare the fixed names and those of its entities. -/
theorem documentSteps_names {doc : Document} {lineage : Lineage}
    (ok : ∀ step ∈ documentSteps doc lineage, Succeeds step) :
    (documentSteps doc lineage).filterMap declaredName? = declaredNames doc := by
  have entities : (doc.entities.entries.flatMap (entitySteps doc lineage)).filterMap
      declaredName? = doc.entities.entries.flatMap entityNames := by
    rw [List.filterMap_flatMap]
    refine List.flatMap_congr fun entry mem => entitySteps_names fun step h => ?_
    refine ok step ?_
    simp only [documentSteps, List.mem_append, List.mem_flatMap]
    exact .inl (.inl (.inr ⟨entry, mem, h⟩))
  have sets : ((Step.layout .blank :: tracedSets doc lineage).map .ok).filterMap
      declaredName? = [] := rfl
  simp only [documentSteps, List.filterMap_append, entities, sets, List.append_nil]
  rfl

theorem registerInherited_names {doc : Document} {name : String} {channel : Channel}
    (found : doc.channel? name = some channel) :
    (registerInherited doc ⟨doc.parentLinks⟩ name channel).map Registration.name =
      inheritedNames doc (name, .channel channel) := by
  unfold registerInherited inheritedNames
  dsimp only
  rw [parent?_of_channel? found]
  cases channel.parent with
  | none => rfl
  | some parent =>
    simp only [Option.bind_some]
    cases doc.channel? parent with
    | none => rfl
    | some definition => simp only [List.map_map, Function.comp_def]

theorem isInherited_registerInherited {doc : Document} {lineage : Lineage} {name : String}
    {channel : Channel} {new : Registration}
    (mem : new ∈ registerInherited doc lineage name channel) : new.origin.isInherited := by
  unfold registerInherited at mem
  split at mem
  · cases mem
  · split at mem
    · cases mem
    · obtain ⟨command, -, rfl⟩ := List.mem_map.mp mem
      rfl

theorem eventRegistrations_eq {doc : Document} {name : String} {entries : List (String × Event)}
    (ok : ∀ entry ∈ entries, Succeeds (registerEvent doc name entry)) :
    ∃ news : List Registration, entries.map (registerEvent doc name) = news.map .ok ∧
      news.map Registration.name = (entries.map Prod.fst).map (eventName name) ∧
      ∀ new ∈ news, new.origin.isInherited = false := by
  induction entries with
  | nil => exact ⟨[], rfl, rfl, by simp⟩
  | cons entry rest ih =>
    obtain ⟨⟨new, made⟩, later⟩ := List.forall_mem_cons.mp ok
    obtain ⟨news, same, names, own⟩ := ih later
    have first : new.name = eventName name entry.1 ∧ new.origin.isInherited = false := by
      obtain ⟨validator, -, h⟩ := bind_eq_ok_iff.mp made
      cases h
      exact ⟨rfl, rfl⟩
    exact ⟨new :: news, by simp [made, same], by simp [first.1, names],
      List.forall_mem_cons.mpr ⟨first.2, own⟩⟩

theorem commandRegistrations_eq {doc : Document} {name : String}
    {entries : List (String × Command)}
    (ok : ∀ entry ∈ entries, ∀ new ∈ registerCommand doc name entry, Succeeds new) :
    ∃ news : List Registration, entries.flatMap (registerCommand doc name) = news.map .ok ∧
      news.map Registration.name = ((entries.map Prod.fst).flatMap fun command =>
        [paramsName name command, resultName name command]) ∧
      ∀ new ∈ news, new.origin.isInherited = false := by
  induction entries with
  | nil => exact ⟨[], rfl, rfl, by simp⟩
  | cons entry rest ih =>
    obtain ⟨here, later⟩ := List.forall_mem_cons.mp ok
    obtain ⟨news, same, names, own⟩ := ih later
    simp only [registerCommand, List.forall_mem_cons, succeeds_map_iff] at here
    obtain ⟨⟨parameters, hp⟩, ⟨returns, hr⟩, -⟩ := here
    refine ⟨⟨paramsName name entry.1, parameters, .parameters name entry.1⟩
      :: ⟨resultName name entry.1, returns, .result name entry.1⟩ :: news, ?_, ?_, ?_⟩
    · simp [registerCommand, hp, hr, same, Except.map]
    · simp [names]
    · exact List.forall_mem_cons.mpr ⟨rfl, List.forall_mem_cons.mpr ⟨rfl, own⟩⟩

/-- A channel registers its own members, and then those that it takes over. -/
theorem channelRegistrations_eq {doc : Document} {lineage : Lineage} {name : String}
    {channel : Channel}
    (ok : ∀ new ∈ entityRegistrations doc lineage (name, .channel channel), Succeeds new) :
    ∃ own : List Registration,
      entityRegistrations doc lineage (name, .channel channel) =
        own.map .ok ++ (registerInherited doc lineage name channel).map .ok ∧
      own.map Registration.name = sharedNames (name, .channel channel) ∧
      ∀ new ∈ own, new.origin.isInherited = false := by
  simp only [entityRegistrations, List.cons_append, List.forall_mem_cons, List.forall_mem_append,
    List.forall_mem_map, List.forall_mem_flatMap] at ok
  obtain ⟨⟨first, initializer⟩, ⟨events, commands⟩, -⟩ := ok
  obtain ⟨payloads, hp, payloadNames, ownPayloads⟩ := eventRegistrations_eq events
  obtain ⟨members, hm, memberNames, ownMembers⟩ := commandRegistrations_eq commands
  have start : first.name = initializerName name ∧ first.origin.isInherited = false := by
    obtain ⟨fields, -, h⟩ := bind_eq_ok_iff.mp initializer
    cases h
    exact ⟨rfl, rfl⟩
  refine ⟨first :: payloads ++ members, ?_, ?_, ?_⟩
  · simp [entityRegistrations, initializer, hp, hm]
  · simp [sharedNames, start.1, payloadNames, memberNames, Table.names]
  · rw [List.cons_append, List.forall_mem_cons, List.forall_mem_append]
    exact ⟨start.2, ownPayloads, ownMembers⟩

/-- The registrations of an entity have its own names, and then those that it takes over. -/
theorem entityRegistrations_names {doc : Document} {entry : String × Entity}
    (mem : entry ∈ doc.entities.entries)
    (ok : ∀ new ∈ entityRegistrations doc ⟨doc.parentLinks⟩ entry, Succeeds new) :
    (entityRegistrations doc ⟨doc.parentLinks⟩ entry).filterMap registeredName? =
        sharedNames entry ++ inheritedNames doc entry ∧
      (entityRegistrations doc ⟨doc.parentLinks⟩ entry).filterMap ownName? =
        sharedNames entry := by
  obtain ⟨name, entity⟩ := entry
  cases entity with
  | channel channel =>
    have found := Document.channel?_eq_some_iff.mpr ((Table.get?_eq_some_iff ..).mpr mem)
    obtain ⟨own, same, names, origins⟩ := channelRegistrations_eq ok
    rw [same]
    have kept : own.filter (fun new => !new.origin.isInherited) = own :=
      List.filter_eq_self.mpr fun new h => by simp [origins new h]
    have dropped : (registerInherited doc ⟨doc.parentLinks⟩ name channel).filter
        (fun new => !new.origin.isInherited) = [] :=
      List.filter_eq_nil_iff.mpr fun new h => by simp [isInherited_registerInherited h]
    simp only [List.filterMap_append, filterMap_registeredName?_ok, filterMap_ownName?_ok, names,
      registerInherited_names found, kept, dropped, List.map_nil, List.append_nil, and_self]
  | object list =>
    obtain ⟨fields, h⟩ := succeeds_map_iff.mp (ok _ (List.mem_singleton.mpr rfl))
    simp only [entityRegistrations, h]
    exact ⟨rfl, rfl⟩
  | enum literals => exact ⟨rfl, rfl⟩
  | mixin list => exact ⟨rfl, rfl⟩

/-- The registrations of a document have the names of its entities, in order. -/
theorem registrations_names {doc : Document} {news : List Registration}
    (steps : doc.entities.entries.flatMap (entityRegistrations doc ⟨doc.parentLinks⟩) =
      news.map .ok) :
    news.map Registration.name = (doc.entities.entries.flatMap fun entry =>
        sharedNames entry ++ inheritedNames doc entry) ∧
      (news.filter fun new => !new.origin.isInherited).map Registration.name =
        doc.entities.entries.flatMap sharedNames := by
  have ok := exists_eq_map_ok_iff.mp ⟨news, steps⟩
  have each (entry : String × Entity) (mem : entry ∈ doc.entities.entries) :=
    entityRegistrations_names mem fun new h => ok new (List.mem_flatMap.mpr ⟨entry, mem, h⟩)
  constructor
  · rw [← filterMap_registeredName?_ok, ← steps, List.filterMap_flatMap]
    exact List.flatMap_congr fun entry mem => (each entry mem).1
  · rw [← filterMap_ownName?_ok, ← steps, List.filterMap_flatMap]
    exact List.flatMap_congr fun entry mem => (each entry mem).2

/-! ## When the two files are made -/

theorem filterMap_declaredName?_ok (done : List Step) :
    (done.map .ok).filterMap declaredName? = done.filterMap Step.name? := by
  rw [List.filterMap_map]
  rfl

theorem succeeds_declarationsModule_iff {doc : Document} {lineage : Lineage}
    {schemaName : String} :
    Succeeds (declarationsModule doc lineage schemaName) ↔
      (∀ step ∈ documentSteps doc lineage, Succeeds step) ∧
        (fixedNames ++ doc.entities.entries.flatMap entityNames).Nodup := by
  rw [← (declaredNames_perm doc).nodup_iff]
  unfold declarationsModule
  rw [succeeds_bind_iff]
  constructor
  · rintro ⟨items, h, -⟩
    obtain ⟨done, steps, distinct, -⟩ := assemble_eq_ok_iff.mp h
    have ok := exists_eq_map_ok_iff.mp ⟨done, steps⟩
    refine ⟨ok, ?_⟩
    rw [← documentSteps_names ok, steps, filterMap_declaredName?_ok]
    exact distinct
  · rintro ⟨ok, distinct⟩
    obtain ⟨done, steps⟩ := exists_eq_map_ok_iff.mpr ok
    rw [← documentSteps_names ok, steps, filterMap_declaredName?_ok] at distinct
    exact ⟨_, assemble_eq_ok_iff.mpr ⟨done, steps, distinct, rfl⟩, succeeds_ok _⟩

/-- The declarations file defines these names, in this order. -/
theorem names_declarationsModule {doc : Document} {lineage : Lineage} {schemaName : String}
    {file : Module} (built : declarationsModule doc lineage schemaName = .ok file) :
    file.definitions.map Definition.name = declaredNames doc := by
  have ok := (succeeds_declarationsModule_iff.mp ⟨file, built⟩).1
  obtain ⟨items, assembled, h⟩ := bind_eq_ok_iff.mp built
  cases h
  obtain ⟨done, steps, -, rfl⟩ := assemble_eq_ok_iff.mp assembled
  rw [← documentSteps_names ok, steps, filterMap_declaredName?_ok]
  refine (filterMap_definition?_item fun item mem => ?_).1
  have listed : .ok (.layout item) ∈ documentSteps doc lineage := by
    rw [steps]
    exact List.mem_map_of_mem mem
  exact definition?_of_layout_mem listed

theorem succeeds_documentRegistry_iff {doc : Document} :
    Succeeds (documentRegistry doc ⟨doc.parentLinks⟩) ↔
      (∀ new ∈ doc.entities.entries.flatMap (entityRegistrations doc ⟨doc.parentLinks⟩),
        Succeeds new) ∧
        (doc.entities.entries.flatMap fun entry =>
          sharedNames entry ++ inheritedNames doc entry).Nodup := by
  unfold documentRegistry
  constructor
  · rintro ⟨registry, h⟩
    obtain ⟨news, steps, distinct, -⟩ := Registry.registerAll_eq_ok_iff.mp h
    refine ⟨exists_eq_map_ok_iff.mp ⟨news, steps⟩, ?_⟩
    rw [← (registrations_names steps).1]
    exact distinct
  · rintro ⟨ok, distinct⟩
    obtain ⟨news, steps⟩ := exists_eq_map_ok_iff.mpr ok
    rw [← (registrations_names steps).1] at distinct
    refine ⟨⟨⟨news.map Registration.entry, ?_⟩⟩, ?_⟩
    · rw [List.map_map]
      exact distinct
    · exact Registry.registerAll_eq_ok_iff.mpr ⟨news, steps, distinct, rfl⟩

end ChannelProtocol.Compiled
