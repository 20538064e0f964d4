-- What the declarations file of a document holds: exactly its declarations,
-- under names of which no two are the same.
import ChannelProtocol.Compiled.Declarations
import ChannelProtocol.Proofs.Schema.Ancestry
import ChannelProtocol.Proofs.Schema.References

namespace ChannelProtocol

/-! ## The definitions of a file -/

namespace TypeScript

def Item.definition? : Item → Option Definition
  | .definition named => some named
  | _ => none

def Module.definitions (file : Module) : List Definition := file.items.filterMap Item.definition?

def Module.definition? (file : Module) (name : String) : Option Definition :=
  file.definitions.find? (·.name == name)

/-- Where no name is defined twice, a definition is found under its name. -/
theorem Module.definition?_eq_some_iff {file : Module}
    (distinct : (file.definitions.map Definition.name).Nodup) {name : String}
    {named : Definition} :
    file.definition? name = some named ↔ named ∈ file.definitions ∧ named.name = name := by
  unfold definition?
  generalize file.definitions = definitions at distinct
  induction definitions with
  | nil => simp
  | cons first rest ih =>
    rw [List.map_cons, List.nodup_cons] at distinct
    rw [List.find?_cons]
    by_cases h : first.name = name
    · simp only [h, beq_self_eq_true, Option.some.injEq, List.mem_cons]
      constructor
      · rintro rfl
        exact ⟨.inl rfl, h⟩
      · rintro ⟨rfl | mem, same⟩
        · rfl
        · rw [h, ← same] at distinct
          exact absurd (List.mem_map_of_mem mem) distinct.1
    · have h' : (first.name == name) = false := by simpa using h
      simp only [h', ih distinct.2, List.mem_cons]
      constructor
      · rintro ⟨mem, same⟩
        exact ⟨.inr mem, same⟩
      · rintro ⟨rfl | mem, same⟩
        · exact absurd same h
        · exact ⟨mem, same⟩

end TypeScript

namespace Compiled

open Schema TypeScript

/-! ## Assembling in turn -/

def Step.name? : Step → Option String
  | .declare new => some new.definition.name
  | .layout _ => none

theorem assemble_layout_cons {known : Table Origin} {item : Item}
    {rest : List (Except (Stop Error) Step)} {items : List Item} :
    assemble known (.ok (.layout item) :: rest) = .ok items ↔
      ∃ others, assemble known rest = .ok others ∧ items = item :: others := by
  rw [assemble, map_eq_ok_iff]
  simp only [eq_comm]

theorem assemble_declare_cons {known : Table Origin} {new : Declaration}
    {rest : List (Except (Stop Error) Step)} {items : List Item} :
    assemble known (.ok (.declare new) :: rest) = .ok items ↔
      new.definition.name ∉ known.names ∧
        ∃ others, assemble (known.insert new.definition.name new.origin) rest = .ok others ∧
          items = .definition new.definition :: others := by
  rw [assemble, ← Table.get?_eq_none_iff]
  split
  · rename_i old found
    simp [found]
  · rename_i missing
    rw [map_eq_ok_iff]
    simp only [missing, true_and, eq_comm]

/-- Steps in turn succeed exactly if none fails and all names are different. Each one writes its
item. -/
theorem assemble_eq_ok_iff {known : Table Origin} {steps : List (Except (Stop Error) Step)}
    {items : List Item} :
    assemble known steps = .ok items ↔
      ∃ done : List Step, steps = done.map .ok ∧
        (known.names ++ done.filterMap Step.name?).Nodup ∧ items = done.map Step.item := by
  induction steps generalizing known items with
  | nil =>
    simp only [assemble, Except.ok.injEq]
    constructor
    · rintro rfl
      refine ⟨[], rfl, ?_, rfl⟩
      rw [List.filterMap_nil, List.append_nil]
      exact known.distinct
    · rintro ⟨done, h, -, rfl⟩
      rw [List.map_eq_nil_iff.mp h.symm]
      rfl
  | cons step rest ih =>
    cases step with
    | error error =>
      simp only [assemble, reduceCtorEq, false_iff]
      rintro ⟨done, h, -⟩
      cases done <;> simp at h
    | ok step =>
      rw [exists_ok_cons_iff]
      cases step with
      | layout item =>
        rw [assemble_layout_cons]
        constructor
        · rintro ⟨others, h, rfl⟩
          obtain ⟨done, rfl, distinct, rfl⟩ := ih.mp h
          exact ⟨done, rfl, distinct, rfl⟩
        · rintro ⟨done, rfl, distinct, rfl⟩
          exact ⟨_, ih.mpr ⟨done, rfl, distinct, rfl⟩, rfl⟩
      | declare new =>
        have names (fresh : new.definition.name ∉ known.names) (done : List Step) :
            (known.insert new.definition.name new.origin).names ++ done.filterMap Step.name? =
              known.names ++ (Step.declare new :: done).filterMap Step.name? := by
          rw [Table.names_insert, if_neg fresh, List.append_assoc]
          rfl
        rw [assemble_declare_cons]
        constructor
        · rintro ⟨fresh, others, h, rfl⟩
          obtain ⟨done, rfl, distinct, rfl⟩ := ih.mp h
          rw [names fresh] at distinct
          exact ⟨done, rfl, distinct, rfl⟩
        · rintro ⟨done, rfl, distinct, rfl⟩
          have fresh : new.definition.name ∉ known.names := fun mem =>
            (List.nodup_append.mp distinct).2.2 _ mem new.definition.name
              (by simp [Step.name?]) rfl
          refine ⟨fresh, _, ih.mpr ⟨done, rfl, ?_, rfl⟩, rfl⟩
          rw [names fresh]
          exact distinct

theorem after_eq_ok_iff {α : Type} {others : List (Except (Stop Error) α)} {step done : Step} :
    after others step = .ok done ↔ (∀ other ∈ others, Succeeds other) ∧ done = step := by
  unfold after
  rw [bind_eq_ok_iff]
  constructor
  · rintro ⟨values, h, hd⟩
    cases hd
    exact ⟨succeeds_mapM_iff.mp ⟨values, h⟩, rfl⟩
  · rintro ⟨h, rfl⟩
    obtain ⟨values, h⟩ := succeeds_mapM_iff.mpr h
    exact ⟨values, h, rfl⟩

theorem succeeds_after_iff {α : Type} {others : List (Except (Stop Error) α)} {step : Step} :
    Succeeds (after others step) ↔ ∀ other ∈ others, Succeeds other := by
  simp only [Succeeds, after_eq_ok_iff, exists_eq_right]

theorem mem_declareAll_iff {outcome : Except (Stop Error) (List Declaration)} {new : Declaration} :
    .ok (.declare new) ∈ declareAll outcome ↔ ∃ news, outcome = .ok news ∧ new ∈ news := by
  cases outcome with
  | error error => simp [declareAll]
  | ok news => simp [declareAll]

theorem forall_declareAll_succeeds_iff {outcome : Except (Stop Error) (List Declaration)} :
    (∀ step ∈ declareAll outcome, Succeeds step) ↔ Succeeds outcome := by
  cases outcome with
  | error error => simp [declareAll, not_succeeds_error]
  | ok news => simp [declareAll, succeeds_ok]

/-! ## The declarations of a document -/

/-- What is declared for a document. -/
inductive Declares (doc : Document) : Declaration → Prop
  | binary : Declares doc (synonym "Binary" (.keyword .string) .preamble)
  | anyChannel : Declares doc (interface "Channel" [] [] .preamble)
  | initializer {name : String} {channel : Channel} {fields : List ResolvedField} :
      doc.channel? name = some channel →
      doc.resolve (.member (.named name) "initializer") channel.initializer = .ok fields →
      Declares doc (synonym (initializerName name) (objectTs fields) (.initializer name))
  | eventTarget {name : String} {channel : Channel} : doc.channel? name = some channel →
      Declares doc (interface (eventTargetName name) [] (channel.events.names.map (listener name))
        (.eventTarget name))
  | events {name : String} {channel : Channel} : doc.channel? name = some channel →
      Declares doc (synonym (eventsName name) (anyEvent name channel.events.names) (.events name))
  | channel {name : String} {channel : Channel} : doc.channel? name = some channel →
      Declares doc (interface (channelTypeName name)
        [eventTargetName name, baseName ⟨doc.parentLinks⟩ name]
        (kindMark name :: channel.commands.entries.map (commandMethod name)) (.channel name))
  | event {name event : String} {channel : Channel} {body : Event} {fields : List ResolvedField} :
      doc.channel? name = some channel → (event, body) ∈ channel.events.entries →
      resolveDeclared doc (.member (.named name) event) body.parameters = .ok fields →
      Declares doc (synonym (eventName name event) (objectTs fields) (.event name event))
  | parameters {name command : String} {channel : Channel} {body : Command}
      {fields : List ResolvedField} : doc.channel? name = some channel →
      (command, body) ∈ channel.commands.entries →
      resolveDeclared doc (.member (.member (.named name) command) "parameters")
        body.parameters = .ok fields →
      Declares doc (synonym (paramsName name command) (objectTs fields) (.parameters name command))
  | options {name command : String} {channel : Channel} {body : Command}
      {fields : List ResolvedField} : doc.channel? name = some channel →
      (command, body) ∈ channel.commands.entries →
      resolveDeclared doc (.member (.member (.named name) command) "parameters")
        body.parameters = .ok fields →
      Declares doc (synonym (optionsName name command) (objectTs (optionalFields fields))
        (.options name command))
  | result {name command : String} {channel : Channel} {body : Command} {ty : TypeScript.Ty} :
      doc.channel? name = some channel → (command, body) ∈ channel.commands.entries →
      resultTy doc (.member (.member (.named name) command) "returns") body.returns = .ok ty →
      Declares doc (synonym (resultName name command) ty (.result name command))
  | object {name : String} {list : List Property} {fields : List ResolvedField} :
      doc.get? name = some (.object list) → doc.resolve (.named name) list = .ok fields →
      Declares doc (synonym name (objectTs fields) (.object name))
  | enum {name : String} {literals : List String} : doc.get? name = some (.enum literals) →
      Declares doc (synonym name (.literals literals) (.enum name))
  | projection {new : Declaration} :
      .declare new ∈ projections (doc.channels.map Prod.fst) → Declares doc new

/-- A projection, with the name of the type that it gives for a channel and with its fallback. -/
inductive Projection : String → (String → String) → Keyword → Prop
  | initializer : Projection "InitializerTraits" initializerName .object
  | events : Projection "EventsTraits" eventsName .undefined
  | eventTarget : Projection "EventTargetTraits" eventTargetName .undefined

theorem mem_projections_iff {channels : List String} {new : Declaration} :
    .declare new ∈ projections channels ↔
      ∃ name typeName fallback, Projection name typeName fallback ∧
        new = projection name typeName fallback channels := by
  simp only [projections, List.mem_cons, Step.declare.injEq, List.not_mem_nil, or_false]
  constructor
  · rintro (h | h | h)
    · exact ⟨_, _, _, .initializer, h⟩
    · exact ⟨_, _, _, .events, h⟩
    · exact ⟨_, _, _, .eventTarget, h⟩
  · rintro ⟨_, _, _, rule, h⟩
    cases rule with
    | initializer => exact .inl h
    | events => exact .inr (.inl h)
    | eventTarget => exact .inr (.inr h)

/-- The last channel is tested first. -/
theorem projectionTy_concat (typeName : String → String) (fallback : Keyword)
    (channels : List String) (last : String) :
    projectionTy typeName fallback (channels ++ [last]) =
      .conditional (.ref "T") (.ref (channelTypeName last)) (.ref (typeName last))
        (projectionTy typeName fallback channels) := by
  simp [projectionTy, List.foldl_append]

theorem eventDeclarations_eq_ok_iff {doc : Document} {name event : String} {body : Event}
    {news : List Declaration} :
    eventDeclarations doc name (event, body) = .ok news ↔
      ∃ fields, resolveDeclared doc (.member (.named name) event) body.parameters = .ok fields ∧
        news = [synonym (eventName name event) (objectTs fields) (.event name event)] := by
  rw [eventDeclarations, bind_eq_ok_iff]
  simp only [pure, Except.pure, Except.ok.injEq, eq_comm]

theorem commandDeclarations_eq_ok_iff {doc : Document} {name command : String} {body : Command}
    {news : List Declaration} :
    commandDeclarations doc name (command, body) = .ok news ↔
      ∃ fields ty,
        resolveDeclared doc (.member (.member (.named name) command) "parameters")
          body.parameters = .ok fields ∧
        resultTy doc (.member (.member (.named name) command) "returns") body.returns = .ok ty ∧
        news = [synonym (paramsName name command) (objectTs fields) (.parameters name command),
          synonym (optionsName name command) (objectTs (optionalFields fields))
            (.options name command),
          synonym (resultName name command) ty (.result name command)] := by
  rw [commandDeclarations]
  simp only [bind_eq_ok_iff, pure, Except.pure, Except.ok.injEq, exists_and_left]
  simp only [eq_comm]

theorem declares_of_mem_channelSteps {doc : Document} {name : String} {channel : Channel}
    (found : doc.channel? name = some channel) {new : Declaration}
    (h : .ok (.declare new) ∈ channelSteps doc ⟨doc.parentLinks⟩ name channel) :
    Declares doc new := by
  simp only [channelSteps, List.cons_append, List.nil_append, List.mem_cons, List.mem_append,
    List.mem_flatMap, List.mem_map, Except.ok.injEq, reduceCtorEq, Step.declare.injEq,
    false_or] at h
  rcases h with h | h | h | h | ⟨_, ⟨⟨event, body⟩, he, rfl⟩, h⟩ |
    ⟨_, ⟨⟨command, body⟩, hc, rfl⟩, h⟩
  · obtain ⟨_, h, hd⟩ := map_eq_ok_iff.mp h.symm
    cases hd
    obtain ⟨fields, hf, h⟩ := bind_eq_ok_iff.mp h
    cases h
    exact .initializer found hf
  · cases (after_eq_ok_iff.mp h.symm).2
    exact .eventTarget found
  · cases h
    exact .events found
  · cases (after_eq_ok_iff.mp h.symm).2
    exact .channel found
  · obtain ⟨_, hd, mem⟩ := mem_declareAll_iff.mp h
    obtain ⟨fields, hf, rfl⟩ := eventDeclarations_eq_ok_iff.mp hd
    cases List.mem_singleton.mp mem
    exact .event found he hf
  · obtain ⟨_, hd, mem⟩ := mem_declareAll_iff.mp h
    obtain ⟨fields, ty, hf, ht, rfl⟩ := commandDeclarations_eq_ok_iff.mp hd
    simp only [List.mem_cons, List.not_mem_nil, or_false] at mem
    rcases mem with rfl | rfl | rfl
    · exact .parameters found hc hf
    · exact .options found hc hf
    · exact .result found hc ht

theorem declares_of_mem {doc : Document} {new : Declaration}
    (h : .ok (.declare new) ∈ documentSteps doc ⟨doc.parentLinks⟩) : Declares doc new := by
  simp only [documentSteps, List.mem_append, List.mem_map, List.mem_flatMap, List.mem_cons,
    Except.ok.injEq, exists_eq_right, reduceCtorEq, false_or] at h
  rcases h with ((h | ⟨⟨name, entity⟩, mem, h⟩) | h) | h
  · simp only [preamble, List.mem_cons, Step.declare.injEq, reduceCtorEq, List.not_mem_nil,
      or_false, false_or] at h
    rcases h with rfl | rfl
    · exact .binary
    · exact .anyChannel
  · have found : doc.get? name = some entity := (Table.get?_eq_some_iff ..).mpr mem
    cases entity with
    | channel channel =>
      exact declares_of_mem_channelSteps (Document.channel?_eq_some_iff.mpr found) h
    | object list =>
      simp only [entitySteps, List.mem_cons, Except.ok.injEq, reduceCtorEq, List.not_mem_nil,
        or_false, false_or] at h
      obtain ⟨fields, hf, hd⟩ := map_eq_ok_iff.mp h.symm
      cases hd
      exact .object found hf
    | enum literals =>
      simp only [entitySteps, List.mem_cons, Except.ok.injEq, reduceCtorEq, List.not_mem_nil,
        or_false, false_or, Step.declare.injEq] at h
      cases h
      exact .enum found
    | mixin list => simp [entitySteps] at h
  · exact .projection h
  · simp [tracedSets, constSet] at h

theorem mem_documentSteps_of_entity {doc : Document} {lineage : Lineage} {name : String}
    {entity : Entity} (found : doc.get? name = some entity) {step : Except (Stop Error) Step}
    (h : step ∈ entitySteps doc lineage (name, entity)) : step ∈ documentSteps doc lineage := by
  have mem := (Table.get?_eq_some_iff ..).mp found
  simp only [documentSteps, List.mem_append, List.mem_flatMap]
  exact .inl (.inl (.inr ⟨_, mem, h⟩))

/-- A step after others that is one of some successful steps is made. -/
theorem ok_mem_of_after_mem {α : Type} {steps : List (Except (Stop Error) Step)}
    (ok : ∀ step ∈ steps, Succeeds step) (others : List (Except (Stop Error) α)) {step : Step}
    (h : after others step ∈ steps) : .ok step ∈ steps := by
  obtain ⟨done, hd⟩ := ok _ h
  rw [← (after_eq_ok_iff.mp hd).2, ← hd]
  exact h

section

variable {doc : Document} {name : String} {channel : Channel}

theorem mem_documentSteps_of_channel (found : doc.channel? name = some channel)
    {step : Except (Stop Error) Step} (h : step ∈ channelSteps doc ⟨doc.parentLinks⟩ name channel) :
    step ∈ documentSteps doc ⟨doc.parentLinks⟩ :=
  mem_documentSteps_of_entity (Document.channel?_eq_some_iff.mp found) h

theorem mem_documentSteps_of_event (found : doc.channel? name = some channel) {event : String}
    {body : Event} (he : (event, body) ∈ channel.events.entries) {step : Except (Stop Error) Step}
    (h : step ∈ declareAll (eventDeclarations doc name (event, body))) :
    step ∈ documentSteps doc ⟨doc.parentLinks⟩ := by
  refine mem_documentSteps_of_channel found (List.mem_append_left _ (List.mem_append_right _ ?_))
  exact List.mem_flatMap.mpr ⟨_, List.mem_map.mpr ⟨_, he, rfl⟩, h⟩

theorem mem_documentSteps_of_command (found : doc.channel? name = some channel)
    {command : String} {body : Command} (hc : (command, body) ∈ channel.commands.entries)
    {step : Except (Stop Error) Step}
    (h : step ∈ declareAll (commandDeclarations doc name (command, body))) :
    step ∈ documentSteps doc ⟨doc.parentLinks⟩ := by
  refine mem_documentSteps_of_channel found (List.mem_append_right _ ?_)
  exact List.mem_flatMap.mpr ⟨_, List.mem_map.mpr ⟨_, hc, rfl⟩, h⟩

/-- Where no step fails, both lists of a command are resolved. -/
theorem exists_command_resolved (ok : ∀ step ∈ documentSteps doc ⟨doc.parentLinks⟩, Succeeds step)
    (found : doc.channel? name = some channel) {command : String} {body : Command}
    (hc : (command, body) ∈ channel.commands.entries) :
    ∃ fields ty,
      resolveDeclared doc (.member (.member (.named name) command) "parameters")
        body.parameters = .ok fields ∧
      resultTy doc (.member (.member (.named name) command) "returns") body.returns = .ok ty := by
  have succeeds : Succeeds (commandDeclarations doc name (command, body)) :=
    forall_declareAll_succeeds_iff.mp fun step h =>
      ok step (mem_documentSteps_of_command found hc h)
  obtain ⟨news, h⟩ := succeeds
  obtain ⟨fields, ty, hf, ht, -⟩ := commandDeclarations_eq_ok_iff.mp h
  exact ⟨fields, ty, hf, ht⟩

end

theorem mem_of_declares {doc : Document}
    (ok : ∀ step ∈ documentSteps doc ⟨doc.parentLinks⟩, Succeeds step) {new : Declaration}
    (h : Declares doc new) : .ok (.declare new) ∈ documentSteps doc ⟨doc.parentLinks⟩ := by
  cases h with
  | binary => simp [documentSteps, preamble]
  | anyChannel => simp [documentSteps, preamble]
  | initializer found hf =>
    refine mem_documentSteps_of_channel found (List.mem_append_left _ (List.mem_append_left _ ?_))
    simp [initializerDeclaration, hf, bind, Except.bind, pure, Except.pure, Except.map]
  | @eventTarget name channel found =>
    exact ok_mem_of_after_mem ok (channel.events.entries.map (eventDeclarations doc name))
      (mem_documentSteps_of_channel found (by simp [channelSteps]))
  | events found => exact mem_documentSteps_of_channel found (by simp [channelSteps])
  | @channel name channel found =>
    exact ok_mem_of_after_mem ok (channel.commands.entries.map (commandDeclarations doc name))
      (mem_documentSteps_of_channel found (by simp [channelSteps]))
  | event found he hf =>
    refine mem_documentSteps_of_event found he (mem_declareAll_iff.mpr ?_)
    exact ⟨_, eventDeclarations_eq_ok_iff.mpr ⟨_, hf, rfl⟩, List.mem_singleton.mpr rfl⟩
  | parameters found hc hf =>
    obtain ⟨-, ty, -, ht⟩ := exists_command_resolved ok found hc
    refine mem_documentSteps_of_command found hc (mem_declareAll_iff.mpr ?_)
    exact ⟨_, commandDeclarations_eq_ok_iff.mpr ⟨_, ty, hf, ht, rfl⟩, by simp⟩
  | options found hc hf =>
    obtain ⟨-, ty, -, ht⟩ := exists_command_resolved ok found hc
    refine mem_documentSteps_of_command found hc (mem_declareAll_iff.mpr ?_)
    exact ⟨_, commandDeclarations_eq_ok_iff.mpr ⟨_, ty, hf, ht, rfl⟩, by simp⟩
  | result found hc ht =>
    obtain ⟨fields, -, hf, -⟩ := exists_command_resolved ok found hc
    refine mem_documentSteps_of_command found hc (mem_declareAll_iff.mpr ?_)
    exact ⟨_, commandDeclarations_eq_ok_iff.mpr ⟨fields, _, hf, ht, rfl⟩, by simp⟩
  | object found hf =>
    refine mem_documentSteps_of_entity found ?_
    simp [entitySteps, hf, Except.map]
  | enum found => exact mem_documentSteps_of_entity found (by simp [entitySteps])
  | projection h =>
    simp only [documentSteps, List.mem_append, List.mem_map, List.mem_cons]
    exact .inl (.inr ⟨_, .inr h, rfl⟩)

/-! ## The file -/

theorem definition?_of_layout_mem {doc : Document} {lineage : Lineage} {item : Item}
    (h : .ok (.layout item) ∈ documentSteps doc lineage) : item.definition? = none := by
  simp only [documentSteps, List.mem_append, List.mem_map, List.mem_flatMap, List.mem_cons,
    Except.ok.injEq, exists_eq_right, Step.layout.injEq] at h
  rcases h with ((h | ⟨⟨name, entity⟩, mem, h⟩) | h) | h
  · simp only [preamble, List.mem_cons, reduceCtorEq, Step.layout.injEq, List.not_mem_nil,
      or_false, false_or] at h
    rw [h]
    rfl
  · cases entity with
    | channel channel =>
      simp only [entitySteps, channelSteps, List.cons_append, List.nil_append, List.mem_cons,
        List.mem_append, List.mem_flatMap, List.mem_map, Except.ok.injEq, Step.layout.injEq,
        reduceCtorEq, false_or] at h
      rcases h with rfl | rfl | h | h | h | ⟨_, ⟨entry, _, rfl⟩, h⟩ | ⟨_, ⟨entry, _, rfl⟩, h⟩
      · rfl
      · rfl
      · obtain ⟨_, -, h⟩ := map_eq_ok_iff.mp h.symm
        cases h
      · cases (after_eq_ok_iff.mp h.symm).2
      · cases (after_eq_ok_iff.mp h.symm).2
      · cases outcome : eventDeclarations doc name entry <;> simp [outcome, declareAll] at h
      · cases outcome : commandDeclarations doc name entry <;> simp [outcome, declareAll] at h
    | object list =>
      simp only [entitySteps, List.mem_cons, Except.ok.injEq, Step.layout.injEq, List.not_mem_nil,
        or_false] at h
      rcases h with rfl | h
      · rfl
      · obtain ⟨_, -, h⟩ := map_eq_ok_iff.mp h.symm
        cases h
    | enum literals =>
      simp only [entitySteps, List.mem_cons, Except.ok.injEq, Step.layout.injEq, reduceCtorEq,
        List.not_mem_nil, or_false] at h
      rw [h]
      rfl
    | mixin list => simp [entitySteps] at h
  · simp only [projections, List.mem_cons, reduceCtorEq, List.not_mem_nil, or_false] at h
    rw [h]
    rfl
  · simp only [tracedSets, constSet, List.mem_cons, Step.layout.injEq, List.not_mem_nil,
      or_false] at h
    rcases h with rfl | rfl | rfl <;> rfl

/-- The definitions among the items of some steps are those that the steps declare. -/
theorem filterMap_definition?_item {done : List Step}
    (plain : ∀ item, .layout item ∈ done → item.definition? = none) :
    ((done.map Step.item).filterMap Item.definition?).map Definition.name =
        done.filterMap Step.name? ∧
      ∀ named, named ∈ (done.map Step.item).filterMap Item.definition? ↔
        ∃ origin, .declare ⟨named, origin⟩ ∈ done := by
  induction done with
  | nil => simp
  | cons step rest ih =>
    obtain ⟨names, members⟩ := ih fun item mem => plain item (List.mem_cons_of_mem _ mem)
    cases step with
    | layout item =>
      have absent := plain item (by simp)
      simp only [List.map_cons, List.filterMap_cons, Step.item, absent, Step.name?, names, members,
        List.mem_cons, reduceCtorEq, false_or, true_and, implies_true]
    | declare new =>
      refine ⟨by simp only [List.map_cons, List.filterMap_cons, Step.item, Item.definition?,
        Step.name?, names], fun named => ?_⟩
      simp only [List.map_cons, Step.item, List.filterMap_cons, Item.definition?, List.mem_cons,
        members, Step.declare.injEq]
      constructor
      · rintro (rfl | ⟨origin, mem⟩)
        · exact ⟨new.origin, .inl rfl⟩
        · exact ⟨origin, .inr mem⟩
      · rintro ⟨origin, rfl | mem⟩
        · exact .inl rfl
        · exact .inr ⟨origin, mem⟩

/-- The declarations file holds exactly what is declared for the document, and no name twice. -/
theorem definitions_declarationsModule {doc : Document} {schemaName : String} {file : Module}
    (built : declarationsModule doc ⟨doc.parentLinks⟩ schemaName = .ok file) :
    (file.definitions.map Definition.name).Nodup ∧
      ∀ named, named ∈ file.definitions ↔ ∃ origin, Declares doc ⟨named, origin⟩ := by
  obtain ⟨items, assembled, h⟩ := bind_eq_ok_iff.mp built
  cases h
  obtain ⟨done, steps, distinct, rfl⟩ := assemble_eq_ok_iff.mp assembled
  have listed (step : Step) : .ok step ∈ documentSteps doc ⟨doc.parentLinks⟩ ↔ step ∈ done := by
    simp [steps]
  have ok := exists_eq_map_ok_iff.mp ⟨done, steps⟩
  obtain ⟨names, members⟩ := @filterMap_definition?_item done
    fun item mem => definition?_of_layout_mem ((listed _).mpr mem)
  refine ⟨?_, fun named => (members named).trans (exists_congr fun origin => ?_)⟩
  · rw [Module.definitions, names]
    simpa [Table.empty, Table.names] using distinct
  · rw [← listed]
    exact ⟨declares_of_mem, mem_of_declares ok⟩

end Compiled

end ChannelProtocol
