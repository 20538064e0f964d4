-- What the registry of a document holds: exactly its registrations, under
-- names of which no two are the same.
import ChannelProtocol.Compiled
import ChannelProtocol.Proofs.Schema.Ancestry
import ChannelProtocol.Proofs.Schema.References

namespace ChannelProtocol

/-! ## Registering in turn -/

def Registration.entry (new : Registration) : String × Registered :=
  (new.name, ⟨new.validator, new.origin⟩)

namespace Registry

theorem eq_of_entries {registry other : Registry} (h : registry.entries = other.entries) :
    registry = other := by
  obtain ⟨entries, distinct⟩ := registry
  obtain ⟨entries', distinct'⟩ := other
  cases h
  rfl

theorem register_eq_ok_iff {registry final : Registry} {new : Registration} :
    registry.register new = .ok final ↔
      new.name ∉ registry.table.names ∧ final.entries = registry.entries ++ [new.entry] := by
  rw [← Table.get?_eq_none_iff]
  unfold register
  split
  · rename_i old found
    simp [found]
  · rename_i missing
    simp only [Except.ok.injEq, missing, true_and]
    constructor
    · rintro rfl
      rfl
    · intro h
      exact eq_of_entries h.symm

theorem names_of_register {registry final : Registry} {new : Registration}
    (h : registry.register new = .ok final) :
    final.table.names = registry.table.names ++ [new.name] := by
  have same := congrArg (List.map Prod.fst) (register_eq_ok_iff.mp h).2
  rw [List.map_append] at same
  exact same

theorem exists_register {registry : Registry} {new : Registration}
    (fresh : new.name ∉ registry.table.names) : ∃ final, registry.register new = .ok final :=
  ⟨⟨registry.table.push new.name ⟨new.validator, new.origin⟩ fresh⟩,
    register_eq_ok_iff.mpr ⟨fresh, rfl⟩⟩

theorem registerAll_ok_cons {registry final : Registry} {new : Registration}
    {rest : List (Except (Stop Schema.Error) Registration)} :
    registry.registerAll (.ok new :: rest) = .ok final ↔
      ∃ next, registry.register new = .ok next ∧ next.registerAll rest = .ok final := by
  rw [registerAll]
  split
  · rename_i error h
    simp [h]
  · rename_i next h
    simp [h]

/-- Registrations in turn succeed exactly if none is missing and all names are different. They
become the last entries, in order. -/
theorem registerAll_eq_ok_iff {registry final : Registry}
    {steps : List (Except (Stop Schema.Error) Registration)} :
    registry.registerAll steps = .ok final ↔
      ∃ news : List Registration, steps = news.map .ok ∧
        (registry.table.names ++ news.map Registration.name).Nodup ∧
        final.entries = registry.entries ++ news.map Registration.entry := by
  induction steps generalizing registry with
  | nil =>
    simp only [registerAll, Except.ok.injEq]
    constructor
    · rintro rfl
      refine ⟨[], rfl, ?_, by simp⟩
      rw [List.map_nil, List.append_nil]
      exact registry.table.distinct
    · rintro ⟨news, h, -, same⟩
      rw [List.map_eq_nil_iff.mp h.symm, List.map_nil, List.append_nil] at same
      exact eq_of_entries same.symm
  | cons step rest ih =>
    cases step with
    | error error =>
      simp only [registerAll, reduceCtorEq, false_iff]
      rintro ⟨news, h, -⟩
      cases news <;> simp at h
    | ok new =>
      rw [registerAll_ok_cons, exists_ok_cons_iff]
      constructor
      · rintro ⟨next, h, hr⟩
        obtain ⟨news, rfl, distinct, same⟩ := ih.mp hr
        rw [names_of_register h, List.append_assoc] at distinct
        rw [(register_eq_ok_iff.mp h).2, List.append_assoc] at same
        exact ⟨news, rfl, distinct, same⟩
      · rintro ⟨news, rfl, distinct, same⟩
        have fresh : new.name ∉ registry.table.names := fun mem =>
          (List.nodup_append.mp distinct).2.2 _ mem new.name (by simp) rfl
        obtain ⟨next, hn⟩ := exists_register fresh
        refine ⟨next, hn, ih.mpr ⟨news, rfl, ?_, ?_⟩⟩
        · rw [names_of_register hn, List.append_assoc]
          exact distinct
        · rw [(register_eq_ok_iff.mp hn).2, List.append_assoc]
          exact same

end Registry

namespace Compiled

open Schema

/-! ## The registrations of a document -/

/-- What is registered for a document. -/
inductive Registers (doc : Document) : Registration → Prop
  | initializer {name : String} {channel : Channel} {fields : List ResolvedField} :
      doc.channel? name = some channel →
      doc.resolve (.member (.named name) "initializer") channel.initializer = .ok fields →
      Registers doc ⟨initializerName name, objectValidator fields, .initializer name⟩
  | event {name event : String} {channel : Channel} {body : Event} {validator : Validator} :
      doc.channel? name = some channel → (event, body) ∈ channel.events.entries →
      declaredValidator doc (.member (.named name) event) body.parameters = .ok validator →
      Registers doc ⟨eventName name event, validator, .event name event⟩
  | parameters {name command : String} {channel : Channel} {body : Command}
      {validator : Validator} : doc.channel? name = some channel →
      (command, body) ∈ channel.commands.entries →
      declaredValidator doc (.member (.member (.named name) command) "parameters")
        body.parameters = .ok validator →
      Registers doc ⟨paramsName name command, validator, .parameters name command⟩
  | result {name command : String} {channel : Channel} {body : Command}
      {validator : Validator} : doc.channel? name = some channel →
      (command, body) ∈ channel.commands.entries →
      declaredValidator doc (.member (.member (.named name) command) "returns")
        body.returns = .ok validator →
      Registers doc ⟨resultName name command, validator, .result name command⟩
  | inherited {name parent command : String} {channel definition : Channel} :
      doc.channel? name = some channel → channel.parent = some parent →
      doc.channel? parent = some definition → command ∈ definition.commands.names →
      command ∉ channel.commands.names →
      Registers doc ⟨paramsName name command, .named (paramsName parent command),
        .inherited name parent command⟩
  | object {name : String} {list : List Property} {fields : List ResolvedField} :
      doc.get? name = some (.object list) → doc.resolve (.named name) list = .ok fields →
      Registers doc ⟨name, objectValidator fields, .object name⟩
  | enum {name : String} {literals : List String} : doc.get? name = some (.enum literals) →
      Registers doc ⟨name, .enum literals, .enum name⟩

theorem parent?_of_channel? {doc : Document} {name : String} {channel : Channel}
    (found : doc.channel? name = some channel) :
    (⟨doc.parentLinks⟩ : Lineage).parent? name = channel.parent := by
  cases h : channel.parent with
  | some parent => exact Lineage.parent?_parentLinks.mpr ⟨channel, found, h⟩
  | none =>
    rw [Option.eq_none_iff_forall_ne_some]
    intro parent h'
    obtain ⟨other, found', h'⟩ := Lineage.parent?_parentLinks.mp h'
    rw [found] at found'
    cases found'
    rw [h] at h'
    cases h'

theorem mem_registerInherited_iff {doc : Document} {name : String} {channel : Channel}
    {new : Registration} (found : doc.channel? name = some channel) :
    new ∈ registerInherited doc ⟨doc.parentLinks⟩ name channel ↔
      ∃ parent definition command, channel.parent = some parent ∧
        doc.channel? parent = some definition ∧ command ∈ definition.commands.names ∧
        command ∉ channel.commands.names ∧
        new = ⟨paramsName name command, .named (paramsName parent command),
          .inherited name parent command⟩ := by
  unfold registerInherited
  rw [parent?_of_channel? found]
  cases h : channel.parent with
  | none => simp
  | some parent =>
    cases h' : doc.channel? parent with
    | none => simp [h']
    | some definition =>
      have absent (command : String) :
          (!channel.commands.contains command) = true ↔ command ∉ channel.commands.names := by
        rw [← Table.contains_iff]
        simp
      simp only [h', List.mem_map, List.mem_filter, absent, Option.some.injEq]
      constructor
      · rintro ⟨command, ⟨mem, missing⟩, rfl⟩
        exact ⟨parent, definition, command, rfl, h', mem, missing, rfl⟩
      · rintro ⟨_, _, command, rfl, same, mem, missing, rfl⟩
        rw [h'] at same
        cases same
        exact ⟨command, ⟨mem, missing⟩, rfl⟩

theorem mem_channelRegistrations_iff {doc : Document} {lineage : Lineage} {name : String}
    {channel : Channel} {new : Registration} :
    .ok new ∈ entityRegistrations doc lineage (name, .channel channel) ↔
      registerInitializer doc name channel = .ok new ∨
      (∃ entry ∈ channel.events.entries, registerEvent doc name entry = .ok new) ∨
      (∃ entry ∈ channel.commands.entries, .ok new ∈ registerCommand doc name entry) ∨
      new ∈ registerInherited doc lineage name channel := by
  simp only [entityRegistrations, List.cons_append, List.mem_cons, List.mem_append, List.mem_map,
    List.mem_flatMap, Except.ok.injEq, exists_eq_right, or_assoc]
  exact or_congr_left eq_comm

theorem mem_registerCommand_iff {doc : Document} {name command : String} {body : Command}
    {new : Registration} :
    .ok new ∈ registerCommand doc name (command, body) ↔
      (∃ validator, declaredValidator doc (.member (.member (.named name) command) "parameters")
          body.parameters = .ok validator ∧
        new = ⟨paramsName name command, validator, .parameters name command⟩) ∨
      ∃ validator, declaredValidator doc (.member (.member (.named name) command) "returns")
          body.returns = .ok validator ∧
        new = ⟨resultName name command, validator, .result name command⟩ := by
  simp only [registerCommand, List.mem_cons, List.not_mem_nil, or_false,
    @eq_comm _ (Except.ok new), map_eq_ok_iff, @eq_comm _ new]

theorem mem_entries_of_channel? {doc : Document} {name : String} {channel : Channel}
    (found : doc.channel? name = some channel) :
    (name, .channel channel) ∈ doc.entities.entries :=
  (Table.get?_eq_some_iff ..).mp (Document.channel?_eq_some_iff.mp found)

/-- A document has exactly these registrations. -/
theorem mem_registrations_iff {doc : Document} {new : Registration} :
    .ok new ∈ doc.entities.entries.flatMap (entityRegistrations doc ⟨doc.parentLinks⟩) ↔
      Registers doc new := by
  rw [List.mem_flatMap]
  constructor
  · rintro ⟨⟨name, entity⟩, mem, h⟩
    have found : doc.get? name = some entity := (Table.get?_eq_some_iff ..).mpr mem
    cases entity with
    | channel channel =>
      have found := Document.channel?_eq_some_iff.mpr found
      rcases mem_channelRegistrations_iff.mp h with
        h | ⟨⟨event, body⟩, he, h⟩ | ⟨⟨command, body⟩, hc, h⟩ | h
      · obtain ⟨fields, hf, h⟩ := bind_eq_ok_iff.mp h
        cases h
        exact .initializer found hf
      · obtain ⟨validator, hv, h⟩ := bind_eq_ok_iff.mp h
        cases h
        exact .event found he hv
      · rcases mem_registerCommand_iff.mp h with ⟨validator, hv, rfl⟩ | ⟨validator, hv, rfl⟩
        · exact .parameters found hc hv
        · exact .result found hc hv
      · obtain ⟨parent, definition, command, hp, hd, mem, missing, rfl⟩ :=
          (mem_registerInherited_iff found).mp h
        exact .inherited found hp hd mem missing
    | object list =>
      obtain ⟨fields, hf, rfl⟩ := map_eq_ok_iff.mp (List.mem_singleton.mp h).symm
      exact .object found hf
    | enum literals =>
      cases List.mem_singleton.mp h
      exact .enum found
    | mixin list => simp [entityRegistrations] at h
  · intro h
    cases h with
    | initializer found hf =>
      refine ⟨_, mem_entries_of_channel? found, mem_channelRegistrations_iff.mpr (.inl ?_)⟩
      exact bind_eq_ok_iff.mpr ⟨_, hf, rfl⟩
    | event found he hv =>
      refine ⟨_, mem_entries_of_channel? found, mem_channelRegistrations_iff.mpr ?_⟩
      exact .inr (.inl ⟨_, he, bind_eq_ok_iff.mpr ⟨_, hv, rfl⟩⟩)
    | parameters found hc hv =>
      refine ⟨_, mem_entries_of_channel? found, mem_channelRegistrations_iff.mpr ?_⟩
      exact .inr (.inr (.inl ⟨_, hc, mem_registerCommand_iff.mpr (.inl ⟨_, hv, rfl⟩)⟩))
    | result found hc hv =>
      refine ⟨_, mem_entries_of_channel? found, mem_channelRegistrations_iff.mpr ?_⟩
      exact .inr (.inr (.inl ⟨_, hc, mem_registerCommand_iff.mpr (.inr ⟨_, hv, rfl⟩)⟩))
    | inherited found hp hd mem missing =>
      refine ⟨_, mem_entries_of_channel? found, mem_channelRegistrations_iff.mpr ?_⟩
      exact .inr (.inr (.inr ((mem_registerInherited_iff found).mpr
        ⟨_, _, _, hp, hd, mem, missing, rfl⟩)))
    | object found hf =>
      refine ⟨_, (Table.get?_eq_some_iff ..).mp found, List.mem_singleton.mpr (Eq.symm ?_)⟩
      exact map_eq_ok_iff.mpr ⟨_, hf, rfl⟩
    | enum found =>
      exact ⟨_, (Table.get?_eq_some_iff ..).mp found, List.mem_singleton.mpr rfl⟩

theorem forall_channelRegistrations_succeeds_iff {doc : Document} {lineage : Lineage}
    {name : String} {channel : Channel} :
    (∀ new ∈ entityRegistrations doc lineage (name, .channel channel), Succeeds new) ↔
      Succeeds (doc.resolve (.member (.named name) "initializer") channel.initializer) ∧
      (∀ entry ∈ channel.events.entries,
        Succeeds (declaredValidator doc (.member (.named name) entry.1) entry.2.parameters)) ∧
      ∀ entry ∈ channel.commands.entries,
        Succeeds (declaredValidator doc (.member (.member (.named name) entry.1) "parameters")
          entry.2.parameters) ∧
        Succeeds (declaredValidator doc (.member (.member (.named name) entry.1) "returns")
          entry.2.returns) := by
  simp only [entityRegistrations, registerCommand, List.cons_append, List.forall_mem_cons,
    List.forall_mem_append, List.forall_mem_map, List.forall_mem_flatMap, List.not_mem_nil,
    succeeds_map_iff, succeeds_ok, false_implies, implies_true, and_true]
  refine and_congr succeeds_bind_pure_iff (and_congr_left' ?_)
  exact forall_congr' fun entry => imp_congr_right fun _ => succeeds_bind_pure_iff

/-- The entries of a document's registry are exactly its registrations. -/
theorem mem_documentRegistry_iff {doc : Document} {registry : Registry}
    (built : documentRegistry doc ⟨doc.parentLinks⟩ = .ok registry) {entry : String × Registered} :
    entry ∈ registry.entries ↔ Registers doc ⟨entry.1, entry.2.validator, entry.2.origin⟩ := by
  obtain ⟨news, steps, -, same⟩ := Registry.registerAll_eq_ok_iff.mp built
  have entries : registry.entries = news.map Registration.entry := same
  rw [entries, ← mem_registrations_iff, steps]
  simp only [List.mem_map, Except.ok.injEq, exists_eq_right]
  constructor
  · rintro ⟨new, listed, rfl⟩
    exact listed
  · intro listed
    exact ⟨_, listed, rfl⟩

/-- The registry of a document holds exactly what is registered for it. -/
theorem get?_documentRegistry_iff {doc : Document} {registry : Registry}
    (built : documentRegistry doc ⟨doc.parentLinks⟩ = .ok registry) {name : String}
    {validator : Validator} :
    registry.get? name = some validator ↔ ∃ origin, Registers doc ⟨name, validator, origin⟩ := by
  unfold Registry.get?
  simp only [Option.map_eq_some_iff, Table.get?_eq_some_iff]
  constructor
  · rintro ⟨⟨_, origin⟩, mem, rfl⟩
    exact ⟨origin, (mem_documentRegistry_iff built).mp mem⟩
  · rintro ⟨origin, registers⟩
    exact ⟨⟨validator, origin⟩, (mem_documentRegistry_iff built).mpr registers, rfl⟩

end Compiled

end ChannelProtocol
