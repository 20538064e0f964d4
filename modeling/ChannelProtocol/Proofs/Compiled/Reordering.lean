-- The order of a document's entities. It decides the layout of the files and
-- which channel a projection tests first, and nothing else.
import ChannelProtocol.Proofs.Compiled.Acceptance
import ChannelProtocol.Proofs.Schema.Reordering
import Mathlib.Data.List.Nodup

namespace ChannelProtocol

open Schema

/-! ## Entity by entity -/

namespace Compiled

variable {doc other : Document}

/-- What is made from a list, or from nothing, depends on the document through its names only. -/
theorem declared_reordered (reordered : doc.Reordered other) :
    resolveDeclared doc = resolveDeclared other ∧ resultTy doc = resultTy other ∧
      declaredValidator doc = declaredValidator other := by
  refine ⟨?_, ?_, ?_⟩
  all_goals
    funext location declared
    cases declared with
    | none => rfl
    | some list => simp only [resolveDeclared, resultTy, declaredValidator, reordered.resolve]

theorem entitySteps_reordered (reordered : doc.Reordered other) :
    entitySteps doc ⟨doc.parentLinks⟩ = entitySteps other ⟨other.parentLinks⟩ := by
  obtain ⟨fields, result, -⟩ := declared_reordered reordered
  have events : eventDeclarations doc = eventDeclarations other := by
    funext name entry
    simp only [eventDeclarations, fields]
  have commands : commandDeclarations doc = commandDeclarations other := by
    funext name entry
    simp only [commandDeclarations, fields, result]
  funext entry
  obtain ⟨name, entity⟩ := entry
  cases entity with
  | channel channel =>
    simp only [entitySteps, channelSteps, initializerDeclaration, baseName, reordered.resolve,
      reordered.parent?, events, commands]
  | object list => simp only [entitySteps, reordered.resolve]
  | enum literals => rfl
  | mixin list => rfl

theorem entityRegistrations_reordered (reordered : doc.Reordered other) :
    entityRegistrations doc ⟨doc.parentLinks⟩ =
      entityRegistrations other ⟨other.parentLinks⟩ := by
  obtain ⟨-, -, validator⟩ := declared_reordered reordered
  have events : registerEvent doc = registerEvent other := by
    funext name entry
    simp only [registerEvent, validator]
  have commands : registerCommand doc = registerCommand other := by
    funext name entry
    simp only [registerCommand, validator]
  funext entry
  obtain ⟨name, entity⟩ := entry
  cases entity with
  | channel channel =>
    simp only [entityRegistrations, registerInitializer, registerInherited, reordered.resolve,
      reordered.parent?, reordered.channel?, events, commands]
  | object list => simp only [entityRegistrations, reordered.resolve]
  | enum literals => rfl
  | mixin list => rfl

theorem inheritedNames_reordered (reordered : doc.Reordered other) :
    inheritedNames doc = inheritedNames other := by
  have channels : doc.channel? = other.channel? := funext reordered.channel?
  funext entry
  obtain ⟨name, entity⟩ := entry
  cases entity with
  | channel channel => simp only [inheritedNames, channels]
  | _ => rfl

/-! ## Whether a document compiles -/

theorem flatMap_entitySteps_perm (reordered : doc.Reordered other) :
    (doc.entities.entries.flatMap (entitySteps doc ⟨doc.parentLinks⟩)).Perm
      (other.entities.entries.flatMap (entitySteps other ⟨other.parentLinks⟩)) := by
  rw [entitySteps_reordered reordered]
  exact List.Perm.flatMap_right _ reordered

theorem flatMap_entityRegistrations_perm (reordered : doc.Reordered other) :
    (doc.entities.entries.flatMap (entityRegistrations doc ⟨doc.parentLinks⟩)).Perm
      (other.entities.entries.flatMap (entityRegistrations other ⟨other.parentLinks⟩)) := by
  rw [entityRegistrations_reordered reordered]
  exact List.Perm.flatMap_right _ reordered

theorem succeeds_declarationsModule_reordered (reordered : doc.Reordered other)
    {schemaName : String} :
    Succeeds (declarationsModule doc ⟨doc.parentLinks⟩ schemaName) ↔
      Succeeds (declarationsModule other ⟨other.parentLinks⟩ schemaName) := by
  rw [succeeds_declarationsModule_iff, succeeds_declarationsModule_iff]
  refine and_congr ?_ (List.Perm.append_left _ (reordered.flatMap_right _)).nodup_iff
  -- Only the steps of entities can fail.
  simp only [documentSteps, List.forall_mem_append, List.forall_mem_map, succeeds_ok,
    implies_true, true_and, and_true]
  simp only [(flatMap_entitySteps_perm reordered).mem_iff]

theorem succeeds_documentRegistry_reordered (reordered : doc.Reordered other) :
    Succeeds (documentRegistry doc ⟨doc.parentLinks⟩) ↔
      Succeeds (documentRegistry other ⟨other.parentLinks⟩) := by
  rw [succeeds_documentRegistry_iff, succeeds_documentRegistry_iff,
    inheritedNames_reordered reordered]
  simp only [(flatMap_entityRegistrations_perm reordered).mem_iff]
  exact and_congr_right' (reordered.flatMap_right _).nodup_iff

theorem succeeds_ofDocument_reordered (reordered : doc.Reordered other) {schemaName : String} :
    Succeeds (ofDocument doc schemaName) ↔ Succeeds (ofDocument other schemaName) := by
  rw [succeeds_ofDocument_iff, succeeds_ofDocument_iff, reordered.succeeds_lineage_iff,
    succeeds_declarationsModule_reordered reordered, succeeds_documentRegistry_reordered reordered]

/-! ## What it compiles to -/

theorem entries_documentRegistry_perm (reordered : doc.Reordered other)
    {registry registry' : Registry}
    (built : documentRegistry doc ⟨doc.parentLinks⟩ = .ok registry)
    (built' : documentRegistry other ⟨other.parentLinks⟩ = .ok registry') :
    registry.entries.Perm registry'.entries := by
  obtain ⟨news, steps, -, same⟩ := Registry.registerAll_eq_ok_iff.mp built
  obtain ⟨news', steps', -, same'⟩ := Registry.registerAll_eq_ok_iff.mp built'
  have moved := flatMap_entityRegistrations_perm reordered
  rw [steps, steps', List.map_perm_map_iff fun _ _ => Except.ok.inj] at moved
  rw [same, same']
  exact List.Perm.append_left _ (moved.map _)

/-- What is declared for a document is declared for it in any order, but for the projections. -/
theorem declares_reordered (reordered : doc.Reordered other)
    (ok : ∀ step ∈ documentSteps doc ⟨doc.parentLinks⟩, Succeeds step) {new : Declaration}
    (named : new.definition.name ∉ projectionNames) (declared : Declares doc new) :
    Declares other new := by
  have mem := mem_of_declares ok declared
  refine declares_of_mem ?_
  simp only [documentSteps, List.mem_append, List.mem_map, List.mem_cons, Except.ok.injEq,
    exists_eq_right, reduceCtorEq, false_or] at mem ⊢
  rcases mem with ((mem | mem) | mem) | mem
  · exact .inl (.inl (.inl mem))
  · exact .inl (.inl (.inr ((flatMap_entitySteps_perm reordered).mem_iff.mp mem)))
  · obtain ⟨title, typeName, fallback, rule, rfl⟩ := mem_projections_iff.mp mem
    exact absurd (mem_projectionNames_iff.mpr ⟨_, _, rule⟩) named
  · simp [tracedSets, constSet] at mem

/-- The same validators, types and traced commands, in any order. Only the projections may be of
another form. -/
structure SameUpToOrder (first second : Compiled) : Prop where
  registry : ∀ name, first.registry.get? name = second.registry.get? name
  definitions : (first.declarations.definitions.filter (·.name ∉ projectionNames)).Perm
    (second.declarations.definitions.filter (·.name ∉ projectionNames))
  projections : ∀ title ∈ projectionNames, ∃ ty ty',
    first.declarations.definition? title = some ⟨title, ["T"], .synonym ty⟩ ∧
    second.declarations.definition? title = some ⟨title, ["T"], .synonym ty'⟩
  snapshots : first.snapshots.Perm second.snapshots
  pauses : first.pauses.Perm second.pauses

variable {schemaName : String} {first second : Compiled}

theorem definition?_projection (built : ofDocument doc schemaName = .ok first) {title : String}
    {typeName : String → String} {fallback : TypeScript.Keyword}
    (rule : Projection title typeName fallback) :
    first.declarations.definition? title =
      some ⟨title, ["T"], .synonym (projectionTy typeName fallback (doc.channels.map Prod.fst))⟩ :=
  definition?_of_declares built
    (.projection (mem_projections_iff.mpr ⟨_, _, _, rule, rfl⟩))

theorem mem_definitions_reordered (reordered : doc.Reordered other)
    (built : ofDocument doc schemaName = .ok first)
    (built' : ofDocument other schemaName = .ok second) {named : TypeScript.Definition}
    (own : named.name ∉ projectionNames) (mem : named ∈ first.declarations.definitions) :
    named ∈ second.declarations.definitions := by
  have declared := (files_of_ofDocument built).1
  have ok := (succeeds_declarationsModule_iff.mp ⟨_, declared⟩).1
  obtain ⟨origin, h⟩ := ((definitions_declarationsModule declared).2 named).mp mem
  refine ((definitions_declarationsModule (files_of_ofDocument built').1).2 named).mpr ?_
  exact ⟨origin, declares_reordered reordered ok own h⟩

theorem definitions_perm (reordered : doc.Reordered other)
    (built : ofDocument doc schemaName = .ok first)
    (built' : ofDocument other schemaName = .ok second) :
    (first.declarations.definitions.filter (·.name ∉ projectionNames)).Perm
      (second.declarations.definitions.filter (·.name ∉ projectionNames)) := by
  have once := (definitions_declarationsModule (files_of_ofDocument built).1).1
  have once' := (definitions_declarationsModule (files_of_ofDocument built').1).1
  refine (List.perm_ext_iff_of_nodup ((List.Nodup.of_map _ once).filter _)
    ((List.Nodup.of_map _ once').filter _)).mpr ?_
  intro named
  simp only [List.mem_filter, decide_eq_true_eq]
  refine and_congr_left fun own => ⟨fun mem => ?_, fun mem => ?_⟩
  · exact mem_definitions_reordered reordered built built' own mem
  · exact mem_definitions_reordered reordered.symm built' built own mem

/-- The order of a document's entities neither decides whether it compiles nor, up to order, what
it compiles to. -/
theorem ofDocument_order_irrelevant {doc other : Document} (reordered : doc.Reordered other)
    (schemaName : String) :
    (Succeeds (ofDocument doc schemaName) ↔ Succeeds (ofDocument other schemaName)) ∧
    ∀ first second, ofDocument doc schemaName = .ok first →
      ofDocument other schemaName = .ok second → SameUpToOrder first second := by
  refine ⟨succeeds_ofDocument_reordered reordered, fun first second built built' => ?_⟩
  obtain ⟨snaps, halts⟩ := traces_of_ofDocument built
  obtain ⟨snaps', halts'⟩ := traces_of_ofDocument built'
  constructor
  · intro name
    have entries := entries_documentRegistry_perm reordered (files_of_ofDocument built).2
      (files_of_ofDocument built').2
    exact congrArg (Option.map _) (Table.get?_of_perm entries name)
  · exact definitions_perm reordered built built'
  · intro title mem
    obtain ⟨typeName, fallback, rule⟩ := mem_projectionNames_iff.mp mem
    exact ⟨_, _, definition?_projection built rule, definition?_projection built' rule⟩
  · rw [snaps, snaps']
    exact reordered.flagged _
  · rw [halts, halts']
    exact reordered.flagged _

/-- The same document from its end. The page now stands before the node that it extends. -/
def reversedPageDocument : Document where
  entities := {
    entries := pageDocument.entities.entries.reverse
    distinct := by decide }

theorem reversedPageDocument_reordered : pageDocument.Reordered reversedPageDocument :=
  (List.reverse_perm _).symm

theorem pageDocument_order_irrelevant :
    pageDocument.Reordered reversedPageDocument ∧
    Succeeds (ofDocument reversedPageDocument "protocol.yml") ∧
    ∃ first second, ofDocument pageDocument "protocol.yml" = .ok first ∧
      ofDocument reversedPageDocument "protocol.yml" = .ok second ∧
      SameUpToOrder first second := by
  obtain ⟨both, same⟩ := ofDocument_order_irrelevant reversedPageDocument_reordered "protocol.yml"
  have reversed := both.mp pageDocument_compiles
  obtain ⟨first, built⟩ := pageDocument_compiles
  obtain ⟨second, built'⟩ := reversed
  exact ⟨reversedPageDocument_reordered, ⟨second, built'⟩, first, second, built, built',
    same first second built built'⟩

end Compiled

end ChannelProtocol
