-- The generated files as texts. Their names are identifiers but for those of
-- channels, objects and enums that are none, their types print as some text but for
-- enums without literals, and their object types list no name twice but for mixins and
-- for keys that differ by a tag.
import ChannelProtocol.Proofs.Compiled.CallSites
import ChannelProtocol.Proofs.Compiled.Scope
import ChannelProtocol.Proofs.Schema.Listings
import ChannelProtocol.Proofs.Schema.RoundTrip

namespace ChannelProtocol.Compiled

open Schema TypeScript

variable {doc : Document} {schemaName : String} {compiled : Compiled}

/-! ## Names of types and entries -/

/-- A name that comes from a channel, an object or an enum whose own name is no identifier. -/
inductive Misnamed (doc : Document) : String → Prop
  | channel {name suffix : String} : doc.isChannel name → ¬ isIdentifier name →
      Misnamed doc (name ++ suffix)
  | type {name : String} : doc.isNamedType name → ¬ isIdentifier name → Misnamed doc name

/-- What is glued to the name of a channel makes an identifier, unless that name is none. -/
theorem identifier_or_misnamed {name suffix : String} {channel : Channel}
    (found : doc.channel? name = some channel)
    (parts : suffix.toList.all isIdentifierPart) :
    isIdentifier (name ++ suffix) ∨ Misnamed doc (name ++ suffix) := by
  by_cases named : isIdentifier name
  · exact .inl (isIdentifier_append named parts)
  · exact .inr (.channel (Option.isSome_iff_exists.mpr ⟨channel, found⟩) named)

theorem identifier_or_misnamed_member {name member suffix : String} {channel : Channel}
    (found : doc.channel? name = some channel) (named : isIdentifier member)
    (parts : suffix.toList.all isIdentifierPart) :
    isIdentifier (name ++ titleCase member ++ suffix) ∨
      Misnamed doc (name ++ titleCase member ++ suffix) := by
  rw [String.append_assoc]
  refine identifier_or_misnamed found ?_
  rw [String.toList_append, List.all_append, isIdentifierPart_titleCase named, parts]
  rfl

theorem identifier_or_misnamed_type {name : String} (known : doc.isNamedType name) :
    isIdentifier name ∨ Misnamed doc name := by
  by_cases named : isIdentifier name
  · exact .inl named
  · exact .inr (.type known named)

theorem identifier_of_declares (members : MembersNamed doc) {new : Declaration}
    (declares : Declares doc new) :
    isIdentifier new.definition.name ∨ Misnamed doc new.definition.name := by
  cases declares with
  | binary | anyChannel => exact .inl (by decide)
  | initializer found | eventTarget found | events found | channel found =>
    exact identifier_or_misnamed found (by decide)
  | event found held _ =>
    exact identifier_or_misnamed_member found
      ((members _ _ found).1 _ (List.mem_map_of_mem held)) (by decide)
  | parameters found held _ | options found held _ | result found held _ =>
    exact identifier_or_misnamed_member found
      ((members _ _ found).2 _ (List.mem_map_of_mem held)) (by decide)
  | object found | enum found =>
    exact identifier_or_misnamed_type (by simp [synonym, Document.isNamedType, found])
  | projection mem =>
    obtain ⟨name, typeName, fallback, rule, rfl⟩ := mem_projections_iff.mp mem
    left
    change isIdentifier name
    cases rule <;> decide

theorem identifier_of_registers (members : MembersNamed doc) {new : Registration}
    (registers : Registers doc new) : isIdentifier new.name ∨ Misnamed doc new.name := by
  cases registers with
  | initializer found => exact identifier_or_misnamed found (by decide)
  | event found held _ =>
    exact identifier_or_misnamed_member found
      ((members _ _ found).1 _ (List.mem_map_of_mem held)) (by decide)
  | parameters found held _ | result found held _ =>
    exact identifier_or_misnamed_member found
      ((members _ _ found).2 _ (List.mem_map_of_mem held)) (by decide)
  | inherited found _ parent mem _ =>
    exact identifier_or_misnamed_member found ((members _ _ parent).2 _ mem) (by decide)
  | object found | enum found =>
    exact identifier_or_misnamed_type (by simp [Document.isNamedType, found])

/-! ## Types and validators -/

theorem mem_propertyLists_of_entity {name : String} {entity : Entity}
    {list : Location × List Property} (found : doc.get? name = some entity)
    (mem : list ∈ entityLists (name, entity)) : list ∈ doc.propertyLists :=
  List.mem_flatMap.mpr ⟨_, (Table.get?_eq_some_iff ..).mp found, mem⟩

theorem mem_propertyLists_of_channel {name : String} {channel : Channel}
    (found : doc.channel? name = some channel) :
    (.member (.named name) "initializer", channel.initializer) ∈ doc.propertyLists ∧
    (∀ entry ∈ channel.events.entries, ∀ list ∈ entry.2.parameters,
      (.member (.named name) entry.1, list) ∈ doc.propertyLists) ∧
    ∀ entry ∈ channel.commands.entries,
      (∀ list ∈ entry.2.parameters,
        (.member (.member (.named name) entry.1) "parameters", list) ∈ doc.propertyLists) ∧
      ∀ list ∈ entry.2.returns,
        (.member (.member (.named name) entry.1) "returns", list) ∈ doc.propertyLists := by
  have entity := Document.channel?_eq_some_iff.mp found
  refine ⟨mem_propertyLists_of_entity entity ?_, fun entry mem list held => ?_,
    fun entry mem => ⟨fun list held => ?_, fun list held => ?_⟩⟩
  · simp [entityLists]
  · refine mem_propertyLists_of_entity entity (List.mem_append_left _ (List.mem_cons_of_mem _ ?_))
    exact List.mem_flatMap.mpr ⟨entry, mem, by simp [eventLists, Option.mem_def.mp held]⟩
  · refine mem_propertyLists_of_entity entity (List.mem_append_right _ ?_)
    exact List.mem_flatMap.mpr ⟨entry, mem, by simp [commandLists, Option.mem_def.mp held]⟩
  · refine mem_propertyLists_of_entity entity (List.mem_append_right _ ?_)
    exact List.mem_flatMap.mpr ⟨entry, mem, by simp [commandLists, Option.mem_def.mp held]⟩

/-- What a declared list is resolved to is accounted for, also without the fields that must be
there. -/
theorem accounts_of_resolve {place : Location} {list : List Property}
    {fields : List ResolvedField} (mem : (place, list) ∈ doc.propertyLists)
    (resolved : doc.resolve place list = .ok fields) :
    (objectTs fields).Throughout doc.Accounts ∧
      (objectTs (optionalFields fields)).Throughout doc.Accounts ∧
      doc.AccountsFor (objectValidator fields) := by
  have held := Document.holdsShape_of_mem mem
  have lists := Document.lists_of_resolveProperties held resolved
  have each := (Document.accounts_of_resolved doc).2 [] place list held fields resolved
  refine ⟨Document.throughout_objectTs lists fun field mem => (each field mem).1, ?_,
    Document.accountsFor_objectValidator lists fun field mem => (each field mem).2⟩
  exact Document.throughout_objectTs (lists.sublist (List.filter_sublist.map _)) fun field mem =>
    (each field (List.mem_of_mem_filter mem)).1

theorem accounts_of_resolveDeclared {place : Location} {declared : Option (List Property)}
    {fields : List ResolvedField} (mem : ∀ list ∈ declared, (place, list) ∈ doc.propertyLists)
    (resolved : resolveDeclared doc place declared = .ok fields) :
    (objectTs fields).Throughout doc.Accounts ∧
      (objectTs (optionalFields fields)).Throughout doc.Accounts := by
  cases declared with
  | none =>
    cases resolved
    exact ⟨Document.throughout_objectTs (.inl rfl) (by simp),
      Document.throughout_objectTs (.inl rfl) (by simp [optionalFields])⟩
  | some list =>
    obtain ⟨whole, optional, -⟩ := accounts_of_resolve (mem list rfl) resolved
    exact ⟨whole, optional⟩

theorem accounts_of_resultTy {place : Location} {declared : Option (List Property)}
    {ty : TypeScript.Ty} (mem : ∀ list ∈ declared, (place, list) ∈ doc.propertyLists)
    (resolved : resultTy doc place declared = .ok ty) : ty.Throughout doc.Accounts := by
  cases declared with
  | none =>
    cases resolved
    exact Document.throughout_leaf rfl
  | some list =>
    obtain ⟨fields, made, rfl⟩ := map_eq_ok_iff.mp resolved
    exact (accounts_of_resolve (mem list rfl) made).1

theorem accountsFor_declaredValidator {place : Location} {declared : Option (List Property)}
    {validator : Validator} (mem : ∀ list ∈ declared, (place, list) ∈ doc.propertyLists)
    (made : declaredValidator doc place declared = .ok validator) : doc.AccountsFor validator := by
  cases declared with
  | none =>
    cases made
    rintro slots (_ | within)
    cases within with
    | refl => exact .inl rfl
    | object mem => cases mem
  | some list =>
    obtain ⟨fields, resolved, rfl⟩ := map_eq_ok_iff.mp made
    exact (accounts_of_resolve (mem list rfl) resolved).2.2

theorem accountsFor_registers {new : Registration} (registers : Registers doc new) :
    doc.AccountsFor new.validator := by
  cases registers with
  | initializer found resolved =>
    exact (accounts_of_resolve (mem_propertyLists_of_channel found).1 resolved).2.2
  | event found held made =>
    exact accountsFor_declaredValidator ((mem_propertyLists_of_channel found).2.1 _ held) made
  | parameters found held made =>
    exact accountsFor_declaredValidator ((mem_propertyLists_of_channel found).2.2 _ held).1 made
  | result found held made =>
    exact accountsFor_declaredValidator ((mem_propertyLists_of_channel found).2.2 _ held).2 made
  | inherited => nofun
  | object found resolved =>
    have mem := mem_propertyLists_of_entity found (List.mem_singleton.mpr rfl)
    exact (accounts_of_resolve mem resolved).2.2
  | enum => nofun

theorem accounts_projectionTy (typeName : String → String) (fallback : Keyword)
    (channels : List String) :
    (projectionTy typeName fallback channels).Throughout doc.Accounts := by
  induction channels using List.reverseRecOn with
  | nil => exact Document.throughout_leaf rfl
  | append_singleton channels last ih =>
    rw [projectionTy_concat, Ty.throughout_conditional_iff]
    exact ⟨trivial, Document.throughout_leaf rfl, Document.throughout_leaf rfl,
      Document.throughout_leaf rfl, ih⟩

theorem accounts_listener (channel event : String) :
    (listener channel event).Throughout doc.Accounts := by
  have callback : (Ty.function [⟨"params", .ref (eventName channel event), false⟩]
      (.keyword .void)).Throughout doc.Accounts := by
    rw [Ty.throughout_function_iff, List.forall_mem_singleton]
    exact ⟨trivial, Document.throughout_leaf rfl, Document.throughout_leaf rfl⟩
  rw [listener, Member.Throughout, List.forall_mem_cons, List.forall_mem_singleton]
  exact ⟨⟨Document.throughout_leaf rfl, callback⟩, Document.throughout_leaf rfl⟩

theorem accounts_commandMethod (channel : String) (entry : String × Command) :
    (commandMethod channel entry).Throughout doc.Accounts := by
  obtain ⟨command, body⟩ := entry
  have promise : (Ty.promise (.ref (resultName channel command))).Throughout doc.Accounts := by
    unfold Ty.promise
    rw [Ty.throughout_generic_iff, List.forall_mem_singleton]
    exact ⟨trivial, Document.throughout_leaf rfl⟩
  rw [commandMethod, Member.Throughout, List.forall_mem_cons, List.forall_mem_singleton]
  exact ⟨⟨Document.throughout_leaf rfl, Document.throughout_leaf rfl⟩, promise⟩

theorem accounts_anyEvent (channel : String) (events : List String) :
    (anyEvent channel events).Throughout doc.Accounts := by
  cases events with
  | nil => exact Document.throughout_leaf rfl
  | cons first rest =>
    unfold anyEvent
    rw [Ty.throughout_union_iff, Document.Accounts, List.forall_mem_map, List.forall_mem_map]
    refine ⟨⟨fun none => absurd none (by simp), fun event _ level => ?_⟩, fun _ _ => ?_⟩
    · simp [Ty.print, eventName]
    · exact Document.throughout_leaf rfl

/-- Every type in a definition is accounted for. -/
theorem accounts_declares {new : Declaration} (declares : Declares doc new) :
    new.definition.Throughout doc.Accounts := by
  cases declares with
  | binary => exact Document.throughout_leaf rfl
  | anyChannel => exact nofun
  | initializer found resolved =>
    exact (accounts_of_resolve (mem_propertyLists_of_channel found).1 resolved).1
  | eventTarget found => exact List.forall_mem_map.mpr fun event _ => accounts_listener _ event
  | events found => exact accounts_anyEvent _ _
  | channel found =>
    refine List.forall_mem_cons.mpr ⟨Document.throughout_leaf rfl, List.forall_mem_map.mpr ?_⟩
    exact fun entry _ => accounts_commandMethod _ entry
  | event found held resolved =>
    exact (accounts_of_resolveDeclared ((mem_propertyLists_of_channel found).2.1 _ held) resolved).1
  | parameters found held resolved =>
    have mem := ((mem_propertyLists_of_channel found).2.2 _ held).1
    exact (accounts_of_resolveDeclared mem resolved).1
  | options found held resolved =>
    have mem := ((mem_propertyLists_of_channel found).2.2 _ held).1
    exact (accounts_of_resolveDeclared mem resolved).2
  | result found held resolved =>
    exact accounts_of_resultTy ((mem_propertyLists_of_channel found).2.2 _ held).2 resolved
  | object found resolved =>
    have mem := mem_propertyLists_of_entity found (List.mem_singleton.mpr rfl)
    exact (accounts_of_resolve mem resolved).1
  | @enum name literals found =>
    exact Document.throughout_literals fun none => .inl ⟨name, none ▸ found⟩
  | projection mem =>
    obtain ⟨name, typeName, fallback, -, rfl⟩ := mem_projections_iff.mp mem
    exact accounts_projectionTy typeName fallback _

/-! ## Types that print -/

theorem mem_mentions_of_within {name : String} {ty : TypeScript.Ty}
    (within : (Ty.ref name).Within ty) : name ∈ ty.mentions := by
  induction within with
  | refl => simp [Ty.mentions]
  | element _ ih => simpa [Ty.mentions] using ih
  | member mem _ ih =>
    rw [Ty.mentions, Ty.mem_mentionsAll_iff]
    exact ⟨_, mem, ih⟩
  | field mem _ ih =>
    rw [Ty.mentions, Field.mem_mentionsAll_iff]
    exact ⟨_, mem, ih⟩
  | argument mem _ ih =>
    rw [Ty.mentions, List.mem_cons, Ty.mem_mentionsAll_iff]
    exact .inr ⟨_, mem, ih⟩
  | parameter mem _ ih =>
    rw [Ty.mentions, List.mem_append, Field.mem_mentionsAll_iff]
    exact .inl ⟨_, mem, ih⟩
  | result _ ih | check _ ih | bound _ ih | hit _ ih | miss _ ih => simp [Ty.mentions, ih]

theorem mem_mentions_of_holds {name : String} {definition : Definition}
    (holds : definition.Holds (.ref name)) : name ∈ definition.mentions := by
  obtain ⟨_, _, body⟩ := definition
  cases body with
  | interface bases members =>
    obtain ⟨member, mem, holds⟩ := holds
    refine List.mem_append_right _ (List.mem_flatMap.mpr ⟨member, mem, ?_⟩)
    cases member with
    | property field => exact mem_mentions_of_within holds
    | method name parameters result =>
      rcases holds with ⟨parameter, mem, holds⟩ | holds
      · refine List.mem_append_left _ (Field.mem_mentionsAll_iff.mpr ⟨parameter, mem, ?_⟩)
        exact mem_mentions_of_within holds
      · exact List.mem_append_right _ (mem_mentions_of_within holds)
  | synonym ty => exact mem_mentions_of_within holds

/-- The name of a type is empty only where it is that of an object or an enum. -/
theorem isNamedType_of_declares {new : Declaration} (declares : Declares doc new)
    (empty : new.definition.name = "") : doc.isNamedType "" := by
  cases declares with
  | binary | anyChannel => simp [synonym, interface] at empty
  | initializer | eventTarget | events | channel | event | parameters | options | result =>
    simp [synonym, interface, initializerName, eventTargetName, eventsName, channelTypeName,
      eventName, paramsName, optionsName, resultName] at empty
  | object found | enum found =>
    cases empty
    simp [Document.isNamedType, found]
  | projection mem =>
    obtain ⟨name, typeName, fallback, rule, rfl⟩ := mem_projections_iff.mp mem
    cases rule <;> simp [projection] at empty

/-- A type without a name is mentioned only where a type without a name is declared. -/
theorem mem_declaredNames_of_nameless
    (known : ∀ child parent, doc.Extends child parent → doc.isChannel parent)
    {new : Declaration} (declares : Declares doc new) (holds : new.definition.Holds (.ref "")) :
    "" ∈ declaredNames doc := by
  rcases mentions_declares known declares (mem_mentions_of_holds holds) with
    declared | other | (other | other) | parameter
  · exact declared
  · simp at other
  · simp at other
  · simp at other
  · rcases parameters_declares declares with none | ⟨one, -⟩
    · simp [none] at parameter
    · simp [one] at parameter

section

variable (built : ofDocument doc schemaName = .ok compiled)
include built

/-- A type that prints as nothing is the union of an enum without literals, or it refers to an
object or an enum with an empty name. -/
theorem source_of_nothing {definition : Definition}
    (mem : definition ∈ compiled.declarations.definitions) {ty : TypeScript.Ty}
    (holds : definition.Holds ty) {level : Nat} (nothing : ty.print level = "") :
    ty = .union [] ∧ doc.HasEmptyEnum ∨ ty = .ref "" ∧ doc.isNamedType "" := by
  have file := (files_of_ofDocument built).1
  obtain ⟨-, listed⟩ := definitions_declarationsModule file
  obtain ⟨origin, declares⟩ := (listed definition).mp mem
  have accounts := (accounts_declares declares).apply holds
  have hollow : ty.Hollow := by
    refine Ty.hollow_of_print (fun items same item mem => ?_) nothing
    subst same
    exact accounts.2 item mem level
  cases ty with
  | union items =>
    cases hollow
    exact .inl ⟨rfl, accounts.1 rfl⟩
  | ref name =>
    cases hollow
    have nameless := mem_declaredNames_of_nameless (ancestry_of_ofDocument built).1 declares holds
    rw [← names_declarationsModule file, List.mem_map] at nameless
    obtain ⟨other, mem, empty⟩ := nameless
    obtain ⟨origin, declares⟩ := (listed other).mp mem
    exact .inr ⟨rfl, isNamedType_of_declares declares empty⟩
  | keyword | array | object | literal | generic | function | conditional => cases hollow

/-! ## The files -/

/-- The names that the validators file assigns to are those of registrations. -/
theorem registers_of_mem_items {member : String} {value : Expr}
    (mem : .statement (.assign (.member (.ident "scheme") member) value) ∈
      compiled.validators.items) : ∃ new, Registers doc new ∧ new.name = member := by
  obtain ⟨declarations, registry, -, registered, rfl⟩ := parts_of_ofDocument built
  obtain ⟨entry, held, same⟩ := List.mem_map.mp mem
  cases same
  exact ⟨_, (mem_documentRegistry_iff registered).mp held, rfl⟩

end

/-- The files of a document that was read and compiled. The names of types, and the names to which
validators are assigned, are identifiers, unless the channel, object or enum that they come from
is not named by one. A type prints as nothing, at any depth, only if it is the union of an enum
without literals or refers to an object or an enum with an empty name. And an object type or an
object validator lists a name twice only for a list that splices a mixin, or for one with two keys
of one text that are told apart by a tag. -/
theorem files_lexically_wellFormed {root : Yaml.Value} (read : Document.ofValue root = .ok doc)
    (built : ofDocument doc schemaName = .ok compiled) :
    (∀ definition ∈ compiled.declarations.definitions,
      isIdentifier definition.name ∨ Misnamed doc definition.name) ∧
    (∀ member value, .statement (.assign (.member (.ident "scheme") member) value) ∈
      compiled.validators.items → isIdentifier member ∨ Misnamed doc member) ∧
    (∀ definition ∈ compiled.declarations.definitions, ∀ ty, definition.Holds ty →
      ∀ level, ty.print level = "" →
        ty = .union [] ∧ doc.HasEmptyEnum ∨ ty = .ref "" ∧ doc.isNamedType "") ∧
    ((root.KeysDistinct ∨ ∃ text, Yaml.read text = .ok root) →
      (∀ definition ∈ compiled.declarations.definitions, ∀ fields,
        definition.Holds (.object fields) →
          (fields.map Field.name).Nodup ∨ doc.Spliced (fields.map Field.name) ∨
            Document.RepeatsTagged root (fields.map Field.name)) ∧
      ∀ entry ∈ compiled.registry.entries, ∀ slots,
        Validator.Within (.object slots) entry.2.validator →
          (slots.map Slot.name).Nodup ∨ doc.Spliced (slots.map Slot.name) ∨
            Document.RepeatsTagged root (slots.map Slot.name)) := by
  obtain ⟨file, registry⟩ := files_of_ofDocument built
  obtain ⟨-, listed⟩ := definitions_declarationsModule file
  have members := membersNamed_of_read read
  refine ⟨fun definition mem => ?_, fun member value mem => ?_, ?_, fun origin => ?_⟩
  · obtain ⟨_, declares⟩ := (listed definition).mp mem
    exact identifier_of_declares members declares
  · obtain ⟨new, registers, rfl⟩ := registers_of_mem_items built mem
    exact identifier_of_registers members registers
  · intro definition mem ty holds level nothing
    exact source_of_nothing built mem holds nothing
  · have distinct := origin.elim id fun ⟨_, parsed⟩ => Yaml.keysDistinct_of_read parsed
    constructor
    · intro definition mem fields holds
      obtain ⟨_, declares⟩ := (listed definition).mp mem
      exact Document.nodup_or_repeats read distinct ((accounts_declares declares).apply holds)
    · intro entry mem slots within
      have registers := (mem_documentRegistry_iff registry).mp mem
      exact Document.nodup_or_repeats read distinct (accountsFor_registers registers slots within)

/-! ## A document with an enum and a mixin -/

def sizeField : Property := .field "size" ⟨.string, false⟩

/-- An enum, and a box beside a mixin with a size. -/
def boxDocument (name : String) (literals : List String) (box : List Property)
    (fresh : name ∉ ["Sized", "Box"]) : Document where
  entities := {
    entries := [(name, .enum literals), ("Sized", .mixin [sizeField]), ("Box", .object box)]
    distinct := List.nodup_cons.mpr ⟨fresh, by simp⟩ }

section

variable {name : String} {literals : List String} {box : List Property}
  {fresh : name ∉ ["Sized", "Box"]}

theorem sized_of_mixin? {mixin : String} {held : List Property}
    (found : (boxDocument name literals box fresh).mixin? mixin = some held) :
    held = [sizeField] := by
  have mem := (Table.get?_eq_some_iff ..).mp (Document.mixin?_eq_some_iff.mp found)
  have both : mixin = "Sized" ∧ held = [sizeField] := by simpa [boxDocument] using mem
  exact both.2

theorem mixin?_sized : (boxDocument name literals box fresh).mixin? "Sized" = some [sizeField] :=
  Document.mixin?_eq_some_iff.mpr ((Table.get?_eq_some_iff ..).mpr (by simp [boxDocument]))

theorem boxDocument_finite (mixin : String) :
    ¬ (boxDocument name literals box fresh).Endless mixin := by
  refine Document.not_endless_of_flat (fun owner held inner found inline => ?_) mixin
  rw [sized_of_mixin? found] at inline
  obtain ⟨name, ty, h, object⟩ := inline
  cases List.mem_singleton.mp h
  cases object

-- All that the box holds is a size, of its own or from the mixin.
variable (sizes : ∀ property ∈ box, property = .splice "Sized" ∨ property = sizeField)
include sizes

theorem boxDocument_sound : (boxDocument name literals box fresh).Sound box := by
  have known : ((boxDocument name literals box fresh).mixin? "Sized").isSome := by
    rw [mixin?_sized]
    rfl
  have acyclic : ¬ Relation.TransGen (boxDocument name literals box fresh).Splices
      "Sized" "Sized" := by
    intro h
    obtain ⟨other, ⟨held, found, mem⟩, -⟩ := Relation.TransGen.head'_iff.mp h
    rw [sized_of_mixin? found] at mem
    simp [sizeField] at mem
  have only (list : List Property) (mem : list ∈ [[sizeField], box]) :
      ∀ property ∈ list, property = .splice "Sized" ∨ property = sizeField := by
    simp only [List.mem_cons, List.not_mem_nil, or_false] at mem
    rcases mem with rfl | rfl
    · simp
    · exact sizes
  have all : ∀ list ∈ [[sizeField], box], (boxDocument name literals box fresh).Sound list := by
    refine Document.sound_of_closed (fun list mem => ?_) fun list mem other step => ?_
    · have here := only list mem
      constructor <;> grind [Shape.innermost, sizeField]
    · cases step with
      | mixin _ found => simp [sized_of_mixin? found]
      | inline inline =>
        obtain ⟨name, ty, h, object⟩ := inline
        have here := only list mem _ h
        grind [Shape.innermost, sizeField]
  exact all _ (by simp)

theorem boxDocument_compiles
    (distinct : (derivedNames (boxDocument name literals box fresh)).Nodup) :
    Succeeds (ofDocument (boxDocument name literals box fresh) "protocol.yml") := by
  have alone (child parent : String) :
      ¬ (boxDocument name literals box fresh).Extends child parent := by
    rintro ⟨channel, found, -⟩
    simpa [boxDocument] using mem_entries_of_channel? found
  refine (succeeds_ofDocument_iff_entities boxDocument_finite).mpr
    ⟨succeeds_lineage_of_roots alone, ?_, distinct⟩
  intro entry mem
  simp only [boxDocument, List.mem_cons, List.not_mem_nil, or_false] at mem
  rcases mem with rfl | rfl | rfl
  · trivial
  · trivial
  · exact boxDocument_sound sizes

omit sizes in
theorem names_of_sizes {route : List String} {location : Location} {list : List Property}
    (sizes : ∀ property ∈ list, property = .splice "Sized" ∨ property = sizeField)
    {inlined : List Inlined}
    (expanded : (boxDocument name literals box fresh).inlineFields route location list =
      .ok inlined) :
    inlined.map Inlined.name = list.map fun _ => "size" := by
  induction list generalizing inlined with
  | nil =>
    rw [Document.inlineFields] at expanded
    cases expanded
    rfl
  | cons property rest ih =>
    rw [List.forall_mem_cons] at sizes
    rcases sizes.1 with rfl | rfl
    · obtain ⟨-, held, own, others, found, inner, later, rfl⟩ :=
        Document.inlineFields_splice_cons.mp expanded
      cases sized_of_mixin? found
      have size := Document.names_of_inlineFields (by simp [sizeField]) inner
      simp [size, ih sizes.2 later, fieldNames, sizeField]
    · obtain ⟨others, later, rfl⟩ := Document.inlineFields_field_cons.mp expanded
      simp [ih sizes.2 later]

/-- The object lists a size for each of its properties. -/
theorem box_fields
    (built : ofDocument (boxDocument name literals box fresh) schemaName = .ok compiled) :
    ∃ definition ∈ compiled.declarations.definitions, ∃ fields,
      definition.Holds (.object fields) ∧ fields.map Field.name = box.map fun _ => "size" := by
  have found : (boxDocument name literals box fresh).get? "Box" = some (.object box) :=
    (Table.get?_eq_some_iff ..).mpr (by simp [boxDocument])
  obtain ⟨fields, resolved⟩ := resolve_of_surface built (.object found)
  obtain ⟨-, listed⟩ := definitions_declarationsModule (files_of_ofDocument built).1
  refine ⟨_, (listed _).mpr ⟨_, .object found resolved⟩, _, .refl, ?_⟩
  obtain ⟨inlined, expanded, -⟩ := Document.succeeds_resolveProperties_iff.mp ⟨fields, resolved⟩
  rw [← names_of_sizes sizes expanded, ← Document.names_of_resolveProperties expanded resolved,
    List.map_map]
  rfl

end

/-- The mixin is spliced twice. -/
def splicedBox : Document :=
  boxDocument "Size" ["small"] [.splice "Sized", .splice "Sized"] (by decide)

/-- The size comes twice by itself. -/
def taggedBox : Document := boxDocument "Size" ["small"] [sizeField, sizeField] (by decide)

/-- The one size has a tag and the other has none. -/
def taggedBoxRoot : Yaml.Value :=
  record [
    ("Size", record [("type", .string "enum"), ("literals", .sequence [.string "small"])]),
    ("Sized", record [("type", .string "mixin"),
      ("properties", record [("size", .string "string")])]),
    ("Box", record [("type", .string "object"),
      ("properties", .mapping [plainEntry "size" (.string "string"),
        ⟨.tagged "t" (.string "size"), .string "string"⟩])])]

/-- The enum has no literals. -/
def hollowBox : Document := boxDocument "Size" [] [sizeField] (by decide)

/-- The name of the enum is no identifier. -/
def dashedBox : Document := boxDocument "foo-bar" ["small"] [sizeField] (by decide)

/-- A mixin that is spliced twice gives its fields twice, as it is meant to. The other three are
slips: a key with a tag gives its field once more, an enum without literals is written as nothing,
and a name that is no identifier is written as it is. -/
theorem boxes_badly_formed :
    (∃ compiled, Document.ofValue splicedBox.spell = .ok splicedBox ∧
      ofDocument splicedBox "protocol.yml" = .ok compiled ∧
      ∃ definition ∈ compiled.declarations.definitions, ∃ fields,
        definition.Holds (.object fields) ∧ ¬ (fields.map Field.name).Nodup) ∧
    (∃ compiled, Document.ofValue taggedBoxRoot = .ok taggedBox ∧
      ofDocument taggedBox "protocol.yml" = .ok compiled ∧
      ∃ definition ∈ compiled.declarations.definitions, ∃ fields,
        definition.Holds (.object fields) ∧ ¬ (fields.map Field.name).Nodup) ∧
    (∃ compiled, Document.ofValue hollowBox.spell = .ok hollowBox ∧
      ofDocument hollowBox "protocol.yml" = .ok compiled ∧
      ∃ definition ∈ compiled.declarations.definitions, ∃ ty,
        definition.Holds ty ∧ ty.print 0 = "") ∧
    ∃ compiled, Document.ofValue dashedBox.spell = .ok dashedBox ∧
      ofDocument dashedBox "protocol.yml" = .ok compiled ∧
      ∃ definition ∈ compiled.declarations.definitions, ¬ isIdentifier definition.name := by
  refine ⟨?_, ?_, ?_, ?_⟩
  · obtain ⟨compiled, built⟩ : Succeeds (ofDocument splicedBox "protocol.yml") :=
      boxDocument_compiles (by simp) (by decide +kernel)
    obtain ⟨definition, mem, fields, holds, names⟩ := box_fields (by simp) built
    exact ⟨compiled, rfl, built, definition, mem, fields, holds, by simp [names]⟩
  · obtain ⟨compiled, built⟩ : Succeeds (ofDocument taggedBox "protocol.yml") :=
      boxDocument_compiles (by simp) (by decide +kernel)
    obtain ⟨definition, mem, fields, holds, names⟩ := box_fields (by simp) built
    exact ⟨compiled, rfl, built, definition, mem, fields, holds, by simp [names]⟩
  · obtain ⟨compiled, built⟩ : Succeeds (ofDocument hollowBox "protocol.yml") :=
      boxDocument_compiles (by simp) (by decide +kernel)
    obtain ⟨-, listed⟩ := definitions_declarationsModule (files_of_ofDocument built).1
    have found : hollowBox.get? "Size" = some (.enum []) := rfl
    refine ⟨compiled, rfl, built, _, (listed _).mpr ⟨_, .enum found⟩, _, .refl, ?_⟩
    rw [Ty.literals, Ty.print]
    rfl
  · obtain ⟨compiled, built⟩ : Succeeds (ofDocument dashedBox "protocol.yml") :=
      boxDocument_compiles (by simp) (by decide +kernel)
    obtain ⟨-, listed⟩ := definitions_declarationsModule (files_of_ofDocument built).1
    have found : dashedBox.get? "foo-bar" = some (.enum ["small"]) := rfl
    exact ⟨compiled, rfl, built, _, (listed _).mpr ⟨_, .enum found⟩, by decide⟩

/-- Both files are well formed, but for the field that comes twice. -/
theorem splicedBox_wellFormed :
    ∃ compiled, Document.ofValue splicedBox.spell = .ok splicedBox ∧
      ofDocument splicedBox "protocol.yml" = .ok compiled ∧
      (∀ definition ∈ compiled.declarations.definitions, isIdentifier definition.name ∧
        ∀ ty, definition.Holds ty → ty.print 0 ≠ "") ∧
      ∃ names, ¬ names.Nodup ∧ splicedBox.Spliced names := by
  obtain ⟨compiled, built⟩ : Succeeds (ofDocument splicedBox "protocol.yml") :=
    boxDocument_compiles (by simp) (by decide +kernel)
  have read : Document.ofValue splicedBox.spell = .ok splicedBox := rfl
  obtain ⟨identifiers, -, texts, twice⟩ := files_lexically_wellFormed read built
  have named (name : String) : ¬ Misnamed splicedBox name := by
    rintro (⟨known, other⟩ | ⟨known, other⟩)
    · obtain ⟨channel, found⟩ := Option.isSome_iff_exists.mp known
      simpa [splicedBox, boxDocument] using mem_entries_of_channel? found
    · cases found : splicedBox.get? name with
      | none => simp [Document.isNamedType, found] at known
      | some entity =>
        have mem := (Table.get?_eq_some_iff ..).mp found
        simp only [splicedBox, boxDocument, List.mem_cons, List.not_mem_nil, or_false,
          Prod.mk.injEq] at mem
        rcases mem with ⟨rfl, -⟩ | ⟨rfl, -⟩ | ⟨rfl, -⟩ <;> exact other (by decide)
  have full : ¬ splicedBox.HasEmptyEnum := by
    rintro (⟨name, found⟩ | ⟨declared, mem, holds⟩)
    · have mem := (Table.get?_eq_some_iff ..).mp found
      simp [splicedBox, boxDocument] at mem
    · simp only [Document.propertyLists, splicedBox, boxDocument, List.flatMap_cons,
        List.flatMap_nil, entityLists, List.nil_append, List.append_nil, List.cons_append,
        List.mem_cons, List.not_mem_nil, or_false] at mem
      rcases mem with rfl | rfl
      · cases holds with
        | field mem deeper =>
          cases List.mem_singleton.mp mem
          cases deeper
      · cases holds with
        | field mem deeper => simp at mem
  have plain : splicedBox.spell.Plain := by
    simp [splicedBox, boxDocument, sizeField, Document.spell, spellTable, Entity.spell, spellList,
      spellProperties, Ty.spell, Shape.spell, spliceKey, record, recordEntries, plainEntry,
      Yaml.Value.plain_mapping_iff, Yaml.Value.plain_sequence_iff, Yaml.Value.same]
  obtain ⟨untagged, distinct⟩ := Yaml.Value.plain_iff.mp plain
  refine ⟨compiled, read, built, fun definition mem => ⟨?_, ?_⟩, ?_⟩
  · exact (identifiers definition mem).resolve_right (named _)
  · intro ty holds nothing
    rcases texts definition mem ty holds 0 nothing with ⟨-, empty⟩ | ⟨-, nameless⟩
    · exact full empty
    · exact absurd nameless (by decide)
  · obtain ⟨definition, mem, fields, holds, names⟩ := box_fields (by simp) built
    have listed := (twice (.inl distinct)).1 definition mem fields holds
    rw [names] at listed
    have spliced := (listed.resolve_left (by decide)).resolve_right
      (Document.not_repeatsTagged untagged _)
    exact ⟨_, by decide, spliced⟩

end ChannelProtocol.Compiled
