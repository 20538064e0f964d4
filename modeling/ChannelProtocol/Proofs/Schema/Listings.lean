-- Which names the object types and the object validators of a document list,
-- at every depth: those of the fields of an expanded property list.
import ChannelProtocol.Proofs.Registry.Lookups
import ChannelProtocol.Proofs.Schema.Classification
import ChannelProtocol.Proofs.Schema.Twins
import ChannelProtocol.Proofs.TypeScript.Parts

namespace ChannelProtocol.Schema

/-! ## Shapes at every depth of a document -/

theorem Shape.Holds.trans {outer middle inner : Shape} (first : outer.Holds middle)
    (second : middle.Holds inner) : outer.Holds inner := by
  induction first with
  | self => exact second
  | element _ ih => exact .element (ih second)
  | field mem _ ih => exact .field mem (ih second)

namespace Document

/-- A shape stands in a declared list of the document, at any depth. -/
def HoldsShape (doc : Document) (shape : Shape) : Prop :=
  ∃ declared ∈ doc.propertyLists, (Shape.object declared.2).Holds shape

variable {doc : Document}

theorem HoldsShape.deeper {outer inner : Shape} (held : doc.HoldsShape outer)
    (holds : outer.Holds inner) : doc.HoldsShape inner := by
  obtain ⟨declared, mem, first⟩ := held
  exact ⟨declared, mem, first.trans holds⟩

theorem holdsShape_of_mem {place : Location} {list : List Property}
    (mem : (place, list) ∈ doc.propertyLists) : doc.HoldsShape (.object list) :=
  ⟨_, mem, .self _⟩

theorem mem_propertyLists_of_mixin? {mixin : String} {list : List Property}
    (found : doc.mixin? mixin = some list) : (.named mixin, list) ∈ doc.propertyLists := by
  have mem := (Table.get?_eq_some_iff ..).mp (mixin?_eq_some_iff.mp found)
  exact List.mem_flatMap.mpr ⟨_, mem, by simp [entityLists]⟩

/-- What is expanded stands in the document. -/
theorem holdsShape_of_expand {location : Location} {list : List Property}
    {inlined : List Inlined} (held : doc.HoldsShape (.object list))
    (expanded : doc.expand location list = .ok inlined) {field : Inlined}
    (mem : field ∈ inlined) : doc.HoldsShape field.ty.shape := by
  rcases own_or_owned expanded mem with ⟨-, own⟩ | ⟨owner, list, -, found, own, -⟩
  · exact held.deeper (.field own (.self _))
  · exact (holdsShape_of_mem (mem_propertyLists_of_mixin? found)).deeper (.field own (.self _))

/-! ## The names of fields -/

/-- Every list in a document that was read has the keys of a mapping in the root. -/
theorem keyedIn_of_read {root : Yaml.Value} (read : Document.ofValue root = .ok doc)
    {list : List Property} (held : doc.HoldsShape (.object list)) : KeyedIn root list := by
  obtain ⟨named, all, rfl⟩ := exists_readFrom read
  obtain ⟨declared, mem, holds⟩ := held
  obtain ⟨optional, whole⟩ := readIn_of_mem_propertyLists all mem holds
  exact whole.list.keyed

/-- No names, or names in the order of the fields of an expanded list of the document, of which
some may be left out. -/
def Lists (doc : Document) (names : List String) : Prop :=
  names = [] ∨ ∃ list location inlined, doc.HoldsShape (.object list) ∧
    doc.expand location list = .ok inlined ∧ names.Sublist (inlined.map Inlined.name)

theorem Lists.sublist {names fewer : List String} (lists : doc.Lists names)
    (sublist : fewer.Sublist names) : doc.Lists fewer := by
  rcases lists with rfl | ⟨list, location, inlined, held, expanded, whole⟩
  · exact .inl (List.sublist_nil.mp sublist)
  · exact .inr ⟨list, location, inlined, held, expanded, sublist.trans whole⟩

theorem names_of_resolveProperties {path : List String} {location : Location}
    {list : List Property} {inlined : List Inlined} {fields : List ResolvedField}
    (expanded : doc.expand location list = .ok inlined)
    (resolved : doc.resolveProperties path location list = .ok fields) :
    fields.map ResolvedField.name = inlined.map Inlined.name := by
  rw [resolveProperties_eq, expanded] at resolved
  refine (map_eq_map_of_map_eq_ok (fun source field made => ?_) (mapM_eq_ok_iff.mp resolved)).symm
  unfold resolveField at made
  split at made
  · cases made
  · obtain ⟨_, -, made⟩ := bind_eq_ok_iff.mp made
    cases made
    rfl

theorem lists_of_resolveProperties {path : List String} {location : Location}
    {list : List Property} {fields : List ResolvedField} (held : doc.HoldsShape (.object list))
    (resolved : doc.resolveProperties path location list = .ok fields) :
    doc.Lists (fields.map ResolvedField.name) := by
  obtain ⟨inlined, expanded, -⟩ := succeeds_resolveProperties_iff.mp ⟨fields, resolved⟩
  have same := names_of_resolveProperties expanded resolved
  exact .inr ⟨list, location, inlined, held, expanded, same ▸ List.Sublist.refl _⟩

/-- A list without splices is expanded to its own fields. -/
theorem names_of_inlineFields {route : List String} {location : Location} {list : List Property}
    {inlined : List Inlined} (plain : ∀ mixin, .splice mixin ∉ list)
    (expanded : doc.inlineFields route location list = .ok inlined) :
    inlined.map Inlined.name = fieldNames list := by
  induction list generalizing inlined with
  | nil =>
    rw [inlineFields] at expanded
    cases expanded
    rfl
  | cons property rest ih =>
    cases property with
    | field name ty =>
      obtain ⟨others, later, rfl⟩ := inlineFields_field_cons.mp expanded
      have deeper := ih (fun mixin mem => plain mixin (List.mem_cons_of_mem _ mem)) later
      rw [List.map_cons, deeper, fieldNames_field_cons]
    | splice mixin => exact absurd (by simp) (plain mixin)

/-- Names that are listed for a list which splices a mixin. -/
def Spliced (doc : Document) (names : List String) : Prop :=
  ∃ list mixin location inlined, doc.HoldsShape (.object list) ∧ .splice mixin ∈ list ∧
    doc.expand location list = .ok inlined ∧ names.Sublist (inlined.map Inlined.name)

/-- Names that are among the keys of a mapping in the root, of which two have one text and are told
apart by a tag. -/
def RepeatsTagged (root : Yaml.Value) (names : List String) : Prop :=
  ∃ entries text, (Yaml.Value.mapping entries).Within root ∧ names.Sublist (keyTexts entries) ∧
    [text, text].Sublist names ∧ ToldByTag entries text

theorem not_repeatsTagged {root : Yaml.Value} (untagged : root.Untagged) (names : List String) :
    ¬ RepeatsTagged root names := by
  rintro ⟨entries, text, within, -, -, told⟩
  exact not_toldByTag (fun inner deeper => untagged inner (deeper.trans within)) text told

/-- In a document that was read, a name comes twice only for a splice or for a tag. -/
theorem nodup_or_repeats {root : Yaml.Value} (read : Document.ofValue root = .ok doc)
    (distinct : root.KeysDistinct) {names : List String} (lists : doc.Lists names) :
    names.Nodup ∨ doc.Spliced names ∨ RepeatsTagged root names := by
  rcases lists with rfl | ⟨list, location, inlined, held, expanded, sublist⟩
  · exact .inl List.nodup_nil
  by_cases spliced : ∃ mixin, .splice mixin ∈ list
  · obtain ⟨mixin, mem⟩ := spliced
    exact .inr (.inl ⟨list, mixin, location, inlined, held, mem, expanded, sublist⟩)
  rw [names_of_inlineFields (not_exists.mp spliced) expanded] at sublist
  rcases keyedIn_of_read read held with none | ⟨entries, within, keys⟩
  · rw [none, List.sublist_nil] at sublist
    exact .inl (sublist ▸ List.nodup_nil)
  rw [keys] at sublist
  have among := sublist.trans List.filter_sublist
  by_cases nodup : names.Nodup
  · exact .inl nodup
  -- A text that comes twice is that of two keys, which are not the same key.
  rw [List.nodup_iff_sublist, not_forall] at nodup
  obtain ⟨text, twice⟩ := nodup
  have twice := not_not.mp twice
  refine .inr (.inr ⟨entries, text, within, among, twice, ?_⟩)
  exact toldByTag_of_twice (distinct _ within) (twice.trans among)

/-! ## Resolved types and validators -/

/-- Some enum of the document, with a name or inline, has no literals. -/
def HasEmptyEnum (doc : Document) : Prop :=
  (∃ name, doc.get? name = some (.enum [])) ∨ doc.HoldsShape (.literals [])

/-- What a document is the reason for in a type: an empty union comes from an enum without
literals, the members of a union print as something, and an object type lists the fields of a
property list. -/
def Accounts (doc : Document) : TypeScript.Ty → Prop
  | .union members => (members = [] → doc.HasEmptyEnum) ∧
    ∀ member ∈ members, ∀ level, member.print level ≠ ""
  | .object fields => doc.Lists (fields.map TypeScript.Field.name)
  | _ => True

/-- All object validators in a validator list the fields of a property list. -/
def AccountsFor (doc : Document) (validator : Validator) : Prop :=
  ∀ slots, Validator.Within (.object slots) validator → doc.Lists (slots.map Slot.name)

theorem throughout_leaf {ty : TypeScript.Ty} (leaf : ty.isLeaf) :
    ty.Throughout doc.Accounts := by
  rw [TypeScript.Ty.throughout_leaf_iff leaf]
  cases ty <;> trivial

theorem throughout_literals {texts : List String} (empty : texts = [] → doc.HasEmptyEnum) :
    (TypeScript.Ty.literals texts).Throughout doc.Accounts := by
  unfold TypeScript.Ty.literals
  rw [TypeScript.Ty.throughout_union_iff]
  refine ⟨⟨fun none => empty (List.map_eq_nil_iff.mp none), ?_⟩, ?_⟩
  · rw [List.forall_mem_map]
    intro text _ level
    simp [TypeScript.Ty.print, TypeScript.quoted]
  · rw [List.forall_mem_map]
    exact fun text _ => throughout_leaf rfl

/-- An object type is accounted for if its fields are. -/
theorem throughout_objectTs {fields : List ResolvedField}
    (lists : doc.Lists (fields.map ResolvedField.name))
    (each : ∀ field ∈ fields, field.type.ts.Throughout doc.Accounts) :
    (objectTs fields).Throughout doc.Accounts := by
  unfold objectTs
  rw [TypeScript.Ty.throughout_object_iff]
  constructor
  · rw [Accounts, List.map_map]
    exact lists
  · intro field mem
    obtain ⟨source, held, rfl⟩ := List.mem_map.mp mem
    exact each source held

theorem accountsFor_slot {field : ResolvedField} (inner : doc.AccountsFor field.type.validator) :
    doc.AccountsFor field.slot.validator := by
  unfold ResolvedField.slot
  split
  · intro slots within
    cases within with
    | optional within => exact inner slots within
  · exact inner

theorem accountsFor_objectValidator {fields : List ResolvedField}
    (lists : doc.Lists (fields.map ResolvedField.name))
    (each : ∀ field ∈ fields, doc.AccountsFor field.type.validator) :
    doc.AccountsFor (objectValidator fields) := by
  unfold objectValidator
  intro slots within
  cases within with
  | refl =>
    rw [List.map_map]
    exact lists
  | object mem within =>
    obtain ⟨source, held, rfl⟩ := List.mem_map.mp mem
    exact accountsFor_slot (each source held) slots within

/-- What a shape of a document is resolved to is accounted for, and so is what each field of a list
is resolved to. -/
theorem accounts_of_resolved (doc : Document) :
    (∀ path location shape, doc.HoldsShape shape → ∀ ty validator,
      doc.resolveShape path location shape = .ok (ty, validator) →
        ty.Throughout doc.Accounts ∧ doc.AccountsFor validator) ∧
    ∀ path location list, doc.HoldsShape (.object list) → ∀ fields,
      doc.resolveProperties path location list = .ok fields → ∀ field ∈ fields,
        field.type.ts.Throughout doc.Accounts ∧ doc.AccountsFor field.type.validator := by
  apply resolve_induction doc
  case leaf =>
    intro path location shape leaf held ty validator h
    cases shape with
    | reference | channel | array | object => cases leaf
    | literals texts =>
      rw [resolveShape] at h
      cases h
      exact ⟨throughout_literals fun none => .inr (none ▸ held), fun _ within => by cases within⟩
    | string | boolean | number | undefined | binary | any | anyChannel =>
      rw [resolveShape] at h
      cases h
      exact ⟨throughout_leaf rfl, fun _ within => by cases within⟩
  case reference | channel =>
    intro path location name held ty validator h
    rw [resolveShape] at h
    rw [if_pos (succeeds_ite_iff.mp ⟨_, h⟩)] at h
    cases h
    exact ⟨throughout_leaf rfl, fun _ within => by cases within⟩
  case array =>
    intro path location element optional ih held ty validator h
    rw [resolveShape] at h
    obtain ⟨⟨ts, inner⟩, made, h⟩ := bind_eq_ok_iff.mp h
    cases h
    obtain ⟨type, rule⟩ := ih (held.deeper (.element (.self _))) ts inner made
    refine ⟨TypeScript.Ty.throughout_array_iff.mpr ⟨trivial, type⟩, fun slots within => ?_⟩
    cases within with
    | array within => exact rule slots within
  case object =>
    intro path location list ih held ty validator h
    rw [resolveShape] at h
    obtain ⟨fields, resolved, h⟩ := bind_eq_ok_iff.mp h
    cases h
    have lists := lists_of_resolveProperties held resolved
    have each := ih held fields resolved
    exact ⟨throughout_objectTs lists fun field mem => (each field mem).1,
      accountsFor_objectValidator lists fun field mem => (each field mem).2⟩
  case refused =>
    intro path location list error failed held fields h
    rw [resolveProperties_eq, failed] at h
    cases h
  case expanded =>
    intro path location list inlined expanded ih held fields h field mem
    obtain ⟨source, listed, fresh, shape⟩ := mem_of_resolveProperties expanded h mem
    exact ih source listed fresh (holdsShape_of_expand held expanded listed) _ _ shape

end Document

end ChannelProtocol.Schema
