-- Names that are glued together from identifiers, and types at every depth of
-- a definition. Of types only an empty union and a reference without a name print
-- as nothing.
import ChannelProtocol.Proofs.TypeScript.Literals
import ChannelProtocol.TypeScript.Printer

namespace ChannelProtocol.TypeScript

/-! ## Identifiers -/

theorem isIdentifier_append {base suffix : String} (h : isIdentifier base)
    (parts : suffix.toList.all isIdentifierPart) : isIdentifier (base ++ suffix) := by
  unfold isIdentifier at h ⊢
  rw [String.toList_append]
  cases chars : base.toList with
  | nil => simp [chars] at h
  | cons first rest =>
    simp only [chars, Bool.and_eq_true] at h
    simp only [List.cons_append, List.all_append, Bool.and_eq_true]
    exact ⟨h.1, h.2, parts⟩

theorem toNat_lt_of_isIdentifierStart {c : Char} (h : isIdentifierStart c) : c.toNat < 128 := by
  have letters : c.isAlpha =
      (decide ('A'.val ≤ c.val ∧ c.val ≤ 'Z'.val) || ('a'.val ≤ c.val && c.val ≤ 'z'.val)) := rfl
  simp only [isIdentifierStart, letters, Bool.or_eq_true, Bool.and_eq_true, decide_eq_true_eq,
    beq_iff_eq, UInt32.le_iff_toNat_le] at h
  rcases h with (letter | rfl) | rfl
  · have code : c.toNat = c.val.toNat := rfl
    have upper : 'Z'.val.toNat = 90 := rfl
    have lower : 'z'.val.toNat = 122 := rfl
    omega
  · decide
  · decide

/-- An identifier keeps its characters in the title case, but for the first one. -/
theorem isIdentifierPart_titleCase {name : String} (h : isIdentifier name) :
    (titleCase name).toList.all isIdentifierPart := by
  have small : ∀ code < 128, isIdentifierStart (Char.ofNat code) →
      isIdentifierPart (Char.ofNat code).toUpper := by
    decide
  unfold titleCase
  unfold isIdentifier at h
  cases chars : name.toList with
  | nil => simp
  | cons first rest =>
    simp only [chars, Bool.and_eq_true] at h
    have ascii := toNat_lt_of_isIdentifierStart h.1
    have part := small first.toNat ascii
    rw [Char.ofNat_toNat] at part
    simp only [Text.Uppercase.upper, ascii, if_true, String.toList_ofList, List.all_append,
      List.all_cons, List.all_nil, Bool.and_true, Bool.and_eq_true]
    exact ⟨part h.1, h.2⟩

/-! ## Types at every depth -/

/-- A type expression that is part of another one. -/
inductive Ty.Within (inner : Ty) : Ty → Prop
  | refl : Within inner inner
  | element {element : Ty} : Within inner element → Within inner (.array element)
  | member {members : List Ty} {member : Ty} : member ∈ members → Within inner member →
      Within inner (.union members)
  | field {fields : List Field} {field : Field} : field ∈ fields → Within inner field.ty →
      Within inner (.object fields)
  | argument {name : String} {arguments : List Ty} {argument : Ty} : argument ∈ arguments →
      Within inner argument → Within inner (.generic name arguments)
  | parameter {parameters : List Field} {parameter : Field} {result : Ty} :
      parameter ∈ parameters → Within inner parameter.ty →
      Within inner (.function parameters result)
  | result {parameters : List Field} {result : Ty} : Within inner result →
      Within inner (.function parameters result)
  | check {check bound hit miss : Ty} : Within inner check →
      Within inner (.conditional check bound hit miss)
  | bound {check bound hit miss : Ty} : Within inner bound →
      Within inner (.conditional check bound hit miss)
  | hit {check bound hit miss : Ty} : Within inner hit →
      Within inner (.conditional check bound hit miss)
  | miss {check bound hit miss : Ty} : Within inner miss →
      Within inner (.conditional check bound hit miss)

/-- A property holds of a type and of all its parts. -/
def Ty.Throughout (property : Ty → Prop) (ty : Ty) : Prop :=
  ∀ inner, Within inner ty → property inner

namespace Ty

variable {property : Ty → Prop}

/-- A type without parts. -/
def isLeaf : Ty → Bool
  | .keyword _ | .literal _ | .ref _ => true
  | _ => false

theorem throughout_leaf_iff {ty : Ty} (leaf : ty.isLeaf) :
    ty.Throughout property ↔ property ty := by
  refine ⟨fun h => h _ .refl, fun here inner within => ?_⟩
  cases within with
  | refl => exact here
  | element | member | field | argument | parameter | result | check | bound | hit | miss =>
    cases leaf

theorem throughout_array_iff {element : Ty} :
    (Ty.array element).Throughout property ↔
      property (.array element) ∧ element.Throughout property := by
  refine ⟨fun h => ⟨h _ .refl, fun inner within => h inner (.element within)⟩, ?_⟩
  rintro ⟨here, deeper⟩ inner within
  cases within with
  | refl => exact here
  | element within => exact deeper inner within

theorem throughout_union_iff {members : List Ty} :
    (Ty.union members).Throughout property ↔
      property (.union members) ∧ ∀ member ∈ members, member.Throughout property := by
  refine ⟨fun h => ⟨h _ .refl, fun _ mem inner within => h inner (.member mem within)⟩, ?_⟩
  rintro ⟨here, deeper⟩ inner within
  cases within with
  | refl => exact here
  | member mem within => exact deeper _ mem inner within

theorem throughout_object_iff {fields : List Field} :
    (Ty.object fields).Throughout property ↔
      property (.object fields) ∧ ∀ field ∈ fields, field.ty.Throughout property := by
  refine ⟨fun h => ⟨h _ .refl, fun _ mem inner within => h inner (.field mem within)⟩, ?_⟩
  rintro ⟨here, deeper⟩ inner within
  cases within with
  | refl => exact here
  | field mem within => exact deeper _ mem inner within

theorem throughout_generic_iff {name : String} {arguments : List Ty} :
    (Ty.generic name arguments).Throughout property ↔
      property (.generic name arguments) ∧
        ∀ argument ∈ arguments, argument.Throughout property := by
  refine ⟨fun h => ⟨h _ .refl, fun _ mem inner within => h inner (.argument mem within)⟩, ?_⟩
  rintro ⟨here, deeper⟩ inner within
  cases within with
  | refl => exact here
  | argument mem within => exact deeper _ mem inner within

theorem throughout_function_iff {parameters : List Field} {result : Ty} :
    (Ty.function parameters result).Throughout property ↔
      property (.function parameters result) ∧
        (∀ parameter ∈ parameters, parameter.ty.Throughout property) ∧
        result.Throughout property := by
  constructor
  · intro h
    exact ⟨h _ .refl, fun _ mem inner within => h inner (.parameter mem within),
      fun inner within => h inner (.result within)⟩
  · rintro ⟨here, taken, given⟩ inner within
    cases within with
    | refl => exact here
    | parameter mem within => exact taken _ mem inner within
    | result within => exact given inner within

theorem throughout_conditional_iff {check bound hit miss : Ty} :
    (Ty.conditional check bound hit miss).Throughout property ↔
      property (.conditional check bound hit miss) ∧ check.Throughout property ∧
        bound.Throughout property ∧ hit.Throughout property ∧ miss.Throughout property := by
  constructor
  · intro h
    exact ⟨h _ .refl, fun inner within => h inner (.check within),
      fun inner within => h inner (.bound within), fun inner within => h inner (.hit within),
      fun inner within => h inner (.miss within)⟩
  · rintro ⟨here, check, bound, hit, miss⟩ inner within
    cases within with
    | refl => exact here
    | check within => exact check inner within
    | bound within => exact bound inner within
    | hit within => exact hit inner within
    | miss within => exact miss inner within

end Ty

/-- A type stands in a member of an interface, at any depth. -/
def Member.Holds (inner : Ty) : Member → Prop
  | .property field => inner.Within field.ty
  | .method _ parameters result =>
    (∃ parameter ∈ parameters, inner.Within parameter.ty) ∨ inner.Within result

/-- A type stands in a definition, at any depth. -/
def Definition.Holds (definition : Definition) (inner : Ty) : Prop :=
  match definition.body with
  | .interface _ members => ∃ member ∈ members, member.Holds inner
  | .synonym ty => inner.Within ty

/-- A property holds of all types in a member of an interface. -/
def Member.Throughout (property : Ty → Prop) : Member → Prop
  | .property field => field.ty.Throughout property
  | .method _ parameters result =>
    (∀ parameter ∈ parameters, parameter.ty.Throughout property) ∧ result.Throughout property

/-- A property holds of all types in a definition. -/
def Definition.Throughout (property : Ty → Prop) (definition : Definition) : Prop :=
  match definition.body with
  | .interface _ members => ∀ member ∈ members, member.Throughout property
  | .synonym ty => ty.Throughout property

theorem Member.Throughout.apply {property : Ty → Prop} {member : Member}
    (all : member.Throughout property) {inner : Ty} (holds : member.Holds inner) :
    property inner := by
  cases member with
  | property field => exact all inner holds
  | method name parameters result =>
    rcases holds with ⟨parameter, mem, holds⟩ | holds
    · exact all.1 parameter mem inner holds
    · exact all.2 inner holds

theorem Definition.Throughout.apply {property : Ty → Prop} {definition : Definition}
    (all : definition.Throughout property) {inner : Ty} (holds : definition.Holds inner) :
    property inner := by
  obtain ⟨name, parameters, body⟩ := definition
  cases body with
  | interface bases members =>
    obtain ⟨member, mem, holds⟩ := holds
    exact (all member mem).apply holds
  | synonym ty => exact all inner holds

/-! ## Types that print -/

/-- An empty union, or a reference without a name. -/
def Ty.Hollow : Ty → Prop
  | .union members => members = []
  | .ref name => name = ""
  | _ => False

theorem Keyword.text_ne_empty (word : Keyword) : word.text ≠ "" := by
  cases word <;> decide

/-- Only a hollow type prints as nothing, unless a member of a union does. -/
theorem Ty.hollow_of_print {ty : Ty} {level : Nat}
    (members : ∀ items, ty = .union items → ∀ item ∈ items, item.print level ≠ "")
    (nothing : ty.print level = "") : ty.Hollow := by
  cases ty with
  | keyword word =>
    rw [Ty.print] at nothing
    exact word.text_ne_empty nothing
  | array element =>
    rw [Ty.print] at nothing
    split at nothing <;> simp at nothing
  | union items =>
    rw [Ty.print] at nothing
    match items with
    | [] => rfl
    | [item] =>
      have some := members _ rfl item (by simp)
      simp [Ty.printAll, some] at nothing
    | first :: second :: rest => simp [Ty.printAll] at nothing
  | object fields =>
    cases fields <;> simp [Ty.print] at nothing
  | literal text => simp [Ty.print, quoted] at nothing
  | ref name =>
    rw [Ty.print] at nothing
    exact nothing
  | generic | function | conditional => simp [Ty.print] at nothing

end ChannelProtocol.TypeScript
