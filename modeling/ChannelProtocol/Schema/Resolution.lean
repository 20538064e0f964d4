-- Property lists with their types resolved: each field gets its type in the
-- declarations and its validator, both from the same case, so that they agree.
-- The types get names that are derived from those of channels and their members.
import ChannelProtocol.TypeScript.Name
import ChannelProtocol.Schema.Expansion
import ChannelProtocol.Validator

namespace ChannelProtocol.Schema

open TypeScript (titleCase)

/-! ## Derived names -/

/-- What a channel is created with. -/
def initializerName (channel : String) : String := channel ++ "Initializer"

/-- Where the events of a channel are listened to. -/
def eventTargetName (channel : String) : String := channel ++ "EventTarget"

/-- Any of the events of a channel. -/
def eventsName (channel : String) : String := channel ++ "Events"

def channelTypeName (channel : String) : String := channel ++ "Channel"

def eventName (channel event : String) : String := channel ++ titleCase event ++ "Event"

def paramsName (channel command : String) : String := channel ++ titleCase command ++ "Params"

/-- The parameters of a command that may be left out. -/
def optionsName (channel command : String) : String := channel ++ titleCase command ++ "Options"

def resultName (channel command : String) : String := channel ++ titleCase command ++ "Result"

/-! ## Resolved fields -/

/-- A resolved type. The validator does not say that a field may be left out. -/
structure Resolved where
  ts : TypeScript.Ty
  validator : Validator
  optional : Bool

structure ResolvedField where
  name : String
  type : Resolved

namespace ResolvedField

/-- The field in the declarations. -/
def ts (field : ResolvedField) : TypeScript.Field :=
  ⟨field.name, field.type.ts, field.type.optional⟩

/-- The field in the validators. -/
def slot (field : ResolvedField) : Slot :=
  ⟨field.name, if field.type.optional then .optional field.type.validator else field.type.validator⟩

end ResolvedField

def objectTs (fields : List ResolvedField) : TypeScript.Ty := .object (fields.map ResolvedField.ts)

def objectValidator (fields : List ResolvedField) : Validator :=
  .object (fields.map ResolvedField.slot)

def optionalFields (fields : List ResolvedField) : List ResolvedField :=
  fields.filter (·.type.optional)

/-! ## Where expanded fields come from -/

/-- A field of an expanded list is in the list itself, or it came through a mixin. -/
theorem mem_inlineFields {doc : Document} {route : List String} {location : Location}
    {properties : List Property} {fields : List Inlined}
    (expanded : doc.inlineFields route location properties = .ok fields) {field : Inlined}
    (mem : field ∈ fields) :
    (field.route = route ∧ .field field.name field.ty ∈ properties) ∨
      ∃ mixin ∈ doc.names, mixin ∈ field.route ∧ mixin ∉ route := by
  fun_induction Document.inlineFields doc route location properties generalizing fields with
  | case1 => simp_all
  | case2 route location name ty rest ih =>
    cases tail : doc.inlineFields route location rest with
    | error => simp [tail, bind, Except.bind] at expanded
    | ok others =>
      simp only [tail, bind, Except.bind, pure, Except.pure, Except.ok.injEq] at expanded
      subst expanded
      rcases List.mem_cons.mp mem with rfl | mem
      · exact .inl ⟨rfl, by simp⟩
      · rcases ih tail mem with ⟨same, mem⟩ | other
        · exact .inl ⟨same, List.mem_cons_of_mem _ mem⟩
        · exact .inr other
  | case3 => simp at expanded
  | case4 => simp at expanded
  | case5 route location mixin rest fresh properties found smaller ihInner ihRest =>
    cases inner : doc.inlineFields (route ++ [mixin]) (.member (.named mixin) "properties")
        properties with
    | error => simp [inner, bind, Except.bind] at expanded
    | ok inlined =>
      cases tail : doc.inlineFields route location rest with
      | error => simp [inner, tail, bind, Except.bind] at expanded
      | ok others =>
        simp only [inner, tail, bind, Except.bind, pure, Except.pure, Except.ok.injEq] at expanded
        subst expanded
        rcases List.mem_append.mp mem with mem | mem
        · rcases ihInner inner mem with ⟨same, _⟩ | ⟨other, known, on, off⟩
          · exact .inr ⟨mixin, Document.mem_names_of_mixin? found, by simp [same], fresh⟩
          · exact .inr ⟨other, known, on, fun mem => off (List.mem_append_left _ mem)⟩
        · rcases ihRest tail mem with ⟨same, mem⟩ | other
          · exact .inl ⟨same, List.mem_cons_of_mem _ mem⟩
          · exact .inr other

/-! ## Resolving -/

namespace Document

/-- What is left to resolve gets smaller: a field that stands in its list is smaller than the
list, and any other one came through a mixin that is not yet on the path. -/
theorem resolve_decreasing {doc : Document} {location : Location} {properties : List Property}
    {fields : List Inlined} (expanded : doc.expand location properties = .ok fields)
    {field : Inlined} (mem : field ∈ fields) {path : List String}
    (fresh : field.route.find? path.contains = none) :
    unvisited doc.names (path ++ field.route) < unvisited doc.names path ∨
      unvisited doc.names (path ++ field.route) = unvisited doc.names path ∧
        sizeOf field.ty.shape < sizeOf properties := by
  rcases mem_inlineFields expanded mem with ⟨same, mem⟩ | ⟨mixin, known, on, _⟩
  · refine .inr ⟨by simp [same], ?_⟩
    have inList := List.sizeOf_lt_of_mem mem
    obtain ⟨name, ⟨shape, optional⟩, route⟩ := field
    simp only [Property.field.sizeOf_spec, Ty.mk.sizeOf_spec] at inList ⊢
    omega
  · refine .inl (unvisited_lt (fun _ mem => List.mem_append_left _ mem) known ?_
      (List.mem_append_right _ on))
    have := List.find?_eq_none.mp fresh mixin on
    simpa using this

mutual

/-- The type and the validator of a shape that was reached through the mixins of `path`. -/
def resolveShape (doc : Document) (path : List String) (location : Location) :
    Shape → Except (Stop Error) (TypeScript.Ty × Validator)
  | .string => .ok (.keyword .string, .string)
  | .boolean => .ok (.keyword .boolean, .boolean)
  | .number => .ok (.keyword .number, .number)
  | .undefined => .ok (.keyword .undefined, .undefined)
  | .binary => .ok (.ref "Binary", .binary)
  | .any => .ok (.keyword .any, .any)
  | .reference name =>
    if doc.isNamedType name then .ok (.ref name, .named name)
    else .error (.fails (.unknownReference name location))
  | .anyChannel => .ok (.ref "Channel", .anyChannel)
  | .channel name =>
    if doc.isChannel name then .ok (.ref (channelTypeName name), .channel [name])
    else .error (.fails (.unknownReference name location))
  | .array ⟨element, _⟩ => do
    let (ts, validator) ← doc.resolveShape path (.element location) element
    return (.array ts, .array validator)
  | .literals texts => .ok (.literals texts, .enum texts)
  | .object properties => do
    let fields ← doc.resolveProperties path location properties
    return (objectTs fields, objectValidator fields)
termination_by shape => (unvisited doc.names path, sizeOf shape)

/-- The fields of a list that was reached through the mixins of `path`: splices are replaced
first, then each field is resolved. -/
def resolveProperties (doc : Document) (path : List String) (location : Location)
    (properties : List Property) : Except (Stop Error) (List ResolvedField) :=
  match expanded : doc.expand location properties with
  | .error error => .error (.fails error)
  | .ok fields => fields.attach.mapM fun ⟨field, mem⟩ =>
    match fresh : field.route.find? path.contains with
    -- Its mixin holds itself in an inline object, and would be expanded again and again.
    | some _ => .error .endless
    | none => do
      have := resolve_decreasing expanded mem fresh
      let (ts, validator) ←
        doc.resolveShape (path ++ field.route) (.member location field.name) field.ty.shape
      return ⟨field.name, ⟨ts, validator, field.ty.optional⟩⟩
termination_by (unvisited doc.names path, sizeOf properties)
decreasing_by
  rcases this with smaller | ⟨same, smaller⟩
  · exact .left _ _ smaller
  · rw [same]; exact .right _ smaller

end

def resolve (doc : Document) (location : Location) (properties : List Property) :
    Except (Stop Error) (List ResolvedField) :=
  doc.resolveProperties [] location properties

end Document

/-! ## The property lists of a document -/

/-- The declared lists of an event, with its place. -/
def eventLists (channel : String) (entry : String × Event) : List (Location × List Property) :=
  (entry.2.parameters.map fun list => (.member (.named channel) entry.1, list)).toList

def commandLists (channel : String) (entry : String × Command) : List (Location × List Property) :=
  let place := Location.member (.named channel) entry.1
  (entry.2.parameters.map fun list => (.member place "parameters", list)).toList
    ++ (entry.2.returns.map fun list => (.member place "returns", list)).toList

def entityLists : String × Entity → List (Location × List Property)
  | (name, .channel channel) =>
    (.member (.named name) "initializer", channel.initializer)
      :: channel.events.entries.flatMap (eventLists name)
      ++ channel.commands.entries.flatMap (commandLists name)
  | (name, .object properties) | (name, .mixin properties) => [(.named name, properties)]
  | (_, .enum _) => []

/-- All declared lists of a document, with their places. -/
def Document.propertyLists (doc : Document) : List (Location × List Property) :=
  doc.entities.entries.flatMap entityLists

end ChannelProtocol.Schema
