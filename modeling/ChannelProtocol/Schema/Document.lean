-- Schema documents: channels with their commands and events, objects, enums
-- and mixins, and the property lists of which all of them are made.
import ChannelProtocol.Table

namespace ChannelProtocol.Schema

mutual

/-- What a type describes. A `reference` names an object or an enum. -/
inductive Shape where
  | string
  | boolean
  | number
  | undefined
  | binary
  | any
  | reference (name : String)
  | anyChannel
  | channel (name : String)
  | array (element : Ty)
  | literals (texts : List String)
  | object (properties : List Property)

/-- A type, and whether a field of it may be left out. -/
structure Ty where
  shape : Shape
  optional : Bool

/-- An entry of a property list: a field, or the place where the fields of a mixin go. -/
inductive Property where
  | field (name : String) (ty : Ty)
  | splice (mixin : String)

end

structure Tracing where
  snapshot : Bool := false
  pausesBeforeInput : Bool := false
  deriving DecidableEq, Repr

/-- A command. Parameters and returns may be undeclared, which is not the same as empty. -/
structure Command where
  parameters : Option (List Property) := none
  returns : Option (List Property) := none
  tracing : Tracing := {}

structure Event where
  parameters : Option (List Property) := none

structure Channel where
  parent : Option String
  initializer : List Property
  commands : Table Command
  events : Table Event

inductive Entity where
  | channel (definition : Channel)
  | object (properties : List Property)
  | enum (literals : List String)
  | mixin (properties : List Property)

structure Document where
  entities : Table Entity

namespace Document

def get? (doc : Document) (name : String) : Option Entity := doc.entities.get? name

def channelEntry? : String × Entity → Option (String × Channel)
  | (name, .channel channel) => some (name, channel)
  | _ => none

def channels (doc : Document) : List (String × Channel) :=
  doc.entities.entries.filterMap channelEntry?

def channel? (doc : Document) (name : String) : Option Channel :=
  match doc.get? name with
  | some (.channel channel) => some channel
  | _ => none

def isChannel (doc : Document) (name : String) : Bool := (doc.channel? name).isSome

/-- Whether a name is that of an object or an enum. -/
def isNamedType (doc : Document) (name : String) : Bool :=
  match doc.get? name with
  | some (.object _) | some (.enum _) => true
  | _ => false

def mixin? (doc : Document) (name : String) : Option (List Property) :=
  match doc.get? name with
  | some (.mixin properties) => some properties
  | _ => none

end Document

end ChannelProtocol.Schema
