-- Why a schema document cannot be used: the places in a document, the parts that
-- names of generated types come from, and the errors with their messages.
import ChannelProtocol.Yaml.Dump
import ChannelProtocol.Yaml.Source

namespace ChannelProtocol.Schema

/-! ## Places -/

/-- A place: the whole document, a named entity, a member of a place, or the elements of an
array. -/
inductive Location where
  | document
  | named (name : String)
  | member (base : Location) (name : String)
  | element (base : Location)
  deriving DecidableEq, Repr

def Location.text : Location → String
  | .document => "<root>"
  | .named name => name
  | .member base name => base.text ++ "." ++ name
  | .element base => base.text ++ "[]"

/-! ## Origins of names -/

/-- Where a generated name comes from. -/
inductive Origin where
  | preamble
  | initializer (owner : String)
  | eventTarget (owner : String)
  | events (owner : String)
  | channel (name : String)
  | event (owner name : String)
  | parameters (owner command : String)
  | options (owner command : String)
  | result (owner command : String)
  /-- A command that a channel takes over from its parent. -/
  | inherited (owner parent command : String)
  | object (name : String)
  | enum (name : String)
  | projection (name : String)
  /-- Anything else, in its own words. -/
  | other (text : String)
  deriving DecidableEq, Repr

def Origin.text : Origin → String
  | .preamble => "the preamble"
  | .initializer owner => owner ++ " initializer"
  | .eventTarget owner => owner ++ " event target"
  | .events owner => owner ++ " events"
  | .channel name => name ++ " channel"
  | .event owner name => owner ++ "." ++ name ++ " event"
  | .parameters owner command => owner ++ "." ++ command ++ " parameters"
  | .options owner command => owner ++ "." ++ command ++ " options"
  | .result owner command => owner ++ "." ++ command ++ " result"
  | .inherited owner parent command => owner ++ " alias of " ++ parent ++ "." ++ command
  | .object name => name ++ " object"
  | .enum name => name ++ " enum"
  | .projection name => name ++ " mapping"
  | .other text => text

end ChannelProtocol.Schema

namespace ChannelProtocol

/-! ## Errors -/

/-- Why a computation gives nothing: it fails with an error, or it never comes to an end. -/
inductive Stop (ε : Type) where
  | fails (error : ε)
  | endless
  deriving DecidableEq

def Stop.map {ε δ : Type} (f : ε → δ) : Stop ε → Stop δ
  | .fails error => .fails (f error)
  | .endless => .endless

namespace Schema

inductive Problem where
  | rootNotMapping
  | keyNotString
  | entityNotMapping
  | entityWithoutType
  | unknownEntityType (type : String)
  | parentNotName
  | notMapping
  | memberNotIdentifier
  | flagNotBoolean
  | spliceNotName
  | compoundWithoutType
  | arrayWithoutItems
  | unknownCompoundType (type : String)
  | notType
  | literalsNotSequence
  | literalNotScalar
  | literalEmpty
  deriving DecidableEq, Repr

def Problem.text : Problem → String
  | .rootNotMapping => "document root must be a mapping of entity names"
  | .keyNotString => "keys must be strings"
  | .entityNotMapping => "entity must be a mapping"
  | .entityWithoutType => "entity is missing a `type`"
  | .unknownEntityType type => "unknown entity type `" ++ type ++ "`"
  | .parentNotName => "`extends` must name a channel"
  | .notMapping => "expected a mapping"
  | .memberNotIdentifier => "member names must be identifiers"
  | .flagNotBoolean => "tracing flags must be booleans"
  | .spliceNotName => "a mixin splice must name a mixin"
  | .compoundWithoutType => "compound type is missing a `type`"
  | .arrayWithoutItems => "array type is missing `items`"
  | .unknownCompoundType type => "unknown compound type `" ++ type ++ "`"
  | .notType => "unrecognized type expression"
  | .literalsNotSequence => "enum type requires a `literals` sequence"
  | .literalNotScalar => "enum literals must be scalars"
  | .literalEmpty => "enums cannot contain an empty string"

inductive Error where
  | syntaxError (cause : Yaml.SyntaxError)
  | unsupportedShape (location : Location) (problem : Problem) (found : Yaml.Value)
  | unknownReference (name : String) (location : Location)
  | mixinCycle (chain : List String)
  | inheritanceCycle (chain : List String)
  | nameCollision (name : String) (first second : Origin)

def chainText (chain : List String) : String := " -> ".intercalate chain

def Error.message : Error → String
  | .syntaxError cause => cause.message
  | .unsupportedShape location problem found =>
    "unsupported shape at " ++ location.text ++ ": " ++ problem.text ++ "\n" ++ found.dump
  | .unknownReference name location =>
    "unknown reference `" ++ name ++ "` at " ++ location.text
  | .mixinCycle chain => "mixin cycle detected: " ++ chainText chain
  | .inheritanceCycle chain => "extends cycle detected: " ++ chainText chain
  | .nameCollision name first second =>
    "generated name `" ++ name ++ "` is produced by both " ++ first.text ++ " and " ++ second.text

end Schema

end ChannelProtocol
