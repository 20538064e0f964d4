-- Payloads: the JSON values that travel over a channel. JSON has no undefined
-- value, so null stands for it, and so does a field that is not there.

namespace ChannelProtocol

/-- A decimal number: `mantissa` with its point moved to the left. -/
structure Decimal where
  mantissa : Int
  places : Nat
  deriving DecidableEq, Repr

mutual

inductive Payload where
  | null
  | bool (value : Bool)
  | number (value : Decimal)
  | string (text : String)
  | array (items : List Payload)
  | object (fields : List PayloadField)

structure PayloadField where
  name : String
  value : Payload

end

namespace Payload

inductive Kind where
  | undefined
  | boolean
  | number
  | string
  | array
  | object
  deriving DecidableEq, Repr

def Kind.text : Kind → String
  | .undefined => "undefined"
  | .boolean => "boolean"
  | .number => "number"
  | .string => "string"
  | .array => "array"
  | .object => "object"

def kind : Payload → Kind
  | .null => .undefined
  | .bool _ => .boolean
  | .number _ => .number
  | .string _ => .string
  | .array _ => .array
  | .object _ => .object

def field? (name : String) : List PayloadField → Option Payload
  | [] => none
  | field :: rest => if field.name = name then some field.value else field? name rest

/-- The fields with a value under a name. A name that is there keeps its place. -/
def setField (name : String) (value : Payload) : List PayloadField → List PayloadField
  | [] => [⟨name, value⟩]
  | field :: rest =>
    if field.name = name then ⟨name, value⟩ :: rest else field :: setField name value rest

/-- The guid by which a payload refers to a channel. -/
def guid? : Payload → Option String
  | .object fields =>
    match field? "guid" fields with
    | some (.string guid) => some guid
    | _ => none
  | _ => none

end Payload

end ChannelProtocol
