-- What a plain scalar stands for: nothing, a truth value, a number, or its own
-- text.
import ChannelProtocol.Number.Literal
import ChannelProtocol.Yaml.Value

namespace ChannelProtocol.Yaml

def isNull (text : String) : Bool :=
  text == "null" || text == "Null" || text == "NULL" || text == "~"

def bool? (text : String) : Option Bool :=
  if text == "true" || text == "True" || text == "TRUE" then some true
  else if text == "false" || text == "False" || text == "FALSE" then some false
  else none

/-- Whether a text is made of digits with a needless zero in front. Such a text is no number. -/
def hasLeadingZero (text : String) : Bool :=
  match (Number.sign text.toList).2 with
  | '0' :: c :: rest => (c :: rest).all Char.isDigit
  | _ => false

/-- The absolute value of an integer in decimal, or behind `0x`, `0o` or `0b`. -/
def magnitude? : List Char → Option Nat
  | '0' :: 'x' :: ds => Number.digits? 16 ds
  | '0' :: 'o' :: ds => Number.digits? 8 ds
  | '0' :: 'b' :: ds => Number.digits? 2 ds
  | ds => Number.digits? 10 ds

/-- How a text reads as an integer. An integer of up to 128 bits that does not fit into 64 is
one that cannot be held. -/
inductive IntegerReading where
  | none
  | value (n : Int)
  | tooWide
  deriving DecidableEq, Repr

def readInteger (text : String) : IntegerReading :=
  if hasLeadingZero text then .none
  else match Number.sign text.toList with
    | (negative, rest) =>
      match magnitude? rest with
      | none => .none
      | some n =>
        if negative then
          if n ≤ Nat.pow 2 63 then .value (-(n : Int))
          else if n ≤ Nat.pow 2 127 then .tooWide else .none
        else if n < Nat.pow 2 64 then .value n else if n < Nat.pow 2 128 then .tooWide else .none

def special? (text : String) : Option Number.Double :=
  let unsigned := match text.toList with
    | '+' :: rest => String.ofList rest
    | _ => text
  if unsigned == ".inf" || unsigned == ".Inf" || unsigned == ".INF" then some (.infinite false)
  else if text == "-.inf" || text == "-.Inf" || text == "-.INF" then some (.infinite true)
  else if text == ".nan" || text == ".NaN" || text == ".NAN" then some .nan
  else none

/-- Reads a float. A decimal that is too large for one is none. -/
def float? (text : String) : Option Number.Double :=
  match special? text with
  | some value => some value
  | none =>
    match Number.sign text.toList with
    | (negative, rest) =>
      match Number.fraction? rest with
      | some value =>
        if value.isFinite then some (if negative then value.negate else value) else none
      | none => none

/-- What a plain scalar stands for, or nothing if it is an integer that cannot be held. -/
def plainValue? (text : String) : Option Value :=
  if text.isEmpty || isNull text then some .null
  else match bool? text with
    | some b => some (.bool b)
    | none =>
      match readInteger text with
      | .value n => some (.number (.int n))
      | .tooWide => none
      | .none =>
        if hasLeadingZero text then some (.string text)
        else match float? text with
          | some value => some (.number (.float value))
          | none => some (.string text)

end ChannelProtocol.Yaml
