-- Values of YAML. Mapping keys may be any value, and a mapping keeps its order.
import ChannelProtocol.Number.Shortest

namespace ChannelProtocol.Yaml

inductive Number where
  | int (value : Int)
  | float (value : Number.Double)
  deriving DecidableEq, Repr

/-- Numbers have no exponent as long as their first digit stands at most sixteen places before
or fewer than five behind the point. -/
def floatLayout : Number.Layout where
  positional place := -5 < place && place ≤ 16
  infinity := ".inf"
  negativeInfinity := "-.inf"
  nan := ".nan"

def Number.text : Number → String
  | .int value => toString value
  | .float value => value.text floatLayout

def Number.same : Number → Number → Bool
  | .int a, .int b => a == b
  | .float a, .float b => a.same b
  | _, _ => false

mutual

inductive Value where
  | null
  | bool (value : Bool)
  | number (value : Number)
  | string (text : String)
  | sequence (items : List Value)
  | mapping (entries : List Entry)
  | tagged (tag : String) (content : Value)

structure Entry where
  key : Value
  value : Value

end

mutual

/-- Whether two values are the same key. Mappings may have their entries in another order. -/
def Value.same : Value → Value → Bool
  | .null, .null => true
  | .bool a, .bool b => a == b
  | .number a, .number b => a.same b
  | .string a, .string b => a == b
  | .sequence as, .sequence bs => Value.sameItems as bs
  | .mapping as, .mapping bs => as.length == bs.length && Value.within as bs
  | .tagged t a, .tagged u b => t == u && a.same b
  | _, _ => false

def Value.sameItems : List Value → List Value → Bool
  | [], [] => true
  | a :: as, b :: bs => a.same b && Value.sameItems as bs
  | _, _ => false

def Entry.among : Entry → List Entry → Bool
  | ⟨key, value⟩, entries => entries.any fun entry => key.same entry.key && value.same entry.value

def Value.within : List Entry → List Entry → Bool
  | [], _ => true
  | entry :: rest, entries => entry.among entries && Value.within rest entries

end

/-! ## Looking into values -/

def Value.untagged : Value → Value
  | .tagged _ content => content.untagged
  | value => value

/-- The text of a string, seen through tags. -/
def Value.asString? (value : Value) : Option String :=
  match value.untagged with
  | .string text => some text
  | _ => none

/-- The value of the first entry with an untagged key of this text. -/
def lookup (name : String) : List Entry → Option Value
  | [] => none
  | ⟨.string text, value⟩ :: rest => if text = name then some value else lookup name rest
  | _ :: rest => lookup name rest

/-- The value under a name in a mapping, seen through tags. -/
def Value.get? (value : Value) (name : String) : Option Value :=
  match value.untagged with
  | .mapping entries => lookup name entries
  | _ => none

end ChannelProtocol.Yaml
