-- Values of TOML, and why a text is no TOML document.
import ChannelProtocol.Number.Double

namespace ChannelProtocol.Toml

/-- Why a text is no TOML document. -/
inductive SyntaxError where
  | key
  | value
  | string
  | line
  | duplicateKey
  | depth
  deriving DecidableEq, Repr

def SyntaxError.message : SyntaxError → String
  | .key => "invalid key"
  | .value => "invalid value"
  | .string => "invalid string"
  | .line => "unexpected characters at the end of a line"
  | .duplicateKey => "duplicate key"
  | .depth => "values are nested too deeply"

mutual

/-- A value. Dates and times are kept as text. -/
inductive Value where
  | string (text : String)
  | integer (value : Int)
  | float (value : Number.Double)
  | boolean (value : Bool)
  | dateTime (text : String)
  | array (items : List Value)
  | table (entries : List Entry)

structure Entry where
  key : String
  value : Value

end

def lookup (key : String) : List Entry → Option Value
  | [] => none
  | entry :: rest => if entry.key = key then some entry.value else lookup key rest

end ChannelProtocol.Toml
