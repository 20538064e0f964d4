-- Names in TypeScript source: which names are identifiers, how a string
-- literal is written, and how a member's name enters the name of a type.
import ChannelProtocol.Text.Uppercase

namespace ChannelProtocol.TypeScript

/-! ## Identifiers -/

def isIdentifierStart (c : Char) : Bool :=
  c.isAlpha || c == '_' || c == '$'

def isIdentifierPart (c : Char) : Bool :=
  c.isAlphanum || c == '_' || c == '$'

/-- Whether a name is an identifier. Only ASCII letters count, so that a name which is written
without quotes is one under every edition of the language. -/
def isIdentifier (name : String) : Bool :=
  match name.toList with
  | [] => false
  | c :: rest => isIdentifierStart c && rest.all isIdentifierPart

/-! ## String literals -/

/-- A character inside a string literal: the backslash and the quote are escaped. -/
def escapeChar (c : Char) : List Char :=
  if c = '\\' then ['\\', '\\'] else if c = '\x22' then ['\\', '\x22'] else [c]

def escape (s : String) : String :=
  String.ofList (s.toList.flatMap escapeChar)

def quoted (s : String) : String :=
  "\"" ++ escape s ++ "\""

/-- A name as the key of an object: quoted unless it is an identifier. -/
def key (name : String) : String :=
  if isIdentifier name then name else quoted name

/-! ## Derived names -/

def titleCase (name : String) : String :=
  match name.toList with
  | [] => ""
  | c :: rest => String.ofList (Text.Uppercase.upper c ++ rest)

end ChannelProtocol.TypeScript
