-- Strings of TOML: with escapes between double quotes, as they are between
-- single ones, and over several lines between three quotes of either kind.
import ChannelProtocol.Number.Literal
import ChannelProtocol.Toml.Value

namespace ChannelProtocol.Toml

def isGap (c : Char) : Bool := c == ' ' || c == '\t'

def isLineChar (c : Char) : Bool :=
  c == '\t' || (0x20 ≤ c.toNat && c.toNat ≠ 0x7F)

/-- The character of a number that escapes it. -/
def scalarChar? (digits : List Char) : Option Char :=
  match Number.digits? 16 digits with
  | some n => if n.isValidChar then some (Char.ofNat n) else none
  | none => none

/-- The character that a letter after a backslash stands for. -/
def escaped? (c : Char) : Option Char :=
  if c = 'b' then some '\x08' else if c = 't' then some '\t' else if c = 'n' then some '\n'
  else if c = 'f' then some '\x0c' else if c = 'r' then some '\r'
  else if c = '\x22' then some '\x22' else if c = '\\' then some '\\'
  else none

/-- What is read of a string: its text, and what follows it. -/
abbrev Read := Except SyntaxError (String × List Char)

/-- The text of characters that were read last first. -/
def finish (reversed rest : List Char) : Read := .ok (String.ofList reversed.reverse, rest)

/-- Reads on in a string between double quotes. -/
def basicText (reversed : List Char) : List Char → Read
  | '\x22' :: rest => finish reversed rest
  | '\\' :: 'u' :: a :: b :: c :: d :: rest =>
    match scalarChar? [a, b, c, d] with
    | some char => basicText (char :: reversed) rest
    | none => .error .string
  | '\\' :: 'U' :: a :: b :: c :: d :: e :: f :: g :: h :: rest =>
    match scalarChar? [a, b, c, d, e, f, g, h] with
    | some char => basicText (char :: reversed) rest
    | none => .error .string
  | '\\' :: c :: rest =>
    match escaped? c with
    | some char => basicText (char :: reversed) rest
    | none => .error .string
  | c :: rest =>
    if isLineChar c && c != '\\' then basicText (c :: reversed) rest else .error .string
  | [] => .error .string

/-- Reads on in a string between single quotes. -/
def literalText (reversed : List Char) : List Char → Read
  | '\x27' :: rest => finish reversed rest
  | c :: rest => if isLineChar c then literalText (c :: reversed) rest else .error .string
  | [] => .error .string

def atLineEnd (cs : List Char) : Bool :=
  match cs.dropWhile isGap with
  | '\n' :: _ | '\r' :: '\n' :: _ => true
  | _ => false

/-- Reads on in a string between three double quotes. After a backslash at the end of a line
spaces and line ends are skipped. Up to two quotes may stand before those that end it. -/
def longBasicText (reversed : List Char) (skipping : Bool) : List Char → Read
  | '\r' :: '\n' :: rest =>
    longBasicText (if skipping then reversed else '\n' :: reversed) skipping rest
  | '\x22' :: '\x22' :: '\x22' :: '\x22' :: '\x22' :: rest =>
    finish ('\x22' :: '\x22' :: reversed) rest
  | '\x22' :: '\x22' :: '\x22' :: '\x22' :: rest => finish ('\x22' :: reversed) rest
  | '\x22' :: '\x22' :: '\x22' :: rest => finish reversed rest
  | '\\' :: 'u' :: a :: b :: c :: d :: rest =>
    match scalarChar? [a, b, c, d] with
    | some char => longBasicText (char :: reversed) false rest
    | none => .error .string
  | '\\' :: 'U' :: a :: b :: c :: d :: e :: f :: g :: h :: rest =>
    match scalarChar? [a, b, c, d, e, f, g, h] with
    | some char => longBasicText (char :: reversed) false rest
    | none => .error .string
  | '\\' :: c :: rest =>
    match escaped? c with
    | some char => longBasicText (char :: reversed) false rest
    | none =>
      if c == '\n' then longBasicText reversed true rest
      else if (isGap c || c == '\r') && atLineEnd (c :: rest) then longBasicText reversed true rest
      else .error .string
  | c :: rest =>
    if skipping && (isGap c || c == '\n') then longBasicText reversed true rest
    else if c == '\n' || (isLineChar c && c != '\\') then longBasicText (c :: reversed) false rest
    else .error .string
  | [] => .error .string

def longLiteralText (reversed : List Char) : List Char → Read
  | '\r' :: '\n' :: rest => longLiteralText ('\n' :: reversed) rest
  | '\x27' :: '\x27' :: '\x27' :: '\x27' :: '\x27' :: rest =>
    finish ('\x27' :: '\x27' :: reversed) rest
  | '\x27' :: '\x27' :: '\x27' :: '\x27' :: rest => finish ('\x27' :: reversed) rest
  | '\x27' :: '\x27' :: '\x27' :: rest => finish reversed rest
  | c :: rest =>
    if c == '\n' || isLineChar c then longLiteralText (c :: reversed) rest else .error .string
  | [] => .error .string

/-- The rest of a string that starts with three quotes, without a line end right behind them. -/
def dropFirstLineEnd : List Char → List Char
  | '\n' :: rest => rest
  | '\r' :: '\n' :: rest => rest
  | cs => cs

/-- A string at the start of a text, if there is one. -/
def string? : List Char → Option Read
  | '\x22' :: '\x22' :: '\x22' :: rest => some (longBasicText [] false (dropFirstLineEnd rest))
  | '\x27' :: '\x27' :: '\x27' :: rest => some (longLiteralText [] (dropFirstLineEnd rest))
  | '\x22' :: rest => some (basicText [] rest)
  | '\x27' :: rest => some (literalText [] rest)
  | _ => none

end ChannelProtocol.Toml
