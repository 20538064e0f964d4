-- Values written as YAML: block style, two spaces of indentation, lines of any
-- length, and quotes only where a text needs them.
import ChannelProtocol.Text.Unseen
import ChannelProtocol.Yaml.Value.Plain

namespace ChannelProtocol.Yaml

/-! ## Which quotes a text needs -/

/-- The characters that are written as they are. -/
def isPrintable (c : Char) : Bool :=
  let n := c.toNat
  n == 0x0A || (0x20 ≤ n && n ≤ 0x7E) || (0xA0 ≤ n && n ≤ 0xD7FF)
    || (0xE000 ≤ n && n ≤ 0xFFFD && n != 0xFEFF) || 0x10000 ≤ n

def isLineEnd (c : Char) : Bool :=
  c == '\n' || c == '\r' || c == '\u0085' || c == '\u2028' || c == '\u2029'

/-- Whether white space follows, or nothing. -/
def beforeGap : List Char → Bool
  | [] => true
  | c :: _ => c == ' ' || c == '\t' || isLineEnd c || c == '\x00'

def startsWithIndicator : List Char → Bool
  | [] => false
  | c :: rest =>
    "#,[]\x7b\x7d&*!|>'\"%@`".toList.contains c
      || ((c == '?' || c == ':' || c == '-') && beforeGap rest)
      || ['-', '-', '-'].isPrefixOf (c :: rest) || ['.', '.', '.'].isPrefixOf (c :: rest)

/-- Whether two neighbours with `p` and `q` stand somewhere in a text. -/
def anyPair (p : Char → Bool) (q : Char → Bool) : List Char → Bool
  | a :: b :: rest => (p a && q b) || anyPair p q (b :: rest)
  | _ => false

/-- Whether an indicator stands inside a text: a colon before a gap, or a hash sign after one. -/
def hasInnerIndicator : List Char → Bool
  | a :: b :: rest =>
    (b == ':' && beforeGap rest) || (b == '#' && beforeGap [a]) || hasInnerIndicator (b :: rest)
  | _ => false

/-- Whether a text holds characters that only double quotes can show. -/
def hasSpecial (cs : List Char) : Bool := cs.any fun c => !isPrintable c

def isMultiline (cs : List Char) : Bool := cs.any isLineEnd

def isBlankChar (c : Char) : Bool := c == ' '

def allowsPlain (cs : List Char) : Bool :=
  !(cs.head?.any isBlankChar || cs.getLast?.any isBlankChar || isMultiline cs || hasSpecial cs
    || startsWithIndicator cs || hasInnerIndicator cs)

def allowsSingle (cs : List Char) : Bool :=
  !(anyPair isLineEnd isBlankChar cs || anyPair isBlankChar isLineEnd cs || hasSpecial cs)

/-- Whether a text may stand on lines of its own. -/
def allowsLiteral (cs : List Char) : Bool :=
  !(cs.getLast?.any isBlankChar || anyPair isBlankChar isLineEnd cs || hasSpecial cs)

inductive Style where
  | plain
  | single
  | double
  | literal
  deriving DecidableEq, Repr

/-- Whether a plain scalar with this text is read as this text. -/
def readsAsText (text : String) : Bool :=
  match plainValue? text with
  | some (.string _) => !hasLeadingZero text
  | _ => false

def styleOf (text : String) : Style :=
  let cs := text.toList
  if cs.contains '\n' then if allowsLiteral cs then .literal else .double
  else if readsAsText text && allowsPlain cs then .plain
  else if allowsSingle cs then .single
  else .double

/-! ## Scalars -/

def blanks (n : Nat) : String := String.ofList (List.replicate n ' ')

def hexDigit (n : Nat) : Char :=
  if n < 10 then Char.ofNat ('0'.toNat + n) else Char.ofNat ('A'.toNat + n - 10)

/-- The last `width` hexadecimal digits of a number. -/
def hex : Nat → Nat → List Char
  | 0, _ => []
  | width + 1, n => hex width (n / 16) ++ [hexDigit (n % 16)]

def doubleChar (c : Char) : List Char :=
  if isPrintable c && !isLineEnd c && c != '\x22' && c != '\\' then [c]
  else if c == '\x00' then ['\\', '0']
  else if c == '\x07' then ['\\', 'a']
  else if c == '\x08' then ['\\', 'b']
  else if c == '\t' then ['\\', 't']
  else if c == '\n' then ['\\', 'n']
  else if c == '\x0b' then ['\\', 'v']
  else if c == '\x0c' then ['\\', 'f']
  else if c == '\r' then ['\\', 'r']
  else if c == '\x1b' then ['\\', 'e']
  else if c == '\x22' then ['\\', '\x22']
  else if c == '\\' then ['\\', '\\']
  else if c == '\u0085' then ['\\', 'N']
  else if c == '\u00a0' then ['\\', '_']
  else if c == '\u2028' then ['\\', 'L']
  else if c == '\u2029' then ['\\', 'P']
  else if c.toNat ≤ 0xFF then '\\' :: 'x' :: hex 2 c.toNat
  else if c.toNat ≤ 0xFFFF then '\\' :: 'u' :: hex 4 c.toNat
  else '\\' :: 'U' :: hex 8 c.toNat

/-- Characters with indentation at the start of each line that is not empty. -/
def indentLines (indent : Nat) (atStart : Bool) : List Char → List Char
  | [] => []
  | c :: rest =>
    if isLineEnd c then c :: indentLines indent true rest
    else (if atStart then List.replicate indent ' ' else []) ++ c :: indentLines indent false rest

/-- A text in single quotes, which are doubled inside. -/
def singleQuoted (indent : Nat) (text : String) : String :=
  let cs := text.toList
  let body := (indentLines indent false cs).flatMap fun c => if c == '\x27' then [c, c] else [c]
  let tail := if cs.getLast?.any isLineEnd then blanks indent else ""
  "'" ++ String.ofList body ++ tail ++ "'"

def doubleQuoted (text : String) : String :=
  "\"" ++ String.ofList (text.toList.flatMap doubleChar) ++ "\""

/-- The marks of a literal block: the indentation when the text starts with white space, and what
becomes of the line ends behind it. -/
def literalHeader (cs : List Char) : String :=
  let indent := match cs with
    | c :: _ => if c == ' ' || isLineEnd c then "2" else ""
    | [] => ""
  let chomp := match cs.reverse with
    | last :: before =>
      if !isLineEnd last then "-"
      else match before with
        | [] => "+"
        | c :: _ => if isLineEnd c then "+" else ""
    | [] => "-"
  "|" ++ indent ++ chomp ++ "\n"

/-- A text as a scalar that is followed by the end of its line. -/
def textLine (indent : Nat) (text : String) : String :=
  match styleOf text with
  | .plain => text ++ "\n"
  | .single => singleQuoted indent text ++ "\n"
  | .double => doubleQuoted text ++ "\n"
  | .literal =>
    let cs := text.toList
    literalHeader cs ++ String.ofList (indentLines indent true cs)
      ++ (if cs.getLast?.any isLineEnd then "" else "\n")

/-- A text as a key on one line. -/
def textKey (text : String) : String :=
  match styleOf text with
  | .plain => text
  | .single => singleQuoted 0 text
  | .double | .literal => doubleQuoted text

def tagChar (c : Char) : String :=
  if c.isAlphanum || "_-;/?:@&=+$,.~*'()[]".toList.contains c then String.singleton c
  else String.ofList
    ((String.singleton c).toUTF8.toList.flatMap fun byte => '%' :: hex 2 byte.toNat)

def tagText (tag : String) : String :=
  if tag == "!" then "!<%21>" else "!" ++ String.join (tag.toList.map tagChar)

/-! ## Keys -/

/-- The longest key without indicator, in bytes. -/
def longestSimpleKey : Nat := 128

/-- The text of a scalar or an empty collection as a key, and its length in bytes before any
quoting. Other values are no simple keys. -/
def simpleKey? : Value → Option (String × Nat)
  | .null => some ("null", 4)
  | .bool b => if b then some ("true", 4) else some ("false", 5)
  | .number n => some (n.text, n.text.utf8ByteSize)
  | .string text =>
    if isMultiline text.toList then none else some (textKey text, text.utf8ByteSize)
  | .sequence [] => some ("[]", 0)
  | .mapping [] => some ("\x7b\x7d", 0)
  | .tagged tag content =>
    (simpleKey? content).map fun (text, size) =>
      (tagText tag ++ " " ++ text, size + (if tag == "!" then 1 else 1 + tag.utf8ByteSize))
  | _ => none

/-- The text of a key that goes before its colon without indicator. -/
def keyText? (key : Value) : Option String :=
  match simpleKey? key with
  | some (text, size) => if size ≤ longestSimpleKey then some text else none
  | none => none

/-! ## Values -/

/-- Where a value is written: what stands before it on its line, whether a collection starts on
the next line, and the indentations of what it may hold. -/
structure Place where
  gap : String
  onNextLine : Bool
  mapping : Nat
  sequence : Nat
  taggedSequence : Nat
  scalar : Nat

def Place.root : Place := ⟨"", false, 0, 0, 0, 2⟩

/-- Behind the dash of a sequence with indentation `n`. -/
def Place.item (n : Nat) : Place := ⟨" ", false, n + 2, n + 2, n + 2, n + 2⟩

/-- Behind the question mark or the colon of a mapping with indentation `n`. -/
def Place.explicit (n : Nat) : Place := ⟨" ", false, n + 2, n + 2, n, n + 2⟩

/-- Behind the colon that follows a key on its line. Sequences are not indented here. -/
def Place.value (n : Nat) : Place := ⟨" ", true, n + 2, n, n, n + 2⟩

def Place.behindTag (place : Place) : Place :=
  { place with gap := " ", onNextLine := true, sequence := place.taggedSequence }

/-- What leads from a place to a collection. -/
def Place.lead (place : Place) : String := if place.onNextLine then "\n" else place.gap

mutual

/-- The text of a value at a place, to the end of its last line. -/
def Value.write (place : Place) : Value → String
  | .null => place.gap ++ "null\n"
  | .bool b => place.gap ++ (if b then "true\n" else "false\n")
  | .number n => place.gap ++ n.text ++ "\n"
  | .string text => place.gap ++ textLine place.scalar text
  | .sequence [] => place.gap ++ "[]\n"
  | .sequence items => place.lead ++ Value.writeItems place.sequence place.onNextLine items
  | .mapping [] => place.gap ++ "\x7b\x7d\n"
  | .mapping entries => place.lead ++ Value.writeEntries place.mapping place.onNextLine entries
  | .tagged tag content => place.gap ++ tagText tag ++ content.write place.behindTag

/-- The items of a sequence with the given indentation, which the first may already have. -/
def Value.writeItems (n : Nat) (indented : Bool) : List Value → String
  | [] => ""
  | item :: rest =>
    (if indented then blanks n else "") ++ "-" ++ item.write (.item n)
      ++ Value.writeItems n true rest

def Entry.write (n : Nat) : Entry → String
  | ⟨key, value⟩ =>
    match keyText? key with
    | some text => text ++ ":" ++ value.write (.value n)
    | none => "?" ++ key.write (.explicit n) ++ blanks n ++ ":" ++ value.write (.explicit n)

def Value.writeEntries (n : Nat) (indented : Bool) : List Entry → String
  | [] => ""
  | entry :: rest =>
    (if indented then blanks n else "") ++ entry.write n ++ Value.writeEntries n true rest

end

/-! ## Values that cannot be written -/

/-- Whether a value may not be the key of the only entry of a mapping. -/
def isBadOnlyKey : Value → Bool
  | .mapping [_] | .tagged .. => true
  | _ => false

def hasBadOnlyKey : List Entry → Bool
  | [⟨key, _⟩] => isBadOnlyKey key
  | _ => false

mutual

/-- Whether a value cannot be written. Right under a tag every mapping can, but no further
tag. -/
def Value.isUnwritable (underTag : Bool) : Value → Bool
  | .sequence items => Value.anyUnwritable items
  | .mapping entries => (!underTag && hasBadOnlyKey entries) || Value.anyUnwritableEntry entries
  | .tagged _ content => underTag || content.isUnwritable true
  | _ => false

def Value.anyUnwritable : List Value → Bool
  | [] => false
  | item :: rest => item.isUnwritable false || Value.anyUnwritable rest

def Entry.isUnwritable : Entry → Bool
  | ⟨key, value⟩ => key.isUnwritable false || value.isUnwritable false

def Value.anyUnwritableEntry : List Entry → Bool
  | [] => false
  | entry :: rest => entry.isUnwritable || Value.anyUnwritableEntry rest

end

def describedBool (b : Bool) : String := if b then "true" else "false"

mutual

/-- A description of a value that cannot be written. -/
def Value.describe : Value → String
  | .null => "Null"
  | .bool b => "Bool(" ++ describedBool b ++ ")"
  | .number n => "Number(" ++ n.text ++ ")"
  | .string text => "String(" ++ Text.quoted text ++ ")"
  | .sequence items => "Sequence [" ++ ", ".intercalate (Value.describeItems items) ++ "]"
  | .mapping entries => "Mapping \x7b" ++ ", ".intercalate (Value.describeEntries entries) ++ "\x7d"
  | .tagged tag content =>
    "TaggedValue \x7b tag: !" ++ tag ++ ", value: " ++ content.describe ++ " \x7d"

def Value.describeItems : List Value → List String
  | [] => []
  | item :: rest => item.describe :: Value.describeItems rest

/-- The description of a key. Scalars go without their kind. -/
def Value.describeKey : Value → String
  | .bool b => describedBool b
  | .number n => n.text
  | .string text => Text.quoted text
  | .null => "Null"
  | .sequence items => "Sequence [" ++ ", ".intercalate (Value.describeItems items) ++ "]"
  | .mapping entries => "Mapping \x7b" ++ ", ".intercalate (Value.describeEntries entries) ++ "\x7d"
  | .tagged tag content =>
    "TaggedValue \x7b tag: !" ++ tag ++ ", value: " ++ content.describe ++ " \x7d"

def Entry.describe : Entry → String
  | ⟨key, value⟩ => key.describeKey ++ ": " ++ value.describe

def Value.describeEntries : List Entry → List String
  | [] => []
  | entry :: rest => entry.describe :: Value.describeEntries rest

end

/-- A value as text, or a description of it if it cannot be written. -/
def Value.dump (value : Value) : String :=
  if value.isUnwritable false then value.describe else value.write .root

end ChannelProtocol.Yaml
