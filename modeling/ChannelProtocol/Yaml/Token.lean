-- The tokens of YAML. Block collections have start and end tokens that the
-- indentation stands for. Anchors, references, tags and directives are made of words
-- and addresses.
import ChannelProtocol.Number.Literal
import ChannelProtocol.Yaml.Source

namespace ChannelProtocol.Yaml

/-- A token. A scalar knows whether it stood without quotes and on no block. -/
inductive Token where
  | version (major minor : Nat)
  | tagDirective (handle replacement : String)
  | documentStart
  | documentEnd
  | blockSequenceStart
  | blockMappingStart
  | blockEnd
  | flowSequenceStart
  | flowSequenceEnd
  | flowMappingStart
  | flowMappingEnd
  | blockEntry
  | flowEntry
  | key
  | value
  | reference (name : String)
  | anchor (name : String)
  | tag (handle suffix : String)
  | scalar (plain : Bool) (text : String)
  deriving DecidableEq, Repr

/-! ## Anchors -/

def endsAnchor : List Char → Bool
  | [] => true
  | c :: rest =>
    atGap (c :: rest) || c == '?' || c == ':' || c == ',' || c == ']' || c == '\x7d' || c == '%'
      || c == '@' || c == '\x60'

def scanAnchor (cursor : Cursor) : Except SyntaxError (String × Cursor) :=
  let (name, cursor) := cursor.span isWord
  if name.isEmpty || !endsAnchor cursor.rest then .error .anchor
  else .ok (String.ofList name, cursor)

/-! ## Addresses -/

/-- The characters of a tag. Those of flow collections count only inside angle brackets. -/
def isAddress (bracketed : Bool) (c : Char) : Bool :=
  isWord c || c == ';' || c == '/' || c == '?' || c == ':' || c == '@' || c == '&' || c == '='
    || c == '+' || c == '$' || c == '.' || c == '%' || c == '!' || c == '~' || c == '*'
    || c == '\x27' || c == '(' || c == ')' || (bracketed && (c == ',' || c == '[' || c == ']'))

/-- The bytes of a text, where `%` stands before two digits of a byte. -/
def addressBytes : List Char → Option (List UInt8)
  | [] => some []
  | '%' :: a :: b :: rest =>
    match Number.digits? 16 [a, b], addressBytes rest with
    | some n, some bytes => some (n.toUInt8 :: bytes)
    | _, _ => none
  | c :: rest =>
    if c == '%' then none
    else (addressBytes rest).map fun bytes => (String.singleton c).toUTF8.toList ++ bytes

def decodeAddress (cs : List Char) : Option String :=
  match addressBytes cs with
  | some bytes => String.fromUTF8? ⟨bytes.toArray⟩
  | none => none

def scanAddress (bracketed : Bool) (cursor : Cursor) : Except SyntaxError (String × Cursor) :=
  let (taken, cursor) := cursor.span (isAddress bracketed)
  match decodeAddress taken with
  | some text => .ok (text, cursor)
  | none => .error .tag

/-! ## Tags -/

/-- The word between exclamation marks that starts a tag, if it is closed by a second mark. The
cursor stands at the first mark. -/
def scanHandle? (cursor : Cursor) : Option (String × Cursor) :=
  let (word, behind) := cursor.skip.span isWord
  match behind.rest with
  | '!' :: _ => some ("!" ++ String.ofList word ++ "!", behind.skip)
  | _ => none

/-- The tag at the cursor: an address in angle brackets, a handle with a suffix, a suffix of the
handle `!`, or that mark alone. -/
def scanTag (flow : Bool) (cursor : Cursor) : Except SyntaxError (Token × Cursor) := do
  let (token, cursor) ← match cursor.rest with
    | '!' :: '<' :: _ => do
      let (suffix, behind) ← scanAddress true (cursor.skipMany 2)
      match behind.rest with
      | '>' :: _ =>
        if suffix.isEmpty then .error .tag else pure (Token.tag "" suffix, behind.skip)
      | _ => .error .tag
    | _ =>
      match scanHandle? cursor with
      | some (handle, behind) => do
        let (suffix, behind) ← scanAddress false behind
        if suffix.isEmpty then .error .tag else pure (Token.tag handle suffix, behind)
      | none => do
        let (suffix, behind) ← scanAddress false cursor.skip
        pure (if suffix.isEmpty then Token.tag "" "!" else Token.tag "!" suffix, behind)
  if atGap cursor.rest || (flow && cursor.rest.head? == some ',') then return (token, cursor)
  else .error .tag

/-! ## Directives -/

/-- A number of at most nine digits. -/
def scanVersionNumber (cursor : Cursor) : Except SyntaxError (Nat × Cursor) :=
  let (digits, cursor) := cursor.span Char.isDigit
  match Number.digits? 10 digits with
  | some n => if digits.length ≤ 9 then .ok (n, cursor) else .error .directive
  | none => .error .directive

def scanVersion (cursor : Cursor) : Except SyntaxError (Token × Cursor) := do
  let (major, cursor) ← scanVersionNumber cursor.skipSpaces
  if cursor.rest.head? != some '.' then .error .directive
  let (minor, cursor) ← scanVersionNumber cursor.skip
  return (.version major minor, cursor)

def scanDirectiveHandle (cursor : Cursor) : Except SyntaxError (String × Cursor) :=
  if cursor.rest.head? != some '!' then .error .directive
  else match scanHandle? cursor with
    | some found => .ok found
    | none => if atGap cursor.skip.rest then .ok ("!", cursor.skip) else .error .directive

def scanTagDirective (cursor : Cursor) : Except SyntaxError (Token × Cursor) := do
  let (handle, cursor) ← scanDirectiveHandle cursor.skipSpaces
  if !(cursor.rest.head?.any isSpace) then .error .directive
  let (replacement, cursor) ← scanAddress true cursor.skipSpaces
  if replacement.isEmpty || !atGap cursor.rest then .error .directive
  return (.tagDirective handle replacement, cursor)

/-- The directive whose indicator stands right before the cursor, to the end of its line. -/
def scanDirective (cursor : Cursor) : Except SyntaxError (Token × Cursor) := do
  let (name, cursor) := cursor.span isWord
  if name.isEmpty || !atGap cursor.rest then .error .directive
  let (token, cursor) ←
    if name == "YAML".toList then scanVersion cursor
    else if name == "TAG".toList then scanTagDirective cursor
    else .error .directive
  match cursor.finishLine? with
  | some cursor => return (token, cursor)
  | none => .error .directive

end ChannelProtocol.Yaml
