-- YAML text as it is scanned: which characters it may hold, line breaks in
-- one spelling, and a cursor that knows its line and column.

namespace ChannelProtocol.Yaml

/-- Why a text is no YAML document, or one that cannot be represented. -/
inductive SyntaxError where
  | character
  | indentation
  | simpleKey
  | context
  | directive
  | anchor
  | tag
  | blockScalar
  | quotedScalar
  | plainScalar
  | grammar
  | unknownAnchor
  | manyDocuments
  | depth
  | repetition
  | duplicateKey
  | mistyped
  | integerRange
  deriving DecidableEq, Repr

def SyntaxError.message : SyntaxError → String
  | .character => "control characters are not allowed"
  | .indentation => "wrong indentation"
  | .simpleKey => "a key and its colon must stand on one line"
  | .context => "an entry is not allowed here"
  | .directive => "wrong directive"
  | .anchor => "wrong anchor or alias"
  | .tag => "wrong tag"
  | .blockScalar => "wrong block scalar"
  | .quotedScalar => "wrong quoted scalar"
  | .plainScalar => "wrong plain scalar"
  | .grammar => "an entry is missing or out of place"
  | .unknownAnchor => "unknown anchor"
  | .manyDocuments => "more than one document"
  | .depth => "the document is nested too deeply"
  | .repetition => "too many repetitions"
  | .duplicateKey => "duplicate key"
  | .mistyped => "a value does not have the type of its tag"
  | .integerRange => "an integer is out of range"

/-! ## Characters -/

def isAllowed (c : Char) : Bool :=
  let n := c.toNat
  n == 0x09 || n == 0x0A || n == 0x0D || (0x20 ≤ n && n ≤ 0x7E) || n == 0x85
    || (0xA0 ≤ n && n ≤ 0xD7FF) || (0xE000 ≤ n && n ≤ 0xFFFD) || 0x10000 ≤ n

/-- A space or a tab. -/
def isSpace (c : Char) : Bool := c == ' ' || c == '\t'

/-- A line break, after `unifyBreaks`. -/
def isBreak (c : Char) : Bool := c == '\n' || c == '\u2028' || c == '\u2029'

/-- A character of a word: an ASCII letter or digit, a hyphen or an underscore. -/
def isWord (c : Char) : Bool := c.isAlphanum || c == '_' || c == '-'

def byteOrderMark : Char := '\ufeff'

/-- Whether the text ends here, or a space or a line break follows. -/
def atGap : List Char → Bool
  | [] => true
  | c :: _ => isSpace c || isBreak c

/-- Whether the text ends here, or a line break follows. -/
def atLineEnd : List Char → Bool
  | [] => true
  | c :: _ => isBreak c

/-- Three marks of one kind that stand alone separate documents. -/
def isSeparator (mark : Char) : List Char → Bool
  | a :: b :: c :: rest => a == mark && b == mark && c == mark && atGap rest
  | _ => false

def atSeparator (cs : List Char) : Bool := isSeparator '-' cs || isSeparator '.' cs

/-- A carriage return, alone or before a line feed, and a next line character become a line
feed. The line and paragraph separators stay as they are. -/
def unifyBreaks : List Char → List Char
  | [] => []
  | '\r' :: '\n' :: rest => '\n' :: unifyBreaks rest
  | c :: rest => (if c == '\r' || c == '\u0085' then '\n' else c) :: unifyBreaks rest

/-! ## The cursor -/

/-- What is left of a text, and where it starts. -/
structure Cursor where
  rest : List Char
  line : Nat := 0
  column : Nat := 0

namespace Cursor

/-- The cursor behind the next character, which is no line break. -/
def skip (cursor : Cursor) : Cursor :=
  { cursor with rest := cursor.rest.tail, column := cursor.column + 1 }

def skipMany (cursor : Cursor) (n : Nat) : Cursor :=
  { cursor with rest := cursor.rest.drop n, column := cursor.column + n }

def newLine (cursor : Cursor) : Cursor :=
  ⟨cursor.rest.tail, cursor.line + 1, 0⟩

/-- The characters of the line for which `p` holds, and the cursor behind them. -/
def span (p : Char → Bool) (cursor : Cursor) : List Char × Cursor :=
  let taken := cursor.rest.takeWhile p
  (taken, cursor.skipMany taken.length)

def skipSpaces (cursor : Cursor) : Cursor := (cursor.span isSpace).2

/-- The cursor at the end of the line. -/
def skipLine (cursor : Cursor) : Cursor := (cursor.span fun c => !isBreak c).2

def skipComment (cursor : Cursor) : Cursor :=
  let cursor := cursor.skipSpaces
  if cursor.rest.head? == some '#' then cursor.skipLine else cursor

/-- The cursor behind spaces, a comment and the line break, if nothing else follows on the
line. -/
def finishLine? (cursor : Cursor) : Option Cursor :=
  let cursor := cursor.skipComment
  match cursor.rest with
  | [] => some cursor
  | c :: _ => if isBreak c then some cursor.newLine else none

end Cursor

end ChannelProtocol.Yaml
