-- The tokens of a text. Indentation and line ends decide where block
-- collections start and end, and a colon decides afterwards that what stands
-- before it was a key.
import ChannelProtocol.Yaml.Token.Scalar
import ChannelProtocol.Yaml.Token

namespace ChannelProtocol.Yaml

/-- A place where a key without indicator may have started: how many tokens stand before it, and
whether the text is wrong if no colon follows. -/
structure Candidate where
  tokens : Nat
  required : Bool
  line : Nat
  column : Nat

/-- The state of the lexer. Tokens and indentations are kept last first. Each open flow collection
has a candidate of its own, and one more stands for the block around them. -/
structure Lexer where
  cursor : Cursor
  tokens : List Token := []
  indent : Int := -1
  indents : List Int := []
  candidate : Option Candidate := none
  outer : List (Option Candidate) := []
  keyAllowed : Bool := true

namespace Lexer

def inFlow (lexer : Lexer) : Bool := !lexer.outer.isEmpty

def emit (lexer : Lexer) (token : Token) : Lexer :=
  { lexer with tokens := token :: lexer.tokens }

/-! ## Indentation -/

/-- Tokens with further ones put in behind the first `n`. -/
def insertAfter (n : Nat) (new tokens : List Token) : List Token :=
  let behind := tokens.length - n
  tokens.take behind ++ (new.reverse ++ tokens.drop behind)

/-- Starts a block collection at a column that lies further right than the current one. Its token
goes behind the first `n`. Flow collections have no indentation. -/
def indentTo (lexer : Lexer) (column : Nat) (n : Nat) (token : Token) : Lexer :=
  if lexer.inFlow || (column : Int) ≤ lexer.indent then lexer
  else
    { lexer with
      indents := lexer.indent :: lexer.indents
      indent := column
      tokens := insertAfter n [token] lexer.tokens }

/-- Closes the block collections that start further right than the column, given the
indentations around the innermost one. -/
def closeTo (column indent : Int) (tokens : List Token) : List Int → Int × List Int × List Token
  | [] => (indent, [], tokens)
  | next :: indents =>
    if column < indent then closeTo column next (.blockEnd :: tokens) indents
    else (indent, next :: indents, tokens)

/-- Goes back to a column, or to none at all for `-1`. -/
def dedentTo (lexer : Lexer) (column : Int) : Lexer :=
  if lexer.inFlow then lexer
  else
    match closeTo column lexer.indent lexer.tokens lexer.indents with
    | (indent, indents, tokens) => { lexer with indent, indents, tokens }

/-! ## Candidates for keys -/

/-- The longest key without indicator, in characters. -/
def longestKey : Nat := 1024

/-- Drops a candidate that the cursor has left behind. -/
def expire (cursor : Cursor) : Option Candidate → Except SyntaxError (Option Candidate)
  | none => .ok none
  | some candidate =>
    if candidate.line < cursor.line || candidate.column + longestKey < cursor.column then
      if candidate.required then .error .simpleKey else .ok none
    else .ok (some candidate)

def expireAll (lexer : Lexer) : Except SyntaxError Lexer := do
  let candidate ← expire lexer.cursor lexer.candidate
  let outer ← lexer.outer.mapM (expire lexer.cursor)
  return { lexer with candidate, outer }

def dropCandidate (lexer : Lexer) : Except SyntaxError Lexer :=
  match lexer.candidate with
  | some candidate =>
    if candidate.required then .error .simpleKey else .ok { lexer with candidate := none }
  | none => .ok lexer

def noteCandidate (lexer : Lexer) : Except SyntaxError Lexer :=
  if lexer.keyAllowed then do
    let dropped ← lexer.dropCandidate
    let candidate : Candidate :=
      { tokens := lexer.tokens.length
        required := !lexer.inFlow && lexer.indent == (lexer.cursor.column : Int)
        line := lexer.cursor.line
        column := lexer.cursor.column }
    return { dropped with candidate := some candidate }
  else .ok lexer

/-! ## Single tokens -/

/-- A token of one character. -/
def take (lexer : Lexer) (token : Token) (keyAllowed : Bool) : Lexer :=
  { lexer.emit token with cursor := lexer.cursor.skip, keyAllowed }

def directive (lexer : Lexer) : Except SyntaxError Lexer := do
  let lexer ← (lexer.dedentTo (-1)).dropCandidate
  let (token, cursor) ← scanDirective lexer.cursor.skip
  return { lexer.emit token with cursor, keyAllowed := false }

def separator (lexer : Lexer) (token : Token) : Except SyntaxError Lexer := do
  let lexer ← (lexer.dedentTo (-1)).dropCandidate
  return { lexer.emit token with cursor := lexer.cursor.skipMany 3, keyAllowed := false }

def openFlow (lexer : Lexer) (token : Token) : Except SyntaxError Lexer := do
  let lexer ← lexer.noteCandidate
  return { lexer.take token true with candidate := none, outer := lexer.candidate :: lexer.outer }

def closeFlow (lexer : Lexer) (token : Token) : Except SyntaxError Lexer := do
  let lexer ← lexer.dropCandidate
  let lexer := lexer.take token false
  match lexer.outer with
  | [] => return lexer
  | candidate :: outer => return { lexer with candidate, outer }

def flowEntry (lexer : Lexer) : Except SyntaxError Lexer := do
  return (← lexer.dropCandidate).take .flowEntry true

def blockEntry (lexer : Lexer) : Except SyntaxError Lexer := do
  if !lexer.inFlow && !lexer.keyAllowed then .error .context
  let lexer := lexer.indentTo lexer.cursor.column lexer.tokens.length .blockSequenceStart
  return (← lexer.dropCandidate).take .blockEntry true

def explicitKey (lexer : Lexer) : Except SyntaxError Lexer := do
  if !lexer.inFlow && !lexer.keyAllowed then .error .context
  let lexer := lexer.indentTo lexer.cursor.column lexer.tokens.length .blockMappingStart
  return (← lexer.dropCandidate).take .key (!lexer.inFlow)

/-- The colon before a value. The candidate, if there is one, becomes a key. -/
def valueMark (lexer : Lexer) : Except SyntaxError Lexer :=
  match lexer.candidate with
  | some candidate =>
    let lexer := { lexer with tokens := insertAfter candidate.tokens [.key] lexer.tokens }
    let lexer := lexer.indentTo candidate.column candidate.tokens .blockMappingStart
    .ok ({ lexer with candidate := none }.take .value false)
  | none =>
    if !lexer.inFlow && !lexer.keyAllowed then .error .context
    else
      let lexer := lexer.indentTo lexer.cursor.column lexer.tokens.length .blockMappingStart
      .ok (lexer.take .value (!lexer.inFlow))

/-- A reference or an anchor. -/
def named (lexer : Lexer) (token : String → Token) : Except SyntaxError Lexer := do
  let lexer ← lexer.noteCandidate
  let (name, cursor) ← scanAnchor lexer.cursor.skip
  return { lexer.emit (token name) with cursor, keyAllowed := false }

def tag (lexer : Lexer) : Except SyntaxError Lexer := do
  let lexer ← lexer.noteCandidate
  let (token, cursor) ← scanTag lexer.inFlow lexer.cursor
  return { lexer.emit token with cursor, keyAllowed := false }

def blockScalar (lexer : Lexer) (literal : Bool) : Except SyntaxError Lexer := do
  let lexer ← lexer.dropCandidate
  let scanned ← scanBlock literal lexer.indent lexer.cursor.skip
  return { lexer.emit (.scalar false scanned.text) with
    cursor := scanned.cursor, keyAllowed := true }

def quotedScalar (lexer : Lexer) (single : Bool) : Except SyntaxError Lexer := do
  let lexer ← lexer.noteCandidate
  let scanned ← scanQuoted single lexer.cursor.skip
  return { lexer.emit (.scalar false scanned.text) with
    cursor := scanned.cursor, keyAllowed := false }

def plainScalar (lexer : Lexer) : Except SyntaxError Lexer := do
  let lexer ← lexer.noteCandidate
  let cursor := lexer.cursor
  let scanned ←
    scanPlain lexer.inFlow (lexer.indent + 1) [] {} cursor.line cursor.column cursor.rest
  return { lexer.emit (.scalar true scanned.text) with
    cursor := scanned.cursor, keyAllowed := scanned.crossed }

/-! ## The loop -/

/-- Passes white space and comments. Tabs count as such only where no key may start; `allowed`
tells whether one may, which it may on a new line outside of flow collections. -/
def passBlank (flow allowed : Bool) (comment : Bool) (line column : Nat) :
    List Char → Bool × Cursor
  | [] => (allowed, ⟨[], line, column⟩)
  | c :: rest =>
    if isBreak c then passBlank flow (allowed || !flow) false (line + 1) 0 rest
    else if comment || c == ' ' || (c == '\t' && (flow || !allowed)) || c == '#'
        || (c == byteOrderMark && column == 0) then
      passBlank flow allowed (comment || c == '#') line (column + 1) rest
    else (allowed, ⟨c :: rest, line, column⟩)

/-- The characters that cannot start a plain scalar on their own. -/
def isIndicator (c : Char) : Bool :=
  isFlowIndicator c || "-?:#&*!|>'\"%@`".toList.contains c

def startsPlain (flow : Bool) : List Char → Bool
  | [] => false
  | c :: rest =>
    !(isIndicator c || isSpace c || isBreak c)
      || (c == '-' && !(rest.head?.any isSpace))
      || (!flow && (c == '?' || c == ':') && !atGap rest)

/-- The next token, which starts at the cursor with `c`. -/
def token (lexer : Lexer) (c : Char) (rest : List Char) : Except SyntaxError Lexer :=
  let atStart := lexer.cursor.column == 0
  if atStart && c == '%' then lexer.directive
  else if atStart && isSeparator '-' (c :: rest) then lexer.separator .documentStart
  else if atStart && isSeparator '.' (c :: rest) then lexer.separator .documentEnd
  else if c == '[' then lexer.openFlow .flowSequenceStart
  else if c == '\x7b' then lexer.openFlow .flowMappingStart
  else if c == ']' then lexer.closeFlow .flowSequenceEnd
  else if c == '\x7d' then lexer.closeFlow .flowMappingEnd
  else if c == ',' then lexer.flowEntry
  else if c == '-' && atGap rest then lexer.blockEntry
  else if c == '?' && (lexer.inFlow || atGap rest) then lexer.explicitKey
  else if c == ':' && (lexer.inFlow || atGap rest) then lexer.valueMark
  else if c == '*' then lexer.named .reference
  else if c == '&' then lexer.named .anchor
  else if c == '!' then lexer.tag
  else if c == '|' && !lexer.inFlow then lexer.blockScalar true
  else if c == '>' && !lexer.inFlow then lexer.blockScalar false
  else if c == '\x27' then lexer.quotedScalar true
  else if c == '\x22' then lexer.quotedScalar false
  else if startsPlain lexer.inFlow (c :: rest) then lexer.plainScalar
  else .error .character

def finish (lexer : Lexer) : Except SyntaxError (List Token) := do
  let lexer ← (lexer.dedentTo (-1)).dropCandidate
  return lexer.tokens.reverse

/-- All tokens from here on. Each takes at least one character; `fuel` bounds their number. -/
def run : Nat → Lexer → Except SyntaxError (List Token)
  | 0, _ => .error .character
  | fuel + 1, lexer => do
    let cursor := lexer.cursor
    let (keyAllowed, cursor) :=
      passBlank lexer.inFlow lexer.keyAllowed false cursor.line cursor.column cursor.rest
    let lexer ← { lexer with cursor, keyAllowed }.expireAll
    let lexer := lexer.dedentTo cursor.column
    match cursor.rest with
    | [] => lexer.finish
    | c :: rest => run fuel (← lexer.token c rest)

end Lexer

def tokens (text : String) : Except SyntaxError (List Token) :=
  let cs := text.toList
  if cs.all isAllowed then Lexer.run (cs.length + 1) { cursor := { rest := unifyBreaks cs } }
  else .error .character

end ChannelProtocol.Yaml
