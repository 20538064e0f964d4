-- Scalars: plain text, which ends at an indicator, at a comment or where the
-- indentation falls back, text between quotes, and blocks of lines. White space in a
-- scalar that spans lines is folded.
import ChannelProtocol.Yaml.Source
import ChannelProtocol.Number.Literal

namespace ChannelProtocol.Yaml

/-! ## White space in a scalar -/

/-- White space that was passed since the last character of a scalar. Spaces and line breaks
are kept last first; `crossed` tells that a line was left. -/
structure Fold where
  spaces : List Char := []
  first : Option Char := none
  more : List Char := []
  crossed : Bool := false

namespace Fold

def isOpen (gap : Fold) : Bool := gap.crossed || !gap.spaces.isEmpty

/-- A further space: those at the start of a line do not count. -/
def addSpace (gap : Fold) (c : Char) : Fold :=
  if gap.crossed then gap else { gap with spaces := c :: gap.spaces }

/-- A further line break: the spaces before it do not count. -/
def addBreak (gap : Fold) (c : Char) : Fold :=
  if gap.crossed then { gap with more := c :: gap.more }
  else { first := some c, crossed := true }

/-- The gap after an escaped line break. -/
def escaped : Fold := { crossed := true }

/-- What the gap stands for, last character first. -/
def reversed (gap : Fold) : List Char :=
  if !gap.crossed then gap.spaces
  else if gap.first == some '\n' then (if gap.more.isEmpty then [' '] else gap.more)
  else gap.more ++ gap.first.toList

end Fold

/-! ## Plain scalars -/

def isFlowIndicator (c : Char) : Bool :=
  c == ',' || c == '[' || c == ']' || c == '\x7b' || c == '\x7d'

/-- Whether a colon is followed by what it may not be followed by in a flow collection. -/
def hasBadColon : List Char → Bool
  | ':' :: c :: _ => c == '?' || isFlowIndicator c
  | _ => false

/-- Whether a plain scalar ends at the next character, which is neither space nor break. -/
def endsPlain (flow : Bool) : List Char → Bool
  | [] => true
  | c :: rest => (c == ':' && atGap rest) || (flow && isFlowIndicator c)

/-- A scanned scalar: its text, whether the cursor is on a later line than its last character,
and the cursor. -/
structure Scanned where
  text : String
  crossed : Bool
  cursor : Cursor

/-- Scans on in a plain scalar. `text` is read so far, last character first, and `gap` follows
it; a block scalar has at least the given indentation on all its lines. -/
def scanPlain (flow : Bool) (indent : Int) (text : List Char) (gap : Fold) (line column : Nat) :
    List Char → Except SyntaxError Scanned
  | [] => .ok ⟨String.ofList text.reverse, gap.crossed, ⟨[], line, column⟩⟩
  | c :: rest =>
    if isSpace c then
      if gap.crossed && column < indent && c == '\t' then .error .indentation
      else scanPlain flow indent text (gap.addSpace c) line (column + 1) rest
    else if isBreak c then scanPlain flow indent text (gap.addBreak c) (line + 1) 0 rest
    else
      let stopped := gap.isOpen
        && ((!flow && column < indent) || (column == 0 && atSeparator (c :: rest)) || c == '#')
      if !stopped && flow && hasBadColon (c :: rest) then .error .plainScalar
      else if stopped || endsPlain flow (c :: rest) then
        .ok ⟨String.ofList text.reverse, gap.crossed, ⟨c :: rest, line, column⟩⟩
      else
        scanPlain flow indent (c :: (gap.reversed ++ text)) {} line (column + 1) rest

/-! ## Quoted scalars -/

def escape? : Char → Option Char
  | '0' => some '\x00'
  | 'a' => some '\x07'
  | 'b' => some '\x08'
  | 't' => some '\t'
  | '\t' => some '\t'
  | 'n' => some '\n'
  | 'v' => some '\x0b'
  | 'f' => some '\x0c'
  | 'r' => some '\r'
  | 'e' => some '\x1b'
  | ' ' => some ' '
  | '\x22' => some '\x22'
  | '/' => some '/'
  | '\\' => some '\\'
  | 'N' => some '\u0085'
  | '_' => some '\u00a0'
  | 'L' => some '\u2028'
  | 'P' => some '\u2029'
  | _ => none

/-- The character of a numeric escape, unless its digits are wrong or no character has this
number. -/
def numbered? (digits : List Char) : Option Char :=
  match Number.digits? 16 digits with
  | some n => if n < 0xD800 ∨ (0xDFFF < n ∧ n ≤ 0x10FFFF) then some (Char.ofNat n) else none
  | none => none

def scanSingle (text : List Char) (gap : Fold) (line column : Nat) :
    List Char → Except SyntaxError Scanned
  | [] => .error .quotedScalar
  | '\x27' :: '\x27' :: rest =>
    scanSingle ('\x27' :: (gap.reversed ++ text)) {} line (column + 2) rest
  | c :: rest =>
    if isSpace c then scanSingle text (gap.addSpace c) line (column + 1) rest
    else if isBreak c then scanSingle text (gap.addBreak c) (line + 1) 0 rest
    else if column == 0 && atSeparator (c :: rest) then .error .quotedScalar
    else if c == '\x27' then
      .ok ⟨String.ofList (gap.reversed ++ text).reverse, false, ⟨rest, line, column + 1⟩⟩
    else scanSingle (c :: (gap.reversed ++ text)) {} line (column + 1) rest

def scanDouble (text : List Char) (gap : Fold) (line column : Nat) :
    List Char → Except SyntaxError Scanned
  | [] => .error .quotedScalar
  | '\\' :: 'x' :: a :: b :: rest =>
    match numbered? [a, b] with
    | some c => scanDouble (c :: (gap.reversed ++ text)) {} line (column + 4) rest
    | none => .error .quotedScalar
  | '\\' :: 'u' :: a :: b :: c :: d :: rest =>
    match numbered? [a, b, c, d] with
    | some e => scanDouble (e :: (gap.reversed ++ text)) {} line (column + 6) rest
    | none => .error .quotedScalar
  | '\\' :: 'U' :: a :: b :: c :: d :: e :: f :: g :: h :: rest =>
    match numbered? [a, b, c, d, e, f, g, h] with
    | some i => scanDouble (i :: (gap.reversed ++ text)) {} line (column + 10) rest
    | none => .error .quotedScalar
  | '\\' :: c :: rest =>
    if isBreak c then scanDouble (gap.reversed ++ text) Fold.escaped (line + 1) 0 rest
    else match escape? c with
      | some e => scanDouble (e :: (gap.reversed ++ text)) {} line (column + 2) rest
      | none => .error .quotedScalar
  | c :: rest =>
    if isSpace c then scanDouble text (gap.addSpace c) line (column + 1) rest
    else if isBreak c then scanDouble text (gap.addBreak c) (line + 1) 0 rest
    else if column == 0 && atSeparator (c :: rest) then .error .quotedScalar
    else if c == '\x22' then
      .ok ⟨String.ofList (gap.reversed ++ text).reverse, false, ⟨rest, line, column + 1⟩⟩
    else scanDouble (c :: (gap.reversed ++ text)) {} line (column + 1) rest

/-- The scalar that starts behind an opening quote. -/
def scanQuoted (single : Bool) (cursor : Cursor) : Except SyntaxError Scanned :=
  if single then scanSingle [] {} cursor.line cursor.column cursor.rest
  else scanDouble [] {} cursor.line cursor.column cursor.rest

/-! ## Block scalars -/

/-- What becomes of line breaks at the end: none stays, one stays, or all stay. -/
inductive Chomping where
  | strip
  | clip
  | keep
  deriving DecidableEq, Repr

def chomping? (c : Char) : Option Chomping :=
  if c == '-' then some .strip else if c == '+' then some .keep else none

/-- The extra indentation that a digit asks for, which is at least one. -/
def increment? (c : Char) : Option Nat :=
  if c.isDigit && c != '0' then some (c.toNat - '0'.toNat) else none

/-- The marks behind the indicator, in either order. -/
def blockHeader : List Char → Except SyntaxError (Chomping × Option Nat × List Char)
  | [] => .ok (.clip, none, [])
  | c :: rest =>
    match chomping? c with
    | some chomping =>
      match rest with
      | d :: rest' =>
        match increment? d with
        | some n => .ok (chomping, some n, rest')
        | none => if d == '0' then .error .blockScalar else .ok (chomping, none, rest)
      | [] => .ok (chomping, none, rest)
    | none =>
      match increment? c with
      | some n =>
        match rest with
        | d :: rest' =>
          match chomping? d with
          | some chomping => .ok (chomping, some n, rest')
          | none => .ok (.clip, some n, rest)
        | [] => .ok (.clip, some n, rest)
      | none => if c == '0' then .error .blockScalar else .ok (.clip, none, c :: rest)

/-- Where the next line with text starts: the breaks passed, last first, and the widest
indentation seen. -/
structure Margin where
  breaks : List Char
  widest : Nat
  cursor : Cursor

/-- Passes indentation, up to `limit` if there is one, and empty lines. -/
def passMargin (limit : Option Nat) (breaks : List Char) (widest line column : Nat) :
    List Char → Except SyntaxError Margin
  | [] => .ok ⟨breaks, max widest column, ⟨[], line, column⟩⟩
  | c :: rest =>
    let inside := match limit with
      | none => true
      | some n => decide (column < n)
    if c == ' ' && inside then passMargin limit breaks widest line (column + 1) rest
    else if c == '\t' && inside then .error .indentation
    else if isBreak c then passMargin limit (c :: breaks) (max widest column) (line + 1) 0 rest
    else .ok ⟨breaks, max widest column, ⟨c :: rest, line, column⟩⟩

/-- The lines of a block scalar read so far. `text` is in reverse; `last` is the break behind
the last line, and `breaks`, in reverse, are those behind it; `spaced` tells that the last line
started with a space. -/
structure BlockText where
  text : List Char := []
  last : Option Char := none
  breaks : List Char := []
  spaced : Bool := false

/-- The text with the breaks that lead to a further line: folding turns a single line feed into
a space and drops the first of several, unless one of the lines starts with a space. -/
def BlockText.joined (literal : Bool) (block : BlockText) (spaced : Bool) : List Char :=
  if !literal && block.last == some '\n' && !block.spaced && !spaced then
    if block.breaks.isEmpty then ' ' :: block.text else block.breaks ++ block.text
  else block.breaks ++ (block.last.toList ++ block.text)

def BlockText.chomped (chomping : Chomping) (block : BlockText) : List Char :=
  match chomping with
  | .strip => block.text
  | .clip => block.last.toList ++ block.text
  | .keep => block.breaks ++ (block.last.toList ++ block.text)

/-- Reads lines as long as they have the indentation. `fuel` bounds the number of lines. -/
def scanBlockLines (literal : Bool) (indent : Nat) :
    Nat → BlockText → Cursor → Except SyntaxError (BlockText × Cursor)
  | 0, block, cursor => .ok (block, cursor)
  | fuel + 1, block, cursor =>
    match cursor.rest with
    | [] => .ok (block, cursor)
    | c :: _ =>
      if cursor.column ≠ indent then .ok (block, cursor)
      else do
        let spaced := isSpace c
        let text := block.joined literal spaced
        let (content, cursor) := cursor.span fun d => !isBreak d
        let last := cursor.rest.head?
        let cursor := if last.isSome then cursor.newLine else cursor
        let margin ← passMargin (some indent) [] 0 cursor.line cursor.column cursor.rest
        scanBlockLines literal indent fuel
          { text := content.reverse ++ text, last, breaks := margin.breaks, spaced } margin.cursor

/-- The block scalar whose indicator stands right before the cursor, inside a collection with the
given indentation. -/
def scanBlock (literal : Bool) (parent : Int) (cursor : Cursor) : Except SyntaxError Scanned := do
  let (chomping, increment, rest) ← blockHeader cursor.rest
  let passed := cursor.rest.length - rest.length
  let cursor ← match (cursor.skipMany passed).finishLine? with
    | some cursor => pure cursor
    | none => .error .blockScalar
  let asked := increment.map fun n => if 0 ≤ parent then parent.toNat + n else n
  let margin ← passMargin asked [] 0 cursor.line cursor.column cursor.rest
  let indent := asked.getD (max margin.widest (max (parent + 1).toNat 1))
  let (block, cursor) ←
    scanBlockLines literal indent (margin.cursor.rest.length + 1) { breaks := margin.breaks }
      margin.cursor
  return ⟨String.ofList (block.chomped chomping).reverse, true, cursor⟩

end ChannelProtocol.Yaml
