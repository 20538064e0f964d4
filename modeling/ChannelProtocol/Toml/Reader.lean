-- Reading TOML documents: headers, keys and values, line by line.
import ChannelProtocol.Toml.Scalar
import ChannelProtocol.Toml.Section
import ChannelProtocol.Toml.Text

namespace ChannelProtocol.Toml

/-! ## Gaps -/

def skipGap (cs : List Char) : List Char := cs.dropWhile isGap

/-- Skips spaces, line ends and comments. -/
def skipLines (inComment : Bool) : List Char → List Char
  | [] => []
  | '\r' :: '\n' :: rest => skipLines false rest
  | c :: rest =>
    if c == '\n' then skipLines false rest
    else if inComment then if isLineChar c then skipLines true rest else c :: rest
    else if isGap c then skipLines false rest
    else if c == '#' then skipLines true rest
    else c :: rest

/-- What follows the end of a line, before which only a comment may stand. -/
def endLine (cs : List Char) : Except SyntaxError (List Char) :=
  let rest := match skipGap cs with
    | '#' :: comment => comment.dropWhile isLineChar
    | rest => rest
  match rest with
  | [] => .ok []
  | '\n' :: rest => .ok rest
  | '\r' :: '\n' :: rest => .ok rest
  | _ => .error .line

/-! ## Keys -/

/-- How deep arrays, tables and keys may be nested. -/
def deepest : Nat := 80

def isBareChar (c : Char) : Bool := c.isAlphanum || c == '_' || c == '-'

def simpleKey : List Char → Read
  | '\x22' :: rest => basicText [] rest
  | '\x27' :: rest => literalText [] rest
  | cs =>
    match cs.takeWhile isBareChar with
    | [] => .error .key
    | word => .ok (String.ofList word, cs.dropWhile isBareChar)

def dottedKey : Nat → List Char → Except SyntaxError (List String × List Char)
  | 0, _ => .error .depth
  | more + 1, cs => do
    let (key, rest) ← simpleKey (skipGap cs)
    match skipGap rest with
    | '.' :: rest =>
      let (keys, rest) ← dottedKey more rest
      return (key :: keys, rest)
    | rest => return ([key], rest)

/-- The parts of a key before an equals sign, and what follows the sign. -/
def assignedKey (cs : List Char) : Except SyntaxError (List String × List Char) := do
  match ← dottedKey deepest cs with
  | (path, '=' :: rest) => return (path, skipGap rest)
  | _ => .error .key

/-! ## Values -/

mutual

/-- A value at most `depth` levels deep, and what follows it. -/
def readValue (depth : Nat) : Nat → List Char → Except SyntaxError (Value × List Char)
  | 0, _ => .error .value
  | fuel + 1, '[' :: rest =>
    match depth with
    | 0 => .error .depth
    | depth + 1 => do
      let (items, rest) ← readItems depth fuel (skipLines false rest)
      return (.array items, rest)
  | fuel + 1, '\x7b' :: rest =>
    match depth with
    | 0 => .error .depth
    | depth + 1 =>
      match skipGap rest with
      | '\x7d' :: rest => .ok (.table [], rest)
      | rest => do
        let (table, rest) ← readInline depth fuel (.empty .header) rest
        return (.table table.toEntries, rest)
  | _ + 1, cs =>
    match string? cs with
    | some read => read.map fun (text, rest) => (.string text, rest)
    | none =>
      let (word, rest) := takeWord cs
      match scalar? word with
      | some value => .ok (value, rest)
      | none => .error .value

def readItems (depth : Nat) : Nat → List Char → Except SyntaxError (List Value × List Char)
  | 0, _ => .error .value
  | _ + 1, ']' :: rest => .ok ([], rest)
  | fuel + 1, cs => do
    let (item, rest) ← readValue depth fuel cs
    match skipLines false rest with
    | ',' :: rest =>
      let (items, rest) ← readItems depth fuel (skipLines false rest)
      return (item :: items, rest)
    | ']' :: rest => return ([item], rest)
    | _ => .error .value

/-- The entries of an inline table up to its end, added to those before. -/
def readInline (depth : Nat) : Nat → Section → List Char → Except SyntaxError (Section × List Char)
  | 0, _, _ => .error .value
  | fuel + 1, table, cs => do
    let (path, rest) ← assignedKey cs
    let (value, rest) ← readValue depth fuel rest
    let table ← table.assign path value
    match skipGap rest with
    | ',' :: rest => readInline depth fuel table rest
    | '\x7d' :: rest => return (table, rest)
    | _ => .error .value

end

/-! ## Documents -/

/-- A header without its first bracket: its key, and what follows the line. -/
def readHeader (inArray : Bool) (cs : List Char) :
    Except SyntaxError (List String × List Char) := do
  let (path, rest) ← dottedKey deepest cs
  match inArray, rest with
  | false, ']' :: rest => return (path, ← endLine rest)
  | true, ']' :: ']' :: rest => return (path, ← endLine rest)
  | _, _ => .error .key

/-- Reads the lines of a document into its tables; `current` is the path of the open one. -/
def readLines (length : Nat) :
    Nat → List String → Section → List Char → Except SyntaxError Section
  | 0, _, _, _ => .error .line
  | fuel + 1, current, root, cs =>
    match skipLines false cs with
    | [] => .ok root
    | '[' :: '[' :: rest => do
      let (path, rest) ← readHeader true rest
      readLines length fuel path (← root.openAt true path) rest
    | '[' :: rest => do
      let (path, rest) ← readHeader false rest
      readLines length fuel path (← root.openAt false path) rest
    | cs => do
      let (path, rest) ← assignedKey cs
      let (value, rest) ← readValue deepest length rest
      let rest ← endLine rest
      let root ← Section.changeAt false (Section.assign path value) current root
      readLines length fuel current root rest

def dropMark : List Char → List Char
  | '\ufeff' :: rest => rest
  | cs => cs

def read (source : String) : Except SyntaxError (List Entry) := do
  let cs := dropMark source.toList
  let length := cs.length + 1
  let root ← readLines length length [] (.empty .header) cs
  return root.toEntries

end ChannelProtocol.Toml
