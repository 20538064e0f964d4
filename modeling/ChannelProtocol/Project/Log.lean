-- What a run tells about itself: records with a level and a target, and the
-- filters that let some of them through.

namespace ChannelProtocol.Project

inductive Level where
  | error
  | warn
  | info
  | debug
  | trace
  deriving DecidableEq, Repr

namespace Level

/-- The rank of a level: the more important, the lower. Zero is below all of them. -/
def rank : Level → Nat
  | .error => 1
  | .warn => 2
  | .info => 3
  | .debug => 4
  | .trace => 5

def name : Level → String
  | .error => "ERROR"
  | .warn => "WARN"
  | .info => "INFO"
  | .debug => "DEBUG"
  | .trace => "TRACE"

end Level

structure Record where
  level : Level
  target : String
  message : String
  deriving DecidableEq, Repr

/-! ## Filters -/

/-- Lets the records of targets that start with `target` through up to a rank. -/
structure Directive where
  target : String
  limit : Nat
  deriving DecidableEq, Repr

def Directive.covers (directive : Directive) (target : String) : Bool :=
  directive.target.toList.isPrefixOf target.toList

/-- The directive that decides about a target: the last of those with the longest target that
cover it. -/
def deciding? (directives : List Directive) (target : String) : Option Directive :=
  directives.foldl
    (fun best directive =>
      if directive.covers target then
        match best with
        | some other =>
          if other.target.length ≤ directive.target.length then some directive else best
        | none => some directive
      else best)
    none

def allows (directives : List Directive) (record : Record) : Bool :=
  match deciding? directives record.target with
  | some directive => record.level.rank ≤ directive.limit
  | none => false

/-! ## Filters as text -/

/-- The number of some digits, maybe behind a plus sign. -/
def count? (word : String) : Option Nat :=
  let digits := match word.toList with
    | '+' :: rest => rest
    | cs => cs
  if digits.isEmpty then none
  else if digits.all Char.isDigit then
    some (digits.foldl (fun n c => 10 * n + (c.toNat - '0'.toNat)) 0)
  else none

/-- The rank of a level's name, in whatever case. -/
def namedRank? (word : String) : Option Nat :=
  let word := word.map Char.toLower
  if word = "error" then some 1
  else if word = "warn" then some 2
  else if word = "info" then some 3
  else if word = "debug" then some 4
  else if word = "trace" then some 5
  else none

/-- The rank of a level, which may be given as a number or turned off. -/
def rank? (word : String) : Option Nat :=
  match count? word with
  | some n => if n ≤ 5 then some n else none
  | none => if word.map Char.toLower = "off" then some 0 else namedRank? word

/-- The characters before the first one that is `c`, and those behind it. -/
def splitAt? (c : Char) : List Char → Option (List Char × List Char)
  | [] => none
  | d :: rest =>
    if d = c then some ([], rest) else (splitAt? c rest).map fun (a, b) => (d :: a, b)

def isTargetStart (c : Char) : Bool := c.isAlphanum || c == '-' || c == ':' || c == '_'

/-- The directive of a part of a filter: a level for all targets, a target for all levels, or a
target with its level. -/
def directive? (part : List Char) : Option Directive :=
  if part.head?.any isTargetStart then
    match splitAt? '=' part with
    | none =>
      match rank? (String.ofList part) with
      | some limit => some ⟨"", limit⟩
      | none => some ⟨String.ofList part, Level.trace.rank⟩
    | some (target, []) => some ⟨String.ofList target, Level.trace.rank⟩
    | some (target, level) =>
      (rank? (String.ofList level)).map fun limit => ⟨String.ofList target, limit⟩
  else none

def splitCommas : List Char → List (List Char)
  | [] => [[]]
  | c :: rest =>
    if c = ',' then [] :: splitCommas rest
    else
      match splitCommas rest with
      | part :: parts => (c :: part) :: parts
      | [] => [[c]]

/-- The directives that let through what the program itself records up to a rank. -/
def ownDirectives (limit : Nat) : List Directive :=
  [⟨"protogen", limit⟩, ⟨"protogen_core", limit⟩]

/-- The directives of a filter. A level alone is about the program itself. Parts that make no
sense are left out. -/
def filterOf (source : String) : List Directive :=
  match namedRank? source with
  | some limit => ownDirectives limit
  | none => (splitCommas source.toList).filterMap directive?

end ChannelProtocol.Project
