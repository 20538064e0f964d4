-- The printed form of a difference: groups of changes with a few unchanged
-- lines around them. Lines keep their terminators, so that joined they give the text back.
import ChannelProtocol.Diff.Settle
import ChannelProtocol.Diff.Shortest

namespace ChannelProtocol.Diff

/-! ## Lines -/

/-- The lines of `rest`, of which the first already holds `current`, in reverse. A line ends
after a line feed, a carriage return, or the pair of both. -/
def splitLines (current : List Char) : List Char → List String
  | [] => if current.isEmpty then [] else [String.ofList current.reverse]
  | '\r' :: '\n' :: rest => String.ofList ('\n' :: '\r' :: current).reverse :: splitLines [] rest
  | c :: rest =>
    if c = '\r' ∨ c = '\n' then String.ofList (c :: current).reverse :: splitLines [] rest
    else splitLines (c :: current) rest

def lines (s : String) : List String :=
  splitLines [] s.toList

def isTerminated (line : String) : Bool :=
  match line.toList.getLast? with
  | some c => c == '\n' || c == '\r'
  | none => false

/-- A line as it is printed: a missing terminator is made up by a line feed. -/
def printedLine (line : String) : String :=
  if isTerminated line then line else line ++ "\n"

/-! ## Blocks -/

/-- A part of a difference: unchanged lines, or lines that replace others. -/
inductive Block where
  | same (lines : List String)
  | change (deleted inserted : List String)
  deriving DecidableEq, Repr

/-- Puts a run in front of blocks. Neighbouring runs of equal lines become one block, and so do
neighbouring edits. -/
def consRun : Run → List Block → List Block
  | .equal ls, .same ms :: rest => .same (ls ++ ms) :: rest
  | .equal ls, rest => .same ls :: rest
  | .delete ls, .change deleted inserted :: rest => .change (ls ++ deleted) inserted :: rest
  | .delete ls, rest => .change ls [] :: rest
  | .insert ls, .change deleted inserted :: rest => .change deleted (ls ++ inserted) :: rest
  | .insert ls, rest => .change [] ls :: rest

def blocks (script : Script) : List Block :=
  script.foldr consRun []

/-! ## Groups -/

/-- The first block with at most `n` unchanged lines, the last ones. -/
def cutFront (n : Nat) : List Block → List Block
  | .same ls :: rest => .same (ls.drop (ls.length - n)) :: rest
  | bs => bs

/-- The last block with at most `n` unchanged lines, the first ones. -/
def cutBack (n : Nat) : List Block → List Block
  | [] => []
  | [.same ls] => [.same (ls.take n)]
  | b :: rest => b :: cutBack n rest

/-- Splits blocks into groups wherever more than `2 * n` lines are unchanged. `pending` is the
group under way, in reverse. -/
def splitGroups (n : Nat) (pending : List Block) : List Block → List (List Block)
  | [] =>
    match pending with
    | [] | [.same _] => []
    | _ => [pending.reverse]
  | .same ls :: rest =>
    if 2 * n < ls.length then
      (Block.same (ls.take n) :: pending).reverse
        :: splitGroups n [.same (ls.drop (ls.length - n))] rest
    else splitGroups n (.same ls :: pending) rest
  | b :: rest => splitGroups n (b :: pending) rest

/-- The groups of a difference with `n` unchanged lines around each change. -/
def groups (n : Nat) (bs : List Block) : List (List Block) :=
  splitGroups n [] (cutBack n (cutFront n bs))

/-! ## Text -/

def signed (sign : String) (ls : List String) : String :=
  String.join (ls.map fun line => sign ++ printedLine line)

def Block.print : Block → String
  | .same ls => signed " " ls
  | .change deleted inserted => signed "-" deleted ++ signed "+" inserted

def printGroup (group : List Block) : String :=
  String.join (group.map Block.print)

/-- How many unchanged lines are printed around a change. -/
def context : Nat := 3

def changes (current generated : String) : List (List Block) :=
  groups context (blocks (settle (shortest (lines current) (lines generated))))

/-- The text of groups, with a separator between them, under two lines that name the file. -/
def printGroups (path : String) (gs : List (List Block)) : String :=
  "--- " ++ path ++ " (current)\n" ++ "+++ " ++ path ++ " (generated)\n"
    ++ "...\n".intercalate (gs.map printGroup)

def unified (path current generated : String) : String :=
  printGroups path (changes current generated)

end ChannelProtocol.Diff
