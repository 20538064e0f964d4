-- Moving edits to where they read best: each deletion and each insertion goes
-- up as far as it can and then down as far as it can, and edits of one kind
-- that meet become one run.
import ChannelProtocol.Diff.Script

namespace ChannelProtocol.Diff

inductive EditKind where
  | deletion
  | insertion
  deriving DecidableEq, Repr

def EditKind.run : EditKind → List String → Run
  | .deletion, ls => .delete ls
  | .insertion, ls => .insert ls

def Run.kind? : Run → Option EditKind
  | .equal _ => none
  | .delete _ => some .deletion
  | .insert _ => some .insertion

/-! ## Insertions past equal lines -/

/-- Moves inserted lines up past equal lines, which are given last line first: an insertion may
end one line earlier when the equal line above it is also its last line. Gives the insertion, the
equal lines left above it and those now below it. -/
def slideUp (inserted moved : List String) : List String → List String × List String × List String
  | [] => (inserted, [], moved)
  | line :: above =>
    if inserted.getLast? = some line then slideUp (line :: inserted.dropLast) (line :: moved) above
    else (inserted, line :: above, moved)

/-- Moves inserted lines down past equal lines. Gives the insertion, the equal lines left below
it and those now above it, last line first. -/
def slideDown (inserted moved : List String) :
    List String → List String × List String × List String
  | [] => (inserted, [], moved)
  | line :: below =>
    if inserted.head? = some line then slideDown (inserted.tail ++ [line]) (line :: moved) below
    else (inserted, line :: below, moved)

def growFront (ls : List String) : Script → Script
  | .equal ms :: rest => .equal (ls ++ ms) :: rest
  | script => equalRun ls ++ script

/-- The reversed script with equal lines after its last run. -/
def growBack (ls : List String) : Script → Script
  | .equal ms :: rest => .equal (ms ++ ls) :: rest
  | script => equalRun ls ++ script

/-! ## Edits among runs -/

/-- Moves an edit up through the runs above it, nearest first: past edits of the other kind, into
one with edits of its own kind, and, for an insertion, past equal lines. -/
def moveUp (kind : EditKind) (edit : List String) : Script → Script → Script × List String × Script
  | [], below => ([], edit, below)
  | .equal ls :: above, below =>
    match kind with
    | .deletion => (.equal ls :: above, edit, below)
    | .insertion =>
      match slideUp edit [] ls.reverse with
      | (edit, [], moved) => moveUp kind edit above (growFront moved below)
      | (edit, left, []) => (.equal left.reverse :: above, edit, below)
      | (edit, left, moved) => (.equal left.reverse :: above, edit, growFront moved below)
  | run :: above, below =>
    if run.kind? = some kind then moveUp kind (run.lines ++ edit) above below
    else moveUp kind edit above (run :: below)

def moveDown (kind : EditKind) (edit : List String) (above : Script) :
    Script → Script × List String × Script
  | [] => (above, edit, [])
  | .equal ls :: below =>
    match kind with
    | .deletion => (above, edit, .equal ls :: below)
    | .insertion =>
      match slideDown edit [] ls with
      | (edit, [], moved) => moveDown kind edit (growBack moved.reverse above) below
      | (edit, left, []) => (above, edit, .equal left :: below)
      | (edit, left, moved) => (growBack moved.reverse above, edit, .equal left :: below)
  | run :: below =>
    if run.kind? = some kind then moveDown kind (edit ++ run.lines) above below
    else moveDown kind edit (run :: above) below

/-- Settles the edits of one kind from the top. The runs above are given nearest first; `limit`
bounds the number of runs looked at. -/
def settleFrom (kind : EditKind) : Nat → Script → Script → Script
  | 0, above, below => above.reverse ++ below
  | _ + 1, above, [] => above.reverse
  | limit + 1, above, run :: below =>
    if run.kind? = some kind then
      let (above, edit, below) := moveUp kind run.lines above below
      let (above, edit, below) := moveDown kind edit above below
      settleFrom kind limit (kind.run edit :: above) below
    else settleFrom kind limit (run :: above) below

/-- Settles the edits of one kind. There are never more runs than lines. -/
def settleKind (kind : EditKind) (script : Script) : Script :=
  settleFrom kind (script.length + (script.flatMap Run.lines).length) [] script

/-- Settles all deletions and then all insertions. -/
def settle (script : Script) : Script :=
  settleKind .insertion (settleKind .deletion script)

end ChannelProtocol.Diff
