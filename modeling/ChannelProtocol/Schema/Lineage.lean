-- Which channel is derived from which: a channel has at most one parent, the
-- parent is a channel, and no channel is an ancestor of itself.
-- A flag of a command also holds for the direct children of its channel.
import ChannelProtocol.Schema.Document
import ChannelProtocol.Schema.Error
import ChannelProtocol.Table

namespace ChannelProtocol.Schema

/-- The parents of the channels that have one, in the order of the channels. -/
structure Lineage where
  parents : List (String × String)

namespace Lineage

def parent? (lineage : Lineage) (channel : String) : Option String :=
  lineage.parents.lookup channel

def children (lineage : Lineage) (channel : String) : List String :=
  lineage.parents.filterMap fun (child, parent) => if parent = channel then some child else none

/-! ## Cycles -/

theorem mem_of_lookup_eq_some {parents : List (String × String)} {child parent : String}
    (found : parents.lookup child = some parent) : parent ∈ parents.map Prod.snd := by
  obtain ⟨front, back, rfl, -⟩ := List.lookup_eq_some_iff.mp found
  simp

/-- The loop into which a walk from `current` to its parents runs, after it has come along
`path`. The loop starts and ends with the same channel. -/
def loop? (lineage : Lineage) (path : List String) (current : String) : Option (List String) :=
  match found : lineage.parent? current with
  | none => none
  | some parent =>
    if fresh : parent ∈ path then some (path.dropWhile (· != parent) ++ [parent])
    else
      have : unvisited (lineage.parents.map Prod.snd) (path ++ [parent])
          < unvisited (lineage.parents.map Prod.snd) path :=
        unvisited_lt (fun _ mem => List.mem_append_left _ mem) (mem_of_lookup_eq_some found) fresh
          (by simp)
      lineage.loop? (path ++ [parent]) parent
termination_by unvisited (lineage.parents.map Prod.snd) path

/-- The first loop that a walk from one of the channels runs into. -/
def firstLoop? (lineage : Lineage) : Option (List String) :=
  lineage.parents.findSome? fun (child, _) => lineage.loop? [child] child

/-! ## The lineage of a document -/

/-- The parent of a channel, which has to be a channel too. -/
def link (doc : Document) (entry : String × Channel) : Except Error (Option (String × String)) :=
  match entry.2.parent with
  | none => .ok none
  | some parent =>
    if doc.isChannel parent then .ok (some (entry.1, parent))
    else .error (.unknownReference parent (.member (.named entry.1) "extends"))

def ofDocument (doc : Document) : Except Error Lineage := do
  let links ← doc.channels.mapM (link doc)
  let lineage : Lineage := ⟨links.filterMap id⟩
  match lineage.firstLoop? with
  | some chain => .error (.inheritanceCycle chain)
  | none => return lineage

end Lineage

/-! ## Traced commands -/

def commandName (channel command : String) : String := channel ++ "." ++ command

/-- The names under which a flagged command of a channel is known. -/
def flaggedNames (lineage : Lineage) (channel command : String) : List String :=
  commandName channel command :: (lineage.children channel).map (commandName · command)

def flagged (doc : Document) (lineage : Lineage) (flag : Tracing → Bool) : List String :=
  doc.channels.flatMap fun (channel, definition) =>
    definition.commands.entries.flatMap fun (command, body) =>
      if flag body.tracing then flaggedNames lineage channel command else []

def snapshots (doc : Document) (lineage : Lineage) : List String :=
  flagged doc lineage Tracing.snapshot

def pauses (doc : Document) (lineage : Lineage) : List String :=
  flagged doc lineage Tracing.pausesBeforeInput

end ChannelProtocol.Schema
