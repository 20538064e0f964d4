-- Edit scripts: how one list of lines becomes another. A script is a list of
-- runs, and the lines on both sides can be read off it.

namespace ChannelProtocol.Diff

/-- Neighbouring lines that share a fate. -/
inductive Run where
  | equal (lines : List String)
  | delete (lines : List String)
  | insert (lines : List String)
  deriving DecidableEq, Repr

abbrev Script := List Run

def Run.lines : Run → List String
  | .equal ls | .delete ls | .insert ls => ls

/-- A run of equal lines, or nothing when there are none. -/
def equalRun (lines : List String) : Script :=
  if lines.isEmpty then [] else [.equal lines]

/-- The script that replaces all of `old` by all of `new`. -/
def replacement (old new : List String) : Script :=
  (if old.isEmpty then [] else [.delete old]) ++ (if new.isEmpty then [] else [.insert new])

/-! ## The two sides of a script -/

/-- The two texts of a difference. -/
inductive Side where
  | old
  | new
  deriving DecidableEq, Repr

namespace Side

/-- What belongs to a side. -/
def pick {α : Type} : Side → α → α → α
  | .old, ofOld, _ => ofOld
  | .new, _, ofNew => ofNew

/-- The lines of a run that a side holds. -/
def ofRun : Side → Run → List String
  | _, .equal ls => ls
  | side, .delete ls => side.pick ls []
  | side, .insert ls => side.pick [] ls

def ofScript (side : Side) (script : Script) : List String := script.flatMap side.ofRun

variable (side : Side)

@[simp]
theorem pick_self {α : Type} (a : α) : side.pick a a = a := by cases side <;> rfl

theorem pick_append (a b c d : List String) :
    side.pick (a ++ b) (c ++ d) = side.pick a c ++ side.pick b d := by
  cases side <;> rfl

@[simp]
theorem ofRun_equal (ls : List String) : side.ofRun (.equal ls) = ls := rfl

@[simp]
theorem ofScript_nil : side.ofScript [] = [] := rfl

@[simp]
theorem ofScript_cons (run : Run) (script : Script) :
    side.ofScript (run :: script) = side.ofRun run ++ side.ofScript script :=
  List.flatMap_cons

@[simp]
theorem ofScript_append (script other : Script) :
    side.ofScript (script ++ other) = side.ofScript script ++ side.ofScript other :=
  List.flatMap_append

@[simp]
theorem ofScript_equalRun (ls : List String) : side.ofScript (equalRun ls) = ls := by
  cases ls <;> simp [equalRun]

theorem ofScript_replacement (old new : List String) :
    side.ofScript (replacement old new) = side.pick old new := by
  cases side <;> cases old <;> cases new <;> simp [replacement, ofRun, pick]

end Side

end ChannelProtocol.Diff
