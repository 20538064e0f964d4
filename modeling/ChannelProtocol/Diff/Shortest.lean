-- A shortest edit script, found by divide and conquer: two searches, one from
-- either end, meet in the middle of a shortest path, and both halves are
-- solved on their own.
import ChannelProtocol.Diff.Script

namespace ChannelProtocol.Diff

/-! ## Common ends -/

def commonPrefix : List String → List String → Nat
  | a :: as, b :: bs => if a = b then commonPrefix as bs + 1 else 0
  | _, _ => 0

/-- How many lines `old` from `i` on and `new` from `j` on have in common, up to `limit`. -/
def matchForward (old new : Array String) (i j : Nat) : Nat → Nat
  | 0 => 0
  | limit + 1 =>
    match old[i]?, new[j]? with
    | some a, some b => if a = b then matchForward old new (i + 1) (j + 1) limit + 1 else 0
    | _, _ => 0

/-- How many lines `old` before `i` and `new` before `j` have in common, up to `limit`. -/
def matchBackward (old new : Array String) (i j : Nat) : Nat → Nat
  | 0 => 0
  | limit + 1 =>
    match i, j with
    | i + 1, j + 1 =>
      if old[i]? = new[j]? then matchBackward old new i j limit + 1 else 0
    | _, _ => 0

/-! ## The search -/

/-- The furthest position of a search on each diagonal. -/
structure Frontier where
  origin : Nat
  reached : Array Nat

namespace Frontier

/-- A frontier for diagonals from `-size` to `size`, at the start everywhere. -/
def start (size : Nat) : Frontier :=
  ⟨size, Array.replicate (2 * size + 1) 0⟩

def position (front : Frontier) (k : Int) : Nat :=
  front.reached.getD (k + front.origin).toNat 0

def put (front : Frontier) (k : Int) (x : Nat) : Frontier :=
  { front with reached := front.reached.setIfInBounds (k + front.origin).toNat x }

/-- Where a search enters diagonal `k` with its `d`th edit. -/
def entry (front : Frontier) (d k : Int) : Nat :=
  if k = -d ∨ (k ≠ d ∧ front.position (k - 1) < front.position (k + 1)) then front.position (k + 1)
  else front.position (k - 1) + 1

end Frontier

/-- The diagonals that `d` edits lead to, from above. -/
def diagonals (d : Nat) : List Int :=
  (List.range (d + 1)).map fun (i : Nat) => (d : Int) - 2 * (i : Int)

/-- One round of the search from the front. It stops where it meets the other search. -/
def searchForward (old new : Array String) (d : Nat) (back : Frontier) :
    Frontier → List Int → Frontier × Option (Nat × Nat)
  | front, [] => (front, none)
  | front, k :: ks =>
    let delta : Int := old.size - new.size
    let x := front.entry d k
    let y : Int := x - k
    let x' := if 0 ≤ y then x + matchForward old new x y.toNat old.size else x
    let front := front.put k x'
    if delta % 2 = 1 ∧ (k - delta).natAbs + 1 ≤ d ∧ old.size ≤ x' + back.position (delta - k) then
      (front, some (x, y.toNat))
    else searchForward old new d back front ks

/-- One round of the search from the back. It stops where it meets the other search. -/
def searchBackward (old new : Array String) (d : Nat) (front : Frontier) :
    Frontier → List Int → Frontier × Option (Nat × Nat)
  | back, [] => (back, none)
  | back, k :: ks =>
    let delta : Int := old.size - new.size
    let x := back.entry d k
    let y : Int := x - k
    let run :=
      if x < old.size ∧ 0 ≤ y ∧ y < new.size then
        matchBackward old new (old.size - x) (new.size - y.toNat) old.size
      else 0
    let back := back.put k (x + run)
    if delta % 2 = 0 ∧ (k - delta).natAbs ≤ d ∧ old.size ≤ x + run + front.position (delta - k) then
      (back, some (old.size - (x + run), new.size - (y.toNat + run)))
    else searchBackward old new d front back ks

/-- The searches take turns, one edit more each round, for the given number of rounds. -/
def searchRounds (old new : Array String) (d : Nat) (front back : Frontier) :
    Nat → Option (Nat × Nat)
  | 0 => none
  | rounds + 1 =>
    match searchForward old new d back front (diagonals d) with
    | (_, some split) => some split
    | (front, none) =>
      match searchBackward old new d front back (diagonals d) with
      | (_, some split) => some split
      | (back, none) => searchRounds old new (d + 1) front back rounds

/-- Where to split both texts: a place on a shortest path between them. -/
def middle (old new : List String) : Option (Nat × Nat) :=
  let rounds := (old.length + new.length + 1) / 2 + 1
  searchRounds old.toArray new.toArray 0 (.start (rounds + 1)) (.start (rounds + 1)) rounds

/-! ## The script -/

/-- Two lists of lines with what they have in common at both ends set aside. -/
structure Ends where
  front : List String
  old : List String
  new : List String
  back : List String

/-- Sets aside the lines in common at the start, and of the rest those at the end. -/
def ends (old new : List String) : Ends :=
  let front := commonPrefix old new
  let back := commonPrefix (old.drop front).reverse (new.drop front).reverse
  { front := old.take front
    old := (old.drop front).take ((old.drop front).length - back)
    new := (new.drop front).take ((new.drop front).length - back)
    back := (old.drop front).drop ((old.drop front).length - back) }

theorem length_ends (side : Side) (old new : List String) :
    (side.pick (ends old new).old (ends old new).new).length ≤ (side.pick old new).length := by
  cases side
  all_goals
    simp only [Side.pick, ends, List.length_take, List.length_drop]
    omega

/-- A shortest script. Lines in common at both ends are set aside first; what is left is split
at the middle. A split that leaves one half as it was cannot help, and everything is replaced. -/
def shortest (old new : List String) : Script :=
  let parts := ends old new
  let inner :=
    if parts.old.isEmpty || parts.new.isEmpty then replacement parts.old parts.new
    else match middle parts.old parts.new with
      | none => replacement parts.old parts.new
      | some (x, y) =>
        if x ≤ parts.old.length ∧ y ≤ parts.new.length ∧ 0 < x + y
            ∧ x + y < parts.old.length + parts.new.length then
          shortest (parts.old.take x) (parts.new.take y)
            ++ shortest (parts.old.drop x) (parts.new.drop y)
        else replacement parts.old parts.new
  equalRun parts.front ++ inner ++ equalRun parts.back
termination_by old.length + new.length
decreasing_by
  all_goals
    have : (ends old new).old.length ≤ old.length := length_ends .old old new
    have : (ends old new).new.length ≤ new.length := length_ends .new old new
    have : parts.old.length = (ends old new).old.length := rfl
    have : parts.new.length = (ends old new).new.length := rfl
    simp only [List.length_take, List.length_drop]
    omega

end ChannelProtocol.Diff
