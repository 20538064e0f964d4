-- Groups of changes are cut out of the blocks of a difference: only unchanged lines are
-- left out, and no group is without an edit.
import ChannelProtocol.Diff.Unified
import ChannelProtocol.Proofs.Diff.Scripts

namespace ChannelProtocol.Diff

/-! ## Blocks -/

namespace Side

/-- The lines of a block that a side holds. -/
def ofBlock : Side → Block → List String
  | _, .same ls => ls
  | side, .change deleted inserted => side.pick deleted inserted

variable (side : Side)

@[simp]
theorem ofBlock_same (ls : List String) : side.ofBlock (.same ls) = ls := rfl

theorem ofBlock_consRun (run : Run) (bs : List Block) :
    (consRun run bs).flatMap side.ofBlock = side.ofRun run ++ bs.flatMap side.ofBlock := by
  unfold consRun
  cases side <;> split <;> simp [ofBlock, ofRun, pick]

/-- Blocks hold the lines of their script. -/
theorem ofBlock_blocks (script : Script) :
    (blocks script).flatMap side.ofBlock = side.ofScript script := by
  induction script with
  | nil => rfl
  | cons run script ih =>
    rw [blocks, List.foldr_cons, ofBlock_consRun, ← blocks, ih, ofScript_cons]

end Side

/-- A block with a deleted or an inserted line. -/
def Block.Edits : Block → Prop
  | .same _ => False
  | .change deleted inserted => deleted ≠ [] ∨ inserted ≠ []

/-- Whether unchanged lines come first. -/
def startsSame : List Block → Bool
  | .same _ :: _ => true
  | _ => false

/-- Each block of changes has an edit, and no two blocks of unchanged lines are neighbours. -/
inductive Alternates : List Block → Prop
  | nil : Alternates []
  | same {ls : List String} {rest : List Block} : startsSame rest = false → Alternates rest →
      Alternates (.same ls :: rest)
  | change {deleted inserted : List String} {rest : List Block} :
      (Block.change deleted inserted).Edits → Alternates rest →
      Alternates (.change deleted inserted :: rest)

theorem alternates_consRun {run : Run} {bs : List Block} (solid : run.lines ≠ [])
    (alternates : Alternates bs) : Alternates (consRun run bs) := by
  cases run with
  | equal ls =>
    cases alternates with
    | nil => exact .same rfl .nil
    | same apart rest => exact .same apart rest
    | change edits rest => exact .same rfl (.change edits rest)
  | delete ls =>
    have edits (inserted : List String) : (Block.change ls inserted).Edits := .inl solid
    cases alternates with
    | nil => exact .change (edits []) .nil
    | same apart rest => exact .change (edits []) (.same apart rest)
    | change _ rest => exact .change (.inl (List.append_ne_nil_of_left_ne_nil solid _)) rest
  | insert ls =>
    have edits (deleted : List String) : (Block.change deleted ls).Edits := .inr solid
    cases alternates with
    | nil => exact .change (edits []) .nil
    | same apart rest => exact .change (edits []) (.same apart rest)
    | change _ rest => exact .change (.inr (List.append_ne_nil_of_left_ne_nil solid _)) rest

theorem alternates_blocks {script : Script} (solid : script.Solid) :
    Alternates (blocks script) := by
  induction script with
  | nil => exact .nil
  | cons run script ih =>
    obtain ⟨here, rest⟩ := (Script.solid_cons ..).mp solid
    exact alternates_consRun here (ih rest)

/-! ## Cutting -/

/-- Parts of a text with the lines left out before the first of them and after each. -/
def interleave {α : Type} (read : α → List String) (before : List String)
    (parts : List (α × List String)) : List String :=
  before ++ parts.flatMap fun part => read part.1 ++ part.2

theorem interleave_cons {α : Type} (read : α → List String) (part : α) (gap before : List String)
    (parts : List (α × List String)) :
    interleave read [] ((part, gap ++ before) :: parts) =
      read part ++ gap ++ interleave read before parts := by
  simp [interleave]

/-- Groups that leave out only lines which both sides hold. -/
def Excerpts (bs : List Block) (gs : List (List Block)) : Prop :=
  ∃ before parts, parts.map Prod.fst = gs ∧
    ∀ side : Side, bs.flatMap side.ofBlock = interleave (List.flatMap side.ofBlock) before parts

theorem exists_cutFront (n : Nat) (bs : List Block) :
    ∃ omitted, ∀ side : Side,
      bs.flatMap side.ofBlock = omitted ++ (cutFront n bs).flatMap side.ofBlock := by
  unfold cutFront
  split
  · rename_i ls rest
    refine ⟨ls.take (ls.length - n), fun side => ?_⟩
    simp only [List.flatMap_cons, Side.ofBlock_same]
    rw [← List.append_assoc, List.take_append_drop]
  · exact ⟨[], fun _ => rfl⟩

theorem exists_cutBack (n : Nat) (bs : List Block) :
    ∃ omitted, ∀ side : Side,
      bs.flatMap side.ofBlock = (cutBack n bs).flatMap side.ofBlock ++ omitted := by
  fun_induction cutBack n bs with
  | case1 => exact ⟨[], fun _ => rfl⟩
  | case2 ls => exact ⟨ls.drop n, fun side => by simp⟩
  | case3 b rest _ ih =>
    obtain ⟨omitted, read⟩ := ih
    exact ⟨omitted, fun side => by simp [read side]⟩

theorem take_middle_drop {n : Nat} {ls : List String} (long : 2 * n < ls.length)
    (more : List String) :
    ls.take n ++ ((ls.drop n).take (ls.length - 2 * n) ++ (ls.drop (ls.length - n) ++ more)) =
      ls ++ more := by
  have last : ls.drop (ls.length - n) = (ls.drop n).drop (ls.length - 2 * n) := by
    rw [List.drop_drop]
    congr 1
    omega
  rw [last, ← List.append_assoc (List.take _ (List.drop _ _)), List.take_append_drop,
    ← List.append_assoc, List.take_append_drop]

/-- Groups are parts of the blocks, with the same lines left out of both texts. `pending` is
the group under way, and `after` is what was left out before. -/
theorem exists_splitGroups (n : Nat) (pending bs : List Block) (after : List String) :
    ∃ before parts, parts.map Prod.fst = splitGroups n pending bs ∧
      ∀ side : Side,
        pending.reverse.flatMap side.ofBlock ++ bs.flatMap side.ofBlock ++ after =
          interleave (List.flatMap side.ofBlock) before parts := by
  fun_induction splitGroups n pending bs with
  | case1 => exact ⟨after, [], rfl, fun side => by simp [interleave]⟩
  | case2 ls => exact ⟨ls ++ after, [], rfl, fun side => by simp [interleave]⟩
  | case3 pending =>
    exact ⟨[], [(pending.reverse, after)], rfl, fun side => by simp [interleave]⟩
  | case4 pending ls rest long ih =>
    obtain ⟨before, parts, groups, read⟩ := ih
    -- The lines between the two ends of the block are left out, with those that the next
    -- group leaves out before it.
    refine ⟨[], ((Block.same (ls.take n) :: pending).reverse,
      (ls.drop n).take (ls.length - 2 * n) ++ before) :: parts, by simp [groups], ?_⟩
    intro side
    rw [interleave_cons, ← read side]
    simp only [List.reverse_cons, List.flatMap_append, List.flatMap_cons, List.flatMap_nil,
      Side.ofBlock_same, List.reverse_nil, List.nil_append, List.append_nil, List.append_assoc]
    rw [take_middle_drop long]
  | case5 pending ls rest short ih =>
    obtain ⟨before, parts, groups, read⟩ := ih
    exact ⟨before, parts, groups, fun side => by simpa using read side⟩
  | case6 pending b rest _ ih =>
    obtain ⟨before, parts, groups, read⟩ := ih
    exact ⟨before, parts, groups, fun side => by simpa using read side⟩

theorem excerpts_groups (n : Nat) (bs : List Block) : Excerpts bs (groups n bs) := by
  obtain ⟨first, front⟩ := exists_cutFront n bs
  obtain ⟨last, back⟩ := exists_cutBack n (cutFront n bs)
  obtain ⟨before, parts, same, read⟩ :=
    exists_splitGroups n [] (cutBack n (cutFront n bs)) last
  refine ⟨first ++ before, parts, same, fun side => ?_⟩
  rw [front side, back side, interleave, List.append_assoc, ← interleave, ← read side]
  rfl

/-! ## Groups with an edit -/

theorem alternates_cutFront {bs : List Block} (n : Nat) (alternates : Alternates bs) :
    Alternates (cutFront n bs) := by
  cases alternates with
  | nil => exact .nil
  | same apart rest => exact .same apart rest
  | change edits rest => exact .change edits rest

theorem startsSame_cutBack (n : Nat) (bs : List Block) :
    startsSame (cutBack n bs) = startsSame bs := by
  fun_cases cutBack n bs with
  | case1 | case2 => rfl
  | case3 b rest => cases b <;> rfl

theorem alternates_cutBack {bs : List Block} (n : Nat) (alternates : Alternates bs) :
    Alternates (cutBack n bs) := by
  induction alternates with
  | nil => exact .nil
  | @same ls rest apart _ ih =>
    cases rest with
    | nil => exact .same rfl .nil
    | cons b rest =>
      rw [← startsSame_cutBack n] at apart
      exact .same apart ih
  | change edits _ ih => exact .change edits ih

/-- The group under way has an edit, or it will get one with the next block. At the start,
only few unchanged lines come first. -/
def Pending (n : Nat) (pending bs : List Block) : Prop :=
  (∃ b ∈ pending, b.Edits) ∨
  (∃ ls, pending = [.same ls] ∧ startsSame bs = false) ∨
  pending = [] ∧ ∀ ls rest, bs = .same ls :: rest → ls.length ≤ 2 * n

theorem edits_of_splitGroups {n : Nat} {pending bs : List Block} (alternates : Alternates bs)
    (under : Pending n pending bs) {group : List Block} (mem : group ∈ splitGroups n pending bs) :
    ∃ b ∈ group, b.Edits := by
  fun_induction splitGroups n pending bs with
  | case1 | case2 => cases mem
  | case3 pending some more =>
    rw [List.mem_singleton.mp mem]
    rcases under with ⟨b, mem, edits⟩ | ⟨ls, rfl, -⟩ | ⟨rfl, -⟩
    · exact ⟨b, List.mem_reverse.mpr mem, edits⟩
    · exact absurd rfl (more ls)
    · exact absurd rfl some
  | case4 pending ls rest long ih =>
    cases alternates with
    | same apart alternates =>
      rcases List.mem_cons.mp mem with rfl | mem
      · rcases under with ⟨b, mem, edits⟩ | ⟨_, _, starts⟩ | ⟨_, few⟩
        · exact ⟨b, by simp [mem], edits⟩
        · cases starts
        · have := few ls rest rfl
          omega
      · exact ih alternates (.inr (.inl ⟨_, rfl, apart⟩)) mem
  | case5 pending ls rest short ih =>
    cases alternates with
    | same apart alternates =>
      refine ih alternates ?_ mem
      rcases under with ⟨b, mem, edits⟩ | ⟨_, _, starts⟩ | ⟨rfl, _⟩
      · exact .inl ⟨b, List.mem_cons_of_mem _ mem, edits⟩
      · cases starts
      · exact .inr (.inl ⟨ls, rfl, apart⟩)
  | case6 pending b rest noSame ih =>
    cases alternates with
    | same => exact absurd rfl (noSame _)
    | change edits alternates =>
      exact ih alternates (.inl ⟨_, List.mem_cons_self, edits⟩) mem

/-- At most `n` unchanged lines come first once the ends are cut. -/
theorem length_of_cut {n : Nat} {bs rest : List Block} {ls : List String}
    (starts : cutBack n (cutFront n bs) = .same ls :: rest) : ls.length ≤ n := by
  cases bs with
  | nil => cases starts
  | cons b more =>
    cases b with
    | change => cases starts
    | same ms =>
      cases more with
      | nil =>
        cases starts
        exact List.length_take_le ..
      | cons =>
        cases starts
        rw [List.length_drop]
        omega

theorem edits_of_groups {n : Nat} {bs group : List Block} (alternates : Alternates bs)
    (mem : group ∈ groups n bs) : ∃ b ∈ group, b.Edits := by
  have cut := alternates_cutBack n (alternates_cutFront n alternates)
  refine edits_of_splitGroups cut (.inr (.inr ⟨rfl, fun ls rest starts => ?_⟩)) mem
  have few := length_of_cut starts
  omega

/-- Unchanged lines alone are no group. -/
theorem groups_equalRun (n : Nat) (ls : List String) : groups n (blocks (equalRun ls)) = [] := by
  cases ls with
  | nil => rfl
  | cons line ls =>
    have cut : cutBack n (cutFront n (blocks (equalRun (line :: ls)))) =
        [.same (((line :: ls).drop ((line :: ls).length - n)).take n)] := rfl
    have few := length_of_cut cut
    rw [groups, cut, splitGroups, if_neg (by omega)]
    rfl

end ChannelProtocol.Diff
