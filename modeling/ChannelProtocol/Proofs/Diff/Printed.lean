-- Printed differences are faithful: from the groups and the lines left out around them both
-- texts can be read off, and nothing is printed exactly if the texts are the same.
import ChannelProtocol.Proofs.Diff.Groups

namespace ChannelProtocol.Diff

/-! ## Lines -/

/-- Characters that end a line. -/
def EndsLine (c : Char) : Prop := c = '\r' ∨ c = '\n'

/-- The end of a line, and the text after it: a line feed, a carriage return, or the pair of
both, which is never taken apart. -/
inductive Ending : List Char → List Char → Prop
  | lineFeed {rest : List Char} : Ending ['\n'] rest
  | carriageReturn {rest : List Char} : rest.head? ≠ some '\n' → Ending ['\r'] rest
  | both {rest : List Char} : Ending ['\r', '\n'] rest

/-- The lines of a text, each with its end. The last may have none, and is then not empty. -/
inductive IsLines : List Char → List String → Prop
  | nil : IsLines [] []
  | last {body : List Char} : body ≠ [] → (∀ c ∈ body, ¬ EndsLine c) →
      IsLines body [String.ofList body]
  | line {body ending rest : List Char} {ls : List String} : (∀ c ∈ body, ¬ EndsLine c) →
      Ending ending rest → IsLines rest ls →
      IsLines (body ++ ending ++ rest) (String.ofList (body ++ ending) :: ls)

theorem isLines_splitLines {current rest : List Char} (clean : ∀ c ∈ current, ¬ EndsLine c) :
    IsLines (current.reverse ++ rest) (splitLines current rest) := by
  have body {current : List Char} (clean : ∀ c ∈ current, ¬ EndsLine c) :
      ∀ c ∈ current.reverse, ¬ EndsLine c := fun c mem => clean c (List.mem_reverse.mp mem)
  fun_induction splitLines current rest with
  | case1 current empty =>
    rw [List.isEmpty_iff.mp empty]
    exact .nil
  | case2 current some =>
    rw [List.append_nil]
    exact .last (by simpa using some) (body clean)
  | case3 current rest ih =>
    have later := ih (by simp)
    simpa using IsLines.line (body clean) .both later
  | case4 current c rest noPair ends ih =>
    have ending : Ending [c] rest := by
      rcases ends with rfl | rfl
      · refine .carriageReturn fun next => ?_
        obtain ⟨more, rfl⟩ := List.head?_eq_some_iff.mp next
        exact noPair more rfl rfl
      · exact .lineFeed
    have later := ih (by simp)
    simpa using IsLines.line (body clean) ending later
  | case5 current c rest _ ends ih =>
    have later := ih (List.forall_mem_cons.mpr ⟨ends, clean⟩)
    simpa using later

theorem isLines_lines (text : String) : IsLines text.toList (lines text) :=
  isLines_splitLines (List.forall_mem_nil _)

theorem IsLines.join_eq {chars : List Char} {ls : List String} (h : IsLines chars ls) :
    String.join ls = String.ofList chars := by
  induction h with
  | nil => rfl
  | last => simp
  | line _ _ _ ih => rw [String.join_cons, ih, ← String.ofList_append]

/-- Texts with the same lines are the same. -/
theorem eq_of_isLines {first second : String} {ls : List String} (h : IsLines first.toList ls)
    (h' : IsLines second.toList ls) : first = second := by
  have joined := h.join_eq.symm.trans h'.join_eq
  rwa [String.ofList_toList, String.ofList_toList] at joined

/-! ## Marked lines -/

/-- What happens to a printed line. -/
inductive Mark where
  | kept
  | deleted
  | inserted
  deriving DecidableEq, Repr

def Mark.sign : Mark → String
  | .kept => " "
  | .deleted => "-"
  | .inserted => "+"

structure MarkedLine where
  mark : Mark
  line : String
  deriving DecidableEq, Repr

/-- A printed group. -/
abbrev Hunk := List MarkedLine

/-- Whether a text holds the lines with a mark. -/
def Side.holds : Side → Mark → Bool
  | .old, .inserted | .new, .deleted => false
  | _, _ => true

/-- The lines of a group that a text holds: the unchanged ones, and the deleted or the inserted
ones. -/
def Side.ofHunk (side : Side) (hunk : Hunk) : List String :=
  (hunk.filter fun marked => side.holds marked.mark).map MarkedLine.line

/-- The text of a group: each line after its sign. -/
def Hunk.print (hunk : Hunk) : String :=
  String.join (hunk.map fun marked => marked.mark.sign ++ printedLine marked.line)

theorem Hunk.print_append (hunk other : Hunk) :
    Hunk.print (hunk ++ other) = hunk.print ++ other.print := by
  rw [print, List.map_append, String.join_append, ← print, ← print]

theorem Hunk.print_mark (mark : Mark) (ls : List String) :
    Hunk.print (ls.map (MarkedLine.mk mark)) = signed mark.sign ls := by
  rw [print, List.map_map]
  rfl

theorem Side.ofHunk_append (side : Side) (hunk other : Hunk) :
    side.ofHunk (hunk ++ other) = side.ofHunk hunk ++ side.ofHunk other := by
  rw [ofHunk, List.filter_append, List.map_append, ← ofHunk, ← ofHunk]

theorem Side.ofHunk_mark (side : Side) (mark : Mark) (ls : List String) :
    side.ofHunk (ls.map (MarkedLine.mk mark)) = if side.holds mark then ls else [] := by
  unfold ofHunk
  by_cases held : side.holds mark
  · rw [List.filter_eq_self.mpr (by simp [held]), List.map_map, if_pos held]
    exact List.map_id ls
  · simp [held]

/-! ## Groups as marked lines -/

def Block.marked : Block → Hunk
  | .same ls => ls.map (.mk .kept)
  | .change deleted inserted => deleted.map (.mk .deleted) ++ inserted.map (.mk .inserted)

theorem Block.print_marked (b : Block) : Hunk.print b.marked = b.print := by
  cases b <;> simp [marked, Hunk.print_append, Hunk.print_mark, Block.print, Mark.sign]

theorem Side.ofHunk_marked (side : Side) (b : Block) :
    side.ofHunk b.marked = side.ofBlock b := by
  cases side <;> cases b <;> simp [Block.marked, ofHunk_append, ofHunk_mark, holds, ofBlock,
    pick]

theorem Block.exists_mark {b : Block} (edits : b.Edits) :
    ∃ line ∈ b.marked, line.mark ≠ .kept := by
  cases b with
  | same => exact edits.elim
  | change deleted inserted =>
    rcases edits with some | some
    · obtain ⟨line, mem⟩ := List.exists_mem_of_ne_nil deleted some
      exact ⟨⟨.deleted, line⟩, by simp [Block.marked, mem], by simp⟩
    · obtain ⟨line, mem⟩ := List.exists_mem_of_ne_nil inserted some
      exact ⟨⟨.inserted, line⟩, by simp [Block.marked, mem], by simp⟩

def marked (group : List Block) : Hunk := group.flatMap Block.marked

theorem print_marked (group : List Block) : (marked group).print = printGroup group := by
  induction group with
  | nil => rfl
  | cons b group ih =>
    rw [marked, List.flatMap_cons, Hunk.print_append, ← marked, b.print_marked, ih]
    simp [printGroup]

theorem ofHunk_marked (side : Side) (group : List Block) :
    side.ofHunk (marked group) = group.flatMap side.ofBlock := by
  induction group with
  | nil => rfl
  | cons b group ih =>
    rw [marked, List.flatMap_cons, Side.ofHunk_append, ← marked, side.ofHunk_marked, ih,
      List.flatMap_cons]

/-! ## The text of a difference -/

theorem eq_nil_of_print {hunk : Hunk} (empty : hunk.print = "") : hunk = [] := by
  cases hunk with
  | nil => rfl
  | cons first rest =>
    have sign : first.mark.sign ≠ "" := by cases first.mark <;> simp [Mark.sign]
    unfold Hunk.print at empty
    simp [sign] at empty

theorem eq_empty_of_intercalate {separator : String} {texts : List String}
    (empty : separator.intercalate texts = "") {text : String} (mem : text ∈ texts) :
    text = "" := by
  induction texts with
  | nil => cases mem
  | cons first rest ih =>
    cases rest with
    | nil =>
      rw [List.mem_singleton.mp mem]
      simpa using empty
    | cons second rest =>
      simp only [String.intercalate_cons_cons, String.append_eq_empty_iff] at empty
      rcases List.mem_cons.mp mem with rfl | mem
      · exact empty.1.1
      · exact ih empty.2 mem

theorem interleave_map {α β : Type} (read : β → List String) (change : α → β)
    (before : List String) (parts : List (α × List String)) :
    interleave read before (parts.map fun part => (change part.1, part.2)) =
      interleave (read ∘ change) before parts := by
  rw [interleave, List.flatMap_map]
  rfl

theorem interleave_congr {α : Type} {read read' : α → List String}
    {parts : List (α × List String)} (same : ∀ part ∈ parts, read part.1 = read' part.1)
    (before : List String) : interleave read before parts = interleave read' before parts := by
  rw [interleave, interleave, List.flatMap_def, List.flatMap_def,
    List.map_congr_left fun part mem => by rw [same part mem]]

/-- Whatever script turns the lines of one text into those of another, and whichever equal lines
are left out of it, the printed groups are faithful: with the lines left out before the first group
and after each, the lines that a side holds are the lines of its text, and texts of which nothing
is printed are the same. -/
theorem printGroups_faithful {script : Script} {gs : List (List Block)}
    {current generated : String} (turns : script.Turns (lines current) (lines generated))
    (excerpts : Excerpts (blocks script) gs) (path : String) :
    ∃ (before : List String) (parts : List (Hunk × List String)) (body : String),
      parts.map Prod.fst = gs.map marked ∧
      body = "...\n".intercalate (parts.map fun part => part.1.print) ∧
      printGroups path gs =
        "--- " ++ path ++ " (current)\n" ++ "+++ " ++ path ++ " (generated)\n" ++ body ∧
      (∀ side : Side,
        IsLines (side.pick current generated).toList (interleave side.ofHunk before parts)) ∧
      (body = "" → current = generated) := by
  obtain ⟨before, groups, rfl, read⟩ := excerpts
  let parts := groups.map fun part => (marked part.1, part.2)
  have printed : parts.map (fun part => part.1.print) = (groups.map Prod.fst).map printGroup := by
    rw [List.map_map, List.map_map]
    exact List.map_congr_left fun part _ => print_marked part.1
  have isLines (side : Side) :
      IsLines (side.pick current generated).toList (interleave side.ofHunk before parts) := by
    have hunks : side.ofHunk ∘ marked = List.flatMap side.ofBlock := funext (ofHunk_marked side)
    rw [interleave_map, hunks, ← read side, side.ofBlock_blocks, turns.reads]
    cases side <;> exact isLines_lines _
  refine ⟨before, parts, _, by simp [parts], rfl, by rw [printGroups, printed], isLines, ?_⟩
  intro empty
  -- A group of which nothing is printed has no line, so that all lines are left out.
  have none (part : Hunk × List String) (mem : part ∈ parts) : part.1 = [] :=
    eq_nil_of_print (eq_empty_of_intercalate empty (List.mem_map.mpr ⟨part, mem, rfl⟩))
  have same : interleave Side.old.ofHunk before parts = interleave Side.new.ofHunk before parts :=
    interleave_congr (fun part mem => by rw [none part mem]; rfl) before
  exact eq_of_isLines (isLines .old) (same ▸ isLines .new)

theorem exists_mark_of_changes {current generated : String} {group : List Block}
    (mem : group ∈ changes current generated) : ∃ line ∈ marked group, line.mark ≠ .kept := by
  have turns := turns_settle_shortest (lines current) (lines generated)
  obtain ⟨b, mem, edits⟩ := edits_of_groups (alternates_blocks turns.solid) mem
  obtain ⟨line, within, edited⟩ := b.exists_mark edits
  exact ⟨line, List.mem_flatMap.mpr ⟨b, mem, within⟩, edited⟩

theorem changes_self (text : String) : changes text text = [] := by
  rw [changes, shortest_self, settle_equalRun, groups_equalRun]

/-- The difference of two texts is printed as two lines that name the file, and groups of lines
with a separator between them. With the lines left out before the first group and after each, the
unchanged and the deleted lines of the groups are the lines of the current text, and the unchanged
and the inserted ones those of the generated text. Each group has an edit, and nothing but the two
lines is printed exactly if the texts are the same. -/
theorem unified_faithful (path current generated : String) :
    ∃ (before : List String) (parts : List (Hunk × List String)) (body : String),
      body = "...\n".intercalate (parts.map fun part => part.1.print) ∧
      unified path current generated =
        "--- " ++ path ++ " (current)\n" ++ "+++ " ++ path ++ " (generated)\n" ++ body ∧
      IsLines current.toList (interleave Side.old.ofHunk before parts) ∧
      IsLines generated.toList (interleave Side.new.ofHunk before parts) ∧
      (∀ part ∈ parts, ∃ line ∈ part.1, line.mark ≠ .kept) ∧
      (body = "" ↔ current = generated) := by
  have turns := turns_settle_shortest (lines current) (lines generated)
  obtain ⟨before, parts, body, hunks, is, printed, isLines, same⟩ :=
    printGroups_faithful turns (excerpts_groups context _) path
  refine ⟨before, parts, body, is, printed, isLines .old, isLines .new, ?_, same, ?_⟩
  · intro part mem
    have mem : part.1 ∈ parts.map Prod.fst := List.mem_map_of_mem mem
    obtain ⟨group, mem, equal⟩ := List.mem_map.mp (hunks ▸ mem)
    exact equal ▸ exists_mark_of_changes mem
  · rintro rfl
    have none : parts.map Prod.fst = [] := hunks.trans (congrArg _ (changes_self current))
    rw [is, List.map_eq_nil_iff.mp none]
    rfl

end ChannelProtocol.Diff
