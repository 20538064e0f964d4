-- Edit scripts turn one list of lines into another. The script that is found for two
-- lists does so, and moving its edits about does not change what it turns into what.
import ChannelProtocol.Diff.Settle
import ChannelProtocol.Diff.Shortest

namespace ChannelProtocol.Diff

/-! ## Scripts for two lists of lines -/

@[simp]
theorem Run.lines_equal (ls : List String) : (Run.equal ls).lines = ls := rfl

@[simp]
theorem EditKind.lines_run (kind : EditKind) (ls : List String) : (kind.run ls).lines = ls := by
  cases kind <;> rfl

namespace Script

/-- No run is without lines. -/
def Solid (script : Script) : Prop := ∀ run ∈ script, run.lines ≠ []

@[simp]
theorem solid_nil : Solid [] := by simp [Solid]

@[simp]
theorem solid_cons (run : Run) (script : Script) :
    Solid (run :: script) ↔ run.lines ≠ [] ∧ script.Solid :=
  List.forall_mem_cons

@[simp]
theorem solid_append (script other : Script) :
    Solid (script ++ other) ↔ script.Solid ∧ other.Solid :=
  List.forall_mem_append

@[simp]
theorem solid_equalRun (ls : List String) : (equalRun ls).Solid := by
  cases ls <;> simp [equalRun]

/-- A script that turns the old lines into the new ones, without a run that has no lines. -/
structure Turns (script : Script) (old new : List String) : Prop where
  reads : ∀ side : Side, side.ofScript script = side.pick old new
  solid : script.Solid

theorem turns_sides {script : Script} (solid : script.Solid) :
    script.Turns (Side.old.ofScript script) (Side.new.ofScript script) :=
  ⟨fun side => by cases side <;> rfl, solid⟩

theorem Turns.append {script other : Script} {a b c d : List String} (h : script.Turns a b)
    (h' : other.Turns c d) : (script ++ other).Turns (a ++ c) (b ++ d) where
  reads side := by rw [Side.ofScript_append, h.reads, h'.reads, Side.pick_append]
  solid := (solid_append ..).mpr ⟨h.solid, h'.solid⟩

end Script

open Script

theorem turns_equalRun (ls : List String) : (equalRun ls).Turns ls ls :=
  ⟨fun side => by rw [Side.ofScript_equalRun, Side.pick_self], solid_equalRun ls⟩

theorem turns_replacement (old new : List String) : (replacement old new).Turns old new where
  reads side := side.ofScript_replacement old new
  solid := by cases old <;> cases new <;> simp [replacement, Run.lines]

/-! ## A shortest script -/

theorem take_commonPrefix (as bs : List String) :
    as.take (commonPrefix as bs) = bs.take (commonPrefix as bs) := by
  fun_induction commonPrefix as bs with
  | case1 as b bs ih => rw [List.take_succ_cons, List.take_succ_cons, ih]
  | case2 | case3 => simp

theorem drop_commonPrefix_reverse (as bs : List String) :
    as.drop (as.length - commonPrefix as.reverse bs.reverse) =
      bs.drop (bs.length - commonPrefix as.reverse bs.reverse) := by
  have same := take_commonPrefix as.reverse bs.reverse
  rwa [List.take_reverse, List.take_reverse, List.reverse_inj] at same

/-- The ends set aside stand around what is left of either list. -/
theorem ends_append (side : Side) (old new : List String) :
    (ends old new).front ++ side.pick (ends old new).old (ends old new).new ++ (ends old new).back =
      side.pick old new := by
  have back := drop_commonPrefix_reverse (old.drop (commonPrefix old new))
    (new.drop (commonPrefix old new))
  simp only [ends, List.append_assoc]
  cases side with
  | old => simp only [Side.pick, List.take_append_drop]
  | new =>
    simp only [Side.pick]
    rw [back, List.take_append_drop, take_commonPrefix, List.take_append_drop]

theorem turns_shortest (old new : List String) : (shortest old new).Turns old new := by
  induction old, new using shortest.induct with
  | case1 old new parts first second =>
    have around {inner : Script} (h : inner.Turns parts.old parts.new) :
        (equalRun parts.front ++ inner ++ equalRun parts.back).Turns old new := by
      have whole := ((turns_equalRun parts.front).append h).append (turns_equalRun parts.back)
      have oldEnds : parts.front ++ parts.old ++ parts.back = old := ends_append .old old new
      have newEnds : parts.front ++ parts.new ++ parts.back = new := ends_append .new old new
      rwa [oldEnds, newEnds] at whole
    have replaced := turns_replacement parts.old parts.new
    -- Wherever the search splits the lists, the two halves are solved on their own; how good
    -- the split is does not matter.
    rw [shortest]
    apply around
    split
    · exact replaced
    · split
      · exact replaced
      · rename_i x y _
        split
        · rename_i inside
          have halves := (first x y inside).append (second x y inside)
          rwa [List.take_append_drop, List.take_append_drop] at halves
        · exact replaced

theorem commonPrefix_self (ls : List String) : commonPrefix ls ls = ls.length := by
  induction ls with
  | nil => rfl
  | cons line ls ih => rw [commonPrefix, if_pos rfl, ih, List.length_cons]

/-- Nothing is edited between a list and itself. -/
theorem shortest_self (ls : List String) : shortest ls ls = equalRun ls := by
  have parts : ends ls ls = ⟨ls, [], [], []⟩ := by simp [ends, commonPrefix_self]
  rw [shortest, parts]
  simp [replacement, equalRun]

/-! ## Scripts that do the same -/

namespace Script

/-- Another script turns whatever this one turns. -/
def Keeps (script other : Script) : Prop :=
  ∀ old new, script.Turns old new → other.Turns old new

namespace Keeps

variable {script other third : Script}

theorem refl (script : Script) : script.Keeps script := fun _ _ turns => turns

theorem trans (h : script.Keeps other) (h' : other.Keeps third) : script.Keeps third :=
  fun old new turns => h' old new (h old new turns)

theorem of_eq (same : ∀ side : Side, side.ofScript other = side.ofScript script)
    (solid : script.Solid → other.Solid) : script.Keeps other :=
  fun _ _ turns => ⟨fun side => (same side).trans (turns.reads side), solid turns.solid⟩

theorem append {script' other' : Script} (h : script.Keeps other) (h' : script'.Keeps other') :
    Keeps (script ++ script') (other ++ other') := by
  intro old new turns
  obtain ⟨solid, solid'⟩ := (solid_append ..).mp turns.solid
  have whole := (h _ _ (turns_sides solid)).append (h' _ _ (turns_sides solid'))
  simpa only [← Side.ofScript_append, turns.reads, Side.pick] using whole

/-- What stands above and below is not touched. -/
theorem frame (h : script.Keeps other) (above below : Script) :
    Keeps (above ++ script ++ below) (above ++ other ++ below) :=
  ((refl above).append h).append (refl below)

end Keeps

end Script

theorem reverse_equalRun (ls : List String) : (equalRun ls).reverse = equalRun ls := by
  cases ls <;> rfl

theorem equalRun_of_ne_nil {ls : List String} (ne : ls ≠ []) : equalRun ls = [.equal ls] := by
  cases ls with
  | nil => exact absurd rfl ne
  | cons => rfl

theorem keeps_equalRun (ls : List String) : Keeps [.equal ls] (equalRun ls) := by
  apply Keeps.of_eq
  · simp
  · simp

theorem growFront_nil (below : Script) : growFront [] below = below := by
  unfold growFront
  split <;> simp [equalRun]

theorem growBack_nil (above : Script) : growBack [] above = above := by
  unfold growBack
  split <;> simp [equalRun]

theorem keeps_growFront (ls : List String) (below : Script) :
    Keeps (equalRun ls ++ below) (growFront ls below) := by
  unfold growFront
  split
  · apply Keeps.of_eq
    · simp
    · simp +contextual
  · exact .refl _

theorem keeps_growBack (ls : List String) (above : Script) :
    Keeps (above.reverse ++ equalRun ls) (growBack ls above).reverse := by
  unfold growBack
  split
  · apply Keeps.of_eq
    · simp
    · simp +contextual
  · rw [List.reverse_append, reverse_equalRun]
    exact .refl _

/-! ## Edits that move -/

/-- The script in which a moved edit stands between the runs above it, nearest first, and those
below it. -/
def place (kind : EditKind) (moved : Script × List String × Script) : Script :=
  moved.1.reverse ++ [kind.run moved.2.1] ++ moved.2.2

theorem run_of_kind? {run : Run} {kind : EditKind} (h : run.kind? = some kind) :
    run = kind.run run.lines := by
  cases run <;> cases kind <;> simp_all [Run.kind?, EditKind.run, Run.lines]

theorem run_of_other {run : Run} {kind : EditKind} (noEqual : ∀ ls, run ≠ .equal ls)
    (ne : run.kind? ≠ some kind) : ∃ other, other ≠ kind ∧ run = other.run run.lines := by
  cases run with
  | equal ls => exact absurd rfl (noEqual ls)
  | delete ls => exact ⟨.deletion, fun same => ne (congrArg some same), rfl⟩
  | insert ls => exact ⟨.insertion, fun same => ne (congrArg some same), rfl⟩

theorem keeps_merge (kind : EditKind) (first second : List String) :
    Keeps [kind.run first, kind.run second] [kind.run (first ++ second)] := by
  apply Keeps.of_eq
  · intro side
    cases side <;> cases kind <;> simp [EditKind.run, Side.ofRun, Side.pick]
  · simp +contextual

/-- A deletion and an insertion next to each other can change places. -/
theorem keeps_swap {kind kind' : EditKind} (ne : kind ≠ kind') (first second : List String) :
    Keeps [kind.run first, kind'.run second] [kind'.run second, kind.run first] := by
  apply Keeps.of_eq
  · intro side
    cases side <;> cases kind <;> cases kind' <;> simp_all [EditKind.run, Side.ofRun, Side.pick]
  · simp +contextual

theorem keeps_slideUp (inserted moved above : List String) :
    Keeps (equalRun above.reverse ++ [.insert inserted] ++ equalRun moved)
      (equalRun (slideUp inserted moved above).2.1.reverse ++
        [.insert (slideUp inserted moved above).1] ++
        equalRun (slideUp inserted moved above).2.2) := by
  fun_induction slideUp inserted moved above with
  | case1 | case3 => exact .refl _
  | case2 inserted moved line above last ih =>
    -- The equal line above is also the last inserted one, so that either may be the new line.
    obtain ⟨front, rfl⟩ := List.getLast?_eq_some_iff.mp last
    refine .trans (.of_eq (fun side => ?_) ?_) ih
    · cases side <;> simp [Side.ofRun, Side.pick]
    · simp [Run.lines]

theorem keeps_slideDown (inserted moved below : List String) :
    Keeps (equalRun moved.reverse ++ [.insert inserted] ++ equalRun below)
      (equalRun (slideDown inserted moved below).2.2.reverse ++
        [.insert (slideDown inserted moved below).1] ++
        equalRun (slideDown inserted moved below).2.1) := by
  fun_induction slideDown inserted moved below with
  | case1 | case3 => exact .refl _
  | case2 inserted moved line below first ih =>
    obtain ⟨rest, rfl⟩ := List.head?_eq_some_iff.mp first
    refine .trans (.of_eq (fun side => ?_) ?_) ih
    · cases side <;> simp [Side.ofRun, Side.pick]
    · simp [Run.lines]

theorem keeps_passUp {edit ls edit' left moved : List String}
    (slid : slideUp edit [] ls.reverse = (edit', left, moved)) (above below : Script) :
    Keeps (place .insertion (.equal ls :: above, edit, below))
      (place .insertion (equalRun left.reverse ++ above, edit', growFront moved below)) := by
  have slide := keeps_slideUp edit [] ls.reverse
  rw [slid, List.reverse_reverse] at slide
  have start := ((keeps_equalRun ls).append (.refl [.insert edit])).append (.refl [])
  have grown := (Keeps.refl (above.reverse ++ equalRun left.reverse ++ [.insert edit'])).append
    (keeps_growFront moved below)
  refine .trans ?_ (.trans ((start.trans slide).frame above.reverse below) ?_)
  · simp only [place, EditKind.run, List.reverse_cons, List.append_assoc, List.cons_append,
      List.nil_append]
    exact .refl _
  · simp only [place, EditKind.run, List.reverse_append, reverse_equalRun,
      List.append_assoc] at grown ⊢
    exact grown

theorem keeps_moveUp (kind : EditKind) (edit : List String) (above below : Script) :
    Keeps (place kind (above, edit, below)) (place kind (moveUp kind edit above below)) := by
  fun_induction moveUp kind edit above below with
  | case1 | case2 => exact .refl _
  | case3 edit ls above below insertion edit' moved slid ih =>
    subst insertion
    exact (keeps_passUp slid above below).trans ih
  | case4 edit ls above below insertion edit' left some slid =>
    subst insertion
    have passed := keeps_passUp slid above below
    rwa [growFront_nil, equalRun_of_ne_nil (by simpa using some)] at passed
  | case5 edit ls above below insertion edit' left moved some _ slid =>
    subst insertion
    have passed := keeps_passUp slid above below
    rwa [equalRun_of_ne_nil (by simpa using some)] at passed
  | case6 edit run above below _ same ih =>
    have merged := (keeps_merge kind run.lines edit).frame above.reverse below
    rw [← run_of_kind? same] at merged
    refine .trans ?_ ih
    simpa [place] using merged
  | case7 edit run above below noEqual ne ih =>
    obtain ⟨other, ne, is⟩ := run_of_other noEqual ne
    have swapped := (keeps_swap ne run.lines edit).frame above.reverse below
    rw [← is] at swapped
    refine .trans ?_ ih
    simpa [place] using swapped

theorem keeps_passDown {edit ls edit' left moved : List String}
    (slid : slideDown edit [] ls = (edit', left, moved)) (above below : Script) :
    Keeps (place .insertion (above, edit, .equal ls :: below))
      (place .insertion (growBack moved.reverse above, edit', equalRun left ++ below)) := by
  have slide := keeps_slideDown edit [] ls
  rw [slid] at slide
  have start := (Keeps.refl (equalRun [] ++ [.insert edit])).append (keeps_equalRun ls)
  have grown := (keeps_growBack moved.reverse above).append
    (.refl ([.insert edit'] ++ equalRun left ++ below))
  refine .trans ?_ (.trans ((start.trans slide).frame above.reverse below) ?_)
  · simp only [place, EditKind.run, List.append_assoc, List.cons_append, List.nil_append]
    exact .refl _
  · simp only [place, EditKind.run, List.append_assoc] at grown ⊢
    exact grown

theorem keeps_moveDown (kind : EditKind) (edit : List String) (above below : Script) :
    Keeps (place kind (above, edit, below)) (place kind (moveDown kind edit above below)) := by
  fun_induction moveDown kind edit above below with
  | case1 | case2 => exact .refl _
  | case3 edit above ls below insertion edit' moved slid ih =>
    subst insertion
    exact (keeps_passDown slid above below).trans ih
  | case4 edit above ls below insertion edit' left some slid =>
    subst insertion
    have passed := keeps_passDown slid above below
    rwa [List.reverse_nil, growBack_nil, equalRun_of_ne_nil some] at passed
  | case5 edit above ls below insertion edit' left moved some _ slid =>
    subst insertion
    have passed := keeps_passDown slid above below
    rwa [equalRun_of_ne_nil some] at passed
  | case6 edit above run below _ same ih =>
    have merged := (keeps_merge kind edit run.lines).frame above.reverse below
    rw [← run_of_kind? same] at merged
    refine .trans ?_ ih
    simpa [place] using merged
  | case7 edit above run below noEqual ne ih =>
    obtain ⟨other, ne, is⟩ := run_of_other noEqual ne
    have swapped := (keeps_swap ne.symm edit run.lines).frame above.reverse below
    rw [← is] at swapped
    refine .trans ?_ ih
    simpa [place] using swapped

/-! ## Settled scripts -/

theorem keeps_settleFrom (kind : EditKind) (limit : Nat) (above below : Script) :
    Keeps (above.reverse ++ below) (settleFrom kind limit above below) := by
  fun_induction settleFrom kind limit above below with
  | case1 => exact .refl _
  | case2 => rw [List.append_nil]; exact .refl _
  | case3 limit above run below same above₁ edit₁ below₁ up above₂ edit₂ below₂ down ih =>
    have moved : Keeps (place kind (above, run.lines, below))
        (place kind (above₂, edit₂, below₂)) := by
      rw [← down]
      refine .trans ?_ (keeps_moveDown kind edit₁ above₁ below₁)
      rw [← up]
      exact keeps_moveUp kind run.lines above below
    refine .trans ?_ ih
    rw [place, ← run_of_kind? same] at moved
    simpa [place] using moved
  | case4 limit above run below _ ih =>
    simpa using ih

/-- Wherever its edits go, a script turns the same lines into the same lines. -/
theorem keeps_settle (script : Script) : script.Keeps (settle script) :=
  .trans (keeps_settleFrom .deletion _ [] script) (keeps_settleFrom .insertion _ [] _)

theorem turns_settle_shortest (old new : List String) :
    (settle (shortest old new)).Turns old new :=
  keeps_settle _ _ _ (turns_shortest old new)

theorem settleFrom_of_no_edit {kind : EditKind} {limit : Nat} {above below : Script}
    (none : ∀ run ∈ below, run.kind? ≠ some kind) :
    settleFrom kind limit above below = above.reverse ++ below := by
  fun_induction settleFrom kind limit above below with
  | case1 => rfl
  | case2 => rw [List.append_nil]
  | case3 limit above run below same => exact absurd same (none run (by simp))
  | case4 limit above run below _ ih =>
    rw [ih fun other mem => none other (by simp [mem])]
    simp

theorem settle_equalRun (ls : List String) : settle (equalRun ls) = equalRun ls := by
  have none (kind : EditKind) : ∀ run ∈ equalRun ls, run.kind? ≠ some kind := by
    cases ls <;> simp [equalRun, Run.kind?]
  rw [settle, settleKind, settleKind, settleFrom_of_no_edit (none .deletion)]
  exact settleFrom_of_no_edit (none .insertion)

end ChannelProtocol.Diff
