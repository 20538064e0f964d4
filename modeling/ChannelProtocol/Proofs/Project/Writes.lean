-- Writing into files that are there. No path comes to lead elsewhere, every file
-- ends with what was last written into it, and all others stay as they are.
import ChannelProtocol.Project.Generate

namespace ChannelProtocol.Project

def Node.isDirectory : Node → Bool
  | .directory => true
  | .binary | .text _ => false

/-- The path leads to a file with a text. -/
def Lookup.IsText (found : Lookup) : Prop := ∃ content, found = .text content

namespace Disk

variable {disk after : Disk} {path content old : String}

/-! ## What a walk sees -/

/-- Two disks that differ only in what is in their files. -/
structure SameLayout (disk other : Disk) : Prop where
  current : disk.current = other.current
  standing : ∀ place,
    (disk.at? place).map Node.isDirectory = (other.at? place).map Node.isDirectory

theorem SameLayout.refl (disk : Disk) : disk.SameLayout disk := ⟨rfl, fun _ => rfl⟩

theorem SameLayout.trans {first second third : Disk} (h : first.SameLayout second)
    (h' : second.SameLayout third) : first.SameLayout third :=
  ⟨h.current.trans h'.current, fun place => (h.standing place).trans (h'.standing place)⟩

/-- A walk asks only where directories are. -/
theorem SameLayout.walk (same : disk.SameLayout after) (place : Place) (parts : List String) :
    disk.walk place parts = after.walk place parts := by
  induction parts generalizing place with
  | nil => rfl
  | cons part rest ih =>
    have standing := same.standing place
    unfold Disk.walk
    rcases here : disk.at? place with _ | node <;> rcases there : after.at? place with _ | node' <;>
      simp only [here, there, Option.map_none, Option.map_some, reduceCtorEq,
        Option.some.injEq] at standing
    · rfl
    · cases node <;> cases node' <;>
        simp only [Node.isDirectory, reduceCtorEq, ih] at standing ⊢

theorem SameLayout.place (same : disk.SameLayout after) (path : String) :
    disk.place path = after.place path := by
  unfold Disk.place
  rw [same.current, same.walk]

/-! ## What a path leads to -/

theorem lookup_eq_text_iff :
    disk.lookup path = .text content ↔
      ∃ place, disk.place path = .ok place ∧ disk.at? place = some (.text content) := by
  unfold lookup
  constructor
  · intro h
    split at h
    · cases h
    · cases h
    · rename_i place leads
      refine ⟨place, leads, ?_⟩
      split at h <;> simp_all
  · rintro ⟨place, leads, held⟩
    simp only [leads, held]

theorem lookup_congr {other : String} (same : disk.place path = disk.place other) :
    disk.lookup path = disk.lookup other := by
  unfold lookup
  rw [same]

/-- Where two disks hold the same at the end of a path, they give the same. -/
theorem SameLayout.lookup (same : disk.SameLayout after) (path : String)
    (held : ∀ place, disk.place path = .ok place → disk.at? place = after.at? place) :
    disk.lookup path = after.lookup path := by
  unfold Disk.lookup
  rw [same.place path] at held ⊢
  split
  · rfl
  · rfl
  · rename_i place leads
    rw [held place leads]

/-! ## One write -/

/-- No file is at the place of the root directory. -/
theorem ne_nil_of_text {place : Place} (held : disk.at? place = some (.text content)) :
    place ≠ [] := by
  rintro rfl
  simp [at?] at held

theorem at?_set {place : Place} {node : Option Node} (inside : place ≠ []) (other : Place) :
    (disk.set place node).at? other = if other = place then node else disk.at? other := by
  unfold at?
  split
  · rw [if_neg inside.symm]
  · rfl

theorem at?_write {place : Place} (leads : disk.place path = .ok place)
    (held : disk.at? place = some (.text old)) (content : String) (other : Place) :
    (disk.write path content).at? other =
      if other = place then some (.text content) else disk.at? other := by
  unfold write
  rw [leads]
  exact at?_set (ne_nil_of_text held) other

theorem sameLayout_write (there : (disk.lookup path).IsText) (content : String) :
    (disk.write path content).SameLayout disk := by
  obtain ⟨old, found⟩ := there
  obtain ⟨place, leads, held⟩ := lookup_eq_text_iff.mp found
  constructor
  · unfold write
    rw [leads]
    rfl
  · intro other
    rw [at?_write leads held]
    by_cases same : other = place
    · rw [if_pos same, same, held]
      rfl
    · rw [if_neg same]

/-! ## Many writes -/

/-- Whether an output goes to a place. -/
def goesTo (disk : Disk) (place : Place) (output : Output) : Bool :=
  match disk.place output.path with
  | .ok target => target == place
  | .error _ => false

theorem goesTo_iff {place : Place} {output : Output} :
    disk.goesTo place output ↔ disk.place output.path = .ok place := by
  unfold goesTo
  split <;> simp_all

/-- The last of some outputs that goes to a place. -/
def lastTo? (disk : Disk) (place : Place) (outputs : List Output) : Option Output :=
  outputs.reverse.find? (disk.goesTo place)

theorem SameLayout.lastTo? (same : disk.SameLayout after) (place : Place)
    (outputs : List Output) : disk.lastTo? place outputs = after.lastTo? place outputs := by
  have goes : disk.goesTo place = after.goesTo place := by
    funext output
    unfold goesTo
    rw [same.place]
  unfold Disk.lastTo?
  rw [goes]

theorem lastTo?_cons (disk : Disk) (place : Place) (output : Output) (rest : List Output) :
    disk.lastTo? place (output :: rest) =
      (disk.lastTo? place rest).or (if disk.goesTo place output then some output else none) := by
  simp only [lastTo?, List.reverse_cons, List.find?_append, List.find?_cons, List.find?_nil]
  split <;> simp_all

theorem lastTo?_eq_none {place : Place} {outputs : List Output}
    (h : ∀ output ∈ outputs, disk.place output.path ≠ .ok place) :
    disk.lastTo? place outputs = none := by
  unfold lastTo?
  rw [List.find?_eq_none]
  intro output mem
  rw [goesTo_iff]
  exact h output (List.mem_reverse.mp mem)

theorem lastTo?_append_cons {place : Place} {output : Output} (before : List Output)
    {later : List Output} (goes : disk.place output.path = .ok place)
    (missed : ∀ next ∈ later, disk.place next.path ≠ .ok place) :
    disk.lastTo? place (before ++ output :: later) = some output := by
  induction before with
  | nil =>
    rw [List.nil_append, lastTo?_cons, lastTo?_eq_none missed, Option.none_or,
      if_pos (goesTo_iff.mpr goes)]
  | cons first before ih => rw [List.cons_append, lastTo?_cons, ih, Option.some_or]

theorem exists_lastTo? {place : Place} {outputs : List Output} {output : Output}
    (mem : output ∈ outputs) (goes : disk.place output.path = .ok place) :
    ∃ last, disk.lastTo? place outputs = some last ∧ last ∈ outputs ∧
      disk.place last.path = .ok place := by
  have found : (disk.lastTo? place outputs).isSome := by
    unfold lastTo?
    rw [List.find?_isSome]
    exact ⟨output, List.mem_reverse.mpr mem, goesTo_iff.mpr goes⟩
  obtain ⟨last, found⟩ := Option.isSome_iff_exists.mp found
  exact ⟨last, found, List.mem_reverse.mp (List.mem_of_find?_eq_some found),
    goesTo_iff.mp (List.find?_some found)⟩

theorem isText_write (there : (disk.lookup path).IsText) (content : String) {other : String}
    (found : (disk.lookup other).IsText) : ((disk.write path content).lookup other).IsText := by
  obtain ⟨old, found'⟩ := there
  obtain ⟨place, leads, held⟩ := lookup_eq_text_iff.mp found'
  obtain ⟨text, found⟩ := found
  obtain ⟨target, leads', held'⟩ := lookup_eq_text_iff.mp found
  rw [← (sameLayout_write ⟨old, found'⟩ content).place] at leads'
  by_cases same : target = place
  · refine ⟨content, lookup_eq_text_iff.mpr ⟨target, leads', ?_⟩⟩
    rw [at?_write leads held, if_pos same]
  · refine ⟨text, lookup_eq_text_iff.mpr ⟨target, leads', ?_⟩⟩
    rw [at?_write leads held, if_neg same, held']

/-- Each place ends with the last output that goes there, or as it was if none does. -/
theorem writeAll_spec (outputs : List Output)
    (there : ∀ output ∈ outputs, (disk.lookup output.path).IsText) :
    (disk.writeAll outputs).SameLayout disk ∧
      ∀ place, (disk.writeAll outputs).at? place =
        match disk.lastTo? place outputs with
        | some output => some (.text output.content)
        | none => disk.at? place := by
  induction outputs generalizing disk with
  | nil => exact ⟨.refl disk, fun place => rfl⟩
  | cons output rest ih =>
    obtain ⟨here, later⟩ := List.forall_mem_cons.mp there
    have layout := sameLayout_write here output.content
    obtain ⟨same, ends⟩ :=
      ih fun other mem => isText_write here output.content (later other mem)
    refine ⟨same.trans layout, fun place => ?_⟩
    obtain ⟨old, found⟩ := here
    obtain ⟨target, leads, held⟩ := lookup_eq_text_iff.mp found
    have step : disk.writeAll (output :: rest) =
        (disk.write output.path output.content).writeAll rest := rfl
    rw [step, ends, layout.lastTo?, lastTo?_cons, at?_write leads held]
    -- A later output to the place counts; only if there is none does this one.
    cases last : disk.lastTo? place rest with
    | some other => rfl
    | none =>
      by_cases goes : place = target
      · have hit : disk.goesTo place output := by rw [goesTo_iff, leads, goes]
        rw [Option.none_or, if_pos hit, if_pos goes]
      · have miss : ¬ disk.goesTo place output := by
          rw [goesTo_iff, leads, Except.ok.injEq]
          exact Ne.symm goes
        rw [Option.none_or, if_neg miss, if_neg goes]

/-- The disk with some files and the directories on the way to them. -/
def ofFiles (files : List (Place × String)) : Disk where
  current := []
  node? place :=
    match files.lookup place with
    | some content => some (.text content)
    | none => if files.any fun file => place.isPrefixOf file.1 then some .directory else none

end Disk

end ChannelProtocol.Project
