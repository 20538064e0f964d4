-- Batches of outputs: all of them are written or none is. A batch is also written
-- down as a program that changes the disk as it goes, which an error would not undo.
import ChannelProtocol.Proofs.Project.Updates

namespace ChannelProtocol.Project

/-! ## A batch as a program -/

namespace Output

def readTarget (output : Output) : EStateM Error Disk String := do
  match output.existing (← get).lookup with
  | .ok content => return content
  | .error error => throw error

/-- Writes an output if its target held something else, and reports on it. -/
def writeTarget (withDiff : Bool) (output : Output) (current : String) :
    EStateM Error Disk FileReport := do
  if current != output.content then
    modify fun disk => disk.write output.path output.content
  return output.report withDiff current

/-- Reads all targets, and then writes the outputs one after another. -/
def overwrite (withDiff : Bool) (outputs : List Output) : EStateM Error Disk Report := do
  let current ← outputs.mapM readTarget
  let files ← (outputs.zip current).mapM fun target => writeTarget withDiff target.1 target.2
  return ⟨files⟩

/-- What a computation without effects is on a disk: it leaves the disk as it is. -/
def onDisk {ε α : Type} (disk : Disk) : Except ε α → EStateM.Result ε Disk α
  | .ok value => .ok value disk
  | .error error => .error error disk

theorem run_readTarget (output : Output) (disk : Disk) :
    output.readTarget.run disk = onDisk disk (output.existing disk.lookup) := by
  unfold readTarget
  simp only [EStateM.run_bind, EStateM.run_get]
  cases output.existing disk.lookup <;> rfl

/-- Reading the targets changes nothing, however far it gets. -/
theorem run_readTargets (outputs : List Output) (disk : Disk) :
    (outputs.mapM readTarget).run disk = onDisk disk (outputs.mapM (existing disk.lookup)) := by
  induction outputs with
  | nil => rfl
  | cons output rest ih =>
    rw [List.mapM_cons, List.mapM_cons, EStateM.run_bind, run_readTarget]
    cases output.existing disk.lookup with
    | error error => rfl
    | ok current =>
      simp only [onDisk, EStateM.run_bind, ih]
      cases rest.mapM (existing disk.lookup) <;> rfl

theorem run_writeTarget (withDiff : Bool) (output : Output) (current : String) (disk : Disk) :
    (writeTarget withDiff output current).run disk =
      .ok (output.report withDiff current)
        (disk.writeAll (Report.written ⟨[output.report withDiff current]⟩)) := by
  unfold writeTarget
  by_cases changed : current != output.content
  · have written : Report.written ⟨[output.report withDiff current]⟩ = [output] := by
      simp [Report.written, report, changed]
    rw [written, if_pos changed]
    rfl
  · have written : Report.written ⟨[output.report withDiff current]⟩ = [] := by
      simp [Report.written, report, changed]
    rw [written, if_neg changed]
    rfl

theorem writeAll_written_cons (disk : Disk) (file : FileReport) (files : List FileReport) :
    disk.writeAll (Report.written ⟨file :: files⟩) =
      (disk.writeAll (Report.written ⟨[file]⟩)).writeAll (Report.written ⟨files⟩) := by
  simp only [Report.written, List.filter_cons, List.filter_nil]
  split <;> rfl

/-- What a target held is known before the writing starts, so that one write is not seen by the
next. -/
theorem run_writeTargets (withDiff : Bool) (outputs : List Output) (current : List String)
    (disk : Disk) :
    ((outputs.zip current).mapM fun target => writeTarget withDiff target.1 target.2).run disk =
      .ok (List.zipWith (report withDiff) outputs current)
        (disk.writeAll (Report.written ⟨List.zipWith (report withDiff) outputs current⟩)) := by
  induction outputs generalizing current disk with
  | nil => rfl
  | cons output rest ih =>
    cases current with
    | nil => rfl
    | cons text texts =>
      rw [List.zip_cons_cons, List.mapM_cons, List.zipWith_cons_cons, EStateM.run_bind,
        run_writeTarget]
      simp only [EStateM.run_bind, ih, EStateM.run_pure]
      rw [writeAll_written_cons disk _ (List.zipWith (report withDiff) rest texts)]

/-- The program does what the update says, and leaves the disk as it is where that fails. -/
theorem run_overwrite (withDiff : Bool) (outputs : List Output) (disk : Disk) :
    (overwrite withDiff outputs).run disk =
      match disk.update withDiff outputs with
      | .ok (report, after) => .ok report after
      | .error error => .error error disk := by
  unfold overwrite Disk.update reportAll
  rw [EStateM.run_bind, run_readTargets]
  cases outputs.mapM (existing disk.lookup) with
  | error error => rfl
  | ok current =>
    simp only [onDisk, EStateM.run_bind, run_writeTargets, EStateM.run_pure]
    rfl

end Output

theorem Report.mem_written_iff {report : Report} {output : Output} :
    output ∈ report.written ↔ ∃ file ∈ report.files, file.changed ∧ file.output = output := by
  simp [Report.written, and_assoc]

/-! ## What stands in the way -/

/-- What is wrong with the target of an output, if anything is. -/
def Lookup.obstacle? (path : String) : Lookup → Option Error
  | .missing | .blocked => some (.missingTarget path)
  | .directory => some (.unreadable path .isDirectory)
  | .binary => some (.unreadable path .notText)
  | .text _ => none

namespace Disk

variable {disk after : Disk} {withDiff : Bool} {outputs : List Output} {report : Report}

def obstacle? (disk : Disk) (output : Output) : Option Error :=
  (disk.lookup output.path).obstacle? output.path

theorem obstacle?_eq_none_iff {output : Output} :
    disk.obstacle? output = none ↔ (disk.lookup output.path).IsText := by
  unfold obstacle? Lookup.IsText
  cases disk.lookup output.path <;> simp [Lookup.obstacle?]

theorem existing_eq_error_iff {output : Output} {error : Error} :
    output.existing disk.lookup = .error error ↔ disk.obstacle? output = some error := by
  unfold Output.existing obstacle?
  cases disk.lookup output.path <;> simp [Lookup.isThere, Lookup.read, Lookup.obstacle?]

theorem succeeds_existing_iff {output : Output} :
    Succeeds (output.existing disk.lookup) ↔ disk.obstacle? output = none := by
  unfold Succeeds
  simp only [Output.existing_eq_ok_iff, obstacle?_eq_none_iff, Lookup.IsText]

/-- An update fails with the obstacle of the first output that has one. -/
theorem update_eq_error_iff {error : Error} :
    disk.update withDiff outputs = .error error ↔
      ∃ before output later, outputs = before ++ output :: later ∧
        (∀ earlier ∈ before, disk.obstacle? earlier = none) ∧
        disk.obstacle? output = some error := by
  unfold update Output.reportAll
  simp only [bind_eq_error_iff, pure, Except.pure, reduceCtorEq, and_false, exists_false, or_false,
    mapM_eq_error_iff, succeeds_existing_iff, existing_eq_error_iff]

theorem fails_update_iff :
    (∃ error, disk.update withDiff outputs = .error error) ↔
      ∃ output ∈ outputs, disk.obstacle? output ≠ none := by
  have succeeds : Succeeds (disk.update withDiff outputs) ↔
      ∀ output ∈ outputs, disk.obstacle? output = none := by
    unfold update
    rw [succeeds_bind_pure_iff, Output.succeeds_reportAll_iff]
    simp only [obstacle?_eq_none_iff]
  have fails : (∃ error, disk.update withDiff outputs = .error error) ↔
      ¬ Succeeds (disk.update withDiff outputs) := by
    unfold Succeeds
    cases disk.update withDiff outputs <;> simp
  rw [fails, succeeds]
  simp

/-! ## What is reported and written -/

/-- What a report says about an output, all of which is about the disk before the batch. -/
def Reports (disk : Disk) (withDiff : Bool) (output : Output) (file : FileReport) : Prop :=
  ∃ current, disk.lookup output.path = .text current ∧ file.output = output ∧
    (file.changed ↔ current ≠ output.content) ∧ (file.diff.isSome ↔ withDiff ∧ file.changed) ∧
    ∀ diff ∈ file.diff, diff = Diff.unified output.path current output.content

theorem reports_report {output : Output} {current : String}
    (held : disk.lookup output.path = .text current) :
    disk.Reports withDiff output (output.report withDiff current) := by
  refine ⟨current, held, rfl, ?_, ?_, ?_⟩
  · simp [Output.report]
  · by_cases same : current = output.content <;> simp [Output.report, same]
  · intro diff given
    simp only [Output.report] at given
    split at given <;> simp_all

theorem reports_of_update (updated : disk.update withDiff outputs = .ok (report, after)) :
    List.Forall₂ (disk.Reports withDiff) outputs report.files := by
  obtain ⟨reported, -⟩ := update_eq_ok_iff.mp updated
  have each := Output.reportAll_eq_ok_iff.mp reported
  obtain ⟨files⟩ := report
  clear updated reported
  induction outputs generalizing files with
  | nil =>
    cases files with
    | nil => exact .nil
    | cons file files => cases each
  | cons output rest ih =>
    cases files with
    | nil => cases each
    | cons file files =>
      obtain ⟨here, later⟩ := List.cons.inj each
      obtain ⟨current, read, rfl⟩ := map_eq_ok_iff.mp here
      exact .cons (reports_report (Output.existing_eq_ok_iff.mp read)) (ih files later)

/-- The last report of a batch that says that an output was written to the end of a path. -/
def LastChanged (disk : Disk) (path : String) (files : List FileReport) (file : FileReport) :
    Prop :=
  ∃ before later, files = before ++ file :: later ∧ file.changed ∧
    disk.place file.output.path = disk.place path ∧
    ∀ next ∈ later, next.changed → disk.place next.output.path ≠ disk.place path

theorem lastChanged_or_none (disk : Disk) (path : String) (files : List FileReport) :
    (∃ file, disk.LastChanged path files file) ∨
      ∀ file ∈ files, file.changed → disk.place file.output.path ≠ disk.place path := by
  induction files with
  | nil => exact .inr nofun
  | cons first rest ih =>
    rcases ih with ⟨file, before, later, rfl, last⟩ | none
    · exact .inl ⟨file, first :: before, later, rfl, last⟩
    · by_cases here : first.changed ∧ disk.place first.output.path = disk.place path
      · exact .inl ⟨first, [], rest, rfl, here.1, here.2, none⟩
      · exact .inr (List.forall_mem_cons.mpr ⟨fun changed leads => here ⟨changed, leads⟩, none⟩)

theorem lookup_of_lastChanged (updated : disk.update withDiff outputs = .ok (report, after))
    {path : String} {file : FileReport} (last : disk.LastChanged path report.files file) :
    after.lookup path = .text file.output.content := by
  obtain ⟨same, ends⟩ := update_spec updated
  obtain ⟨before, later, files, changed, leads, none⟩ := last
  have written : report.written =
      Report.written ⟨before⟩ ++ file.output :: Report.written ⟨later⟩ := by
    simp [Report.written, files, changed]
  have listed : file.output ∈ report.written := by simp [written]
  obtain ⟨-, place, goes⟩ := place_of_written updated listed
  have missed : ∀ output ∈ Report.written ⟨later⟩, disk.place output.path ≠ .ok place := by
    intro output mem
    obtain ⟨next, follows, changed, rfl⟩ := Report.mem_written_iff.mp mem
    rw [← goes, leads]
    exact none next follows changed
  refine lookup_eq_text_iff.mpr ⟨place, ?_, ?_⟩
  · rw [same.place, ← leads, goes]
  · rw [ends, written, lastTo?_append_cons _ goes missed]

/-! ## All or nothing -/

/-- A batch fails exactly if the target of some output is missing or cannot be read, with the error
of the first of these, and then nothing is written. Otherwise each output is reported on with
regard to the disk before the batch, every path ends with the last output that was written there,
and what no output goes to stays as it is. -/
theorem update_all_or_nothing (disk : Disk) (withDiff : Bool) (outputs : List Output) :
    ((∃ error, disk.update withDiff outputs = .error error) ↔
      ∃ output ∈ outputs, disk.obstacle? output ≠ none) ∧
    (∀ error, disk.update withDiff outputs = .error error →
      (Output.overwrite withDiff outputs).run disk = .error error disk ∧
      ∃ before output later, outputs = before ++ output :: later ∧
        (∀ earlier ∈ before, disk.obstacle? earlier = none) ∧
        disk.obstacle? output = some error) ∧
    ∀ report after, disk.update withDiff outputs = .ok (report, after) →
      (Output.overwrite withDiff outputs).run disk = .ok report after ∧
      List.Forall₂ (disk.Reports withDiff) outputs report.files ∧
      (∀ path,
        (∃ file, disk.LastChanged path report.files file ∧
          after.lookup path = .text file.output.content) ∨
        (∀ file ∈ report.files, file.changed → disk.place file.output.path ≠ disk.place path) ∧
          after.lookup path = disk.lookup path) ∧
      after.current = disk.current ∧
      ∀ place, (∀ output ∈ outputs, disk.place output.path ≠ .ok place) →
        after.at? place = disk.at? place := by
  refine ⟨fails_update_iff, fun error failed => ⟨?_, update_eq_error_iff.mp failed⟩,
    fun report after updated => ⟨?_, reports_of_update updated, fun path => ?_, ?_, ?_⟩⟩
  · rw [Output.run_overwrite, failed]
  · rw [Output.run_overwrite, updated]
  · rcases disk.lastChanged_or_none path report.files with ⟨file, last⟩ | none
    · exact .inl ⟨file, last, lookup_of_lastChanged updated last⟩
    · refine .inr ⟨none, ?_⟩
      rcases lookup_update updated path with ⟨last, mem, leads, -⟩ | ⟨-, kept⟩
      · obtain ⟨file, reported, changed, rfl⟩ := Report.mem_written_iff.mp mem
        exact absurd leads (none file reported changed)
      · exact kept
  · exact (update_spec updated).1.current
  · exact fun place outside => at?_update_of_ne updated outside

/-- A disk with two files. -/
def pairDisk : Disk := ofFiles [(["a.ts"], "old"), (["b.ts"], "new")]

/-- One missing target keeps all outputs from being written. Of two outputs to one file the second
is compared with what was there before the first, and so the first one stays. -/
theorem pairDisk_batches :
    (Output.overwrite false [⟨"a.ts", "new"⟩, ⟨"c.ts", ""⟩, ⟨".", ""⟩]).run pairDisk =
        .error (.missingTarget "c.ts") pairDisk ∧
      ∃ report after,
        (Output.overwrite false [⟨"a.ts", "new"⟩, ⟨"./a.ts", "old"⟩, ⟨"b.ts", "new"⟩]).run
            pairDisk = .ok report after ∧
          report.files.map FileReport.changed = [true, false, false] ∧
          after.lookup "a.ts" = .text "new" := by
  obtain ⟨-, failing, -⟩ :=
    update_all_or_nothing pairDisk false [⟨"a.ts", "new"⟩, ⟨"c.ts", ""⟩, ⟨".", ""⟩]
  obtain ⟨-, -, done⟩ :=
    update_all_or_nothing pairDisk false [⟨"a.ts", "new"⟩, ⟨"./a.ts", "old"⟩, ⟨"b.ts", "new"⟩]
  exact ⟨(failing _ rfl).1, _, _, (done _ _ rfl).1, rfl, rfl⟩

end Disk

end ChannelProtocol.Project
