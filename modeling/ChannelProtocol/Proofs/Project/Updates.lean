-- Updates of outputs: what the report says about the files before, and what the
-- files hold afterwards.
import ChannelProtocol.Proofs.Project.Writes
import ChannelProtocol.Proofs.Success
import Mathlib.Data.List.Nodup

namespace ChannelProtocol.Project

variable {view : String → Lookup} {withDiff : Bool} {outputs : List Output} {report : Report}

/-! ## Reports -/

namespace Output

theorem existing_eq_ok_iff {output : Output} {content : String} :
    output.existing view = .ok content ↔ view output.path = .text content := by
  unfold existing
  cases view output.path <;> simp [Lookup.isThere, Lookup.read]

/-- All targets are read, and each file is reported on by itself. -/
theorem reportAll_eq_ok_iff :
    reportAll view withDiff outputs = .ok report ↔
      (outputs.map fun output => (output.existing view).map (output.report withDiff)) =
        report.files.map .ok := by
  obtain ⟨files⟩ := report
  unfold reportAll
  simp only [bind_eq_ok_iff, mapM_eq_ok_iff, pure, Except.pure, Except.ok.injEq, Report.mk.injEq]
  induction outputs generalizing files with
  | nil => cases files <;> simp [eq_comm]
  | cons output rest ih =>
    constructor
    · rintro ⟨currents, read, rfl⟩
      cases currents with
      | nil => simp at read
      | cons current currents =>
        obtain ⟨here, later⟩ := List.cons.inj read
        have tail := (ih (List.zipWith (report withDiff) rest currents)).mp ⟨currents, later, rfl⟩
        rw [List.map_cons, List.zipWith_cons_cons, List.map_cons, here, tail]
        rfl
    · intro each
      cases files with
      | nil => simp at each
      | cons file files =>
        obtain ⟨here, later⟩ := List.cons.inj each
        obtain ⟨current, read, rfl⟩ := map_eq_ok_iff.mp here
        obtain ⟨currents, reads, rfl⟩ := (ih files).mpr later
        exact ⟨current :: currents, by rw [List.map_cons, List.map_cons, read, reads], rfl⟩

theorem succeeds_reportAll_iff :
    Succeeds (reportAll view withDiff outputs) ↔ ∀ output ∈ outputs, (view output.path).IsText := by
  unfold reportAll
  rw [succeeds_bind_pure_iff, succeeds_mapM_iff]
  refine forall₂_congr fun output _ => ?_
  unfold Succeeds Lookup.IsText
  simp only [existing_eq_ok_iff]

variable (reported : reportAll view withDiff outputs = .ok report)
include reported

theorem isText_of_reportAll {output : Output} (mem : output ∈ outputs) :
    (view output.path).IsText :=
  succeeds_reportAll_iff.mp ⟨report, reported⟩ output mem

theorem mem_files_iff (file : FileReport) :
    file ∈ report.files ↔ ∃ output ∈ outputs, ∃ current,
      view output.path = .text current ∧ output.report withDiff current = file := by
  rw [mem_iff_of_map_eq_ok (reportAll_eq_ok_iff.mp reported)]
  simp only [map_eq_ok_iff, existing_eq_ok_iff]

/-- An output is written exactly if its target holds something else. -/
theorem mem_written_iff (output : Output) :
    output ∈ report.written ↔ output ∈ outputs ∧ view output.path ≠ .text output.content := by
  unfold Report.written
  simp only [List.mem_map, List.mem_filter, mem_files_iff reported]
  constructor
  · rintro ⟨_, ⟨⟨other, mem, current, read, rfl⟩, changed⟩, rfl⟩
    exact ⟨mem, by simpa [Output.report, read] using changed⟩
  · rintro ⟨mem, differs⟩
    obtain ⟨current, read⟩ := isText_of_reportAll reported mem
    refine ⟨_, ⟨⟨output, mem, current, read, rfl⟩, ?_⟩, rfl⟩
    rw [read] at differs
    simpa [Output.report] using differs

theorem anyChanged_iff :
    report.anyChanged ↔ ∃ output ∈ outputs, view output.path ≠ .text output.content := by
  have written : report.anyChanged ↔ ∃ output, output ∈ report.written := by
    simp [Report.anyChanged, Report.written]
  rw [written]
  exact exists_congr fun output => mem_written_iff reported output

end Output

/-- Nothing is written where nothing changed. -/
theorem Report.written_eq_nil (idle : report.anyChanged = false) : report.written = [] := by
  unfold Report.written
  rw [List.map_eq_nil_iff, List.filter_eq_nil_iff]
  exact List.any_eq_false.mp idle

/-! ## Updates -/

namespace Disk

variable {disk after : Disk}

theorem update_eq_ok_iff :
    disk.update withDiff outputs = .ok (report, after) ↔
      Output.reportAll disk.lookup withDiff outputs = .ok report ∧
        after = disk.writeAll report.written := by
  unfold update
  simp only [bind_eq_ok_iff, pure, Except.pure, Except.ok.injEq, Prod.mk.injEq]
  constructor
  · rintro ⟨_, reported, rfl, rfl⟩
    exact ⟨reported, rfl⟩
  · rintro ⟨reported, rfl⟩
    exact ⟨report, reported, rfl, rfl⟩

section

variable (updated : disk.update withDiff outputs = .ok (report, after))
include updated

/-- After an update every place holds the last written output that goes there, or what it held
if none does. -/
theorem update_spec :
    after.SameLayout disk ∧ ∀ place, after.at? place =
      match disk.lastTo? place report.written with
      | some output => some (.text output.content)
      | none => disk.at? place := by
  obtain ⟨reported, rfl⟩ := update_eq_ok_iff.mp updated
  refine writeAll_spec report.written fun output mem => ?_
  exact Output.isText_of_reportAll reported ((Output.mem_written_iff reported output).mp mem).1

theorem place_of_written {output : Output} (mem : output ∈ report.written) :
    output ∈ outputs ∧ ∃ place, disk.place output.path = .ok place := by
  obtain ⟨reported, -⟩ := update_eq_ok_iff.mp updated
  obtain ⟨listed, -⟩ := (Output.mem_written_iff reported output).mp mem
  obtain ⟨current, found⟩ := Output.isText_of_reportAll reported listed
  obtain ⟨place, leads, -⟩ := lookup_eq_text_iff.mp found
  exact ⟨listed, place, leads⟩

/-- Only the places of outputs can change. -/
theorem at?_update_of_ne {place : Place}
    (outside : ∀ output ∈ outputs, disk.place output.path ≠ .ok place) :
    after.at? place = disk.at? place := by
  have none : disk.lastTo? place report.written = none := by
    refine lastTo?_eq_none fun output mem => ?_
    exact outside output (place_of_written updated mem).1
  rw [(update_spec updated).2, none]

/-- The end of a path holds the last written output that goes there, or what it held if none
does. -/
theorem lookup_update (path : String) :
    (∃ last ∈ report.written, disk.place last.path = disk.place path ∧
      after.lookup path = .text last.content) ∨
    (∀ output ∈ report.written, disk.place output.path ≠ disk.place path) ∧
      after.lookup path = disk.lookup path := by
  obtain ⟨same, ends⟩ := update_spec updated
  by_cases hit : ∃ output ∈ report.written, disk.place output.path = disk.place path
  · left
    obtain ⟨output, mem, leads⟩ := hit
    obtain ⟨-, place, goes⟩ := place_of_written updated mem
    obtain ⟨last, found, listed, goes'⟩ := exists_lastTo? mem goes
    rw [← leads, goes]
    refine ⟨last, listed, goes', lookup_eq_text_iff.mpr ⟨place, ?_, ?_⟩⟩
    · rw [same.place, ← leads, goes]
    · rw [ends, found]
  · right
    have apart : ∀ output ∈ report.written, disk.place output.path ≠ disk.place path :=
      fun output mem leads => hit ⟨output, mem, leads⟩
    refine ⟨apart, same.lookup path fun place leads => ?_⟩
    have none : disk.lastTo? place report.written = none := by
      refine lastTo?_eq_none fun output mem => ?_
      rw [← leads, same.place]
      exact apart output mem
    rw [ends, none]

theorem isText_update {output : Output} (mem : output ∈ outputs) :
    (after.lookup output.path).IsText := by
  obtain ⟨reported, -⟩ := update_eq_ok_iff.mp updated
  rcases lookup_update updated output.path with ⟨last, -, -, found⟩ | ⟨-, found⟩
  · exact ⟨last.content, found⟩
  · rw [found]
    exact Output.isText_of_reportAll reported mem

/-- The report says that something changed exactly if the target of some output now holds
something else, also where several outputs go to one place. -/
theorem anyChanged_iff_lookup_ne :
    report.anyChanged ↔
      ∃ output ∈ outputs, after.lookup output.path ≠ disk.lookup output.path := by
  obtain ⟨reported, rfl⟩ := update_eq_ok_iff.mp updated
  have written := Output.mem_written_iff reported
  constructor
  · intro changed
    obtain ⟨output, mem, differs⟩ := (Output.anyChanged_iff reported).mp changed
    refine ⟨output, mem, ?_⟩
    rcases lookup_update updated output.path with ⟨last, listed, same, found⟩ | ⟨apart, -⟩
    · -- The last one to be written was written because it differs from what was there.
      rw [found, ← lookup_congr same]
      exact ((written last).mp listed).2.symm
    · exact absurd rfl (apart output ((written output).mpr ⟨mem, differs⟩))
  · rintro ⟨output, -, differs⟩
    by_contra idle
    rw [Report.written_eq_nil (by simpa using idle)] at differs
    exact differs rfl

/-- Where each output has a place of its own, all of them are there afterwards. -/
theorem lookup_update_of_apart
    (apart : (outputs.map fun output => disk.place output.path).Nodup) {output : Output}
    (mem : output ∈ outputs) : after.lookup output.path = .text output.content := by
  obtain ⟨reported, -⟩ := update_eq_ok_iff.mp updated
  rcases lookup_update updated output.path with ⟨last, listed, same, found⟩ | ⟨unhit, found⟩
  · have own := List.inj_on_of_nodup_map apart (place_of_written updated listed).1 mem same
    rw [found, own]
  · by_contra differs
    rw [found] at differs
    exact unhit output ((Output.mem_written_iff reported output).mpr ⟨mem, differs⟩) rfl

end

theorem exists_update (withDiff : Bool)
    (readable : ∀ output ∈ outputs, (disk.lookup output.path).IsText) :
    ∃ report after, disk.update withDiff outputs = .ok (report, after) := by
  obtain ⟨report, reported⟩ : Succeeds (Output.reportAll disk.lookup withDiff outputs) :=
    Output.succeeds_reportAll_iff.mpr readable
  exact ⟨report, _, update_eq_ok_iff.mpr ⟨reported, rfl⟩⟩

/-- An update of outputs that are all there does nothing. -/
theorem update_of_settled (withDiff : Bool)
    (settled : ∀ output ∈ outputs, disk.lookup output.path = .text output.content) :
    ∃ report, disk.update withDiff outputs = .ok (report, disk) ∧ report.anyChanged = false := by
  obtain ⟨report, after, updated⟩ := exists_update withDiff fun output mem =>
    ⟨output.content, settled output mem⟩
  obtain ⟨reported, rfl⟩ := update_eq_ok_iff.mp updated
  have idle : report.anyChanged = false := by
    by_contra changed
    rw [Bool.not_eq_false, Output.anyChanged_iff reported] at changed
    obtain ⟨output, mem, differs⟩ := changed
    exact differs (settled output mem)
  refine ⟨report, ?_, idle⟩
  rw [updated, Report.written_eq_nil idle]
  rfl

end Disk

end ChannelProtocol.Project
