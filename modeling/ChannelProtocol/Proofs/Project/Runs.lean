-- Runs on a disk: when they succeed, and what a second run finds after the first.
import ChannelProtocol.Project.Generate
import ChannelProtocol.Proofs.Compiled.Surface
import ChannelProtocol.Proofs.Project.Updates

namespace ChannelProtocol.Project

open Schema TypeScript

/-! ## The two files -/

def Config.outputPaths (config : Config) : List String := [config.declarations, config.validators]

theorem map_path_outputs (config : Config) (compiled : Compiled) :
    (outputs config compiled).map Output.path = config.outputPaths := rfl

/-- The two generated files are never the same: their first imports differ. -/
theorem declarations_ne_validators {doc : Document} {schemaName : String} {compiled : Compiled}
    (built : Compiled.ofDocument doc schemaName = .ok compiled) :
    compiled.declarations.print ≠ compiled.validators.print := by
  obtain ⟨declarations, registry, declared, -, rfl⟩ := Compiled.parts_of_ofDocument built
  obtain ⟨items, -, same⟩ := bind_eq_ok_iff.mp declared
  cases same
  have imports (rest other : String) : "type " ++ rest ≠ "\x7b " ++ other := by
    intro same
    have first := congrArg (fun text => text.toList.head?) same
    simp at first
  intro same
  simp only [Module.print, Compiled.validatorsModule, Compiled.validatorImports, List.map_cons,
    Import.print, paragraph, String.join_cons, String.append_assoc, String.append_right_inj,
    if_true, if_false, Bool.false_eq_true, String.empty_append] at same
  exact imports _ _ same

/-! ## When a run succeeds -/

theorem readSchema_eq_ok_iff {view : String → Lookup} {config : Config} {doc : Document} :
    readSchema view config = .ok doc ↔
      ∃ source, view config.schema = .text source ∧ Document.read source = .ok doc := by
  unfold readSchema
  rcases view config.schema with _ | _ | _ | _ | source <;> simp [Lookup.read]
  split <;> simp_all

namespace Disk

variable {disk after : Disk} {config : Config} {compiled : Compiled} {report : Report}
  {withDiff : Bool}

/-- The schema of a config can be read, and compiles. -/
def Compiles (disk : Disk) (config : Config) (compiled : Compiled) : Prop :=
  ∃ source doc, disk.lookup config.schema = .text source ∧ Document.read source = .ok doc ∧
    Compiled.ofDocument doc config.schemaName = .ok compiled

/-- Compiling depends on nothing but the schema. -/
theorem Compiles.of_lookup_eq (h : disk.Compiles config compiled)
    (kept : after.lookup config.schema = disk.lookup config.schema) :
    after.Compiles config compiled := by
  obtain ⟨source, doc, found, read, built⟩ := h
  exact ⟨source, doc, kept.trans found, read, built⟩

theorem Compiles.unique {other : Compiled} (h : disk.Compiles config compiled)
    (h' : disk.Compiles config other) : compiled = other := by
  obtain ⟨source, doc, found, read, built⟩ := h
  obtain ⟨source', doc', found', read', built'⟩ := h'
  rw [found, Lookup.text.injEq] at found'
  subst found'
  rw [read, Except.ok.injEq] at read'
  subst read'
  rw [built, Except.ok.injEq] at built'
  exact built'

/-- A run reads and compiles the schema, and then updates the two files. -/
theorem generate_eq_ok_iff :
    disk.generate config withDiff = .ok (report, after) ↔
      ∃ compiled, disk.Compiles config compiled ∧
        disk.update withDiff (outputs config compiled) = .ok (report, after) := by
  unfold Disk.generate Project.generate
  simp only [bind_eq_ok_iff, mapError_eq_ok_iff, readSchema_eq_ok_iff, update_eq_ok_iff, pure,
    Except.pure, Except.ok.injEq, Prod.mk.injEq]
  constructor
  · rintro ⟨_, ⟨doc, ⟨source, found, read⟩, compiled, built, reported⟩, rfl, rfl⟩
    exact ⟨compiled, ⟨source, doc, found, read, built⟩, reported, rfl⟩
  · rintro ⟨compiled, ⟨source, doc, found, read, built⟩, reported, rfl⟩
    exact ⟨report, ⟨doc, ⟨source, found, read⟩, compiled, built, reported⟩, rfl, rfl⟩

/-- A run succeeds exactly if the schema compiles and both targets can be read. -/
theorem succeeds_generate_iff :
    Succeeds (disk.generate config withDiff) ↔
      (∃ compiled, disk.Compiles config compiled) ∧
        ∀ path ∈ config.outputPaths, (disk.lookup path).IsText := by
  constructor
  · rintro ⟨⟨report, after⟩, ran⟩
    obtain ⟨compiled, compiles, updated⟩ := generate_eq_ok_iff.1 ran
    obtain ⟨reported, -⟩ := update_eq_ok_iff.mp updated
    refine ⟨⟨compiled, compiles⟩, ?_⟩
    rw [← map_path_outputs config compiled, List.forall_mem_map]
    exact fun output mem => Output.isText_of_reportAll reported mem
  · rintro ⟨⟨compiled, compiles⟩, readable⟩
    rw [← map_path_outputs config compiled, List.forall_mem_map] at readable
    obtain ⟨report, after, updated⟩ := exists_update withDiff readable
    exact ⟨(report, after), generate_eq_ok_iff.2 ⟨compiled, compiles, updated⟩⟩

/-- A run succeeds, reports no change and leaves the disk as it is. -/
def Idle (disk : Disk) (config : Config) (withDiff : Bool) : Prop :=
  ∃ report, disk.generate config withDiff = .ok (report, disk) ∧ report.anyChanged = false

/-- A run succeeds, reports a change and leaves the declarations' file with another text. -/
def Rewrites (disk : Disk) (config : Config) (withDiff : Bool) : Prop :=
  ∃ report after, disk.generate config withDiff = .ok (report, after) ∧
    report.anyChanged = true ∧ after.lookup config.declarations ≠ disk.lookup config.declarations

/-- The schemas on two disks compile to the same texts. -/
def CompileAlike (disk other : Disk) (config : Config) : Prop :=
  ∃ compiled compiled', disk.Compiles config compiled ∧ other.Compiles config compiled' ∧
    outputs config compiled = outputs config compiled'

section

variable (first : disk.generate config withDiff = .ok (report, after))
include first

/-- Paths that lead to one file on the disk of a run still do so after it. -/
theorem lookup_generate_congr {path other : String} (shared : disk.place path = disk.place other) :
    after.lookup path = after.lookup other := by
  obtain ⟨compiled, -, updated⟩ := generate_eq_ok_iff.1 first
  have layout := (update_spec updated).1
  apply lookup_congr
  rw [layout.place, layout.place, shared]

/-- A schema in a file of its own is left alone. -/
theorem lookup_schema_of_apart
    (declarations : disk.place config.schema ≠ disk.place config.declarations)
    (validators : disk.place config.schema ≠ disk.place config.validators) :
    after.lookup config.schema = disk.lookup config.schema := by
  obtain ⟨compiled, -, updated⟩ := generate_eq_ok_iff.1 first
  rcases lookup_update updated config.schema with ⟨last, written, leads, -⟩ | ⟨-, kept⟩
  · have mem := (place_of_written updated written).1
    simp only [outputs, List.mem_cons, List.not_mem_nil, or_false] at mem
    rcases mem with rfl | rfl
    · exact absurd leads.symm declarations
    · exact absurd leads.symm validators
  · exact kept

theorem compileAlike_of_kept (kept : after.lookup config.schema = disk.lookup config.schema) :
    disk.CompileAlike after config := by
  obtain ⟨compiled, compiles, -⟩ := generate_eq_ok_iff.1 first
  exact ⟨compiled, compiled, compiles, compiles.of_lookup_eq kept, rfl⟩

/-- Where the two outputs have files of their own, both texts are there after a run. -/
theorem lookup_output_of_apart (compiles : disk.Compiles config compiled)
    (apart : disk.place config.declarations ≠ disk.place config.validators) {output : Output}
    (mem : output ∈ outputs config compiled) :
    after.lookup output.path = .text output.content := by
  obtain ⟨other, compiles', updated⟩ := generate_eq_ok_iff.1 first
  obtain rfl := compiles.unique compiles'
  have distinct : ((outputs config compiled).map fun output => disk.place output.path).Nodup := by
    simp [outputs, apart]
  exact lookup_update_of_apart updated distinct mem

/-- No file holds both texts, so that two outputs with one file are never both settled. -/
theorem apart_of_settled (compiles : after.Compiles config compiled)
    (settled : ∀ output ∈ outputs config compiled,
      after.lookup output.path = .text output.content) :
    disk.place config.declarations ≠ disk.place config.validators := by
  intro shared
  obtain ⟨-, doc, -, -, built⟩ := compiles
  have declared := settled ⟨config.declarations, compiled.declarations.print⟩ (by simp [outputs])
  have validated := settled ⟨config.validators, compiled.validators.print⟩ (by simp [outputs])
  have same := lookup_generate_congr first shared
  rw [declared, validated, Lookup.text.injEq] at same
  exact declarations_ne_validators built same

/-- Two outputs with one file overwrite each other in every run. -/
theorem rewrites_of_shared (alike : disk.CompileAlike after config) (again : Bool)
    (shared : disk.place config.declarations = disk.place config.validators) :
    after.Rewrites config again := by
  obtain ⟨compiled, compiled', compiles, compiles', same⟩ := alike
  obtain ⟨other, compiles'', updated⟩ := generate_eq_ok_iff.1 first
  obtain rfl := compiles.unique compiles''
  rw [same] at updated
  obtain ⟨second, later, updated'⟩ :=
    exists_update again fun output mem => isText_update updated mem
  have ran := generate_eq_ok_iff.2 ⟨compiled', compiles', updated'⟩
  obtain ⟨reported, -⟩ := update_eq_ok_iff.mp updated'
  have changed : second.anyChanged := by
    by_contra idle
    refine apart_of_settled first compiles' (fun output mem => ?_) shared
    by_contra differs
    exact idle ((Output.anyChanged_iff reported).mpr ⟨output, mem, differs⟩)
  refine ⟨second, later, ran, changed, ?_⟩
  have still : after.place config.declarations = after.place config.validators := by
    have layout := (update_spec updated).1
    rw [layout.place, layout.place, shared]
  obtain ⟨output, mem, differs⟩ := (anyChanged_iff_lookup_ne updated').mp changed
  simp only [outputs, List.mem_cons, List.not_mem_nil, or_false] at mem
  rcases mem with rfl | rfl
  · exact differs
  · rwa [lookup_congr still, lookup_generate_congr ran still]

/-- A second run has nothing to do exactly if the two texts it makes are those of the first run
and both are there. -/
theorem idle_iff (again : Bool) :
    after.Idle config again ↔
      disk.place config.declarations ≠ disk.place config.validators ∧
        disk.CompileAlike after config := by
  obtain ⟨compiled, compiles, updated⟩ := generate_eq_ok_iff.1 first
  constructor
  · rintro ⟨second, ran, idle⟩
    obtain ⟨compiled', compiles', updated'⟩ := generate_eq_ok_iff.1 ran
    obtain ⟨reported, -⟩ := update_eq_ok_iff.mp updated'
    have settled : ∀ output ∈ outputs config compiled',
        after.lookup output.path = .text output.content := by
      intro output mem
      by_contra differs
      have changed := (Output.anyChanged_iff reported).mpr ⟨output, mem, differs⟩
      rw [idle] at changed
      cases changed
    have apart := apart_of_settled first compiles' settled
    have held : ∀ output ∈ outputs config compiled,
        after.lookup output.path = .text output.content :=
      fun output mem => lookup_output_of_apart first compiles apart mem
    refine ⟨apart, compiled, compiled', compiles, compiles', ?_⟩
    simp only [outputs, List.forall_mem_cons] at settled held ⊢
    have declared := held.1.symm.trans settled.1
    have validated := held.2.1.symm.trans settled.2.1
    rw [Lookup.text.inj declared, Lookup.text.inj validated]
  · rintro ⟨apart, other, compiled', compiles'', compiles', same⟩
    obtain rfl := compiles.unique compiles''
    obtain ⟨second, idle, unchanged⟩ := update_of_settled again fun output mem =>
      lookup_output_of_apart first compiles apart mem
    rw [same] at idle
    exact ⟨second, generate_eq_ok_iff.2 ⟨compiled', compiles', idle⟩, unchanged⟩

end

/-- After a run, a second one with the same config has nothing to do exactly if the two outputs
lead to different files and the schema still compiles to the same texts. So where the schema has
a file of its own, it has nothing to do if the outputs have two files, and writes again if they
share one. -/
theorem second_run_idle_iff (first : disk.generate config withDiff = .ok (report, after))
    (again : Bool) :
    (after.Idle config again ↔
      disk.place config.declarations ≠ disk.place config.validators ∧
        disk.CompileAlike after config) ∧
    (disk.place config.schema ≠ disk.place config.declarations →
      disk.place config.schema ≠ disk.place config.validators →
        (disk.place config.declarations ≠ disk.place config.validators →
          after.Idle config again) ∧
        (disk.place config.declarations = disk.place config.validators →
          after.Rewrites config again)) := by
  refine ⟨idle_iff first again, fun declarations validators => ?_⟩
  have kept := lookup_schema_of_apart first declarations validators
  have alike := compileAlike_of_kept first kept
  exact ⟨fun apart => (idle_iff first again).mpr ⟨apart, alike⟩,
    rewrites_of_shared first alike again⟩

def sizeSchema : String := "Size: {type: enum, literals: [small]}\n"

theorem sizeSchema_compiles : Succeeds (Compiled.ofSource sizeSchema "protocol.yml") := by
  decide +kernel

/-- A run on a disk with this schema and empty targets succeeds. -/
theorem succeeds_of_sizeSchema (named : config.schemaName = "protocol.yml")
    (found : disk.lookup config.schema = .text sizeSchema)
    (declarations : disk.lookup config.declarations = .text "")
    (validators : disk.lookup config.validators = .text "") :
    Succeeds (disk.generate config withDiff) := by
  obtain ⟨compiled, made⟩ := sizeSchema_compiles
  obtain ⟨doc, read, built⟩ := bind_eq_ok_iff.mp made
  rw [← named] at built
  refine succeeds_generate_iff.mpr
    ⟨⟨compiled, sizeSchema, doc, found, mapError_eq_ok_iff.mp read, built⟩, ?_⟩
  simp [Config.outputPaths, Lookup.IsText, declarations, validators]

/-- A disk with a schema and empty outputs in the usual places. -/
def usualDisk : Disk := ofFiles
  [(["protocol", "protocol.yml"], sizeSchema), (["src", "protocol", "channels.ts"], ""),
   (["src", "protocol", "validator.ts"], "")]

/-- With the usual paths a second run has nothing to do. -/
theorem usualDisk_settles :
    ∃ config report after, Config.load usualDisk.lookup "." = .ok config ∧
      usualDisk.generate config false = .ok (report, after) ∧ after.Idle config true := by
  have schema : usualDisk.place (Config.default ".").schema =
      .ok ["protocol", "protocol.yml"] := rfl
  have declarations : usualDisk.place (Config.default ".").declarations =
      .ok ["src", "protocol", "channels.ts"] := rfl
  have validators : usualDisk.place (Config.default ".").validators =
      .ok ["src", "protocol", "validator.ts"] := rfl
  obtain ⟨⟨report, after⟩, ran⟩ : Succeeds (usualDisk.generate (.default ".") false) :=
    succeeds_of_sizeSchema rfl rfl rfl rfl
  obtain ⟨settles, -⟩ := (second_run_idle_iff ran true).2
    (by rw [schema, declarations]; decide) (by rw [schema, validators]; decide)
  refine ⟨.default ".", report, after, rfl, ran, settles ?_⟩
  rw [declarations, validators]
  decide

/-- A config file that gives one file to both outputs. -/
def sharedPaths : String := "[paths]\ndeclarations = \"out.ts\"\nvalidators = \"out.ts\"\n"

def isSharedTable : Toml.Value → Bool
  | .table [⟨"declarations", .string "out.ts"⟩, ⟨"validators", .string "out.ts"⟩] => true
  | _ => false

theorem isSharedTable_sharedPaths :
    (Toml.read sharedPaths).map (fun entries => (Toml.lookup "paths" entries).map isSharedTable) =
      .ok (some true) := by
  decide +kernel

theorem ofValue_of_isSharedTable {value : Toml.Value} (shared : isSharedTable value) :
    Overrides.ofValue value =
      .ok { declarations := some "out.ts", validators := some "out.ts" } := by
  unfold isSharedTable at shared
  split at shared
  · -- The keys already stand in order.
    rw [Overrides.ofValue, List.mergeSort_of_pairwise (by simp)]
    rfl
  · cases shared

theorem overridesOf_sharedPaths : Config.overridesOf sharedPaths =
    .ok (some { declarations := some "out.ts", validators := some "out.ts" }) := by
  obtain ⟨entries, read, found⟩ := map_eq_ok_iff.mp isSharedTable_sharedPaths
  obtain ⟨value, found, shared⟩ := Option.map_eq_some_iff.mp found
  simp only [Config.overridesOf, read, found, ofValue_of_isSharedTable shared]

def sharedDisk : Disk := ofFiles
  [(["protogen.toml"], sharedPaths), (["protocol", "protocol.yml"], sizeSchema), (["out.ts"], "")]

def sharedConfig : Config where
  root := "."
  schema := "./protocol/protocol.yml"
  declarations := "./out.ts"
  validators := "./out.ts"

theorem load_sharedDisk : Config.load sharedDisk.lookup "." = .ok sharedConfig := by
  have found : sharedDisk.lookup (Config.filePath ".") = .text sharedPaths := rfl
  simp only [Config.load, Config.overridesUnder, found, Lookup.isThere, Lookup.read,
    overridesOf_sharedPaths]
  rfl

/-- With one file for both outputs the second run writes again, and is not idle. -/
theorem sharedDisk_rewritten :
    ∃ config report after, Config.load sharedDisk.lookup "." = .ok config ∧
      sharedDisk.generate config false = .ok (report, after) ∧
        after.Rewrites config false ∧ ¬ after.Idle config false := by
  have schema : sharedDisk.place sharedConfig.schema = .ok ["protocol", "protocol.yml"] := rfl
  have output : sharedDisk.place sharedConfig.declarations = .ok ["out.ts"] := rfl
  have shared : sharedDisk.place sharedConfig.declarations =
      sharedDisk.place sharedConfig.validators := rfl
  have apart : sharedDisk.place sharedConfig.schema ≠
      sharedDisk.place sharedConfig.declarations := by
    rw [schema, output]
    decide
  obtain ⟨⟨report, after⟩, ran⟩ : Succeeds (sharedDisk.generate sharedConfig false) :=
    succeeds_of_sizeSchema rfl rfl rfl rfl
  have kept := lookup_schema_of_apart ran apart (shared ▸ apart)
  refine ⟨sharedConfig, report, after, load_sharedDisk, ran, ?_, ?_⟩
  · exact rewrites_of_shared ran (compileAlike_of_kept ran kept) false shared
  · intro idle
    exact ((idle_iff ran false).mp idle).1 shared

end Disk

end ChannelProtocol.Project
