-- What the exit status tells: 2 that the run failed and nothing was written, 1
-- that an output now holds something else, 0 that the disk is as it was. A run
-- that never comes to an end has no exit status, and writes nothing.
import ChannelProtocol.CommandLine
import ChannelProtocol.Proofs.Compiled.Agreement
import ChannelProtocol.Proofs.Project.Batches
import ChannelProtocol.Proofs.Project.Runs
import ChannelProtocol.Proofs.Schema.Depth
import ChannelProtocol.Proofs.Schema.Faults

namespace ChannelProtocol.CommandLine

open Project Schema

variable {disk : Disk} {root currentDirectory : String} {arguments : Arguments} {withDiff : Bool}

/-! ## A run as a program -/

/-- The ways in which a run can fail. Each of them is about the disk as it is found. -/
inductive Fails (disk : Disk) (root : String) : Prop
  | config {error : Project.Error} (failed : Config.load disk.lookup root = .error error)
  | schema {config : Config} (loaded : Config.load disk.lookup root = .ok config)
      (unread : ¬ (disk.lookup config.schema).IsText)
  | parse {config : Config} {source : String} {error : Schema.Error}
      (loaded : Config.load disk.lookup root = .ok config)
      (found : disk.lookup config.schema = .text source)
      (failed : Document.read source = .error error)
  | compile {config : Config} {source : String} {doc : Document} {error : Schema.Error}
      (loaded : Config.load disk.lookup root = .ok config)
      (found : disk.lookup config.schema = .text source) (read : Document.read source = .ok doc)
      (failed : Compiled.ofDocument doc config.schemaName = .error (.fails error))
  | target {config : Config} {compiled : Compiled} {path : String}
      (loaded : Config.load disk.lookup root = .ok config)
      (compiles : disk.Compiles config compiled) (mem : path ∈ config.outputPaths)
      (unread : ¬ (disk.lookup path).IsText)

/-- The schema of a run is read, but neither compiled nor refused. -/
def Unending (disk : Disk) (root : String) : Prop :=
  ∃ config source doc, Config.load disk.lookup root = .ok config ∧
    disk.lookup config.schema = .text source ∧ Document.read source = .ok doc ∧
    Compiled.ofDocument doc config.schemaName = .error .endless

/-- Once the schema is read, a run fails only in compiling it or for an output. -/
theorem Fails.of_read (failure : Fails disk root) {config : Config} {source : String}
    {doc : Document} (loaded : Config.load disk.lookup root = .ok config)
    (found : disk.lookup config.schema = .text source) (read : Document.read source = .ok doc) :
    (∃ error, Compiled.ofDocument doc config.schemaName = .error (.fails error)) ∨
    Succeeds (Compiled.ofDocument doc config.schemaName) ∧
      ∃ path ∈ config.outputPaths, ¬ (disk.lookup path).IsText := by
  cases failure with
  | config failed => simp_all
  | schema loaded' unread => simp_all [Lookup.IsText]
  | parse loaded' found' failed => simp_all
  | compile loaded' found' read' failed => simp_all
  | target loaded' compiles mem unread =>
    obtain ⟨source', doc', found', read', built⟩ := compiles
    simp_all only [Except.ok.injEq, Lookup.text.injEq]
    exact .inr ⟨succeeds_ok _, _, mem, unread⟩

theorem Fails.not_unending (failure : Fails disk root) : ¬ Unending disk root := by
  rintro ⟨config, source, doc, loaded, found, read, endless⟩
  rcases failure.of_read loaded found read with ⟨error, failed⟩ | ⟨⟨compiled, built⟩, -⟩
  · simp [endless] at failed
  · simp [endless] at built

theorem not_fails_of_generate {config : Config} (loaded : Config.load disk.lookup root = .ok config)
    (ran : Succeeds (disk.generate config withDiff)) :
    ¬ Fails disk root ∧ ¬ Unending disk root := by
  obtain ⟨⟨compiled, source, doc, found, read, built⟩, readable⟩ :=
    Disk.succeeds_generate_iff.mp ran
  constructor
  · intro failure
    rcases failure.of_read loaded found read with ⟨error, failed⟩ | ⟨-, path, mem, unread⟩
    · simp [built] at failed
    · exact unread (readable path mem)
  · rintro ⟨config', source', doc', loaded', found', read', endless⟩
    simp_all

theorem fails_of_readSchema {config : Config} {error : Project.Error}
    (loaded : Config.load disk.lookup root = .ok config)
    (failed : readSchema disk.lookup config = .error error) : Fails disk root := by
  by_cases text : (disk.lookup config.schema).IsText
  · obtain ⟨source, found⟩ := text
    cases read : Document.read source with
    | error error => exact .parse loaded found read
    | ok doc =>
      rw [readSchema_eq_ok_iff.mpr ⟨source, found, read⟩] at failed
      cases failed
  · exact .schema loaded text

theorem fails_of_reportAll {config : Config} {compiled : Compiled} {error : Project.Error}
    (loaded : Config.load disk.lookup root = .ok config) (compiles : disk.Compiles config compiled)
    (failed : Output.reportAll disk.lookup withDiff (outputs config compiled) = .error error) :
    Fails disk root := by
  by_contra sound
  have readable : ∀ output ∈ outputs config compiled, (disk.lookup output.path).IsText := by
    intro output mem
    by_contra unread
    have listed : output.path ∈ config.outputPaths :=
      map_path_outputs config compiled ▸ List.mem_map_of_mem mem
    exact sound (.target loaded compiles listed unread)
  obtain ⟨report, after, updated⟩ := Disk.exists_update withDiff readable
  rw [(Disk.update_eq_ok_iff.mp updated).1] at failed
  cases failed

/-- What stops a run after its config is loaded. -/
theorem stops_of_generate {config : Config} (loaded : Config.load disk.lookup root = .ok config)
    {stop : Stop Project.Error} (stopped : disk.generate config withDiff = .error stop) :
    (stop = .endless ∧ Unending disk root) ∨ ∃ error, stop = .fails error ∧ Fails disk root := by
  rcases bind_eq_error_iff.mp stopped with stopped | ⟨report, -, stopped⟩
  · rcases bind_eq_error_iff.mp stopped with unread | ⟨doc, read, stopped⟩
    · obtain ⟨error, failed, rfl⟩ := mapError_eq_error_iff.mp unread
      exact .inr ⟨error, rfl, fails_of_readSchema loaded failed⟩
    · obtain ⟨source, found, read⟩ := readSchema_eq_ok_iff.mp (mapError_eq_ok_iff.mp read)
      rcases bind_eq_error_iff.mp stopped with uncompiled | ⟨compiled, built, unreported⟩
      · obtain ⟨cause, failed, rfl⟩ := mapError_eq_error_iff.mp uncompiled
        cases cause with
        | fails error => exact .inr ⟨_, rfl, .compile loaded found read failed⟩
        | endless => exact .inl ⟨rfl, config, source, doc, loaded, found, read, failed⟩
      · obtain ⟨error, failed, rfl⟩ := mapError_eq_error_iff.mp unreported
        have compiles : disk.Compiles config compiled :=
          ⟨source, doc, found, read, mapError_eq_ok_iff.mp built⟩
        exact .inr ⟨error, rfl, fails_of_reportAll loaded compiles failed⟩
  · cases stopped

/-! ## How a run ends -/

/-- A run fails or never ends, and leaves the disk alone, or it does what its config asks for. -/
theorem execute_cases (disk : Disk) (currentDirectory : String) (arguments : Arguments) :
    (∃ error, execute disk currentDirectory arguments = (.error (.fails error), disk) ∧
      Fails disk (rootOf arguments currentDirectory)) ∨
    (execute disk currentDirectory arguments = (.error .endless, disk) ∧
      Unending disk (rootOf arguments currentDirectory)) ∨
    ∃ config report after, execute disk currentDirectory arguments = (.ok report, after) ∧
      Config.load disk.lookup (rootOf arguments currentDirectory) = .ok config ∧
      disk.generate config arguments.diff = .ok (report, after) := by
  unfold execute
  cases loaded : Config.load disk.lookup (rootOf arguments currentDirectory) with
  | error error => exact .inl ⟨error, rfl, .config loaded⟩
  | ok config =>
    simp only [mapError_ok, bind, Except.bind]
    cases ran : disk.generate config arguments.diff with
    | ok run => exact .inr (.inr ⟨config, run.1, run.2, rfl, rfl, ran⟩)
    | error stop =>
      rcases stops_of_generate loaded ran with ⟨rfl, unending⟩ | ⟨error, rfl, failure⟩
      · exact .inr (.inl ⟨rfl, unending⟩)
      · exact .inl ⟨error, rfl, failure⟩

theorem execute_of_unending
    (unending : Unending disk (rootOf arguments currentDirectory)) :
    execute disk currentDirectory arguments = (.error .endless, disk) := by
  rcases execute_cases disk currentDirectory arguments with
    ⟨error, -, failure⟩ | ⟨ran, -⟩ | ⟨config, report, after, -, loaded, generated⟩
  · exact absurd unending failure.not_unending
  · exact ran
  · exact absurd unending (not_fails_of_generate loaded ⟨_, generated⟩).2

/-- A declared list of the schema needs more room than there can be: some mixin comes back to
itself through an inline object. -/
theorem Unending.bottomless (unending : Unending disk root) :
    ∃ config doc, Config.load disk.lookup root = .ok config ∧
      readSchema disk.lookup config = .ok doc ∧ (∃ mixin, doc.Endless mixin) ∧
      ∃ name location list, doc.Surface name location list ∧ doc.Bottomless list := by
  obtain ⟨config, source, doc, loaded, found, read, endless⟩ := unending
  obtain ⟨name, location, list, surface, endless⟩ := Compiled.hasEndless_of_ofDocument endless
  refine ⟨config, doc, loaded, readSchema_eq_ok_iff.mpr ⟨source, found, read⟩, ?_,
    name, location, list, surface, ?_⟩
  · by_contra finite
    obtain ⟨error, fails, -⟩ := (Document.fails_of_resolve (not_exists.mp finite)).2 [] location
      list (Document.clear_nil doc list) _ endless
    cases fails
  · exact (Document.resolve_limit doc location list).2.2.mp endless

/-- A tree, whose root and children are the same mixin. -/
def treeSchema : String :=
  "Tree: {type: mixin, properties: {child: {type: object, properties: {$mixin: Tree}}}}\n"
    ++ "Root: {type: object, properties: {$mixin: Tree}}\n"

def treeDocument : Document where
  entities := {
    entries := [
      ("Tree", .mixin [.field "child" ⟨.object [.splice "Tree"], false⟩]),
      ("Root", .object [.splice "Tree"])]
    distinct := by decide }

def isTree (doc : Document) : Bool :=
  match doc.entities.entries with
  | [("Tree", .mixin [.field "child" ⟨.object [.splice "Tree"], false⟩]),
      ("Root", .object [.splice "Tree"])] => true
  | _ => false

theorem isTree_treeSchema : (Document.read treeSchema).map isTree = .ok true := by
  decide +kernel

theorem read_treeSchema : Document.read treeSchema = .ok treeDocument := by
  obtain ⟨⟨⟨entries, distinct⟩⟩, read, tree⟩ := map_eq_ok_iff.mp isTree_treeSchema
  unfold isTree at tree
  split at tree
  · rename_i same
    subst same
    exact read
  · cases tree

theorem treeDocument_never_compiles (schemaName : String) :
    Compiled.ofDocument treeDocument schemaName = .error .endless := by
  have inlines : treeDocument.Inlines [.splice "Tree"]
      [("child", ⟨.object [.splice "Tree"], false⟩)] := .splice rfl (.field .nil) .nil
  have again : treeDocument.GetsTo [.splice "Tree"] [.splice "Tree"] :=
    ⟨[], _, [], inlines, by simp, rfl⟩
  have endless (location : Location) :
      treeDocument.resolve location [.splice "Tree"] = .error .endless :=
    (Document.resolve_limit treeDocument location _).2.2.mpr
      (Document.bottomless_of_cycle (.single again))
  have steps (lineage : Lineage) : Compiled.entitySteps treeDocument lineage
      ("Root", .object [.splice "Tree"]) = [.ok (.layout .blank), .error .endless] := by
    rw [Compiled.entitySteps, endless]
    rfl
  have declared (lineage : Lineage) :
      Compiled.declarationsModule treeDocument lineage schemaName = .error .endless := by
    have entities : treeDocument.entities.entries.flatMap
        (Compiled.entitySteps treeDocument lineage) = [.ok (.layout .blank), .error .endless] := by
      simp only [treeDocument, List.flatMap_cons, List.flatMap_nil, List.append_nil]
      exact steps lineage
    unfold Compiled.declarationsModule Compiled.documentSteps
    rw [entities]
    rfl
  have ancestry : Lineage.ofDocument treeDocument = .ok ⟨treeDocument.parentLinks⟩ := rfl
  unfold Compiled.ofDocument
  rw [ancestry, mapError_ok]
  change Compiled.declarationsModule _ _ _ >>= _ = _
  rw [declared]
  rfl

/-- The tree in the usual place, with empty outputs. -/
def treeDisk : Disk := .ofFiles
  [(["protocol", "protocol.yml"], treeSchema), (["src", "protocol", "channels.ts"], ""),
   (["src", "protocol", "validator.ts"], "")]

/-- A run on the tree has no exit status. -/
theorem treeDisk_never_ends : ending (execute treeDisk "." {}).1 = none := by
  have unending : Unending treeDisk (rootOf {} ".") :=
    ⟨.default ".", treeSchema, treeDocument, rfl, rfl, read_treeSchema,
      treeDocument_never_compiles _⟩
  rw [execute_of_unending unending]
  rfl

end ChannelProtocol.CommandLine
