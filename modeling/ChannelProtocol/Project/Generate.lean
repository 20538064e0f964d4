-- A whole run: the schema is read and compiled, and the two generated files are
-- written where they differ. All targets are looked at before the first is written.
import ChannelProtocol.Diff.Unified
import ChannelProtocol.Project.Error
import ChannelProtocol.Compiled
import ChannelProtocol.Project.Config

namespace ChannelProtocol.Project

/-! ## Outputs -/

/-- A text that is to be written to a path. -/
structure Output where
  path : String
  content : String
  deriving DecidableEq, Repr

structure FileReport where
  output : Output
  changed : Bool
  diff : Option String
  deriving DecidableEq, Repr

structure Report where
  files : List FileReport
  deriving DecidableEq, Repr

namespace Output

/-- The text that the target of an output holds. -/
def existing (view : String → Lookup) (output : Output) : Except Error String :=
  let found := view output.path
  if found.isThere then
    match found.read with
    | .ok content => .ok content
    | .error cause => .error (.unreadable output.path cause)
  else .error (.missingTarget output.path)

/-- The report on an output whose target holds the text `current`. -/
def report (withDiff : Bool) (output : Output) (current : String) : FileReport where
  output := output
  changed := current != output.content
  diff :=
    if current != output.content && withDiff then
      some (Diff.unified output.path current output.content)
    else none

/-- The reports on some outputs. All targets are read before the first is written. -/
def reportAll (view : String → Lookup) (withDiff : Bool) (outputs : List Output) :
    Except Error Report := do
  let current ← outputs.mapM (existing view)
  return ⟨List.zipWith (report withDiff) outputs current⟩

end Output

namespace Report

def anyChanged (report : Report) : Bool := report.files.any FileReport.changed

def written (report : Report) : List Output :=
  (report.files.filter FileReport.changed).map FileReport.output

end Report

namespace Disk

def writeAll (disk : Disk) (outputs : List Output) : Disk :=
  outputs.foldl (fun disk output => disk.write output.path output.content) disk

/-- Writes some outputs where they differ. -/
def update (disk : Disk) (withDiff : Bool) (outputs : List Output) :
    Except Error (Report × Disk) := do
  let report ← Output.reportAll disk.lookup withDiff outputs
  return (report, disk.writeAll report.written)

end Disk

/-! ## Runs -/

def readSchema (view : String → Lookup) (config : Config) : Except Error Schema.Document :=
  match (view config.schema).read with
  | .error cause => .error (.unreadableSchema config.schema cause)
  | .ok source =>
    match Schema.Document.read source with
    | .ok doc => .ok doc
    | .error cause => .error (.schema config.schema cause)

def outputs (config : Config) (compiled : Compiled) : List Output :=
  [⟨config.declarations, compiled.declarations.print⟩,
   ⟨config.validators, compiled.validators.print⟩]

def generate (view : String → Lookup) (config : Config) (withDiff : Bool) :
    Except (Stop Error) Report := do
  let doc ← (readSchema view config).mapError .fails
  let compiled ← (Compiled.ofDocument doc config.schemaName).mapError
    (Stop.map (Error.schema config.schema))
  (Output.reportAll view withDiff (outputs config compiled)).mapError .fails

def Disk.generate (disk : Disk) (config : Config) (withDiff : Bool) :
    Except (Stop Error) (Report × Disk) := do
  let report ← Project.generate disk.lookup config withDiff
  return (report, disk.writeAll report.written)

end ChannelProtocol.Project
