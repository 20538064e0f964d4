-- The program as it is called: what it prints, and how it ends. The exit status
-- is 0 when the generated files were up to date, 1 when some were written, and
-- 2 when the run failed.
import ChannelProtocol.CommandLine.Arguments
import ChannelProtocol.Project.Generate
import ChannelProtocol.Project.Milestones

namespace ChannelProtocol.CommandLine

open Project

structure Ending where
  exit : Nat
  output : String
  errors : String
  deriving DecidableEq, Repr

def versionText : String := "protogen 0.1.0\n"

def helpText : String :=
  "Generate channel declarations and validators from a protocol schema\n\n"
    ++ "Usage: protogen [OPTIONS]\n\nOptions:\n"
    ++ "      --root <DIR>  Project root containing the schema. "
    ++ "Defaults to current working directory\n"
    ++ "      --diff        Print a unified diff for every rewritten file\n"
    ++ "  -h, --help        Print help\n"
    ++ "  -V, --version     Print version\n"

/-- The text for arguments that make no sense. -/
def usageText : String :=
  "error: invalid arguments\n\nUsage: protogen [OPTIONS]\n\n"
    ++ "For more information, try '--help'.\n"

/-- The line for a changed file, and its diff. -/
def fileText (file : FileReport) : String :=
  "📝 Updated " ++ file.output.path ++ "\n" ++ file.diff.getD ""

def reportText (report : Report) : String :=
  if report.anyChanged then String.join ((report.files.filter FileReport.changed).map fileText)
  else "✅ Generated protocol sources are up to date\n"

/-- How a run ends that reports something or fails. One without an end has no ending. -/
def ending : Except (Stop Error) Report → Option Ending
  | .ok report => some ⟨if report.anyChanged then 1 else 0, reportText report, ""⟩
  | .error (.fails error) => some ⟨2, "", "❌ " ++ error.message ++ "\n"⟩
  | .error .endless => none

def rootOf (arguments : Arguments) (currentDirectory : String) : String :=
  arguments.root.getD currentDirectory

/-- A run on a disk: what it reports, and the disk after it. -/
def execute (disk : Disk) (currentDirectory : String) (arguments : Arguments) :
    Except (Stop Error) Report × Disk :=
  let outcome := do
    let config ← (Config.load disk.lookup (rootOf arguments currentDirectory)).mapError Stop.fails
    disk.generate config arguments.diff
  match outcome with
  | .ok (report, disk) => (.ok report, disk)
  | .error stop => (.error stop, disk)

def records (disk : Disk) (currentDirectory : String) (arguments : Arguments) : List Record :=
  let root := rootOf arguments currentDirectory
  configRecords disk.lookup root
    ++ match Config.load disk.lookup root with
      | .ok config => generateRecords disk.lookup config
      | .error _ => []

end ChannelProtocol.CommandLine
