-- The program itself: it reads and writes files, and leaves everything else to
-- the library.
import ChannelProtocol.CommandLine

namespace ChannelProtocol

open CommandLine Project

def lookupFile (path : String) : IO Lookup := do
  try
    let bytes ← IO.FS.readBinFile path
    match String.fromUTF8? bytes with
    | some content => return .text content
    | none => return .binary
  catch
    | .noFileOrDirectory .. => return .missing
    | error => return if error.toString.contains "not a directory" then .blocked else .directory

def viewOf (paths : List String) : IO (String → Lookup) := do
  let found ← paths.mapM fun path => do return (path, ← lookupFile path)
  return fun path => (found.lookup path).getD .missing

def runWith (arguments : Arguments) : IO UInt32 := do
  let filter := match ← IO.getEnv "PROTOGEN_LOG" with
    | some source => filterOf source
    | none => ownDirectives Level.info.rank
  let root := rootOf arguments (← IO.currentDir).toString
  let configView ← viewOf [Config.filePath root]
  let config := Config.load configView root
  let paths := match config with
    | .ok config => [config.schema, config.declarations, config.validators]
    | .error _ => []
  let view ← viewOf paths
  let report := (config.mapError Stop.fails).bind fun config => generate view config arguments.diff
  let records := configRecords configView root ++ match config with
    | .ok config => generateRecords view config
    | .error _ => []
  for record in records.filter (allows filter) do
    IO.eprintln (record.level.name ++ " " ++ record.target ++ ": " ++ record.message)
  if let .ok report := report then
    for output in report.written do
      IO.FS.writeFile output.path output.content
  match ending report with
  | some finished =>
    IO.print finished.output
    IO.eprint finished.errors
    return finished.exit.toUInt32
  -- The status of a program that has run out of its stack.
  | none => return 134

end ChannelProtocol

open ChannelProtocol CommandLine in
def main (arguments : List String) : IO UInt32 := do
  match request {} arguments with
  | .run arguments => runWith arguments
  | .version => IO.print versionText; return 0
  | .help => IO.print helpText; return 0
  | .usageError => IO.eprint usageText; return 2
