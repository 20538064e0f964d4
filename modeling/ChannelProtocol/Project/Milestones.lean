-- The records of a run, in order: what it has got to before it ends or fails.
import ChannelProtocol.Project.Generate
import ChannelProtocol.Project.Log

namespace ChannelProtocol.Project

open Schema (Document Lineage)

def compileRecords (doc : Document) (schemaName : String) : List Record :=
  match Lineage.ofDocument doc with
  | .error _ => []
  | .ok lineage =>
    ⟨.debug, "protogen_core::metadata", "Collected command metadata."⟩
      :: match Compiled.declarationsModule doc lineage schemaName with
        | .error _ => []
        | .ok _ =>
          ⟨.debug, "protogen_core::emit::declarations", "Built declaration module."⟩
            :: match Compiled.documentRegistry doc lineage with
              | .error _ => []
              | .ok _ =>
                [⟨.debug, "protogen_core::emit::validators", "Built validator registry."⟩,
                 ⟨.debug, "protogen_core::generator", "Compiled schema."⟩]

def fileRecord (file : FileReport) : Record :=
  if file.changed then ⟨.info, "protogen_core::writer", "Wrote generated file."⟩
  else ⟨.debug, "protogen_core::writer", "Generated file is up to date."⟩

def writeRecords : Except (Stop Error) Report → List Record
  | .error _ => []
  | .ok report =>
    report.files.map fileRecord ++ [⟨.info, "protogen_core::generator", "Generation finished."⟩]

/-- The records of reading a schema. An empty one is not worth a record. -/
def schemaRecords (source : String) : List Record :=
  match Yaml.read source with
  | .ok .null => []
  | _ => [⟨.debug, "protogen_core::schema::parse", "Parsed schema document."⟩]

def generateRecords (view : String → Lookup) (config : Config) : List Record :=
  match (view config.schema).read with
  | .error _ => []
  | .ok source =>
    match Document.read source with
    | .error _ => []
    | .ok doc =>
      schemaRecords source
        ++ [⟨.info, "protogen_core::generator", "Generating protocol sources."⟩]
        ++ compileRecords doc config.schemaName ++ writeRecords (generate view config false)

def configRecords (view : String → Lookup) (root : String) : List Record :=
  match Config.overridesUnder view root with
  | .error _ => []
  | .ok overrides =>
    (if overrides.isSome then
      [⟨.debug, "protogen_core::config", "Loaded generator config."⟩]
     else [])
      ++ [⟨.debug, "protogen", "Resolved generator config."⟩]

end ChannelProtocol.Project
