-- Where the files of a project are: the schema and the two generated files. A
-- config file in the root directory may say otherwise.
import ChannelProtocol.Project.Error
import ChannelProtocol.Toml.Reader

namespace ChannelProtocol.Project

structure Config where
  root : String
  schema : String
  declarations : String
  validators : String
  deriving DecidableEq, Repr

/-- Paths that take the place of the usual ones, relative to the root directory. -/
structure Overrides where
  schema : Option String := none
  declarations : Option String := none
  validators : Option String := none
  deriving DecidableEq, Repr

/-! ## Overrides -/

def pathOf (field : Option String) : Toml.Value → Except PathsProblem String
  | .string text | .dateTime text => .ok text
  | other => .error (.notPath other field)

def Overrides.add (overrides : Overrides) (entry : Toml.Entry) : Except PathsProblem Overrides :=
  if entry.key = "schema" then do
    return { overrides with schema := some (← pathOf (some entry.key) entry.value) }
  else if entry.key = "declarations" then do
    return { overrides with declarations := some (← pathOf (some entry.key) entry.value) }
  else if entry.key = "validators" then do
    return { overrides with validators := some (← pathOf (some entry.key) entry.value) }
  else .error (.unknownField entry.key)

/-- The overrides of a list of three paths. -/
def Overrides.ofItems (items : List Toml.Value) : Except PathsProblem Overrides := do
  let paths ← (items.take 3).mapM (pathOf none)
  match paths with
  | [schema, declarations, validators] =>
    if 3 < items.length then .error (.tooLong items.length)
    else return ⟨some schema, some declarations, some validators⟩
  | _ => .error (.tooShort items.length)

/-- The overrides that the `paths` of a config file list. The entries of a table are taken in
the order of their keys. -/
def Overrides.ofValue : Toml.Value → Except PathsProblem Overrides
  | .table entries =>
    (entries.mergeSort fun a b => decide (a.key ≤ b.key)).foldlM Overrides.add {}
  | .array items => Overrides.ofItems items
  | other => .error (.notPaths other)

/-! ## Configs -/

namespace Config

def default (root : String) : Config where
  root := root
  schema := join root "protocol/protocol.yml"
  declarations := join root "src/protocol/channels.ts"
  validators := join root "src/protocol/validator.ts"

def filePath (root : String) : String := join root "protogen.toml"

def override (config : Config) (overrides : Overrides) : Config where
  root := config.root
  schema := (overrides.schema.map (join config.root)).getD config.schema
  declarations := (overrides.declarations.map (join config.root)).getD config.declarations
  validators := (overrides.validators.map (join config.root)).getD config.validators

/-- The overrides in the text of a config file, or nothing where it has no `paths`. -/
def overridesOf (source : String) : Except ConfigProblem (Option Overrides) :=
  match Toml.read source with
  | .error cause => .error (.syntaxError cause)
  | .ok entries =>
    match Toml.lookup "paths" entries with
    | none => .ok none
    | some paths =>
      match Overrides.ofValue paths with
      | .ok overrides => .ok (some overrides)
      | .error problem => .error (.paths problem)

/-- The overrides of a root directory, or nothing where there is no config file or no `paths`
in it. -/
def overridesUnder (view : String → Lookup) (root : String) : Except Error (Option Overrides) :=
  let path := filePath root
  let found := view path
  if found.isThere then
    match found.read with
    | .error cause => .error (.unreadable path cause)
    | .ok source =>
      match overridesOf source with
      | .ok overrides => .ok overrides
      | .error problem => .error (.config path problem)
  else .ok none

def load (view : String → Lookup) (root : String) : Except Error Config :=
  (overridesUnder view root).map fun overrides => (default root).override (overrides.getD {})

def schemaName (config : Config) : String := displayName config.schema

end Config

end ChannelProtocol.Project
