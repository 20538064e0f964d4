-- Compiling a document: the registry, the validators file that holds it, and
-- everything else that is made before any file is touched.
import ChannelProtocol.Compiled.Declarations
import ChannelProtocol.Registry
import ChannelProtocol.Schema.Reader

namespace ChannelProtocol.Compiled

open Schema TypeScript

/-! ## The registry -/

/-- The validator of a list. An undeclared one stands for an empty object that may be left out. -/
def declaredValidator (doc : Document) (location : Location) :
    Option (List Property) → Except (Stop Error) Validator
  | some properties => (doc.resolve location properties).map objectValidator
  | none => .ok (.optional (.object []))

def registerInitializer (doc : Document) (name : String) (channel : Channel) :
    Except (Stop Error) Registration := do
  let fields ← doc.resolve (.member (.named name) "initializer") channel.initializer
  return ⟨initializerName name, objectValidator fields, .initializer name⟩

def registerEvent (doc : Document) (channel : String) (entry : String × Event) :
    Except (Stop Error) Registration := do
  let (event, body) := entry
  let validator ← declaredValidator doc (.member (.named channel) event) body.parameters
  return ⟨eventName channel event, validator, .event channel event⟩

def registerCommand (doc : Document) (channel : String) (entry : String × Command) :
    List (Except (Stop Error) Registration) :=
  let (command, body) := entry
  let location := Location.member (.named channel) command
  [(declaredValidator doc (.member location "parameters") body.parameters).map fun validator =>
     ⟨paramsName channel command, validator, .parameters channel command⟩,
   (declaredValidator doc (.member location "returns") body.returns).map fun validator =>
     ⟨resultName channel command, validator, .result channel command⟩]

/-- The registrations for the commands that a channel takes over from its direct parent: their
parameters stand for those of the parent. -/
def registerInherited (doc : Document) (lineage : Lineage) (name : String) (channel : Channel) :
    List Registration :=
  match lineage.parent? name with
  | none => []
  | some parent =>
    match doc.channel? parent with
    | none => []
    | some definition =>
      (definition.commands.names.filter fun command => !channel.commands.contains command).map
        fun command => ⟨paramsName name command, .named (paramsName parent command),
          .inherited name parent command⟩

def entityRegistrations (doc : Document) (lineage : Lineage) :
    String × Entity → List (Except (Stop Error) Registration)
  | (name, .channel channel) =>
    registerInitializer doc name channel
      :: channel.events.entries.map (registerEvent doc name)
      ++ channel.commands.entries.flatMap (registerCommand doc name)
      ++ (registerInherited doc lineage name channel).map .ok
  | (name, .object properties) =>
    [(doc.resolve (.named name) properties).map fun fields =>
      ⟨name, objectValidator fields, .object name⟩]
  | (name, .enum literals) => [.ok ⟨name, .enum literals, .enum name⟩]
  | (_, .mixin _) => []

def documentRegistry (doc : Document) (lineage : Lineage) : Except (Stop Error) Registry :=
  Registry.empty.registerAll (doc.entities.entries.flatMap (entityRegistrations doc lineage))

/-! ## The file -/

/-- Where the building blocks of validators come from. -/
def primitivesFile : String := "./validatorPrimitives"

def validatorImports : List Import :=
  [{ names := ["scheme", "tOptional", "tObject", "tBoolean", "tNumber", "tString", "tUndefined",
       "tAny", "tEnum", "tArray", "tBinary", "tChannel", "tType"]
     source := primitivesFile },
   { names := ["Validator", "ValidatorContext"], source := primitivesFile, typeOnly := true,
     reExport := true },
   { names := ["ValidationError", "findValidator", "maybeFindValidator"], source := primitivesFile,
     reExport := true }]

def entryItem (entry : String × Registered) : Item :=
  .statement (.assign (.member (.ident "scheme") entry.1)
    (.verbatim (entry.2.validator.print 0)))

def validatorsModule (registry : Registry) (schemaName : String) : Module where
  banner := banner schemaName
  imports := validatorImports
  items := registry.entries.map entryItem

end ChannelProtocol.Compiled

namespace ChannelProtocol

/-! ## Documents -/

structure Compiled where
  declarations : TypeScript.Module
  validators : TypeScript.Module
  registry : Registry
  snapshots : List String
  pauses : List String

namespace Compiled

open Schema

def ofDocument (doc : Document) (schemaName : String) : Except (Stop Error) Compiled := do
  let lineage ← (Lineage.ofDocument doc).mapError .fails
  let declarations ← declarationsModule doc lineage schemaName
  let registry ← documentRegistry doc lineage
  return {
    declarations
    validators := validatorsModule registry schemaName
    registry
    snapshots := Schema.snapshots doc lineage
    pauses := Schema.pauses doc lineage }

def ofSource (source schemaName : String) : Except (Stop Error) Compiled := do
  let doc ← (Document.read source).mapError .fails
  ofDocument doc schemaName

end Compiled

end ChannelProtocol
