-- The declarations file of a document: a type for every channel, object and
-- enum, and the sets of traced commands.
import ChannelProtocol.Schema.Resolution
import ChannelProtocol.Schema.Lineage

namespace ChannelProtocol.Compiled

open Schema TypeScript

/-! ## Steps -/

/-- A named type, and what it was made from. -/
structure Declaration where
  definition : Definition
  origin : Origin

/-- A step towards a file: a declaration, or an item that declares no type. -/
inductive Step where
  | declare (new : Declaration)
  | layout (item : Item)

def Step.item : Step → Item
  | .declare new => .definition new.definition
  | .layout item => item

/-- The items of some steps, up to the first that fails or that declares a name which `known`
or an earlier step has. -/
def assemble (known : Table Origin) :
    List (Except (Stop Error) Step) → Except (Stop Error) (List Item)
  | [] => .ok []
  | .error error :: _ => .error error
  | .ok (.layout item) :: rest => (assemble known rest).map (item :: ·)
  | .ok (.declare new) :: rest =>
    match known.get? new.definition.name with
    | some first => .error (.fails (.nameCollision new.definition.name first new.origin))
    | none =>
      (assemble (known.insert new.definition.name new.origin) rest).map
        (.definition new.definition :: ·)

/-- A step that comes only after all others have succeeded. -/
def after {α : Type} (others : List (Except (Stop Error) α)) (step : Step) :
    Except (Stop Error) Step := do
  let _ ← others.mapM id
  return step

def declareAll : Except (Stop Error) (List Declaration) → List (Except (Stop Error) Step)
  | .ok declarations => declarations.map fun new => .ok (.declare new)
  | .error error => [.error error]

/-! ## Channels -/

def synonym (name : String) (ty : TypeScript.Ty) (origin : Origin) : Declaration :=
  ⟨{ name, body := .synonym ty }, origin⟩

def interface (name : String) (bases : List String) (members : List Member) (origin : Origin) :
    Declaration :=
  ⟨{ name, body := .interface bases members }, origin⟩

/-- The fields of a list that may be undeclared, which is then the same as empty. -/
def resolveDeclared (doc : Document) (location : Location) :
    Option (List Property) → Except (Stop Error) (List ResolvedField)
  | some properties => doc.resolve location properties
  | none => .ok []

def initializerDeclaration (doc : Document) (name : String) (channel : Channel) :
    Except (Stop Error) Declaration := do
  let fields ← doc.resolve (.member (.named name) "initializer") channel.initializer
  return synonym (initializerName name) (objectTs fields) (.initializer name)

def eventDeclarations (doc : Document) (channel : String) (entry : String × Event) :
    Except (Stop Error) (List Declaration) := do
  let (event, body) := entry
  let fields ← resolveDeclared doc (.member (.named channel) event) body.parameters
  return [synonym (eventName channel event) (objectTs fields) (.event channel event)]

def listener (channel event : String) : Member :=
  .method "on"
    [⟨"event", .literal event, false⟩,
     ⟨"callback",
      .function [⟨"params", .ref (eventName channel event), false⟩] (.keyword .void), false⟩]
    (.ref "this")

def anyEvent (channel : String) : List String → TypeScript.Ty
  | [] => .keyword .never
  | events => .union (events.map fun event => .ref (eventName channel event))

/-- The result of a command, which is `void` where nothing is declared. -/
def resultTy (doc : Document) (location : Location) :
    Option (List Property) → Except (Stop Error) TypeScript.Ty
  | some properties => (doc.resolve location properties).map objectTs
  | none => .ok (.keyword .void)

def commandDeclarations (doc : Document) (channel : String) (entry : String × Command) :
    Except (Stop Error) (List Declaration) := do
  let (command, body) := entry
  let location := Location.member (.named channel) command
  let fields ← resolveDeclared doc (.member location "parameters") body.parameters
  let result ← resultTy doc (.member location "returns") body.returns
  return [synonym (paramsName channel command) (objectTs fields) (.parameters channel command),
    synonym (optionsName channel command) (objectTs (optionalFields fields))
      (.options channel command),
    synonym (resultName channel command) result (.result channel command)]

def commandMethod (channel : String) (entry : String × Command) : Member :=
  let (command, body) := entry
  .method command
    [⟨"params", .ref (paramsName channel command), body.parameters.isNone⟩,
     ⟨"metadata", .ref "CallMetadata", true⟩]
    (.promise (.ref (resultName channel command)))

/-- The interface that a channel extends beside its event target. -/
def baseName (lineage : Lineage) (channel : String) : String :=
  match lineage.parent? channel with
  | some parent => channelTypeName parent
  | none => "Channel"

/-- The mark that tells a channel from others. -/
def kindMark (channel : String) : Member :=
  .property ⟨"_type_" ++ channel, .keyword .boolean, false⟩

/-- The steps of a channel: its initializer, its event target, its events and itself, then the
payloads of its events and its commands. -/
def channelSteps (doc : Document) (lineage : Lineage) (name : String) (channel : Channel) :
    List (Except (Stop Error) Step) :=
  let events := channel.events.entries.map (eventDeclarations doc name)
  let commands := channel.commands.entries.map (commandDeclarations doc name)
  let target := interface (eventTargetName name) [] (channel.events.names.map (listener name))
    (.eventTarget name)
  let union := synonym (eventsName name) (anyEvent name channel.events.names) (.events name)
  let self := interface (channelTypeName name) [eventTargetName name, baseName lineage name]
    (kindMark name :: channel.commands.entries.map (commandMethod name)) (.channel name)
  [.ok (.layout .blank),
   .ok (.layout (.comment ("----------- " ++ name ++ " -----------"))),
   (initializerDeclaration doc name channel).map .declare,
   after events (.declare target),
   .ok (.declare union),
   after commands (.declare self)]
    ++ events.flatMap declareAll ++ commands.flatMap declareAll

/-! ## Documents -/

/-- The steps of an entity. Mixins have none, because they are part of what splices them. -/
def entitySteps (doc : Document) (lineage : Lineage) :
    String × Entity → List (Except (Stop Error) Step)
  | (name, .channel channel) => channelSteps doc lineage name channel
  | (name, .object properties) =>
    [.ok (.layout .blank),
     (doc.resolve (.named name) properties).map fun fields =>
       .declare (synonym name (objectTs fields) (.object name))]
  | (name, .enum literals) =>
    [.ok (.layout .blank), .ok (.declare (synonym name (.literals literals) (.enum name)))]
  | (_, .mixin _) => []

/-- The types that every file declares. Binary payloads travel as text. -/
def preamble : List Step :=
  [.declare (synonym "Binary" (.keyword .string) .preamble), .layout .blank,
   .declare (interface "Channel" [] [] .preamble)]

/-- The type that belongs to the channel type `T`, by the last channel whose type `T` extends. -/
def projectionTy (typeName : String → String) (fallback : Keyword) (channels : List String) :
    TypeScript.Ty :=
  channels.foldl
    (fun rest channel =>
      .conditional (.ref "T") (.ref (channelTypeName channel)) (.ref (typeName channel)) rest)
    (.keyword fallback)

def projection (name : String) (typeName : String → String) (fallback : Keyword)
    (channels : List String) : Declaration :=
  ⟨⟨name, ["T"], .synonym (projectionTy typeName fallback channels)⟩, .projection name⟩

def projections (channels : List String) : List Step :=
  [.declare (projection "InitializerTraits" initializerName .object channels),
   .declare (projection "EventsTraits" eventsName .undefined channels),
   .declare (projection "EventTargetTraits" eventTargetName .undefined channels)]

def constSet (name : String) (texts : List String) : Step :=
  .layout (.statement (.const true name (.new (.ident "Set") [.array (texts.map .literal)])))

def tracedSets (doc : Document) (lineage : Lineage) : List Step :=
  [constSet "commandsWithTracingSnapshots" (snapshots doc lineage),
   constSet "pausesBeforeInputActions" (pauses doc lineage)]

def documentSteps (doc : Document) (lineage : Lineage) : List (Except (Stop Error) Step) :=
  preamble.map .ok ++ doc.entities.entries.flatMap (entitySteps doc lineage)
    ++ (.layout .blank :: projections (doc.channels.map Prod.fst)).map .ok
    ++ (.layout .blank :: tracedSets doc lineage).map .ok

def banner (schemaName : String) : List String :=
  ["This file is generated by protogen from " ++ schemaName ++ ", do not edit manually."]

def declarationsModule (doc : Document) (lineage : Lineage) (schemaName : String) :
    Except (Stop Error) Module := do
  let items ← assemble .empty (documentSteps doc lineage)
  return {
    banner := banner schemaName
    imports := [{ names := ["CallMetadata"], source := "./callMetadata", typeOnly := true }]
    items }

end ChannelProtocol.Compiled
