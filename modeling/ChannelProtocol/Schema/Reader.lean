-- From YAML values to schema documents. Every entry that cannot be read is
-- reported with its place and the value that was found there.
import ChannelProtocol.Schema.Document
import ChannelProtocol.Schema.Error
import ChannelProtocol.Text.Unseen
import ChannelProtocol.TypeScript.Name
import ChannelProtocol.Yaml.Value.Loader

namespace ChannelProtocol.Schema

open Yaml (Value Entry)

/-! ## Words -/

/-- A word without the question mark that makes it optional, and whether it had one. -/
def splitOptional (word : String) : String × Bool :=
  match Text.dropLast? '?' word with
  | some base => (base, true)
  | none => (word, false)

/-- What a type's name stands for, given the names of the channels. -/
def shapeOfWord (channels : List String) (word : String) : Shape :=
  if word = "string" then .string
  else if word = "boolean" then .boolean
  else if word = "number" then .number
  else if word = "undefined" then .undefined
  else if word = "binary" then .binary
  else if word = "any" ∨ word = "json" then .any
  else if word = "Channel" then .anyChannel
  else if word ∈ channels then .channel word
  else .reference word

/-- The type of a word. White space around it does not count. -/
def tyOfWord (channels : List String) (word : String) : Ty :=
  let (base, optional) := splitOptional (Text.trim word)
  ⟨shapeOfWord channels base, optional⟩

/-- Keys that start with this word splice a mixin. -/
def spliceMark : String := "$mixin"

def isSpliceKey (name : String) : Bool := spliceMark.toList.isPrefixOf name.toList

def keyText (location : Location) (key : Value) : Except Error String :=
  match key.asString? with
  | some text => .ok text
  | none => .error (.unsupportedShape location .keyNotString key)

/-- Whether a key is the untagged string of this text. -/
def isKey (name : String) : Value → Bool
  | .string text => text == name
  | _ => false

/-! ## Enums -/

def literalText (location : Location) : Value → Except Error String
  | .string text => .ok text
  | .bool b => .ok (if b then "true" else "false")
  | .number n => .ok n.text
  | other => .error (.unsupportedShape location .literalNotScalar other)

/-- The texts of the literals of `owner`, none of which may be empty. -/
def literalTexts (location : Location) (owner : Value) : List Value → Except Error (List String)
  | [] => .ok []
  | item :: rest => do
    let text ← literalText location item
    if text = "" then .error (.unsupportedShape location .literalEmpty owner)
    else return text :: (← literalTexts location owner rest)

def readLiterals (location : Location) (owner : Value) (entries : List Entry) :
    Except Error (List String) :=
  match Yaml.lookup "literals" entries with
  | some (.sequence items) => literalTexts location owner items
  | _ => .error (.unsupportedShape location .literalsNotSequence owner)

/-! ## Types and property lists -/

def typeWord? (entries : List Entry) : Option String :=
  (Yaml.lookup "type" entries).bind Value.asString?

mutual

def readTy (channels : List String) (location : Location) : Value → Except Error Ty
  | .string word => .ok (tyOfWord channels word)
  | .mapping entries =>
    match typeWord? entries with
    | none => .error (.unsupportedShape location .compoundWithoutType (.mapping entries))
    | some word =>
      let (kind, optional) := splitOptional word
      if kind = "array" then
        match readElement channels location entries with
        | some (.ok element) => .ok ⟨.array element, optional⟩
        | some (.error error) => .error error
        | none => .error (.unsupportedShape location .arrayWithoutItems (.mapping entries))
      else if kind = "enum" then
        (readLiterals location (.mapping entries) entries).map fun texts =>
          ⟨.literals texts, optional⟩
      else if kind = "object" then
        (readInline channels location entries).map fun properties =>
          ⟨.object properties, optional⟩
      else .error (.unsupportedShape location (.unknownCompoundType kind) (.mapping entries))
  | other => .error (.unsupportedShape location .notType other)

def readElement (channels : List String) (location : Location) :
    List Entry → Option (Except Error Ty)
  | [] => none
  | ⟨key, value⟩ :: rest =>
    if isKey "items" key then some (readTy channels (.element location) value)
    else readElement channels location rest

def readInline (channels : List String) (location : Location) :
    List Entry → Except Error (List Property)
  | [] => .ok []
  | ⟨key, value⟩ :: rest =>
    if isKey "properties" key then
      (readSection channels location value).map fun section? => section?.getD []
    else readInline channels location rest

/-- The property list of a section, or nothing where it is empty. -/
def readSection (channels : List String) (location : Location) :
    Value → Except Error (Option (List Property))
  | .null => .ok none
  | .mapping entries => (readProperties channels location entries).map some
  | other => .error (.unsupportedShape location .notMapping other)

def readProperties (channels : List String) (location : Location) :
    List Entry → Except Error (List Property)
  | [] => .ok []
  | ⟨key, value⟩ :: rest =>
    match keyText location key with
    | .error error => .error error
    | .ok name =>
      let head :=
        if isSpliceKey name then
          match value.asString? with
          | some mixin => .ok (.splice mixin)
          | none => .error (.unsupportedShape (.member location name) .spliceNotName value)
        else (readTy channels (.member location name) value).map (Property.field name)
      match head with
      | .error error => .error error
      | .ok property => (readProperties channels location rest).map (property :: ·)

end

/-- The property list under a name, or nothing where it is not declared. -/
def readNamedSection (channels : List String) (location : Location) (name : String)
    (entries : List Entry) : Except Error (Option (List Property)) :=
  match Yaml.lookup name entries with
  | none => .ok none
  | some value => readSection channels location value

/-! ## Members of channels -/

/-- The entries of a section that is absent, null or a mapping. -/
def sectionEntries (location : Location) : Option Value → Except Error (Option (List Entry))
  | none | some .null => .ok none
  | some (.mapping entries) => .ok (some entries)
  | some other => .error (.unsupportedShape location .notMapping other)

/-- The name of a command or an event. It becomes the name of a method. -/
def memberName (location : Location) (key : Value) : Except Error String := do
  let name ← keyText location key
  if TypeScript.isIdentifier name then return name
  else .error (.unsupportedShape (.member location name) .memberNotIdentifier key)

/-- A flag that is false unless it says otherwise. -/
def readFlag (location : Location) (name : String) (entries : List Entry) : Except Error Bool :=
  match Yaml.lookup name entries with
  | none | some .null => .ok false
  | some (.bool flag) => .ok flag
  | some other => .error (.unsupportedShape (.member location name) .flagNotBoolean other)

def readTracing (location : Location) (value : Option Value) : Except Error Tracing := do
  match ← sectionEntries location value with
  | none => return {}
  | some entries =>
    let snapshot ← readFlag location "snapshot" entries
    let pausesBeforeInput ← readFlag location "pausesBeforeInput" entries
    return { snapshot, pausesBeforeInput }

def readCommand (channels : List String) (location : Location) (value : Value) :
    Except Error Command := do
  match ← sectionEntries location (some value) with
  | none => return {}
  | some entries =>
    let parameters ←
      readNamedSection channels (.member location "parameters") "parameters" entries
    let returns ← readNamedSection channels (.member location "returns") "returns" entries
    let tracing ← readTracing (.member location "tracing") (Yaml.lookup "tracing" entries)
    return { parameters, returns, tracing }

def readEvent (channels : List String) (location : Location) (value : Value) :
    Except Error Event := do
  match ← sectionEntries location (some value) with
  | none => return {}
  | some entries =>
    let parameters ←
      readNamedSection channels (.member location "parameters") "parameters" entries
    return { parameters }

def readMembers {α : Type} (owner part : String) (read : Location → Value → Except Error α)
    (value : Option Value) : Except Error (Table α) := do
  let location := Location.member (.named owner) part
  match ← sectionEntries location value with
  | none => return .empty
  | some entries =>
    let members ← entries.mapM fun entry => do
      let name ← memberName location entry.key
      let member ← read (.member (.named owner) name) entry.value
      return (name, member)
    return .ofList members

/-! ## Entities -/

def readParent (location : Location) : Option Value → Except Error (Option String)
  | none | some .null => .ok none
  | some (.string name) => .ok (some name)
  | some other => .error (.unsupportedShape location .parentNotName other)

def isChannelWord (word : String) : Bool := word == "interface" || word == "channel"

def readChannel (channels : List String) (name : String) (entries : List Entry) :
    Except Error Channel := do
  let location := Location.named name
  let parent ← readParent (.member location "extends") (Yaml.lookup "extends" entries)
  let initializer ←
    readNamedSection channels (.member location "initializer") "initializer" entries
  let commands ←
    readMembers name "commands" (readCommand channels) (Yaml.lookup "commands" entries)
  let events ← readMembers name "events" (readEvent channels) (Yaml.lookup "events" entries)
  return { parent, initializer := initializer.getD [], commands, events }

def readBody (channels : List String) (name : String) (entries : List Entry) :
    Except Error (List Property) := do
  let properties ←
    readNamedSection channels (.member (.named name) "properties") "properties" entries
  return properties.getD []

def readEntity (channels : List String) (name : String) : Value → Except Error Entity
  | .mapping entries =>
    match typeWord? entries with
    | none => .error (.unsupportedShape (.named name) .entityWithoutType (.mapping entries))
    | some word =>
      if isChannelWord word then (readChannel channels name entries).map .channel
      else if word = "object" then (readBody channels name entries).map .object
      else if word = "enum" then
        (readLiterals (.named name) (.mapping entries) entries).map .enum
      else if word = "mixin" then (readBody channels name entries).map .mixin
      else .error (.unsupportedShape (.named name) (.unknownEntityType word) (.mapping entries))
  | other => .error (.unsupportedShape (.named name) .entityNotMapping other)

/-! ## Documents -/

def channelName? (entry : Entry) : Option String :=
  match (entry.value.get? "type").bind Value.asString? with
  | some word => if isChannelWord word then entry.key.asString? else none
  | none => none

def channelNames (entries : List Entry) : List String := entries.filterMap channelName?

def readNamedEntity (channels : List String) (entry : Entry) : Except Error (String × Entity) := do
  let name ← keyText .document entry.key
  let entity ← readEntity channels name entry.value
  return (name, entity)

def Document.ofValue : Value → Except Error Document
  | .null => .ok ⟨.empty⟩
  | .mapping entries => do
    let entities ← entries.mapM (readNamedEntity (channelNames entries))
    return ⟨.ofList entities⟩
  | other => .error (.unsupportedShape .document .rootNotMapping other)

def Document.read (source : String) : Except Error Document :=
  match Yaml.read source with
  | .ok value => Document.ofValue value
  | .error cause => .error (.syntaxError cause)

end ChannelProtocol.Schema
