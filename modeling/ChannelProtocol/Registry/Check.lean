-- Checking payloads. A check gives back the payload with only its declared
-- fields, or the first failure. The validators for the members of a channel are
-- found by name.
import ChannelProtocol.Payload
import ChannelProtocol.Registry
import ChannelProtocol.Table

namespace ChannelProtocol.Registry

/-! ## Failures -/

inductive PathStep where
  | key (name : String)
  | index (position : Nat)
  deriving DecidableEq, Repr

def extendPath (path : String) : PathStep → String
  | .key name => if path = "" then name else path ++ "." ++ name
  | .index position => path ++ "[" ++ toString position ++ "]"

/-- The text of a path, from the outermost step to the innermost. -/
def pathText (path : List PathStep) : String := path.foldl extendPath ""

inductive Complaint where
  | mismatch (expected found : Payload.Kind)
  | notOneOf (literals : List String)
  | notAnyChannel
  | notChannel (kinds : List String)
  | unknownType (name : String)
  | unknownValidator (name : String)
  /-- A name that stands for itself. -/
  | endlessType (name : String)
  deriving DecidableEq, Repr

def Complaint.text : Complaint → String
  | .mismatch expected found => "expected " ++ expected.text ++ ", got " ++ found.text
  | .notOneOf literals => "expected one of (" ++ "|".intercalate literals ++ ")"
  | .notAnyChannel => "expected channel"
  | .notChannel kinds => "expected channel " ++ ",".intercalate kinds
  | .unknownType name => "unknown type \"" ++ name ++ "\""
  | .unknownValidator name => "unknown validator \"" ++ name ++ "\""
  | .endlessType name => "endless type \"" ++ name ++ "\""

/-- A failed check: the path to the culprit, and what is wrong with it. -/
structure Failure where
  path : List PathStep
  complaint : Complaint
  deriving DecidableEq, Repr

def Failure.message (failure : Failure) : String :=
  let path := pathText failure.path
  if path = "" then failure.complaint.text else path ++ ": " ++ failure.complaint.text

/-! ## Seeing through names and options -/

/-- What is left of a validator behind its names and options. -/
inductive Settled where
  /-- The payload is not there, and need not be. -/
  | leftOut
  /-- A validator that is neither a name nor an option. -/
  | rule (validator : Validator)
  | unknown (name : String)
  | endless (name : String)

theorem mem_names_of_get? {registry : Registry} {name : String} {validator : Validator}
    (found : registry.get? name = some validator) : name ∈ registry.table.names := by
  refine (Table.contains_iff registry.table name).mp ?_
  unfold Registry.get? at found
  unfold Table.contains
  cases h : registry.table.get? name <;> simp_all

/-- Follows names and options, after the names in `seen`. Where the payload is not there, the
first option ends it. -/
def settle (registry : Registry) (present : Bool) (seen : List String) : Validator → Settled
  | .optional inner => if present then registry.settle present seen inner else .leftOut
  | .named name =>
    if fresh : name ∈ seen then .endless name
    else
      match found : registry.get? name with
      | none => .unknown name
      | some validator =>
        have : unvisited registry.table.names (name :: seen) <
            unvisited registry.table.names seen :=
          unvisited_lt (fun _ mem => List.mem_cons_of_mem _ mem) (mem_names_of_get? found) fresh
            (by simp)
        registry.settle present (name :: seen) validator
  | validator => .rule validator
termination_by validator => (unvisited registry.table.names seen, sizeOf validator)

/-! ## Verdicts at the head of a payload -/

/-- The kind of the live channel with a guid. -/
abbrev Channels := String → Option String

/-- Whether a payload refers to a live channel whose kind is fit. -/
def refersTo (channels : Channels) (fit : String → Bool) (payload : Payload) : Bool :=
  match payload.guid? with
  | some guid => (channels guid).any fit
  | none => false

/-- What a rule finds wrong with a payload itself. Fields and items are not looked at. -/
def complaint? (channels : Channels) (payload : Payload) : Validator → Option Complaint
  | .any | .optional _ | .named _ => none
  | .undefined => expect .undefined
  | .string | .binary => expect .string
  | .number => expect .number
  | .boolean => expect .boolean
  | .array _ => expect .array
  | .object _ => expect .object
  | .enum literals =>
    match payload with
    | .string text => if text ∈ literals then none else some (.notOneOf literals)
    | _ => some (.notOneOf literals)
  | .anyChannel => if refersTo channels (fun _ => true) payload then none else some .notAnyChannel
  | .channel kinds =>
    if refersTo channels kinds.contains payload then none else some (.notChannel kinds)
where
  /-- The complaint about a payload that should have another kind. -/
  expect (kind : Payload.Kind) : Option Complaint :=
    if payload.kind = kind then none else some (.mismatch kind payload.kind)

/-- The payload as it is given on: null is the same as nothing. -/
def present? : Payload → Option Payload
  | .null => none
  | payload => some payload

/-- The result for a payload that is given on as it is, or not at all. -/
def verdict (channels : Channels) (path : List PathStep) (payload : Payload) :
    Settled → Except Failure (Option Payload)
  | .leftOut => .ok none
  | .unknown name => .error ⟨path, .unknownType name⟩
  | .endless name => .error ⟨path, .endlessType name⟩
  | .rule validator =>
    match complaint? channels payload validator with
    | some complaint => .error ⟨path, complaint⟩
    | none => .ok (present? payload)

def checkAbsent (registry : Registry) (channels : Channels) (path : List PathStep)
    (validator : Validator) : Except Failure (Option Payload) :=
  verdict channels path .null (registry.settle false [] validator)

/-! ## Whole payloads -/

mutual

def checkAt (registry : Registry) (channels : Channels) (path : List PathStep)
    (validator : Validator) : Payload → Except Failure (Option Payload)
  | .null => registry.checkAbsent channels path validator
  | .array items =>
    match registry.settle true [] validator with
    | .rule (.array element) => do
      let items ← registry.checkItems channels path element 0 items
      return some (.array items)
    | settled => verdict channels path (.array items) settled
  | .object fields =>
    match registry.settle true [] validator with
    | .rule (.object slots) => do
      let fields ← slots.foldlM (fun checked slot => do
        match ← registry.checkSlot channels (path ++ [.key slot.name]) slot fields with
        | some value => return Payload.setField slot.name value checked
        | none => return checked) []
      return some (.object fields)
    | settled => verdict channels path (.object fields) settled
  | .bool value => verdict channels path (.bool value) (registry.settle true [] validator)
  | .number value => verdict channels path (.number value) (registry.settle true [] validator)
  | .string text => verdict channels path (.string text) (registry.settle true [] validator)

/-- Checks the items of an array from a position on. What is not there stays as null, so that no
item moves. -/
def checkItems (registry : Registry) (channels : Channels) (path : List PathStep)
    (element : Validator) (position : Nat) : List Payload → Except Failure (List Payload)
  | [] => .ok []
  | item :: rest => do
    let item ← registry.checkAt channels (path ++ [.index position]) element item
    let rest ← registry.checkItems channels path element (position + 1) rest
    return item.getD .null :: rest

def checkSlot (registry : Registry) (channels : Channels) (path : List PathStep) (slot : Slot) :
    List PayloadField → Except Failure (Option Payload)
  | [] => registry.checkAbsent channels path slot.validator
  | ⟨name, value⟩ :: rest =>
    if name = slot.name then registry.checkAt channels path slot.validator value
    else registry.checkSlot channels path slot rest

end

/-- Checks a payload, or that nothing is there. -/
def check (registry : Registry) (channels : Channels) (validator : Validator) :
    Option Payload → Except Failure (Option Payload)
  | none => registry.checkAbsent channels [] validator
  | some payload => registry.checkAt channels [] validator payload

def validate (registry : Registry) (channels : Channels) (name : String) (payload : Payload) :
    Except Failure Payload :=
  (registry.check channels (.named name) (some payload)).map (·.getD .null)

/-! ## Call sites -/

inductive Role where
  | params
  | result
  | event
  | initializer
  deriving DecidableEq, Repr

def Role.suffix : Role → String
  | .params => "Params"
  | .result => "Result"
  | .event => "Event"
  | .initializer => "Initializer"

def callSiteName (channel member : String) (role : Role) : String :=
  channel ++ TypeScript.titleCase member ++ role.suffix

def find? (registry : Registry) (channel member : String) (role : Role) : Option Validator :=
  registry.get? (callSiteName channel member role)

def find (registry : Registry) (channel member : String) (role : Role) :
    Except Failure Validator :=
  match registry.find? channel member role with
  | some validator => .ok validator
  | none => .error ⟨[], .unknownValidator (callSiteName channel member role)⟩

end ChannelProtocol.Registry
