-- The tree of a YAML document, with anchors, references and tags still in
-- place, and how it is read from a list of tokens.
import ChannelProtocol.Yaml.Source
import ChannelProtocol.Yaml.Token

namespace ChannelProtocol.Yaml

/-- What may stand before a node. -/
structure Properties where
  anchor : Option String := none
  tag : Option String := none
  deriving DecidableEq, Repr

mutual

/-- A node. References point to their nodes by a value of `ρ`. -/
inductive Node (ρ : Type) where
  | reference (target : ρ)
  | scalar (properties : Properties) (plain : Bool) (text : String)
  | sequence (properties : Properties) (items : List (Node ρ))
  | mapping (properties : Properties) (pairs : List (Pair ρ))

structure Pair (ρ : Type) where
  key : Node ρ
  value : Node ρ

end

/-- A node that was left out. -/
def Node.empty {ρ : Type} : Node ρ := .scalar {} true ""

mutual

/-- How many steps a reader takes over a node: one for a scalar or a reference, and one each for
the start and the end of a collection. -/
def Node.steps {ρ : Type} : Node ρ → Nat
  | .reference _ | .scalar .. => 1
  | .sequence _ items => 2 + Node.stepsOfItems items
  | .mapping _ pairs => 2 + Node.stepsOfPairs pairs

def Node.stepsOfItems {ρ : Type} : List (Node ρ) → Nat
  | [] => 0
  | node :: rest => node.steps + Node.stepsOfItems rest

def Pair.steps {ρ : Type} : Pair ρ → Nat
  | ⟨key, value⟩ => key.steps + value.steps

def Node.stepsOfPairs {ρ : Type} : List (Pair ρ) → Nat
  | [] => 0
  | pair :: rest => pair.steps + Node.stepsOfPairs rest

end

/-! ## Tags and anchors -/

/-- What the handles of tags stand for. The first that fits counts. -/
abbrev Handles := List (String × String)

/-- The handles that every document knows. -/
def commonHandles : Handles := [("!", "!"), ("!!", "tag:yaml.org,2002:")]

/-- The tag that a handle and a suffix spell. Without a handle the suffix is all of it. -/
def Handles.resolve (handles : Handles) (handle suffix : String) : Except SyntaxError String :=
  if handle.isEmpty then .ok suffix
  else match handles.lookup handle with
    | some start => .ok (start ++ suffix)
    | none => .error .tag

/-- An anchor and a tag, in either order. -/
def properties (handles : Handles) : List Token → Except SyntaxError (Properties × List Token)
  | .anchor name :: .tag handle suffix :: rest => do
    return ({ anchor := some name, tag := some (← handles.resolve handle suffix) }, rest)
  | .tag handle suffix :: .anchor name :: rest => do
    return ({ anchor := some name, tag := some (← handles.resolve handle suffix) }, rest)
  | .anchor name :: rest => .ok ({ anchor := some name }, rest)
  | .tag handle suffix :: rest => do
    return ({ tag := some (← handles.resolve handle suffix) }, rest)
  | tokens => .ok ({}, tokens)

/-! ## Nodes from tokens -/

/-- Whether a value was left out in a block mapping. -/
def lacksBlockNode : List Token → Bool
  | .key :: _ | .value :: _ | .blockEnd :: _ => true
  | _ => false

def lacksItem : List Token → Bool
  | .blockEntry :: _ | .blockEnd :: _ => true
  | _ => false

/-- Whether an item was left out in a sequence that is not indented in its mapping. -/
def lacksInnerItem : List Token → Bool
  | .blockEntry :: _ | .key :: _ | .value :: _ | .blockEnd :: _ => true
  | _ => false

mutual

/-- A node. Block collections may start where `block` holds, and a sequence at the indentation of
its mapping where `inner` holds. `fuel` bounds the depth of calls. -/
def parseNode (handles : Handles) (block inner : Bool) :
    Nat → List Token → Except SyntaxError (Node String × List Token)
  | 0, _ => .error .grammar
  | _ + 1, .reference name :: rest => .ok (.reference name, rest)
  | fuel + 1, tokens => do
    let (props, tokens) ← properties handles tokens
    match tokens with
    | .scalar plain text :: rest => return (.scalar props plain text, rest)
    | .flowSequenceStart :: rest => do
      let (items, rest) ← parseFlowSequence handles true fuel rest
      return (.sequence props items, rest)
    | .flowMappingStart :: rest => do
      let (pairs, rest) ← parseFlowMapping handles true fuel rest
      return (.mapping props pairs, rest)
    | tokens =>
      match inner, block, tokens with
      | true, _, .blockEntry :: _ => do
        let (items, rest) ← parseInnerSequence handles fuel tokens
        return (.sequence props items, rest)
      | _, true, .blockSequenceStart :: rest => do
        let (items, rest) ← parseBlockSequence handles fuel rest
        return (.sequence props items, rest)
      | _, true, .blockMappingStart :: rest => do
        let (pairs, rest) ← parseBlockMapping handles fuel rest
        return (.mapping props pairs, rest)
      | _, _, _ =>
        if props.anchor.isSome || props.tag.isSome then return (.scalar props true "", tokens)
        else .error .grammar

def parseBlockSequence (handles : Handles) :
    Nat → List Token → Except SyntaxError (List (Node String) × List Token)
  | 0, _ => .error .grammar
  | _ + 1, .blockEnd :: rest => .ok ([], rest)
  | fuel + 1, .blockEntry :: rest => do
    let (item, rest) ←
      if lacksItem rest then pure (Node.empty, rest) else parseNode handles true false fuel rest
    let (items, rest) ← parseBlockSequence handles fuel rest
    return (item :: items, rest)
  | _ + 1, _ => .error .grammar

/-- The items of a sequence that is not indented in its mapping. -/
def parseInnerSequence (handles : Handles) :
    Nat → List Token → Except SyntaxError (List (Node String) × List Token)
  | 0, _ => .error .grammar
  | fuel + 1, .blockEntry :: rest => do
    let (item, rest) ←
      if lacksInnerItem rest then pure (Node.empty, rest)
      else parseNode handles true false fuel rest
    let (items, rest) ← parseInnerSequence handles fuel rest
    return (item :: items, rest)
  | _ + 1, tokens => .ok ([], tokens)

def parseBlockMapping (handles : Handles) :
    Nat → List Token → Except SyntaxError (List (Pair String) × List Token)
  | 0, _ => .error .grammar
  | _ + 1, .blockEnd :: rest => .ok ([], rest)
  | fuel + 1, .key :: rest => do
    let (key, rest) ←
      if lacksBlockNode rest then pure (Node.empty, rest) else parseNode handles true true fuel rest
    let (value, rest) ← parseBlockValue handles fuel rest
    let (pairs, rest) ← parseBlockMapping handles fuel rest
    return (⟨key, value⟩ :: pairs, rest)
  | _ + 1, _ => .error .grammar

def parseBlockValue (handles : Handles) :
    Nat → List Token → Except SyntaxError (Node String × List Token)
  | 0, _ => .error .grammar
  | fuel + 1, .value :: rest =>
    if lacksBlockNode rest then .ok (.empty, rest) else parseNode handles true true fuel rest
  | _ + 1, tokens => .ok (.empty, tokens)

/-- The items of a flow sequence, up to its end. An item with a key is a mapping of one pair. -/
def parseFlowSequence (handles : Handles) (first : Bool) :
    Nat → List Token → Except SyntaxError (List (Node String) × List Token)
  | 0, _ => .error .grammar
  | _ + 1, .flowSequenceEnd :: rest => .ok ([], rest)
  | fuel + 1, tokens => do
    let tokens ← match first, tokens with
      | true, _ => pure tokens
      | false, .flowEntry :: rest => pure rest
      | false, _ => .error .grammar
    match tokens with
    | .flowSequenceEnd :: rest => return ([], rest)
    | .key :: rest => do
      let (key, rest) ← match rest with
        | .value :: rest | .flowEntry :: rest | .flowSequenceEnd :: rest => pure (Node.empty, rest)
        | rest => parseNode handles false false fuel rest
      let (value, rest) ← parseFlowItemValue handles fuel rest
      let (items, rest) ← parseFlowSequence handles false fuel rest
      return (.mapping {} [⟨key, value⟩] :: items, rest)
    | tokens => do
      let (item, rest) ← parseNode handles false false fuel tokens
      let (items, rest) ← parseFlowSequence handles false fuel rest
      return (item :: items, rest)

/-- The value of a pair that is an item of a flow sequence. -/
def parseFlowItemValue (handles : Handles) :
    Nat → List Token → Except SyntaxError (Node String × List Token)
  | 0, _ => .error .grammar
  | fuel + 1, .value :: rest =>
    match rest with
    | .flowEntry :: _ | .flowSequenceEnd :: _ => .ok (.empty, rest)
    | _ => parseNode handles false false fuel rest
  | _ + 1, tokens => .ok (.empty, tokens)

def parseFlowMapping (handles : Handles) (first : Bool) :
    Nat → List Token → Except SyntaxError (List (Pair String) × List Token)
  | 0, _ => .error .grammar
  | _ + 1, .flowMappingEnd :: rest => .ok ([], rest)
  | fuel + 1, tokens => do
    let tokens ← match first, tokens with
      | true, _ => pure tokens
      | false, .flowEntry :: rest => pure rest
      | false, _ => .error .grammar
    match tokens with
    | .flowMappingEnd :: rest => return ([], rest)
    | .key :: rest => do
      let (key, rest) ← match rest with
        | .value :: _ | .flowEntry :: _ | .flowMappingEnd :: _ => pure (Node.empty, rest)
        | rest => parseNode handles false false fuel rest
      let (value, rest) ← parseFlowValue handles fuel rest
      let (pairs, rest) ← parseFlowMapping handles false fuel rest
      return (⟨key, value⟩ :: pairs, rest)
    | tokens => do
      let (key, rest) ← parseNode handles false false fuel tokens
      let (pairs, rest) ← parseFlowMapping handles false fuel rest
      return (⟨key, .empty⟩ :: pairs, rest)

def parseFlowValue (handles : Handles) :
    Nat → List Token → Except SyntaxError (Node String × List Token)
  | 0, _ => .error .grammar
  | fuel + 1, .value :: rest =>
    match rest with
    | .flowEntry :: _ | .flowMappingEnd :: _ => .ok (.empty, rest)
    | _ => parseNode handles false false fuel rest
  | _ + 1, tokens => .ok (.empty, tokens)

end

/-! ## Documents -/

/-- The directives before a document: at most one version, which is 1.1 or 1.2, and each handle
at most once. -/
def parseDirectives (version : Bool) (handles : Handles) :
    List Token → Except SyntaxError (Handles × List Token)
  | .version major minor :: rest =>
    if version || major != 1 || (minor != 1 && minor != 2) then .error .directive
    else parseDirectives true handles rest
  | .tagDirective handle start :: rest =>
    if (handles.lookup handle).isSome then .error .directive
    else parseDirectives version (handles ++ [(handle, start)]) rest
  | tokens => .ok (handles, tokens)

/-- Whether a token opens the part of a document that stands before its content. -/
def isPrologue : Token → Bool
  | .version .. | .tagDirective .. | .documentStart => true
  | _ => false

def lacksContent : List Token → Bool
  | [] => true
  | token :: _ => isPrologue token || token == .documentEnd

def parseContent (tokens : List Token) : Except SyntaxError (Node String × List Token) :=
  let fuel := 3 * tokens.length + 10
  match tokens with
  | [] => .ok (.empty, [])
  | token :: _ =>
    if isPrologue token then do
      let (handles, rest) ← parseDirectives false [] tokens
      match rest with
      | .documentStart :: rest =>
        if lacksContent rest then return (.empty, rest)
        else parseNode (handles ++ commonHandles) true false fuel rest
      | _ => .error .directive
    else parseNode commonHandles true false fuel tokens

/-- The document of a list of tokens. Behind it only marks of its end may follow. -/
def Node.ofTokens (tokens : List Token) : Except SyntaxError (Node String) := do
  let (node, rest) ← parseContent tokens
  if rest.all (· == .documentEnd) then return node else .error .manyDocuments

end ChannelProtocol.Yaml
