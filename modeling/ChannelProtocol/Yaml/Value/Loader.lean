-- From the tree of a document to its value: references are replaced by what
-- they point to, and scalars by what they stand for.
import ChannelProtocol.Yaml.Node
import ChannelProtocol.Yaml.Token.Lexer
import ChannelProtocol.Yaml.Value.Plain

namespace ChannelProtocol.Yaml

/-! ## Anchors -/

/-- The anchors met so far. A name stands for a number, and a number for the node that took it
last. -/
structure Anchors where
  names : List (String × Nat) := []
  nodes : List (Nat × Node Nat) := []

namespace Anchors

def count (anchors : Anchors) : Nat := (anchors.names.map Prod.fst).eraseDups.length

/-- Gives the next number to a name. It is the count of known names, so a name that is taken
again shares its new number with the next new name. -/
def declare (anchors : Anchors) (name : String) : Nat × Anchors :=
  (anchors.count, { anchors with names := (name, anchors.count) :: anchors.names })

/-- Remembers the node of a number, unless a node inside it took the number too. -/
def define (before after : Anchors) (number : Nat) (node : Node Nat) : Anchors :=
  let inside := after.nodes.take (after.nodes.length - before.nodes.length)
  if (inside.lookup number).isSome then after
  else { after with nodes := (number, node) :: after.nodes }

def enter (anchors : Anchors) (properties : Properties) : Option Nat × Anchors :=
  match properties.anchor with
  | some name => match anchors.declare name with | (number, anchors) => (some number, anchors)
  | none => (none, anchors)

def leave (before after : Anchors) (node : Node Nat) : Option Nat → Anchors
  | some number => define before after number node
  | none => after

end Anchors

mutual

/-- The node with its references resolved to numbers. -/
def Node.link (anchors : Anchors) : Node String → Except SyntaxError (Node Nat × Anchors)
  | .reference name =>
    match anchors.names.lookup name with
    | some number => .ok (.reference number, anchors)
    | none => .error .unknownAnchor
  | .scalar properties plain text =>
    let (number, inside) := anchors.enter properties
    let node := Node.scalar properties plain text
    .ok (node, anchors.leave inside node number)
  | .sequence properties items => do
    let (number, inside) := anchors.enter properties
    let (items, after) ← Node.linkItems inside items
    let node := Node.sequence properties items
    return (node, anchors.leave after node number)
  | .mapping properties pairs => do
    let (number, inside) := anchors.enter properties
    let (pairs, after) ← Node.linkPairs inside pairs
    let node := Node.mapping properties pairs
    return (node, anchors.leave after node number)

def Node.linkItems (anchors : Anchors) :
    List (Node String) → Except SyntaxError (List (Node Nat) × Anchors)
  | [] => .ok ([], anchors)
  | node :: rest => do
    let (node, anchors) ← node.link anchors
    let (rest, anchors) ← Node.linkItems anchors rest
    return (node :: rest, anchors)

def Pair.link (anchors : Anchors) : Pair String → Except SyntaxError (Pair Nat × Anchors)
  | ⟨key, value⟩ => do
    let (key, anchors) ← key.link anchors
    let (value, anchors) ← value.link anchors
    return (⟨key, value⟩, anchors)

def Node.linkPairs (anchors : Anchors) :
    List (Pair String) → Except SyntaxError (List (Pair Nat) × Anchors)
  | [] => .ok ([], anchors)
  | pair :: rest => do
    let (pair, anchors) ← pair.link anchors
    let (rest, anchors) ← Node.linkPairs anchors rest
    return (pair :: rest, anchors)

end

/-! ## Scalars and tags -/

/-- The name of a local tag: one that starts with an exclamation mark, which is not part of the
name unless it is all of it. -/
def localTag? (tag : String) : Option String :=
  match tag.toList with
  | ['!'] => some "!"
  | '!' :: rest => some (String.ofList rest)
  | _ => none

/-- What a scalar under a tag of the common schema stands for. The text of a scalar under any
other tag is a string. -/
def typedScalar (tag text : String) : Except SyntaxError Value :=
  if tag == "tag:yaml.org,2002:bool" then
    match bool? text with
    | some b => .ok (.bool b)
    | none => .error .mistyped
  else if tag == "tag:yaml.org,2002:int" then
    match readInteger text with
    | .value n => .ok (.number (.int n))
    | .tooWide => .error .integerRange
    | .none => .error .mistyped
  else if tag == "tag:yaml.org,2002:float" then
    match float? text with
    | some value => .ok (.number (.float value))
    | none => .error .mistyped
  else if tag == "tag:yaml.org,2002:null" then
    if isNull text then .ok .null else .error .mistyped
  else .ok (.string text)

def untypedScalar (plain : Bool) (text : String) : Except SyntaxError Value :=
  if plain then
    match plainValue? text with
    | some value => .ok value
    | none => .error .integerRange
  else .ok (.string text)

/-! ## Values -/

def greatestDepth : Nat := 128

/-- What is needed to follow references: the nodes they point to, and how many may be followed. -/
structure Links where
  nodes : List (Nat × Node Nat)
  limit : Nat

/-- Follows a reference, if the node is one. The number of references followed is counted. -/
def Links.follow (links : Links) (followed : Nat) :
    Node Nat → Except SyntaxError (Node Nat × Nat)
  | .reference number =>
    if links.limit ≤ followed then .error .repetition
    else match links.nodes.lookup number with
      | some node => .ok (node, followed + 1)
      | none => .error .unknownAnchor
  | node => .ok (node, followed)

def loadItems (load : Nat → Node Nat → Except SyntaxError (Value × Nat)) (followed : Nat) :
    List (Node Nat) → Except SyntaxError (List Value × Nat)
  | [] => .ok ([], followed)
  | node :: rest => do
    let (value, followed) ← load followed node
    let (values, followed) ← loadItems load followed rest
    return (value :: values, followed)

/-- Loads several pairs one after the other. No key may come twice. -/
def loadPairs (loadKey load : Nat → Node Nat → Except SyntaxError (Value × Nat)) (followed : Nat)
    (before : List Entry) : List (Pair Nat) → Except SyntaxError (List Entry × Nat)
  | [] => .ok (before.reverse, followed)
  | pair :: rest => do
    let (key, followed) ← loadKey followed pair.key
    if before.any fun entry => key.same entry.key then .error .duplicateKey
    let (value, followed) ← load followed pair.value
    loadPairs loadKey load followed (⟨key, value⟩ :: before) rest

/-- The tag that a node's value is to carry. Inside a tagged value, keys carry none. -/
def carriedTag? (tagged : Bool) (properties : Properties) : Option String :=
  if tagged then none else properties.tag.bind localTag?

def Value.under (value : Value) : Option String → Value
  | some tag => .tagged tag value
  | none => value

/-- The value of a node, with at most `depth` collections inside each other. -/
def load (links : Links) : Nat → Bool → Nat → Node Nat → Except SyntaxError (Value × Nat)
  | depth, tagged, followed, node => do
    let isReference := match node with
      | .reference _ => true
      | _ => false
    let (node, followed) ← links.follow followed node
    let tagged := tagged && !isReference
    match node with
    | .reference _ => .error .unknownAnchor
    | .scalar properties plain text =>
      match carriedTag? tagged properties, properties.tag, tagged with
      | some tag, _, _ => return (.tagged tag (← untypedScalar plain text), followed)
      | none, some tag, false => return (← typedScalar tag text, followed)
      | none, _, _ => return (← untypedScalar plain text, followed)
    | .sequence properties items =>
      match depth with
      | 0 => .error .depth
      | depth + 1 => do
        let (values, followed) ← loadItems (load links depth false) followed items
        return ((Value.sequence values).under (carriedTag? tagged properties), followed)
    | .mapping properties pairs =>
      match depth with
      | 0 => .error .depth
      | depth + 1 => do
        let tag := carriedTag? tagged properties
        let (entries, followed) ←
          loadPairs (load links depth (tagged || tag.isSome)) (load links depth false) followed []
            pairs
        return ((Value.mapping entries).under tag, followed)

/-- The value of a document. References may be followed a hundred times for each step that a
reader takes over the document. -/
def Value.ofNode (node : Node String) : Except SyntaxError Value := do
  let (root, anchors) ← node.link {}
  let (value, _) ← load ⟨anchors.nodes, 100 * root.steps⟩ greatestDepth false 0 root
  return value

def read (text : String) : Except SyntaxError Value := do
  Value.ofNode (← Node.ofTokens (← tokens text))

end ChannelProtocol.Yaml
