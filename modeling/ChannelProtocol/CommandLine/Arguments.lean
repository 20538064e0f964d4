-- The arguments of the program.

namespace ChannelProtocol.CommandLine

structure Arguments where
  root : Option String := none
  diff : Bool := false
  deriving DecidableEq, Repr

inductive Request where
  | run (arguments : Arguments)
  | version
  | help
  | usageError
  deriving DecidableEq, Repr

/-- Whether an argument can be the value of the option before it. -/
def isValue (argument : String) : Bool :=
  match argument.toList with
  | [] => false
  | ['-'] => true
  | c :: _ => c != '-'

/-- The value that is attached to an option by an equals sign. -/
def attached? (option argument : String) : Option String :=
  let head := (option ++ "=").toList
  if head.isPrefixOf argument.toList then some (String.ofList (argument.toList.drop head.length))
  else none

/-- The arguments with a root directory, which is given once and is not empty. -/
def Arguments.withRoot (arguments : Arguments) (root : String) : Option Arguments :=
  if root = "" ∨ arguments.root.isSome then none else some { arguments with root := some root }

/-- What a single argument that is not about the root directory asks for, if it ends the
reading. -/
def closing (argument : String) : Request :=
  if argument = "--version" then .version
  else if argument = "--help" then .help
  else
    match argument.toList with
    | '-' :: 'V' :: _ => .version
    | '-' :: 'h' :: _ => .help
    | _ => .usageError

/-- Reads arguments from left to right, after those that are known. -/
def request (known : Arguments) : List String → Request
  | [] => .run known
  | argument :: rest =>
    if argument = "--" then if rest.isEmpty then .run known else .usageError
    else if argument = "--diff" then
      if known.diff then .usageError else request { known with diff := true } rest
    else if argument = "--root" then
      match rest with
      | value :: rest =>
        if isValue value then
          match known.withRoot value with
          | some known => request known rest
          | none => .usageError
        else .usageError
      | [] => .usageError
    else
      match attached? "--root" argument with
      | some value =>
        match known.withRoot value with
        | some known => request known rest
        | none => .usageError
      | none => closing argument

end ChannelProtocol.CommandLine
