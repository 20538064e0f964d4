-- The text of types, definitions, statements and modules. Object types have
-- one property per line and two spaces of indentation per level.
import ChannelProtocol.TypeScript.Name
import ChannelProtocol.TypeScript.Node

namespace ChannelProtocol.TypeScript

def indentation (level : Nat) : String :=
  String.ofList (List.replicate (2 * level) ' ')

/-! ## Types -/

def Keyword.text : Keyword → String
  | .string => "string"
  | .number => "number"
  | .boolean => "boolean"
  | .undefined => "undefined"
  | .void => "void"
  | .any => "any"
  | .never => "never"
  | .object => "object"

/-- Whether a type is put in brackets before the `[]` of an array. -/
def Ty.needsBrackets : Ty → Bool
  | .union _ | .function .. | .conditional .. => true
  | _ => false

def optionalMark (optional : Bool) : String :=
  if optional then "?" else ""

mutual

/-- The text of a type whose first line starts at the given level. -/
def Ty.print (level : Nat) : Ty → String
  | .keyword word => word.text
  | .array element =>
    if element.needsBrackets then "(" ++ element.print level ++ ")[]"
    else element.print level ++ "[]"
  | .union members => " | ".intercalate (Ty.printAll level members)
  | .object [] => "\x7b\x7d"
  | .object (field :: fields) =>
    "\x7b\n" ++ Field.printLines (level + 1) (field :: fields) ++ indentation level ++ "\x7d"
  | .literal text => quoted text
  | .ref name => name
  | .generic name arguments => name ++ "<" ++ ", ".intercalate (Ty.printAll level arguments) ++ ">"
  | .function parameters result =>
    "(" ++ ", ".intercalate (Field.printParameters parameters) ++ ") => " ++ result.print level
  | .conditional check bound hit miss =>
    check.print level ++ " extends " ++ bound.print level ++ " ? " ++ hit.print level ++ " :\n    "
      ++ miss.print level

def Ty.printAll (level : Nat) : List Ty → List String
  | [] => []
  | ty :: rest => ty.print level :: Ty.printAll level rest

def Field.print (level : Nat) : Field → String
  | ⟨name, ty, optional⟩ => key name ++ optionalMark optional ++ ": " ++ ty.print level

/-- The properties of an object type, each on lines of its own. -/
def Field.printLines (level : Nat) : List Field → String
  | [] => ""
  | field :: rest => indentation level ++ field.print level ++ ",\n" ++ Field.printLines level rest

/-- A parameter. Its name is never quoted, and its type starts at level 0. -/
def Field.printParameter : Field → String
  | ⟨name, ty, optional⟩ => name ++ optionalMark optional ++ ": " ++ ty.print 0

def Field.printParameters : List Field → List String
  | [] => []
  | field :: rest => field.printParameter :: Field.printParameters rest

end

/-! ## Definitions -/

/-- A line of an interface, without indentation and final semicolon. -/
def Member.print : Member → String
  | .property field => field.print 1
  | .method name parameters result =>
    name ++ "(" ++ ", ".intercalate (Field.printParameters parameters) ++ "): " ++ result.print 1

def printParameters : List String → String
  | [] => ""
  | parameters => "<" ++ ", ".intercalate parameters ++ ">"

def printBases : List String → String
  | [] => ""
  | bases => " extends " ++ ", ".intercalate bases

/-- What stands between the equals sign and the type of a synonym: a conditional type starts on
a line of its own. -/
def synonymGap : Ty → String
  | .conditional .. => "\n    "
  | _ => " "

def Definition.print (definition : Definition) : String :=
  let head := definition.name ++ printParameters definition.parameters
  match definition.body with
  | .interface bases members =>
    "export interface " ++ head ++ printBases bases ++ " \x7b\n"
      ++ String.join (members.map fun member => "  " ++ member.print ++ ";\n") ++ "\x7d\n"
  | .synonym ty => "export type " ++ head ++ " =" ++ synonymGap ty ++ ty.print 0 ++ ";\n"

/-! ## Expressions, statements and modules -/

mutual

def Expr.print : Expr → String
  | .ident name => name
  | .literal text => quoted text
  | .member object property => object.print ++ "." ++ property
  | .new callee arguments =>
    "new " ++ callee.print ++ "(" ++ ", ".intercalate (Expr.printAll arguments) ++ ")"
  | .array items => "[" ++ ", ".intercalate (Expr.printAll items) ++ "]"
  | .verbatim code => code

def Expr.printAll : List Expr → List String
  | [] => []
  | expr :: rest => expr.print :: Expr.printAll rest

end

def Statement.print : Statement → String
  | .const exported name value =>
    (if exported then "export " else "") ++ "const " ++ name ++ " = " ++ value.print ++ ";\n"
  | .assign target value => target.print ++ " = " ++ value.print ++ ";\n"

def Import.print (line : Import) : String :=
  (if line.reExport then "export " else "import ") ++ (if line.typeOnly then "type " else "")
    ++ "\x7b " ++ ", ".intercalate line.names ++ " \x7d from \"" ++ line.source ++ "\";\n"

def Item.print : Item → String
  | .comment text => "// " ++ text ++ "\n"
  | .definition named => named.print
  | .statement line => line.print
  | .blank => "\n"

/-- Some lines, followed by an empty one if there are any. -/
def paragraph : List String → String
  | [] => ""
  | lines => String.join lines ++ "\n"

def Module.print (file : Module) : String :=
  paragraph (file.banner.map fun line => "// " ++ line ++ "\n")
    ++ paragraph (file.imports.map Import.print)
    ++ String.join (file.items.map Item.print)

end ChannelProtocol.TypeScript
