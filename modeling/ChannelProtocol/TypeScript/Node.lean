-- The parts of TypeScript that a declarations file or a validators file is
-- made of: types, named definitions, expressions, statements and modules.

namespace ChannelProtocol.TypeScript

inductive Keyword where
  | string
  | number
  | boolean
  | undefined
  | void
  | any
  | never
  | object
  deriving DecidableEq, Repr

mutual

inductive Ty where
  | keyword (word : Keyword)
  | array (element : Ty)
  | union (members : List Ty)
  | object (fields : List Field)
  | literal (text : String)
  | ref (name : String)
  | generic (name : String) (arguments : List Ty)
  | function (parameters : List Field) (result : Ty)
  /-- The result is `hit` where `check` extends `bound`, and `miss` elsewhere. -/
  | conditional (check bound hit miss : Ty)

/-- A property of an object type, or a parameter of a function. -/
structure Field where
  name : String
  ty : Ty
  optional : Bool

end

def Ty.literals (texts : List String) : Ty :=
  .union (texts.map .literal)

def Ty.promise (result : Ty) : Ty :=
  .generic "Promise" [result]

inductive Member where
  | property (field : Field)
  | method (name : String) (parameters : List Field) (result : Ty)

/-- What a definition gives its name to. -/
inductive Body where
  | interface (bases : List String) (members : List Member)
  | synonym (ty : Ty)

/-- A named and exported type. -/
structure Definition where
  name : String
  parameters : List String := []
  body : Body

/-- An expression. `verbatim` stands for code that is printed as it is. -/
inductive Expr where
  | ident (name : String)
  | literal (text : String)
  | member (object : Expr) (property : String)
  | new (callee : Expr) (arguments : List Expr)
  | array (items : List Expr)
  | verbatim (code : String)

inductive Statement where
  | const (exported : Bool) (name : String) (value : Expr)
  | assign (target value : Expr)

/-- An import, or a re-export, of names from a file. -/
structure Import where
  names : List String
  source : String
  typeOnly : Bool := false
  reExport : Bool := false

inductive Item where
  | comment (text : String)
  | definition (named : Definition)
  | statement (line : Statement)
  | blank

structure Module where
  banner : List String := []
  imports : List Import := []
  items : List Item := []

end ChannelProtocol.TypeScript
