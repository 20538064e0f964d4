-- What can go wrong in a project.
import ChannelProtocol.Project.Disk
import ChannelProtocol.Schema.Error
import ChannelProtocol.Text.Unseen
import ChannelProtocol.Toml.Value

namespace ChannelProtocol.Project

inductive PathsProblem where
  | unknownField (name : String)
  | notPath (found : Toml.Value) (field : Option String)
  | notPaths (found : Toml.Value)
  | tooShort (length : Nat)
  | tooLong (length : Nat)

/-- Numbers in messages never have an exponent. -/
def messageLayout : Number.Layout where
  positional _ := true
  infinity := "inf"
  negativeInfinity := "-inf"
  nan := "NaN"

/-- The kind of a value, and the value itself if it is a simple one. -/
def valueText : Toml.Value → String
  | .string text | .dateTime text => "string " ++ Text.quoted text
  | .integer n => "integer `" ++ toString n ++ "`"
  | .float value => "floating point `" ++ value.text messageLayout ++ "`"
  | .boolean b => if b then "boolean `true`" else "boolean `false`"
  | .array _ => "sequence"
  | .table _ => "map"

def PathsProblem.text : PathsProblem → String
  | .unknownField name =>
    "unknown field `" ++ name ++ "`, expected one of `schema`, `declarations`, `validators`\n"
  | .notPath found field =>
    "invalid type: " ++ valueText found ++ ", expected path string\n"
      ++ match field with
        | some name => "in `" ++ name ++ "`\n"
        | none => ""
  | .notPaths found => "invalid type: " ++ valueText found ++ ", expected struct PathOverrides\n"
  | .tooShort length =>
    "invalid length " ++ toString length ++ ", expected struct PathOverrides with 3 elements\n"
  | .tooLong length =>
    "invalid length " ++ toString length ++ ", expected fewer elements in array\n"

inductive ConfigProblem where
  | syntaxError (cause : Toml.SyntaxError)
  | paths (problem : PathsProblem)

def ConfigProblem.text : ConfigProblem → String
  | .syntaxError cause => cause.message
  | .paths problem => "[paths]: " ++ problem.text

inductive Error where
  | schema (path : String) (cause : Schema.Error)
  | unreadableSchema (path : String) (cause : ReadError)
  | missingTarget (path : String)
  | unreadable (path : String) (cause : ReadError)
  | config (path : String) (problem : ConfigProblem)

def Error.message : Error → String
  | .schema path (.syntaxError cause) =>
    "failed to parse schema " ++ path ++ ": " ++ cause.message
  | .schema _ cause => cause.message
  | .unreadableSchema path cause => "failed to read schema " ++ path ++ ": " ++ cause.text
  | .missingTarget path => "output target " ++ path ++ " does not exist"
  | .unreadable path cause => "i/o error on " ++ path ++ ": " ++ cause.text
  | .config path problem => "invalid config " ++ path ++ ": " ++ problem.text

end ChannelProtocol.Project
