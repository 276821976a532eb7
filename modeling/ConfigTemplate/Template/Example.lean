/-
  ConfigTemplate.Template.Example — the example values a template shows.

  (1) `Scalar.literal`, `Scalar.arrayLiteral`, `Scalar.mapLiterals`: one literal for
      each scalar kind, alone, in an array and as the two values of a map.
  (2) `scalarLine`, `documentLine`, `arrayLine`, `mapLines`: whole entries. The type stands in a
      comment; arrays of strings have none.
-/
import ConfigTemplate.Template.Shape

namespace ConfigTemplate

/-! ## (1) Literals -/

def Scalar.literal : Scalar → String
  | .boolean => "true"
  | .byte => "10"
  | .int => "12"
  | .float => "1.23"
  | .decimal => "12345.67"
  | .string => "\"str1\""

def Scalar.arrayLiteral : Scalar → String
  | .boolean => "[false, false, true]"
  | .byte => "[1, 2]"
  | .int => "[12, 34]"
  | .float => "[12.3, 45.6, 78.9]"
  | .decimal => "[12300.4, 56700.8, 89100.2]"
  | .string => "[\"str1\", \"str2\", \"str3\"]"

def Scalar.mapLiterals : Scalar → String × String
  | .boolean => ("true", "true")
  | .byte => ("1", "80")
  | .int => ("1", "9090")
  | .float => ("100.00", "1900.00")
  | .decimal => ("25000.00", "30000.00")
  | .string => ("\"value1\"", "\"value2\"")

def Document.literal : Document → String
  | .xml => "\"<book>The Lost World</book>\""
  | .json => "\x7bname = \"Jane\"\x7d"

/-! ## (2) Entries -/

namespace Template

def scalarLine (name : String) (s : Scalar) : String := name ++ " = " ++ s.literal ++ " # type: " ++ s.name ++ "\n"

def documentLine (name : String) (d : Document) : String :=
  name ++ " = " ++ d.literal ++ " # type: " ++ d.name ++ "\n"

def arrayLine (name : String) (s : Scalar) : String :=
  match s with
  | .string => name ++ " = " ++ s.arrayLiteral ++ "\n"
  | _ => name ++ " = " ++ s.arrayLiteral ++ " # type: " ++ s.name ++ "[]\n"

def mapLines (path : String) (s : Scalar) : String :=
  "[" ++ path ++ "] # type: " ++ s.name ++ "\nkey1 = " ++ s.mapLiterals.1 ++ "\nkey2 = " ++ s.mapLiterals.2 ++ "\n"

end Template

end ConfigTemplate
