/-
  ConfigTemplate.Data.Problem — why a data tree is not what its reader expects.

  (1) `Problem`: the text itself is unreadable, or the data has the wrong shape.
  (2) `Problem.message`: the wording.
  (3) `mismatch`: the problem of a value of the wrong kind; a value that cannot be
      read at all is reported as unreadable.
-/
import ConfigTemplate.Data
import ConfigTemplate.Decimal.Layout
import ConfigTemplate.Text.Quoted

namespace ConfigTemplate.Data

/-! ## (1) Problems -/

inductive Problem where
  | unreadable
  | missingField (name : String)
  | duplicateField (name : String)
  | unknownVariant (found : String) (known : List String)
  | invalidType (found expected : String)
  | invalidVariantIndex (found : Nat) (count : Nat)
  | invalidLength (found : Nat) (expected : String)
  deriving DecidableEq, Repr

/-! ## (2) Wording -/

def ticked (s : String) : String := "`" ++ s ++ "`"

/-- One name, two joined by a word, or a list after "one of". -/
def oneOf : List String → String
  | [] => ""
  | [a] => ticked a
  | [a, b] => ticked a ++ " or " ++ ticked b
  | names => "one of " ++ String.intercalate ", " (names.map ticked)

def Problem.message : Problem → String
  | .unreadable => "parse error"
  | .missingField name => "missing field " ++ ticked name
  | .duplicateField name => "duplicate field " ++ ticked name
  | .unknownVariant found known => "unknown variant " ++ ticked found ++ ", expected " ++ oneOf known
  | .invalidType found expected => "invalid type: " ++ found ++ ", expected " ++ expected
  | .invalidVariantIndex found count =>
    "invalid value: integer " ++ ticked (toString found) ++ ", expected variant index 0 <= i < " ++ toString count
  | .invalidLength found expected => "invalid length " ++ toString found ++ ", expected " ++ expected

/-! ## (3) Values of the wrong kind -/

/-- What a value is called in a message; none if it cannot be read. -/
def describe (layout : Decimal.Layout) : Data → Option String
  | broken => none
  | null => some "null"
  | bool b => some ("boolean " ++ ticked (if b then "true" else "false"))
  | number (.natural n) => some ("integer " ++ ticked (toString n))
  | number (.integer i) => some ("integer " ++ ticked (toString i))
  | number (.double d) => some ("floating point " ++ ticked (layout.text d))
  | number .tooLarge => none
  | text s => s.map fun s => "string " ++ Text.quoted s
  | list .. => some "sequence"
  | moment | table .. => some "map"

def mismatch (layout : Decimal.Layout) (expected : String) (d : Data) : Problem :=
  match d.describe layout with
  | none => .unreadable
  | some found => .invalidType found expected

end ConfigTemplate.Data
