/-
  ConfigTemplate.Settings.Placeholder — variables of the environment in a settings
  text, written as a dollar sign and a name in braces.

  (1) `placeholders`: the names of the placeholders of a line, from left to right. A
      name has capitals, digits and underscores, and does not start with a digit.
  (2) `fillLine`: for each placeholder of the line in turn, all its occurrences become
      the variable's value.
  (3) `substitute`: line by line; a line whose first visible character starts a comment
      stays as it is. All variables that are not set are reported together.
-/
import ConfigTemplate.Environment
import ConfigTemplate.Text.Blank
import ConfigTemplate.Text.Lines
import ConfigTemplate.Text.Replace

namespace ConfigTemplate.Settings

/-! ## (1) Placeholders -/

def startsName (c : Char) : Bool := ('A' ≤ c && c ≤ 'Z') || c = '_'

def inName (c : Char) : Bool := startsName c || ('0' ≤ c && c ≤ '9')

/-- The name, if the text starts with a placeholder. -/
def placeholder? : List Char → Option (List Char)
  | '$' :: '\x7b' :: c :: rest =>
    if startsName c ∧ (rest.dropWhile inName).head? = some '\x7d' then some (c :: rest.takeWhile inName) else none
  | _ => none

def placeholders : List Char → List (List Char)
  | [] => []
  | c :: rest =>
    match placeholder? (c :: rest) with
    | some name => name :: placeholders rest
    | none => placeholders rest

/-- The placeholder of a name. -/
def written (name : List Char) : List Char := '$' :: '\x7b' :: name ++ ['\x7d']

/-! ## (2) Filling a line -/

def isComment (line : List Char) : Bool := (line.dropWhile Text.isBlank).head? = some '#'

/-- The placeholders of a line that count. -/
def wanted (line : List Char) : List (List Char) := if isComment line then [] else placeholders line

def fillNames (env : Environment) : List (List Char) → List Char → List Char
  | [], line => line
  | name :: rest, line =>
    match env.get? (String.ofList name) with
    | some value => fillNames env rest (Text.replaceAll (written name) value.toList line)
    | none => fillNames env rest line

def fillLine (env : Environment) (line : List Char) : List Char := fillNames env (wanted line) line

/-! ## (3) Whole texts -/

/-- Each name once, at its first occurrence. -/
def distinct : List String → List String → List String
  | [], seen => seen
  | name :: rest, seen => distinct rest (if seen.contains name then seen else seen ++ [name])

/-- The variables that are wanted and not set. -/
def unset (env : Environment) (lines : List (List Char)) : List String :=
  distinct (((lines.flatMap wanted).map String.ofList).filter fun name => (env.get? name).isNone) []

/-- The text with its placeholders filled, or the variables that are not set. -/
def substitute (env : Environment) (text : String) : Except (List String) String :=
  let lines := Text.lines text.toList
  match unset env lines with
  | [] => .ok (String.ofList (lines.flatMap fun line => fillLine env line ++ ['\n']))
  | names => .error names

end ConfigTemplate.Settings
