/-
  ConfigTemplate.Toml.Key — keys: parts joined by dots.

  (1) `scanPart`: a bare part of ASCII letters, digits, underscores and dashes, or a
      quoted one on one line.
  (2) `scanKey`: a row of parts, with blanks around each; a key has at most as many
      parts as the format allows.
-/
import ConfigTemplate.Toml.Text

namespace ConfigTemplate.Toml

/-! ## (1) Parts -/

def isBare (c : Char) : Bool :=
  ('A' ≤ c && c ≤ 'Z') || ('a' ≤ c && c ≤ 'z') || Text.isDigit c || c = '-' || c = '_'

def scanPart : List Char → Option (List Char × List Char)
  | '"' :: rest => scanEscaped false .plain rest
  | '\'' :: rest => scanVerbatim false rest
  | cs => if cs.takeWhile isBare = [] then none else some (cs.takeWhile isBare, cs.dropWhile isBare)

/-! ## (2) Keys -/

/-- A key of at most `n` parts, and what follows the blanks after it. -/
def scanKeyUpTo : Nat → List Char → Option (List String × List Char)
  | 0, _ => none
  | n + 1, cs => do
    let (part, rest) ← scanPart (skipSpaces cs)
    match skipSpaces rest with
    | '.' :: rest =>
      let (parts, rest) ← scanKeyUpTo n rest
      pure (String.ofList part :: parts, rest)
    | rest => pure ([String.ofList part], rest)

/-- The greatest number of parts of a key, and of brackets open around a value. -/
def limit : Nat := 79

def scanKey (cs : List Char) : Option (List String × List Char) := scanKeyUpTo limit cs

end ConfigTemplate.Toml
