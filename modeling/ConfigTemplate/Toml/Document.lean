/-
  ConfigTemplate.Toml.Document — whole documents.

  (1) `Statement`: a binding, the header of a table, the header of a row.
  (2) `statements`: the statements of a text, in order; each ends its line.
  (3) `build`: the table they denote. The bindings below a header belong to its table.
  (4) `read`: the data tree of a text; none if it is no document.
-/
import ConfigTemplate.Toml.Value

namespace ConfigTemplate.Toml

/-! ## (1) Statements -/

inductive Statement where
  | binding (key : List String) (d : Data)
  | table (key : List String)
  | row (key : List String)

/-! ## (2) Reading statements -/

/-- A statement without its line end. -/
def scanStatement : List Char → Option (Statement × List Char)
  | '[' :: '[' :: rest => do
    let (key, rest) ← scanKey rest
    let rest ← scanExact ']' rest
    let rest ← scanExact ']' rest
    pure (.row key, rest)
  | '[' :: rest => do
    let (key, rest) ← scanKey rest
    let rest ← scanExact ']' rest
    pure (.table key, rest)
  | cs => do
    let (key, rest) ← scanKey cs
    let rest ← scanExact '=' rest
    let (d, rest) ← value (2 * rest.length + 2) limit (skipSpaces rest)
    pure (.binding key d, rest)

/-- At most `n` lines or statements. -/
def statements : Nat → List Char → Option (List Statement)
  | 0, _ => none
  | n + 1, cs =>
    match skipSpaces cs with
    | [] => some []
    | '\n' :: rest => statements n rest
    | '#' :: rest => (lineEnd ('#' :: rest)).bind (statements n)
    | cs => do
      let (s, rest) ← scanStatement cs
      let rest ← lineEnd rest
      let more ← statements n rest
      pure (s :: more)

/-! ## (3) The table of a document -/

/-- The bindings before the next header, and the statements from it on. -/
def bindings : List Statement → List Binding × List Statement
  | .binding key d :: rest => ((key, d) :: (bindings rest).1, (bindings rest).2)
  | rest => ([], rest)

/-- Opens the table or row of a header with the bindings below it. -/
def openAt (create : String → Entries → Option Entries) (key : List String) (es : Entries) : Option Entries :=
  match key.getLast? with
  | none => none
  | some last => under (create last) key.dropLast es

/-- The sections from the first header on; a binding belongs to the header before it. -/
def buildSections : List Statement → Entries → Option Entries
  | [], es => some es
  | .table key :: rest, es => (openAt (openTable (bindings rest).1) key es).bind (buildSections rest)
  | .row key :: rest, es => (openAt (openRow (bindings rest).1) key es).bind (buildSections rest)
  | .binding _ _ :: rest, es => buildSections rest es

def build (ss : List Statement) : Option Entries := (putAll (bindings ss).1 []).bind (buildSections ss)

/-! ## (4) Documents -/

/-- A byte order mark may stand in front. -/
def dropMark : List Char → List Char
  | c :: rest => if c.toNat = 0xFEFF then rest else c :: rest
  | [] => []

def read (text : String) : Option Data := do
  let cs := unify (dropMark text.toList)
  let ss ← statements (cs.length + 1) cs
  let es ← build ss
  pure (.table (dataEntries es) true)

end ConfigTemplate.Toml
