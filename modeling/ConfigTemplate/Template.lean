/-
  ConfigTemplate.Template — the template of a configuration file.

  (1) `commentOut`: an optional fragment as a comment. In the inherited style only its
      first line is one; line by line, every line is, and the first carries the mark.
  (2) `moduleSection`: the header of a module, its required variables, then its
      optional ones that have a form, each part in order, and an empty line.
  (3) `document`: one section for each group, in order; the first variable of an
      unsupported kind ends it.
-/
import ConfigTemplate.Template.Fragment
import ConfigTemplate.Text.Lines
import ConfigTemplate.Options

namespace ConfigTemplate.Template

open Log (Traced)

/-! ## (1) Optional fragments -/

def mark : String := " (optional)"

def commentLine (line : String) : String := "# " ++ line ++ "\n"

def commentLines : List String → String
  | [] => ""
  | first :: rest => commentLine (first ++ mark) ++ String.join (rest.map commentLine)

def commentOut : Style → String → String
  | .inherited, fragment => "# " ++ fragment ++ mark ++ "\n"
  | .commentEachLine, fragment => commentLines (Text.linesOf fragment)

/-! ## (2) Sections -/

/-- The fragments of the optional variables that are written. -/
def optionalFragments (o : Options) (g : Group) : Traced Unsupported (List String) :=
  if o.includeOptional then do
    let all ← fragments g.key g.optional
    pure (all.filter (· != ""))
  else pure []

def moduleSection (o : Options) (g : Group) : Traced Unsupported String := do
  let required ← fragments g.key g.required
  let optional ← optionalFragments o g
  .report (.sectionRendered g.key g.required.length optional.length)
  pure ("[" ++ g.key.canonical ++ "]\n" ++ String.join required ++
    String.join (optional.map (commentOut o.style)) ++ "\n")

/-! ## (3) Documents -/

def sections (o : Options) : List Group → Traced Unsupported String
  | [] => pure ""
  | g :: rest => do
    let first ← moduleSection o g
    let more ← sections o rest
    pure (first ++ more)

def document (o : Options) (gs : List Group) : Traced Unsupported String := do
  let text ← sections o gs
  .report (.templateGenerated gs.length text.utf8ByteSize)
  pure text

end ConfigTemplate.Template
