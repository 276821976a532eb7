/-
  ConfigTemplate.Options — how optional entries are written.

  (1) `Style`: an optional entry is commented out as it stands, or line by line.
  (2) `Style.ofName?`: a style by its name, in any case (`Style.ofName?_eq_some`).
  (3) `Options`: the style, and whether optional entries are written at all.
-/
import ConfigTemplate.Text.Caseless

namespace ConfigTemplate

inductive Style where
  | inherited
  | commentEachLine
  deriving DecidableEq, Repr

def Style.name : Style → String
  | .inherited => "inherited"
  | .commentEachLine => "comment_each_line"

def Style.ofName? (s : String) : Option Style :=
  if Text.isWord "inherited" s then some .inherited
  else if Text.isWord "comment_each_line" s then some .commentEachLine
  else none

/-- A text stands for a style when it is its name, but for the case. -/
theorem Style.ofName?_eq_some {s : String} {style : Style} :
    Style.ofName? s = some style ↔ s.toList.map Text.lower = style.name.toList := by
  simp only [Style.ofName?, Text.isWord_iff]
  split
  · rename_i hinherited
    rw [hinherited]
    cases style <;> decide
  · rename_i hinherited
    split
    · rename_i hcomment
      rw [hcomment]
      cases style <;> decide
    · rename_i hcomment
      cases style with
      | inherited => simpa [Style.name] using hinherited
      | commentEachLine => simpa [Style.name] using hcomment

/-- What is said of a name that is no style's. -/
def Style.refusal (s : String) : String :=
  "Invalid optional_style '" ++ s ++ "'. Expected 'inherited' or 'comment_each_line'"

structure Options where
  style : Style := .inherited
  includeOptional : Bool := true
  deriving DecidableEq, Repr

end ConfigTemplate
