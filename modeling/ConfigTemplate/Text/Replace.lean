/-
  ConfigTemplate.Text.Replace — replacing every occurrence of a word in a text.

  (1) `replaceFrom`: from the left, occurrences do not overlap, and what was put in is
      not looked at again.
  (2) `replaceAll`: the same for a whole text.
-/

namespace ConfigTemplate.Text

/-- Passes over `skip` characters first. -/
def replaceFrom (word new : List Char) : Nat → List Char → List Char
  | _, [] => []
  | skip + 1, _ :: rest => replaceFrom word new skip rest
  | 0, c :: rest =>
    if word.isPrefixOf (c :: rest) then new ++ replaceFrom word new (word.length - 1) rest
    else c :: replaceFrom word new 0 rest

def replaceAll (word new s : List Char) : List Char := replaceFrom word new 0 s

end ConfigTemplate.Text
