/-
  ConfigTemplate.Text.Lines — the lines of a text.

  (1) `lines`: a line ends at a line feed; one carriage return just before it is
      dropped; what follows the last line feed is a line only if it is not empty.
  (2) `linesOf`: the same on texts.
-/

namespace ConfigTemplate.Text

def lines : List Char → List (List Char)
  | [] => []
  | '\n' :: rest => [] :: lines rest
  | '\r' :: '\n' :: rest => [] :: lines rest
  | c :: rest =>
    match lines rest with
    | [] => [[c]]
    | line :: more => (c :: line) :: more

/-- The lines of a text, as texts. -/
def linesOf (s : String) : List String := (lines s.toList).map String.ofList

end ConfigTemplate.Text
