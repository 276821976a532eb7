/-
  ConfigTemplate.Toml.Line — line ends, blanks and comments.

  (1) `unify`: a carriage return and a line feed together are one line end, written as
      the line feed alone. A carriage return that stays is no character of the format.
  (2) `isSpace`, `isPlain`: blanks within a line, and what a comment may hold.
  (3) `lineEnd`: what may follow the last word of a line. `skipGap`: blanks, line ends
      and comments between the items of an array.
-/

namespace ConfigTemplate.Toml

/-! ## (1) Line ends -/

def unify : List Char → List Char
  | [] => []
  | '\r' :: '\n' :: rest => '\n' :: unify rest
  | c :: rest => c :: unify rest

/-! ## (2) Characters -/

def isSpace (c : Char) : Bool := c = ' ' || c = '\t'

/-- Every character but the line end and the other control characters. -/
def isPlain (c : Char) : Bool := c = '\t' || (0x20 ≤ c.toNat && c.toNat != 0x7F)

def skipSpaces (cs : List Char) : List Char := cs.dropWhile isSpace

/-! ## (3) Comments -/

def dropComment : List Char → List Char
  | '#' :: rest => rest.dropWhile isPlain
  | cs => cs

/-- The lines after this one, if only blanks and a comment are left on it. -/
def lineEnd (cs : List Char) : Option (List Char) :=
  match dropComment (skipSpaces cs) with
  | [] => some []
  | '\n' :: rest => some rest
  | _ => none

/-- Stops at the first character that belongs to none of them. -/
def skipGap (inComment : Bool) : List Char → List Char
  | [] => []
  | c :: rest =>
    if c = '\n' then skipGap false rest
    else if inComment then if isPlain c then skipGap true rest else c :: rest
    else if c = '#' then skipGap true rest
    else if isSpace c then skipGap false rest
    else c :: rest

end ConfigTemplate.Toml
