/-
  ConfigTemplate.Text.Blank — white space in the sense of the Unicode property
  White_Space, which decides what counts as an empty name, path or comment line.

  (1) `isBlank` is the property, `allBlank` says a text has no other character.
  (2) `allBlank_iff`: a text is blank exactly when it has no visible character.
-/

namespace ConfigTemplate.Text

/-- The twenty-five characters with the property White_Space. -/
def isBlank (c : Char) : Bool :=
  let n := c.toNat
  (9 ≤ n && n ≤ 13) || n == 0x20 || n == 0x85 || n == 0xA0 || n == 0x1680 || (0x2000 ≤ n && n ≤ 0x200A) ||
    n == 0x2028 || n == 0x2029 || n == 0x202F || n == 0x205F || n == 0x3000

/-- No character of the text is visible; the empty text is blank. -/
def allBlank (s : String) : Bool := s.toList.all isBlank

theorem allBlank_iff (s : String) : allBlank s = false ↔ ∃ c ∈ s.toList, isBlank c = false := by
  simp [allBlank]

end ConfigTemplate.Text
