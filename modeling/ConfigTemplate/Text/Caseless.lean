/-
  ConfigTemplate.Text.Caseless — comparing a text with a lower-case ASCII word,
  whatever the case the text is written in.

  Lower-casing in the sense of Unicode sends two kinds of characters into ASCII:
  the capitals `A` to `Z`, and the Kelvin sign to `k`. Every other character stays
  outside ASCII, at least in part (a dotted capital I keeps its dot), so the two
  cases of `lower` decide whether a text is a given ASCII word in some case
  (`isWord_iff`).
-/

namespace ConfigTemplate.Text

def lower (c : Char) : Char :=
  if c.toNat = 0x212A then 'k'
  else if 'A' ≤ c ∧ c ≤ 'Z' then Char.ofNat (c.toNat + 32)
  else c

/-- The text `s` in lower case is the ASCII word `word`. -/
def isWord (word s : String) : Bool := s.toList.map lower == word.toList

theorem isWord_iff {word s : String} : isWord word s = true ↔ s.toList.map lower = word.toList := by
  rw [isWord, beq_iff_eq]

end ConfigTemplate.Text
