/-
  ConfigTemplate.Text.Digit — digits and the numbers they write.

  (1) `isDigit`, `digitValue`: the ten decimal digits.
  (2) `hexValue`: the sixteen hexadecimal digits, in either case.
  (3) `natural`: the number a row of decimal digits writes; `hexNumber`: the same for
      hexadecimal digits, none if one of the characters is no such digit.
-/

namespace ConfigTemplate.Text

def isDigit (c : Char) : Bool := '0' ≤ c && c ≤ '9'

def digitValue (c : Char) : Nat := c.toNat - '0'.toNat

def hexValue (c : Char) : Option Nat :=
  if '0' ≤ c ∧ c ≤ '9' then some (c.toNat - '0'.toNat)
  else if 'a' ≤ c ∧ c ≤ 'f' then some (c.toNat - 'a'.toNat + 10)
  else if 'A' ≤ c ∧ c ≤ 'F' then some (c.toNat - 'A'.toNat + 10)
  else none

def natural (ds : List Char) : Nat := ds.foldl (fun n c => n * 10 + digitValue c) 0

def hexNumber (cs : List Char) : Option Nat :=
  cs.foldlM (fun n c => (hexValue c).map (n * 16 + ·)) 0

end ConfigTemplate.Text
