/-
  ConfigTemplate.Decimal.Layout — the text of a double.

  (1) `Layout` says which numbers are written positionally, and which digits are taken
      when two decimals are equally near; the numbers that are not positional have one
      digit before the point and a signed exponent.
  (2) `Layout.text`: the shortest digits in that layout. A positional number always
      has a point, and so at least one digit after it.
-/
import ConfigTemplate.Decimal.Shortest

namespace ConfigTemplate.Decimal

structure Layout where
  /-- The exponents of the leading digit for which a number is positional; `none` for all. -/
  positional : Option (Int × Int)
  /-- Of two decimals equally near to a number and equally short, the one written. -/
  tie : Tie
  deriving DecidableEq, Repr

def zeros (n : Nat) : String := String.ofList (List.replicate n '0')

/-- Digits with a point before the place `point`, counted from the first digit. -/
def pointed (ds : List Char) (point : Int) : String :=
  if point ≤ 0 then "0." ++ zeros (-point).toNat ++ String.ofList ds
  else if (ds.length : Int) ≤ point then String.ofList ds ++ zeros (point.toNat - ds.length) ++ ".0"
  else String.ofList (ds.take point.toNat) ++ "." ++ String.ofList (ds.drop point.toNat)

/-- Digits with a point after the first one, if more follow, and an exponent. -/
def scientific (ds : List Char) (exponent : Int) : String :=
  let tail := if ds.length ≤ 1 then "" else "." ++ String.ofList (ds.drop 1)
  String.ofList (ds.take 1) ++ tail ++ "e" ++ (if exponent < 0 then "-" else "+") ++ toString exponent.natAbs

def Layout.digits (l : Layout) (d : Digits) : String :=
  let ds := Nat.toDigits 10 d.digits
  let point : Int := ds.length + d.exponent
  let inRange := match l.positional with
    | none => true
    | some (low, high) => decide (low ≤ point - 1 ∧ point - 1 ≤ high)
  if d.digits = 0 then "0.0" else if inRange then pointed ds point else scientific ds (point - 1)

def Layout.text (l : Layout) : Double → String
  | .finite negative size => (if negative then "-" else "") ++ l.digits (shortest l.tie size)
  | .infinite negative => if negative then "-inf" else "inf"
  | .nan => "NaN"

end ConfigTemplate.Decimal
