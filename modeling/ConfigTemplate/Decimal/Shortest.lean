/-
  ConfigTemplate.Decimal.Shortest — the fewest decimal digits that read back as a
  given double.

  (1) `Interval`: the fractions that round to the number; its ends belong to it when
      the mantissa is even.
  (2) `digitsOn`: on the grid of `k` significant digits, the neighbour of the number
      that lies in the interval; of two, the nearer, and on a tie as `Tie` says.
  (3) `shortest`: the first grid, from one digit to seventeen, with such a neighbour.
-/
import ConfigTemplate.Decimal.Binary

namespace ConfigTemplate.Decimal

/-- `digits · 10 ^ exponent`. -/
structure Digits where
  digits : Nat
  exponent : Int
  deriving DecidableEq, Repr

/-- The fraction of a decimal. -/
def Digits.fraction (d : Digits) : Nat × Nat :=
  if 0 ≤ d.exponent then (d.digits * Nat.pow 10 d.exponent.toNat, 1) else (d.digits, Nat.pow 10 (-d.exponent).toNat)

def fractionLe (a b : Nat × Nat) : Bool := a.1 * b.2 ≤ b.1 * a.2

def fractionLt (a b : Nat × Nat) : Bool := a.1 * b.2 < b.1 * a.2

/-! ## (1) The fractions that round to a number -/

structure Interval where
  low : Nat × Nat
  high : Nat × Nat
  closed : Bool

def Interval.has (i : Interval) (x : Nat × Nat) : Bool :=
  if i.closed then fractionLe i.low x && fractionLe x i.high else fractionLt i.low x && fractionLt x i.high

/-- Half a step on either side; below a power of two the step is half as wide. -/
def Binary.interval (x : Binary) : Interval :=
  let at4 (m : Nat) : Nat × Nat :=
    if 2 ≤ x.exponent then (m * Nat.pow 2 (x.exponent - 2).toNat, 1) else (m, Nat.pow 2 (2 - x.exponent).toNat)
  let below := if x.mantissa = Nat.pow 2 52 ∧ -1074 < x.exponent then 1 else 2
  ⟨at4 (4 * x.mantissa - below), at4 (4 * x.mantissa + 2), x.mantissa % 2 == 0⟩

/-! ## (2) One grid -/

/-- The decimal exponent of the leading digit of `num / den`, for `0 < num`. -/
def leading (num den : Nat) : Int :=
  if den ≤ num then ((Nat.toDigits 10 (num / den)).length : Int) - 1
  else -((Nat.toDigits 10 ((den + num - 1) / num - 1)).length : Int)

def digitsOn (tie : Tie) (x : Binary) (k : Nat) : Option Digits :=
  let (num, den) := x.fraction
  let e : Int := leading num den - k + 1
  let (n, d) := if 0 ≤ e then (num, den * Nat.pow 10 e.toNat) else (num * Nat.pow 10 (-e).toNat, den)
  let low := n / d
  let inside (m : Nat) : Bool := x.interval.has (Digits.fraction ⟨m, e⟩)
  match inside low, inside (low + 1) with
  | true, true => some ⟨roundDiv tie n d, e⟩
  | true, false => some ⟨low, e⟩
  | false, true => some ⟨low + 1, e⟩
  | false, false => none

/-! ## (3) The first grid that has one -/

/-- The same decimal without trailing zeros in its digits. -/
def Digits.trim : Nat → Digits → Digits
  | 0, d => d
  | fuel + 1, d => if d.digits % 10 = 0 ∧ d.digits ≠ 0 then trim fuel ⟨d.digits / 10, d.exponent + 1⟩ else d

def shortest (tie : Tie) (x : Binary) : Digits :=
  if x.mantissa = 0 then ⟨0, 0⟩
  else (((List.range 17).findSome? fun k => digitsOn tie x (k + 1)).getD ⟨x.mantissa, x.exponent⟩).trim 20

end ConfigTemplate.Decimal
