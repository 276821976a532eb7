/-
  ConfigTemplate.Decimal.Binary — the finite double-precision numbers, and the one
  nearest to a fraction.

  (1) `Binary`: `mantissa · 2 ^ exponent`, the mantissa below 2 ^ 53 and the exponent
      from -1074 to 971.
  (2) `roundDiv`: a quotient rounded to the nearest whole number; `Tie` says which one
      a quotient halfway between two takes.
  (3) `nearest`: the double nearest to `num / den`, of two the one with the even
      mantissa; none past the largest one.
      `nearestDecimal`: the same for a decimal.
-/

namespace ConfigTemplate.Decimal

structure Binary where
  mantissa : Nat
  exponent : Int
  deriving DecidableEq, Repr

/-! ## (2) Rounding a quotient -/

inductive Tie where
  | even
  | up
  deriving DecidableEq, Repr

/-- The whole number that a quotient halfway from `q` to `q + 1` takes. -/
def Tie.settle : Tie → Nat → Nat
  | .even, q => q + q % 2
  | .up, q => q + 1

def roundDiv (tie : Tie) (num den : Nat) : Nat :=
  let q := num / den
  let r := num % den
  if 2 * r < den then q else if den < 2 * r then q + 1 else tie.settle q

/-- The fraction `num / den` divided by `2 ^ e`, as a fraction. -/
def scaled (num den : Nat) (e : Int) : Nat × Nat :=
  if 0 ≤ e then (num, den * Nat.pow 2 e.toNat) else (num * Nat.pow 2 (-e).toNat, den)

/-! ## (3) The nearest double -/

/-- The exponent at which `num / den` has a mantissa of 53 bits, or the least one. -/
def exponentFor (num den : Nat) : Int :=
  let low : Int := (num.log2 : Int) - (den.log2 : Int) - 53
  let (n, d) := scaled num den low
  max (if n / d < Nat.pow 2 53 then low else low + 1) (-1074)

def nearest (num den : Nat) : Option Binary :=
  if num = 0 then some ⟨0, -1074⟩
  else
    let e := exponentFor num den
    let (n, d) := scaled num den e
    let m := roundDiv .even n d
    let (m, e) := if m = Nat.pow 2 53 then (Nat.pow 2 52, e + 1) else (m, e)
    if e ≤ 971 then some ⟨m, e⟩ else none

/-- The double nearest to `n · 10 ^ e`. A decimal with its point four hundred places off
    is past the largest double or rounds to zero. -/
def nearestDecimal (n : Nat) (e : Int) : Option Binary :=
  let point : Int := (Nat.toDigits 10 n).length + e
  if n = 0 ∨ point < -400 then nearest 0 1
  else if 400 < point then none
  else if 0 ≤ e then nearest (n * Nat.pow 10 e.toNat) 1
  else nearest n (Nat.pow 10 (-e).toNat)

namespace Binary

/-- The value as a fraction. -/
def fraction (x : Binary) : Nat × Nat :=
  if 0 ≤ x.exponent then (x.mantissa * Nat.pow 2 x.exponent.toNat, 1) else (x.mantissa, Nat.pow 2 (-x.exponent).toNat)

def mul (x y : Binary) : Option Binary :=
  nearest (x.fraction.1 * y.fraction.1) (x.fraction.2 * y.fraction.2)

def div (x y : Binary) : Option Binary :=
  nearest (x.fraction.1 * y.fraction.2) (x.fraction.2 * y.fraction.1)

end Binary

/-- A double-precision number: finite, with its sign, or one of the special values. -/
inductive Double where
  | finite (negative : Bool) (size : Binary)
  | infinite (negative : Bool)
  | nan
  deriving DecidableEq, Repr

end ConfigTemplate.Decimal
