/-
  ConfigTemplate.Json.Number — the number a JSON literal stands for.

  (1) `keep`: of a row of digits, the leading ones whose value fits in 64 bits; from
      the first that does not fit on they are only counted.
  (2) `scale`: a double multiplied or divided by powers of ten, each step rounded.
  (3) `Literal.number`: a whole literal is a whole number while it fits in 64 bits;
      every other literal is a double, and a literal past the largest double none.
  (4) `scanLiteral`: the longest number literal at the start of a text.
-/
import ConfigTemplate.Data
import ConfigTemplate.Text.Digit

namespace ConfigTemplate.Json

open Decimal (Binary Double nearest)
open Text (isDigit digitValue natural)

/-! ## (1) Digits that fit -/

/-- The value of the digits kept after `value`, and how many were not kept. -/
def keep (value : Nat) : List Char → Nat × Nat
  | [] => (value, 0)
  | c :: rest =>
    let next := value * 10 + digitValue c
    if next < Nat.pow 2 64 then keep next rest else (value, rest.length + 1)

/-! ## (2) Powers of ten -/

def zero : Binary := ⟨0, -1074⟩

def power (k : Nat) : Binary := (nearest (Nat.pow 10 k) 1).getD zero

/-- `x · 10 ^ e`; none past the largest double. A number below the powers that doubles
    have is divided by the greatest one until it is in range or zero. -/
def scale : Nat → Binary → Int → Option Binary
  | fuel, x, e =>
    if 0 ≤ e ∧ e ≤ 308 then x.mul (power e.toNat)
    else if -308 ≤ e ∧ e < 0 then x.div (power (-e).toNat)
    else if x.mantissa = 0 then some x
    else if 0 ≤ e then none
    else match fuel with
      | 0 => some zero
      | fuel + 1 => (x.div (power 308)).bind fun y => scale fuel y (e + 308)

/-! ## (3) Literals -/

structure Literal where
  negative : Bool
  whole : List Char
  fraction : List Char
  /-- The exponent's sign and digits. -/
  exponent : Option (Bool × List Char)
  deriving DecidableEq, Repr

namespace Literal

def double (l : Literal) : Number :=
  let (value, dropped) := keep 0 l.whole
  let (value, rest) := keep value l.fraction
  let shift : Int := dropped - (l.fraction.length - rest : Nat)
  let shift := match l.exponent with
    | none => shift
    | some (true, ds) => shift - natural ds
    | some (false, ds) => shift + natural ds
  match (nearest value 1).bind fun x => scale 3 x shift with
  | some x => .double (.finite l.negative x)
  | none => .tooLarge

def number (l : Literal) : Number :=
  if l.fraction ≠ [] ∨ l.exponent.isSome then l.double
  else
    let n := natural l.whole
    if l.negative then
      if 0 < n ∧ n ≤ Nat.pow 2 63 then .integer (-n) else l.double
    else if n < Nat.pow 2 64 then .natural n else l.double

end Literal

/-! ## (4) Reading a literal -/

/-- A point and at least one digit, or nothing. -/
def scanFraction : List Char → Option (List Char × List Char)
  | '.' :: rest =>
    let ds := rest.takeWhile isDigit
    if ds = [] then none else some (ds, rest.dropWhile isDigit)
  | rest => some ([], rest)

/-- A sign, if any; true for minus. -/
def scanSign : List Char → Bool × List Char
  | '-' :: rest => (true, rest)
  | '+' :: rest => (false, rest)
  | rest => (false, rest)

def scanExponent : List Char → Option (Option (Bool × List Char) × List Char)
  | c :: rest =>
    if c = 'e' ∨ c = 'E' then
      let (negative, rest) := scanSign rest
      let ds := rest.takeWhile isDigit
      if ds = [] then none else some (some (negative, ds), rest.dropWhile isDigit)
    else some (none, c :: rest)
  | [] => some (none, [])

/-- The digits before the point: one zero, or no zero in front. -/
def scanWhole (cs : List Char) : Option (List Char × List Char) :=
  match cs.takeWhile isDigit with
  | [] => none
  | '0' :: _ :: _ => none
  | ds => some (ds, cs.dropWhile isDigit)

def scanLiteral (cs : List Char) : Option (Literal × List Char) := do
  let (negative, cs) := match cs with
    | '-' :: rest => (true, rest)
    | _ => (false, cs)
  let (whole, cs) ← scanWhole cs
  let (fraction, cs) ← scanFraction cs
  let (exponent, cs) ← scanExponent cs
  pure (⟨negative, whole, fraction, exponent⟩, cs)

end ConfigTemplate.Json
