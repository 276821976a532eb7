/-
  ConfigTemplate.Toml.Number — integers and floating-point numbers.

  (1) `scanDigits`: a row of digits in which single underscores may stand between two.
  (2) `scanDecimal`: a decimal integer of 64 bits, or a number with a fraction or an
      exponent; `scanBased`: an integer in hexadecimal, octal or binary digits.
  (3) `scanNumber`: either of them, an infinity, or no number. A number is rounded to the nearest
      double; one past the largest double is refused, one below the smallest is the
      negative infinity.
-/
import ConfigTemplate.Data
import ConfigTemplate.Text.Digit

namespace ConfigTemplate.Toml

open Decimal (nearestDecimal)
open Text (isDigit hexValue)

/-! ## (1) Digits -/

/-- The value of a digit in a base. -/
def digitIn (base : Nat) (c : Char) : Option Nat := (hexValue c).filter (· < base)

/-- The digits that follow one. -/
def moreDigits (base : Nat) : List Char → Option (List Nat × List Char)
  | [] => some ([], [])
  | '_' :: c :: rest =>
    match digitIn base c with
    | none => none
    | some d => (moreDigits base rest).map fun (ds, rest) => (d :: ds, rest)
  | c :: rest =>
    if c = '_' then none
    else match digitIn base c with
      | none => some ([], c :: rest)
      | some d => (moreDigits base rest).map fun (ds, rest) => (d :: ds, rest)

def scanDigits (base : Nat) : List Char → Option (List Nat × List Char)
  | [] => none
  | c :: rest => do
    let d ← digitIn base c
    let (ds, rest) ← moreDigits base rest
    pure (d :: ds, rest)

def valueOf (base : Nat) (ds : List Nat) : Nat := ds.foldl (fun n d => n * base + d) 0

/-! ## (2) Numbers -/

/-- A zero alone, or digits that do not start with one. -/
def scanWhole : List Char → Option (List Nat × List Char)
  | '0' :: rest => some ([0], rest)
  | cs => scanDigits 10 cs

def scanFraction : List Char → Option (List Nat × List Char)
  | '.' :: rest => scanDigits 10 rest
  | cs => some ([], cs)

/-- A sign, if any; true for minus. -/
def scanSign : List Char → Bool × List Char
  | '-' :: rest => (true, rest)
  | '+' :: rest => (false, rest)
  | rest => (false, rest)

/-- The exponent, if there is one. -/
def scanExponent : List Char → Option (Option Int × List Char)
  | [] => some (none, [])
  | c :: rest =>
    if c = 'e' ∨ c = 'E' then do
      let (negative, rest) := scanSign rest
      let (ds, rest) ← scanDigits 10 rest
      let n := valueOf 10 ds
      pure (some (if negative then -n else n), rest)
    else some (none, c :: rest)

def integer (negative : Bool) (n : Nat) : Option Number :=
  if negative then if n ≤ Nat.pow 2 63 then some (.integer (-n)) else none
  else if n < Nat.pow 2 63 then some (.integer n) else none

def double (negative : Bool) (digits : Nat) (exponent : Int) : Option Number :=
  match nearestDecimal digits exponent with
  | some x => some (.double (.finite negative x))
  | none => if negative then some (.double (.infinite true)) else none

def scanDecimal (negative : Bool) (cs : List Char) : Option (Number × List Char) := do
  let (whole, cs) ← scanWhole cs
  let (fraction, cs) ← scanFraction cs
  let (exponent, cs) ← scanExponent cs
  let n ← if fraction = [] ∧ exponent = none then integer negative (valueOf 10 whole)
    else double negative (valueOf 10 (whole ++ fraction)) (exponent.getD 0 - fraction.length)
  pure (n, cs)

def scanBased (base : Nat) (cs : List Char) : Option (Number × List Char) := do
  let (ds, cs) ← scanDigits base cs
  let n ← integer false (valueOf base ds)
  pure (n, cs)

/-! ## (3) Any number -/

def scanNumber (cs : List Char) : Option (Number × List Char) :=
  match cs with
  | '0' :: 'x' :: rest => scanBased 16 rest
  | '0' :: 'o' :: rest => scanBased 8 rest
  | '0' :: 'b' :: rest => scanBased 2 rest
  | _ =>
    let (negative, rest) := scanSign cs
    match rest with
    | 'i' :: 'n' :: 'f' :: rest => some (.double (.infinite negative), rest)
    | 'n' :: 'a' :: 'n' :: rest => some (.double .nan, rest)
    | _ => scanDecimal negative rest

end ConfigTemplate.Toml
