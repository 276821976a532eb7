/-
  ConfigTemplate.Toml.Moment — dates and times of day.

  (1) `scanDate`: year, month and day, with the days of the month in that year.
  (2) `scanTime`: hour, minute and second, perhaps with a fraction of a second.
  (3) `scanMoment`: a date, a time, or a date with a time and perhaps an offset. Nobody
      reads its parts, so only what follows it is kept.
-/
import ConfigTemplate.Text.Digit

namespace ConfigTemplate.Toml

open Text (isDigit natural)

/-- A number of exactly so many digits. -/
def scanFixed (n : Nat) (cs : List Char) : Option (Nat × List Char) :=
  if (cs.take n).length = n ∧ (cs.take n).all isDigit then some (natural (cs.take n), cs.drop n) else none

def scanExact (c : Char) : List Char → Option (List Char)
  | a :: rest => if a = c then some rest else none
  | [] => none

/-! ## (1) Dates -/

def isLeap (year : Nat) : Bool := year % 4 == 0 && (year % 100 != 0 || year % 400 == 0)

def daysIn (year month : Nat) : Nat :=
  if month = 2 then if isLeap year then 29 else 28
  else if month = 4 ∨ month = 6 ∨ month = 9 ∨ month = 11 then 30
  else 31

def scanDate (cs : List Char) : Option (List Char) := do
  let (year, cs) ← scanFixed 4 cs
  let cs ← scanExact '-' cs
  let (month, cs) ← scanFixed 2 cs
  let cs ← scanExact '-' cs
  let (day, cs) ← scanFixed 2 cs
  if 1 ≤ month ∧ month ≤ 12 ∧ 1 ≤ day ∧ day ≤ daysIn year month then some cs else none

/-! ## (2) Times of day -/

/-- Hours and minutes. -/
def scanClock (cs : List Char) : Option (List Char) := do
  let (hour, cs) ← scanFixed 2 cs
  let cs ← scanExact ':' cs
  let (minute, cs) ← scanFixed 2 cs
  if hour ≤ 23 ∧ minute ≤ 59 then some cs else none

/-- A point and digits, if they are there. -/
def dropFraction : List Char → List Char
  | '.' :: c :: rest => if isDigit c then rest.dropWhile isDigit else '.' :: c :: rest
  | cs => cs

/-- A second may be the sixtieth. -/
def scanTime (cs : List Char) : Option (List Char) := do
  let cs ← scanClock cs
  let cs ← scanExact ':' cs
  let (second, cs) ← scanFixed 2 cs
  if second ≤ 60 then some (dropFraction cs) else none

/-! ## (3) Moments -/

/-- An offset from universal time, if there is one; a sign has to be followed by it. -/
def scanOffset : List Char → Option (List Char)
  | [] => some []
  | c :: rest =>
    if c = 'Z' ∨ c = 'z' then some rest
    else if c = '+' ∨ c = '-' then scanClock rest
    else some (c :: rest)

/-- A time after a date, if there is one. -/
def scanTimeOfDate : List Char → Option (List Char)
  | [] => some []
  | c :: rest =>
    if c = 'T' ∨ c = 't' ∨ c = ' ' then
      match scanTime rest with
      | some rest => scanOffset rest
      | none => some (c :: rest)
    else some (c :: rest)

def scanMoment (cs : List Char) : Option (List Char) :=
  match scanDate cs with
  | some rest => scanTimeOfDate rest
  | none => scanTime cs

end ConfigTemplate.Toml
