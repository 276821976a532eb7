/-
  ConfigTemplate.Data — a data tree, as far as its text could be read.

  A text that breaks off or goes wrong still has a first part that can be read, and a
  reader of the tree may refuse that part for a reason of its own before it comes to
  the place where the text goes wrong. So the tree keeps such a place as a leaf.

  (1) `Number`: whole numbers of 64 bits, doubles, and literals too large for either.
  (2) `Data`: the tree. A list or a table is `closed` when its closing bracket was
      read; a text is `none` when it denotes no sequence of characters.
  (3) `whole`: nothing in the tree is broken. `fits`: it is whole, every text and
      number in it has a value, and it nests no deeper than a given number of levels.
-/
import ConfigTemplate.Decimal.Binary

namespace ConfigTemplate

/-! ## (1) Numbers -/

inductive Number where
  /-- A whole number from 0 to 2 ^ 64 - 1. -/
  | natural (n : Nat)
  /-- A whole number of 64 bits with a sign. -/
  | integer (i : Int)
  | double (d : Decimal.Double)
  | tooLarge
  deriving DecidableEq, Repr

/-! ## (2) Trees -/

inductive Data where
  /-- The text is no data from here on. -/
  | broken
  | null
  | bool (b : Bool)
  | number (n : Number)
  | text (s : Option String)
  /-- A date or a time of day; it counts as a table whose members nobody reads. -/
  | moment
  | list (items : List Data) (closed : Bool)
  | table (members : List (Option String × Data)) (closed : Bool)
  deriving Repr, Inhabited

namespace Data

/-! ## (3) Whole trees -/

mutual

def whole : Data → Bool
  | broken => false
  | list items closed => wholeItems items && closed
  | table members closed => wholeMembers members && closed
  | _ => true

def wholeItems : List Data → Bool
  | [] => true
  | d :: rest => whole d && wholeItems rest

def wholeMembers : List (Option String × Data) → Bool
  | [] => true
  | (_, d) :: rest => whole d && wholeMembers rest

end

/-- How many more levels of brackets may be opened; `none` for any number. -/
abbrev Room := Option Nat

/-- The room inside one more bracket. -/
def Room.enter : Room → Option Room
  | none => some none
  | some 0 => none
  | some (n + 1) => some (some n)

mutual

def fits : Room → Data → Bool
  | _, broken => false
  | _, null | _, bool _ | _, moment => true
  | _, number n => n != .tooLarge
  | _, text s => s.isSome
  | room, list items closed =>
    match room.enter with
    | none => false
    | some inner => fitItems inner items && closed
  | room, table members closed =>
    match room.enter with
    | none => false
    | some inner => fitMembers inner members && closed

def fitItems : Room → List Data → Bool
  | _, [] => true
  | room, d :: rest => fits room d && fitItems room rest

def fitMembers : Room → List (Option String × Data) → Bool
  | _, [] => true
  | room, (key, d) :: rest => key.isSome && fits room d && fitMembers room rest

end

mutual

/-- The greatest number of brackets open at once. -/
def depth : Data → Nat
  | list items _ => depthItems items + 1
  | table members _ => depthMembers members + 1
  | _ => 0

def depthItems : List Data → Nat
  | [] => 0
  | d :: rest => max (depth d) (depthItems rest)

def depthMembers : List (Option String × Data) → Nat
  | [] => 0
  | (_, d) :: rest => max (depth d) (depthMembers rest)

end

end Data

end ConfigTemplate
