/-
  ConfigTemplate.Json.Write — plain data and its compact JSON text.

  (1) `Plain`: what is written: null, flags, texts, lists, and tables in the order of
      their members.
  (2) `Plain.compact`: no blanks; in a text only the quote, the backslash and the
      characters below the space are escaped.
  (3) `Plain.data`: the same as a data tree, nothing in it broken.
-/
import ConfigTemplate.Data

namespace ConfigTemplate.Json

/-! ## (1) Plain data -/

inductive Plain where
  | null
  | bool (b : Bool)
  | text (s : String)
  | list (items : List Plain)
  | table (members : List (String × Plain))
  deriving Repr, Inhabited

/-! ## (2) Compact text -/

def hexDigit (n : Nat) : Char := Nat.digitChar (n % 16)

/-- A character inside quotes. -/
def writeChar (c : Char) : List Char :=
  if c = '"' then ['\\', '"']
  else if c = '\\' then ['\\', '\\']
  else if c.toNat = 8 then ['\\', 'b']
  else if c = '\t' then ['\\', 't']
  else if c = '\n' then ['\\', 'n']
  else if c.toNat = 12 then ['\\', 'f']
  else if c = '\r' then ['\\', 'r']
  else if c.toNat < 0x20 then ['\\', 'u', '0', '0', hexDigit (c.toNat / 16), hexDigit c.toNat]
  else [c]

def writeText (s : String) : List Char := '"' :: s.toList.flatMap writeChar ++ ['"']

namespace Plain

mutual

def write : Plain → List Char
  | null => ['n', 'u', 'l', 'l']
  | bool true => ['t', 'r', 'u', 'e']
  | bool false => ['f', 'a', 'l', 's', 'e']
  | text s => writeText s
  | list items => '[' :: writeItems items ++ [']']
  | table members => '\x7b' :: writeMembers members ++ ['\x7d']

def writeItems : List Plain → List Char
  | [] => []
  | [v] => write v
  | v :: rest => write v ++ ',' :: writeItems rest

def writeMembers : List (String × Plain) → List Char
  | [] => []
  | [(key, v)] => writeText key ++ ':' :: write v
  | (key, v) :: rest => writeText key ++ ':' :: write v ++ ',' :: writeMembers rest

end

def compact (v : Plain) : String := String.ofList v.write

/-! ## (3) As a data tree -/

mutual

def data : Plain → Data
  | null => .null
  | bool b => .bool b
  | text s => .text (some s)
  | list items => .list (dataItems items) true
  | table members => .table (dataMembers members) true

def dataItems : List Plain → List Data
  | [] => []
  | v :: rest => data v :: dataItems rest

def dataMembers : List (String × Plain) → List (Option String × Data)
  | [] => []
  | (key, v) :: rest => (some key, data v) :: dataMembers rest

end

end Plain

end ConfigTemplate.Json
