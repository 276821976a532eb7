/-
  ConfigTemplate.Data.Record — reading values and records out of a data tree.

  (1) `Reading`: what depends on the format and on the place: how doubles are shown,
      and what happens to items that a record written as a list has no field for.
  (2) `readText`, `readBool`, `readList`: the plain values.
  (3) `Record`: named fields in declaration order. A record may be written as a table
      (other members are passed over, a field may not come twice, and a required field
      must come) or as a list of its fields in declaration order.
-/
import ConfigTemplate.Data.Problem

namespace ConfigTemplate.Data

/-! ## (1) Ways of reading -/

/-- What becomes of the items of a list that stand after a record's last field. -/
inductive Surplus where
  /-- They make the text unreadable. -/
  | unreadable
  | ignored
  /-- They are counted and reported. -/
  | counted
  deriving DecidableEq, Repr

structure Reading where
  layout : Decimal.Layout
  surplus : Surplus

def Reading.counting (r : Reading) : Reading := { r with surplus := .counted }

/-- The room inside a bracket, if one more may be opened. -/
def inside (room : Room) : Except Problem Room :=
  match room.enter with
  | none => .error .unreadable
  | some inner => .ok inner

/-- A value that is passed over has to be data all the same. -/
def skip (d : Data) : Except Problem Unit := if d.whole then .ok () else .error .unreadable

/-- Nothing is left to read before a closing bracket. -/
def finish (closed : Bool) : Except Problem Unit := if closed then .ok () else .error .unreadable

/-! ## (2) Plain values -/

def readText (r : Reading) : Data → Except Problem String
  | text (some s) => .ok s
  | d => .error (mismatch r.layout "a string" d)

def readBool (r : Reading) : Data → Except Problem Bool
  | bool b => .ok b
  | d => .error (mismatch r.layout "a boolean" d)

/-- A text, or nothing. -/
def readOption (r : Reading) : Data → Except Problem (Option String)
  | null => .ok none
  | d => (readText r d).map some

def readItems (item : Data → Except Problem α) : List Data → Except Problem (List α)
  | [] => .ok []
  | d :: rest => do
    let a ← item d
    let more ← readItems item rest
    pure (a :: more)

def readList (r : Reading) (room : Room) (item : Room → Data → Except Problem α) : Data → Except Problem (List α)
  | list items closed => do
    let inner ← inside room
    let values ← readItems (item inner) items
    finish closed
    pure values
  | d => .error (mismatch r.layout "a sequence" d)

/-! ## (3) Records -/

/-- A field reads its value into a record that starts from its defaults. -/
structure RecordField (α : Type) where
  name : String
  required : Bool
  read : Room → Data → Except Problem (α → α)

structure Record (α : Type) where
  /-- What the record is called when something else is found. -/
  title : String
  start : α
  fields : List (RecordField α)

namespace Record

/-- The first required field, in declaration order, that was not seen. -/
def missing (fields : List (RecordField α)) (seen : List String) : Option String :=
  (fields.find? fun f => f.required && !seen.contains f.name).map (·.name)

/-- The members of a table, in order; `seen` holds the fields read so far. -/
def readMembers (fields : List (RecordField α)) (room : Room) :
    List (Option String × Data) → List String → α → Except Problem (α × List String)
  | [], seen, a => .ok (a, seen)
  | (none, _) :: _, _, _ => .error .unreadable
  | (some key, d) :: rest, seen, a =>
    match fields.find? (·.name == key) with
    | none => do
      skip d
      readMembers fields room rest seen a
    | some f =>
      if seen.contains key then .error (.duplicateField key)
      else do
        let set ← f.read room d
        readMembers fields room rest (key :: seen) (set a)

def ofTable (c : Record α) (room : Room) (members : List (Option String × Data)) (closed : Bool) :
    Except Problem α := do
  let (a, seen) ← readMembers c.fields room members [] c.start
  finish closed
  match missing c.fields seen with
  | some name => .error (.missingField name)
  | none => pure a

def elements (n : Nat) : String := if n = 1 then "1 element" else toString n ++ " elements"

/-- The items of a list against the fields that are left; `index` counts those read. -/
def readPositions (c : Record α) (surplus : Surplus) (room : Room) (closed : Bool) :
    List (RecordField α) → List Data → Nat → α → Except Problem α
  | [], [], _, a => do
    finish closed
    pure a
  | [], rest, index, a =>
    match surplus with
    | .unreadable => .error .unreadable
    | .ignored => pure a
    | .counted => .error (.invalidLength (index + rest.length) (elements index ++ " in sequence"))
  | f :: fields, d :: rest, index, a => do
    let set ← f.read room d
    readPositions c surplus room closed fields rest (index + 1) (set a)
  | f :: fields, [], index, a => do
    finish closed
    if f.required then .error (.invalidLength index (c.title ++ " with " ++ elements c.fields.length))
    else readPositions c surplus room closed fields [] index a

def ofList (c : Record α) (r : Reading) (room : Room) (items : List Data) (closed : Bool) : Except Problem α :=
  readPositions c r.surplus room closed c.fields items 0 c.start

def read (c : Record α) (r : Reading) (room : Room) : Data → Except Problem α
  | table members closed => do
    let inner ← inside room
    c.ofTable inner members closed
  | list items closed => do
    let inner ← inside room
    c.ofList r inner items closed
  | moment => c.ofTable room [] true
  | d => .error (mismatch r.layout c.title d)

end Record

end ConfigTemplate.Data
