/-
  ConfigTemplate.Toml.Table — tables as headers and bindings build them.

  (1) `Item`: a value, a table, or the rows of an array of tables. A table is known by
      how it came about: under a header of its own, as the parent in another's header
      or as a part of a dotted key.
  (2) `put`: binding a key. A dotted key makes the tables on its way; it may not reach
      into a table with a header of its own, and its value has to go into a table that
      a dotted key made.
  (3) `under`: reaching the table above a header. It makes the parents that are not
      there, goes into the last row of an array of tables, and into every table.
  (4) `openTable`, `openRow`: the table of a header. A header may be given to a table
      known only as a parent, which then comes last; each row is a table of its own.
  (5) `Item.data`: the finished tree.
-/
import ConfigTemplate.Data

namespace ConfigTemplate.Toml

/-! ## (1) Items -/

inductive Origin where
  | header
  | parent
  | dotted
  deriving DecidableEq, Repr

inductive Item where
  | leaf (d : Data)
  | table (origin : Origin) (entries : List (String × Item))
  | rows (tables : List (List (String × Item)))
  deriving Inhabited

abbrev Entries := List (String × Item)

namespace Entries

def find? (key : String) : Entries → Option Item
  | [] => none
  | (k, i) :: rest => if k = key then some i else find? key rest

def erase (key : String) : Entries → Entries
  | [] => []
  | (k, i) :: rest => if k = key then rest else (k, i) :: erase key rest

/-- The entries with that of the key replaced; a new key comes last. -/
def update (key : String) (f : Option Item → Option Item) : Entries → Option Entries
  | [] => (f none).map fun i => [(key, i)]
  | (k, i) :: rest =>
    if k = key then (f (some i)).map fun j => (k, j) :: rest
    else (update key f rest).map ((k, i) :: ·)

end Entries

/-- The list with its last member replaced. -/
def onLast (f : α → Option α) : List α → Option (List α)
  | [] => none
  | [a] => (f a).map ([·])
  | a :: rest => (onLast f rest).map (a :: ·)

/-! ## (2) Bindings -/

def put (d : Data) : List String → Entries → Option Entries
  | [], _ => none
  | [key], es => es.update key fun
    | none => some (.leaf d)
    | some _ => none
  | key :: next :: rest, es => es.update key fun
    | none => (put d (next :: rest) []).map (.table .dotted)
    | some (.table .dotted inner) => (put d (next :: rest) inner).map (.table .dotted)
    | some (.table .parent inner) => if rest = [] then none else (put d (next :: rest) inner).map (.table .parent)
    | some (.rows tables) => if rest = [] then none else (onLast (put d (next :: rest)) tables).map .rows
    | some (.table .header _) | some (.leaf _) => none

abbrev Binding := List String × Data

def putAll : List Binding → Entries → Option Entries
  | [], es => some es
  | (key, d) :: rest, es => (put d key es).bind (putAll rest)

/-! ## (3) Above a header -/

def under (f : Entries → Option Entries) : List String → Entries → Option Entries
  | [], es => f es
  | key :: rest, es => es.update key fun
    | none => (under f rest []).map (.table .parent)
    | some (.table origin inner) => (under f rest inner).map (.table origin)
    | some (.rows tables) => (onLast (under f rest) tables).map .rows
    | some (.leaf _) => none

/-! ## (4) Headers -/

/-- The table of a header with the bindings below it. -/
def openTable (bindings : List Binding) (key : String) (es : Entries) : Option Entries :=
  match es.find? key with
  | none => (putAll bindings []).map fun inner => es ++ [(key, .table .header inner)]
  | some (.table .parent known) =>
    (putAll bindings known).map fun inner => es.erase key ++ [(key, .table .header inner)]
  | some _ => none

/-- One more row of an array of tables. -/
def openRow (bindings : List Binding) (key : String) (es : Entries) : Option Entries :=
  (putAll bindings []).bind fun row => es.update key fun
    | none => some (.rows [row])
    | some (.rows tables) => some (.rows (tables ++ [row]))
    | some _ => none

/-! ## (5) The finished tree -/

mutual

def Item.data : Item → Data
  | .leaf d => d
  | .table _ entries => .table (dataEntries entries) true
  | .rows tables => .list (dataRows tables) true

def dataEntries : List (String × Item) → List (Option String × Data)
  | [] => []
  | (key, item) :: rest => (some key, item.data) :: dataEntries rest

def dataRows : List (List (String × Item)) → List Data
  | [] => []
  | entries :: rest => .table (dataEntries entries) true :: dataRows rest

end

end ConfigTemplate.Toml
