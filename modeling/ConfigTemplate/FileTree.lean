/-
  ConfigTemplate.FileTree — directories and files, and the directory that relative
  paths start from.

  (1) `FileFault`: what a file operation may answer instead.
  (2) `FileTree`: every directory and file by its place. The top is always there.
  (3) `find`: what a path leads to. Each part but the last has to be a directory; a
      path that ends in a slash leads to a directory only.
  (4) `readText`, `isThere`, `append`: reading and writing files.
  (5) `makeDir`, `makeDirs`: making one directory, or all that a path needs. What was
      made before a failure stays.

  Every file that is there can be read and written, and a directory can be made in every
  directory: permissions and devices that fail are left out.
-/
import ConfigTemplate.Text.Split

namespace ConfigTemplate

/-! ## (1) Faults -/

inductive FileFault where
  | notFound
  | taken
  | notDirectory
  | isDirectory
  | nameTooLong
  | notUtf8
  | nul
  deriving DecidableEq, Repr

def FileFault.message : FileFault → String
  | .notFound => "No such file or directory (os error 2)"
  | .taken => "File exists (os error 17)"
  | .notDirectory => "Not a directory (os error 20)"
  | .isDirectory => "Is a directory (os error 21)"
  | .nameTooLong => "File name too long (os error 36)"
  | .notUtf8 => "stream did not contain valid UTF-8"
  | .nul => "file name contained an unexpected NUL byte"

/-! ## (2) Trees -/

/-- The names from the top down. -/
abbrev Place := List String

inductive Node where
  | dir
  | file (bytes : ByteArray)

instance : DecidableEq Node
  | .dir, .dir => isTrue rfl
  | .dir, .file _ => isFalse nofun
  | .file _, .dir => isFalse nofun
  | .file a, .file b => decidable_of_iff (a.data = b.data) ⟨fun h => by rw [ByteArray.ext h], fun h => by cases h; rfl⟩

structure FileTree where
  /-- Where relative paths start. -/
  home : Place
  nodes : List (Place × Node)

namespace FileTree

/-- A tree with nothing but the way to its home. -/
def empty (home : Place) : FileTree :=
  ⟨home, (List.range home.length).map fun n => (home.take (n + 1), .dir)⟩

def node? (t : FileTree) (place : Place) : Option Node :=
  if place = [] then some .dir else t.nodes.lookup place

/-- A file or directory at a place, instead of what was there. -/
def set (t : FileTree) (place : Place) (n : Node) : FileTree :=
  if (t.nodes.lookup place).isSome then
    { t with nodes := t.nodes.map fun entry => if entry.1 = place then (place, n) else entry }
  else { t with nodes := t.nodes ++ [(place, n)] }

/-- The place of a relative path below the home, and all directories on the way to it. -/
def setBelow (t : FileTree) (path : String) (n : Node) : FileTree :=
  let names := (Text.splitText '/' path).filter fun name => name != "" && name != "."
  let parents := (List.range (names.length - 1)).map fun k => t.home ++ names.take (k + 1)
  (parents.foldl (fun t p => if t.node? p = some .dir then t else t.set p .dir) t).set (t.home ++ names) n

/-- Everything below the home, by the names from there on. -/
def below (t : FileTree) : List (Place × Node) :=
  t.nodes.filterMap fun (place, n) =>
    if t.home.isPrefixOf place && t.home != place then some (place.drop t.home.length, n) else none

/-! ## (3) Paths -/

inductive Found where
  | dir (place : Place)
  /-- A file; `slash` if the path goes on with a slash. -/
  | file (place : Place) (bytes : ByteArray) (slash : Bool)
  /-- Nothing, in a directory that is there. -/
  | vacant (place : Place)

/-- The greatest number of bytes in a name. -/
def maxName : Nat := 255

/-- The least number of bytes that is too many for a path. -/
def maxPath : Nat := 4096

/-- Goes on from a directory. -/
def walk (t : FileTree) : List String → Place → Except FileFault Found
  | [], here => .ok (.dir here)
  | name :: rest, here =>
    if name = "" ∨ name = "." then walk t rest here
    else if name = ".." then walk t rest here.dropLast
    else if maxName < name.utf8ByteSize then .error .nameTooLong
    else match t.node? (here ++ [name]) with
      | some .dir => walk t rest (here ++ [name])
      | some (.file bytes) =>
        if rest.all (· == "") then .ok (.file (here ++ [name]) bytes !rest.isEmpty) else .error .notDirectory
      | none => if rest.all (· == "") then .ok (.vacant (here ++ [name])) else .error .notFound

def find (t : FileTree) (path : String) : Except FileFault Found :=
  if path.toList.any (·.toNat == 0) then .error .nul
  else if path = "" then .error .notFound
  else if maxPath ≤ path.utf8ByteSize then .error .nameTooLong
  else t.walk (Text.splitText '/' path) (if path.toList.head? = some '/' then [] else t.home)

/-! ## (4) Files -/

def readText (t : FileTree) (path : String) : Except FileFault String := do
  match ← t.find path with
  | .dir _ => .error .isDirectory
  | .file _ _ true => .error .notDirectory
  | .vacant _ => .error .notFound
  | .file _ bytes false =>
    match String.fromUTF8? bytes with
    | some s => .ok s
    | none => .error .notUtf8

def isThere (t : FileTree) (path : String) : Bool :=
  match t.find path with
  | .ok (.dir _) | .ok (.file _ _ false) => true
  | _ => false

def isDir (t : FileTree) (path : String) : Bool :=
  match t.find path with
  | .ok (.dir _) => true
  | _ => false

/-- The place of a file to write to at its end; a new file is empty. -/
def openEnd (t : FileTree) (path : String) : Except FileFault (Place × FileTree) := do
  match ← t.find path with
  | .dir _ => .error .isDirectory
  | .file _ _ true => .error .notDirectory
  | .file place _ false => .ok (place, t)
  | .vacant place => .ok (place, t.set place (.file .empty))

/-- More bytes at the end of a file that is there. -/
def append (t : FileTree) (place : Place) (bytes : ByteArray) : FileTree :=
  match t.node? place with
  | some (.file old) => t.set place (.file (old ++ bytes))
  | _ => t

/-! ## (5) Directories -/

def makeDir (t : FileTree) (path : String) : Except FileFault FileTree := do
  match ← t.find path with
  | .vacant place => .ok (t.set place .dir)
  | .dir _ | .file .. => .error .taken

/-- A directory that is there already is as good as a new one. -/
def ensureDir (t : FileTree) (path : String) : Except FileFault FileTree :=
  match t.makeDir path with
  | .error .taken => if t.isDir path then .ok t else .error .taken
  | r => r

/-- Makes the first of the paths. If a directory is missing above it, the path after
    it is made before. -/
def makeUp (t : FileTree) : List String → FileTree × Except FileFault Unit
  | [] => (t, .ok ())
  | path :: above =>
    match t.ensureDir path with
    | .ok made => (made, .ok ())
    | .error .notFound =>
      match t.makeUp above with
      | (t, .error e) => (t, .error e)
      | (t, .ok ()) =>
        match t.ensureDir path with
        | .ok made => (made, .ok ())
        | .error e => (t, .error e)
    | .error e => (t, .error e)

/-- The names of a path; a dot counts only in front of a relative path. -/
def namesOf (path : String) : List String :=
  match Text.splitText '/' path with
  | [] => []
  | first :: rest =>
    let kept := rest.filter fun name => name != "" && name != "."
    if first = "" then kept else first :: kept

/-- The path and, from the longest to the shortest, those above it that have a name. -/
def upward (path : String) : List String :=
  let names := namesOf path
  let lead := if path.toList.head? = some '/' then "/" else ""
  match names.length with
  | 0 => []
  | n + 1 => path :: ((List.range n).map fun k => lead ++ String.intercalate "/" (names.take (n - k)))

def makeDirs (t : FileTree) (path : String) : FileTree × Except FileFault Unit := t.makeUp (upward path)

end FileTree

end ConfigTemplate
