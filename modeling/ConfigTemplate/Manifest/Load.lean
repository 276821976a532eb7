/-
  ConfigTemplate.Manifest.Load — groups from a manifest's text or file.

  (1) `grouped`, `parseGroups`: the groups of a manifest, and of a text in a given
      format.
  (2) `formatOf?`: the format of a file by the ending of its name, in any case.
  (3) `load`: a file is read first; only then its name is looked at.
-/
import ConfigTemplate.Failure
import ConfigTemplate.Log.Traced

namespace ConfigTemplate.Manifest

open Log (Traced)

/-! ## (1) Texts -/

def grouped (m : Manifest) : Except Failure (List Group) := m.groups.mapError fun p => .manifest (.key p)

def parseGroups (format : Format) (text : String) : Except Failure (List Group) := do
  let m ← (ofText format text).mapError fun p => .manifest (.malformed format p)
  m.grouped

/-! ## (2) File names -/

/-- What follows the last dot of a name, unless nothing stands before that dot. -/
def ending? (name : List Char) : Option (List Char) :=
  match name.reverse.dropWhile (· != '.') with
  | '.' :: _ :: _ => some (name.reverse.takeWhile (· != '.')).reverse
  | _ => none

def formatOf? (path : String) : Option Format :=
  match (FileTree.namesOf path).getLast? with
  | none => none
  | some name =>
    if name = ".." then none
    else match ending? name.toList with
      | none => none
      | some e =>
        if Text.isWord "json" (String.ofList e) then some .json
        else if Text.isWord "toml" (String.ofList e) then some .toml
        else none

/-! ## (3) Files -/

def groupsOfFile (t : FileTree) (path : String) : Except Failure (List Group) := do
  let text ← (t.readText path).mapError fun fault => .file (.manifest path fault)
  match formatOf? path with
  | some format => parseGroups format text
  | none => .error (.manifest (.unknownFormat path))

def load (t : FileTree) (path : String) : Traced Failure (List Group) := do
  let gs ← .ofExcept (groupsOfFile t path)
  .report (.manifestLoaded path gs.length ((gs.map (·.members.length)).foldr (· + ·) 0))
  pure gs

end ConfigTemplate.Manifest
