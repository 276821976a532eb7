/-
  ConfigTemplate.Manifest.Read — reading manifests out of JSON and TOML texts.

  (1) `readTagged`: a type is tagged by its kind. In a table the kind may stand
      anywhere, in a list it comes first. The tag is read where it stands; the other
      parts have to be readable before the kind is looked at.
  (2) `readType`: the parts of each kind. Inside another type a kind may also be given
      by its number.
  (3) `record`: the fields of a manifest, a module entry and a variable entry.
  (4) `ofJson`, `ofToml`: whole texts. JSON is read from the start, so of two problems
      the first counts; a TOML text is read as a whole first.
-/
import ConfigTemplate.Manifest
import ConfigTemplate.Data.Record
import ConfigTemplate.Json.Read
import ConfigTemplate.Toml.Document

namespace ConfigTemplate.Manifest

open Data

/-! ## (1) Tagged values -/

/-- A part that is kept for later. -/
def keepable (room : Room) (d : Data) : Except Problem Unit :=
  if d.fits room then .ok () else .error .unreadable

def keepAll (room : Room) : List Data → Except Problem Unit
  | [] => .ok ()
  | d :: rest => do
    keepable room d
    keepAll room rest

/-- The tag among the members, if it came, and the other members. -/
def readTagAmong (tag : Data → Except Problem α) (room : Room) :
    List (Option String × Data) → Option α → Except Problem (Option α × List (Option String × Data))
  | [], found => .ok (found, [])
  | (none, _) :: _, _ => .error .unreadable
  | (some key, d) :: rest, found =>
    if key = "kind" then
      match found with
      | some _ => .error (.duplicateField "kind")
      | none => do
        let a ← tag d
        readTagAmong tag room rest (some a)
    else do
      keepable room d
      let (found, others) ← readTagAmong tag room rest found
      pure (found, (some key, d) :: others)

/-- The tag of a value, and the value without it. -/
def readTagged (r : Reading) (title : String) (tag : Data → Except Problem α) (room : Room) :
    Data → Except Problem (α × Data)
  | table members closed => do
    let inner ← inside room
    let (found, others) ← readTagAmong tag inner members none
    finish closed
    match found with
    | none => .error (.missingField "kind")
    | some a => pure (a, table others true)
  | list [] closed => do
    let _ ← inside room
    finish closed
    .error (.missingField "kind")
  | list (d :: rest) closed => do
    let inner ← inside room
    let a ← tag d
    keepAll inner rest
    finish closed
    pure (a, list rest true)
  | moment => .error (.missingField "kind")
  | d => .error (mismatch r.layout title d)

/-! ## (2) Types -/

/-- A kind by its name, or by its number if `numbered`. -/
def readKind (r : Reading) (numbered : Bool) : Data → Except Problem Kind
  | text (some s) =>
    match Kind.ofName? s with
    | some k => .ok k
    | none => .error (.unknownVariant s (Kind.all.map (·.name)))
  | number (.natural n) =>
    if numbered then
      match Kind.all[n]? with
      | some k => .ok k
      | none => .error (.invalidVariantIndex n Kind.all.length)
    else .error (mismatch r.layout "variant identifier" (number (.natural n)))
  | d => .error (mismatch r.layout "variant identifier" d)

/-- A record without fields. -/
def bareRecord (e : TypeExpr) : Record TypeExpr := ⟨"unit variant", e, []⟩

/-- A record whose only field is a type. -/
def partRecord (nested : Data → Except Problem TypeExpr) (variant label : String) (make : TypeExpr → TypeExpr) :
    Record TypeExpr :=
  ⟨"struct variant TypeSpec::" ++ variant, .boolean, [⟨label, true, fun _ d => (nested d).map fun e _ => make e⟩]⟩

def fieldRecord (r : Reading) (nested : Data → Except Problem TypeExpr) : Record (String × TypeExpr) :=
  ⟨"struct FieldSpec", ("", .boolean), [
    ⟨"name", true, fun _ d => (readText r d).map fun s f => (s, f.2)⟩,
    ⟨"type", true, fun _ d => (nested d).map fun e f => (f.1, e)⟩]⟩

/-- What a type of a kind is made of, given how to read the types in it. -/
def parts (r : Reading) (nested : Data → Except Problem TypeExpr) : Kind → Record TypeExpr
  | .boolean => bareRecord .boolean
  | .byte => bareRecord .byte
  | .int => bareRecord .int
  | .float => bareRecord .float
  | .decimal => bareRecord .decimal
  | .string => bareRecord .string
  | .xml => bareRecord .xml
  | .json => bareRecord .json
  | .array => partRecord nested "Array" "element" .array
  | .map => partRecord nested "Map" "value" .map
  | .record => ⟨"struct variant TypeSpec::Record", .record [], [
      ⟨"fields", false, fun room d =>
        (readList r room ((fieldRecord r nested).read r) d).map fun fields _ => .record fields⟩]⟩
  | .table => partRecord nested "Table" "constraint" .table
  | .constrained => partRecord nested "Constrained" "effective" .constrained
  | .other => ⟨"struct variant TypeSpec::Other", .other "", [
      ⟨"name", true, fun _ d => (readText r d).map fun s _ => .other s⟩]⟩

/-- A type with at most `n` types around each other. -/
def readTypeUpTo : Nat → Bool → Reading → Room → Data → Except Problem TypeExpr
  | 0, _, _, _, _ => .error .unreadable
  | n + 1, numbered, r, room, d => do
    let (kind, content) ← readTagged r "internally tagged enum TypeSpec" (readKind r numbered) room d
    (parts r.counting (readTypeUpTo n true r.counting none) kind).read r.counting none content

def readType (r : Reading) (room : Room) (d : Data) : Except Problem TypeExpr :=
  readTypeUpTo (d.depth + 1) false r room d

/-! ## (3) Entries -/

def variableRecord (r : Reading) : Record VariableEntry :=
  ⟨"struct VariableSpec", ⟨"", .boolean, true⟩, [
    ⟨"name", true, fun _ d => (readText r d).map fun s e => { e with name := s }⟩,
    ⟨"type", true, fun room d => (readType r room d).map fun t e => { e with type := t }⟩,
    ⟨"required", false, fun _ d => (readBool r d).map fun b e => { e with required := b }⟩]⟩

def moduleRecord (r : Reading) : Record ModuleEntry :=
  ⟨"struct ModuleSpec", ⟨"", "", none, []⟩, [
    ⟨"org", true, fun _ d => (readText r d).map fun s e => { e with org := s }⟩,
    ⟨"package", true, fun _ d => (readText r d).map fun s e => { e with package := s }⟩,
    ⟨"module", false, fun _ d => (readOption r d).map fun m e => { e with module := m }⟩,
    ⟨"variables", false, fun room d =>
      (readList r room ((variableRecord r).read r) d).map fun vs e => { e with members := vs }⟩]⟩

def record (r : Reading) : Record Manifest :=
  ⟨"struct Manifest", ⟨[]⟩, [
    ⟨"modules", false, fun room d =>
      (readList r room ((moduleRecord r).read r) d).map fun ms _ => ⟨ms⟩⟩]⟩

/-! ## (4) Whole texts -/

/-- Doubles are positional from 1e-5 up to 1e16, with the even last digit on a tie; nothing
    may follow the last field of a record written as a list. -/
def jsonReading : Reading := ⟨⟨some (-5, 15), .even⟩, .unreadable⟩

/-- The greatest number of brackets open at once in a JSON text. -/
def jsonRoom : Nat := 127

def ofJson (text : String) : Except Problem Manifest := do
  let (d, ended) := Json.read text
  let m ← (record jsonReading).read jsonReading (some jsonRoom) d
  finish ended
  pure m

/-- Doubles are always positional, with the greater last digit on a tie; what follows the
    last field of a record is passed over. -/
def tomlReading : Reading := ⟨⟨none, .up⟩, .ignored⟩

def ofToml (text : String) : Except Problem Manifest :=
  match Toml.read text with
  | none => .error .unreadable
  | some d => (record tomlReading).read tomlReading none d

inductive Format where
  | json
  | toml
  deriving DecidableEq, Repr

def ofText : Format → String → Except Problem Manifest
  | .json => ofJson
  | .toml => ofToml

end ConfigTemplate.Manifest
