/-
  ConfigTemplate.Log.Directive — what one directive of a filter says.

  (1) `Directive`: which events it is about, and up to which level it keeps them.
  (2) `Directive.level?`: a level by its name or its number.
  (3) `cut`: a text cut after so many bytes.
  (4) `Directive.ofText?`: a level alone, or a target with a span and a field in
      brackets and a level after an equals sign, each part optional. The places of the
      parts are counted from the first visible character, but the parts are cut from
      the text as it stands: a blank in front shifts each of them, and one at the end
      belongs to the last.
-/
import ConfigTemplate.Log.Event
import ConfigTemplate.Text.Alphanumeric
import ConfigTemplate.Text.Blank
import ConfigTemplate.Text.Digit

namespace ConfigTemplate.Log

/-! ## (1) Directives -/

structure Directive where
  /-- How the target starts; none for all targets. -/
  target : Option String
  /-- A field that the event has to have. -/
  field : Option String := none
  /-- It asks for a span, or for a field's value in one. Nothing is ever reported inside
      a span, so it fits no event. -/
  unmet : Bool := false
  /-- None to keep nothing. -/
  upTo : Option Level
  deriving DecidableEq, Repr

namespace Directive

/-- The event has a field of this name; its message is one. -/
def hasField (e : Event) (name : String) : Bool := name == "message" || e.fields.any (·.1 == name)

def fits (d : Directive) (e : Event) : Bool :=
  !d.unmet && (d.target.all fun start => start.toList.isPrefixOf e.target.toList) && d.field.all (hasField e)

/-- A target, even an empty one, is more than none, and a longer one more than a shorter. -/
def weight (d : Directive) : Nat :=
  match d.target with
  | none => 0
  | some start => start.utf8ByteSize + 1

/-- The second field decides before the first; a field before none. -/
def fieldLe : Option String → Option String → Bool
  | none, _ => true
  | some _, none => false
  | some a, some b => a ≤ b

/-- The second directive decides, if both fit an event. -/
def yields (d later : Directive) : Bool :=
  if d.weight = later.weight then fieldLe d.field later.field else d.weight < later.weight

/-! ## (2) Levels -/

def levelNames : List (String × Option Level) :=
  [("off", none), ("error", some .error), ("warn", some .warn), ("info", some .info), ("debug", some .debug),
    ("trace", some .trace)]

/-- The digits of a number that may have a plus in front. -/
def digits : List Char → List Char
  | '+' :: ds => ds
  | ds => ds

/-- A level by its name in any case, or by its number, where zero is off. -/
def level? (cs : List Char) : Option (Option Level) :=
  let ds := digits cs
  if ds ≠ [] ∧ ds.all Text.isDigit then (levelNames[Text.natural ds]?).map (·.2)
  else (levelNames.find? fun entry => Text.isWord entry.1 (String.ofList cs)).map (·.2)

/-! ## (3) Cutting -/

def bytes (cs : List Char) : Nat := (cs.map Char.utf8Size).foldr (· + ·) 0

/-- The first `n` bytes and what follows; none if that would cut a character. -/
def cut : Nat → List Char → Option (List Char × List Char)
  | 0, cs => some ([], cs)
  | _ + 1, [] => none
  | n + 1, c :: rest =>
    if c.utf8Size ≤ n + 1 then (cut (n + 1 - c.utf8Size) rest).map fun (first, more) => (c :: first, more) else none

/-- The `n` bytes from a place on. -/
def part (cs : List Char) (place n : Nat) : Option (List Char) := do
  let (_, rest) ← cut place cs
  let (first, _) ← cut n rest
  pure first

/-- The level from a place on; every level if nothing is there. -/
def levelFrom (cs : List Char) (place : Nat) : Option (Option Level) := do
  let (_, rest) ← cut place cs
  if rest = [] then some (some .trace) else level? rest

/-! ## (4) Reading a directive -/

/-- How a directive may start. -/
def starts (c : Char) : Bool := Text.isAlphanumeric c || c = '-' || c = ':' || c = '_'

def trim (cs : List Char) : List Char :=
  ((cs.dropWhile Text.isBlank).reverse.dropWhile Text.isBlank).reverse

/-- After the brackets: nothing, or an equals sign and a level. -/
def close (cs : List Char) (d : Directive) (place : Nat) : List Char → Option Directive
  | [] => some d
  | '=' :: _ => (levelFrom cs (place + 1)).map fun upTo => { d with upTo := upTo }
  | _ => none

/-- A field in braces, perhaps with a value, and the closing brace and bracket. -/
def braces (cs : List Char) (d : Directive) (place : Nat) (t : List Char) : Option Directive :=
  let body := t.takeWhile (· != '\x7d')
  match t.dropWhile (· != '\x7d') with
  | '\x7d' :: ']' :: rest => do
    let field ← part cs place (bytes body)
    if field = [] then none
    else
      let d := { d with
        field := some (String.ofList (field.takeWhile (· != '=')))
        unmet := d.unmet || field.contains '=' }
      close cs d (place + bytes body + 2) rest
  | _ => none

/-- A span in brackets, perhaps with a field. -/
def brackets (cs : List Char) (target : Option String) (place : Nat) (t : List Char) : Option Directive := do
  let inner := t.takeWhile fun c => c != ']' && c != '\x7b'
  let span ← part cs place (bytes inner)
  let next := place + bytes inner + 1
  match t.drop inner.length with
  | ']' :: rest => close cs { target := target, unmet := true, upTo := some .trace } next rest
  | '\x7b' :: rest => braces cs { target := target, unmet := span != [], upTo := some .trace } next rest
  | _ => none

def ofText? (s : String) : Option Directive :=
  let cs := s.toList
  let t := trim cs
  match t with
  | [] => none
  | '[' :: rest => brackets cs none 1 rest
  | c :: _ =>
    if starts c then
      let word := t.takeWhile fun c => c != '=' && c != '['
      match t.drop word.length with
      | [] =>
        match level? cs with
        | some upTo => some { target := none, upTo := upTo }
        | none => some { target := some s, upTo := some .trace }
      | '=' :: _ => do
        let target ← part cs 0 (bytes word)
        let upTo ← levelFrom cs (bytes word + 1)
        pure { target := some (String.ofList target), upTo := upTo }
      | _ :: rest => do
        let target ← part cs 0 (bytes word)
        brackets cs (some (String.ofList target)) (bytes word + 1) rest
    else none

end Directive

end ConfigTemplate.Log
