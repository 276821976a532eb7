/-
  ConfigTemplate.Toml.Text — quoted texts.

  (1) `scanEscaped`: the inside of a text between double quotes, with escapes. On
      several lines it also skips a line end after a backslash with all the blanks and
      line ends that follow.
  (2) `scanVerbatim`: the inside of a text between single quotes, without escapes.
  (3) `scanText`: a text with its quotes. Three quotes open a text on several lines, a
      line end right after them is dropped, and up to two quotes may stand right
      before the three that close it.
-/
import ConfigTemplate.Toml.Line
import ConfigTemplate.Text.Digit

namespace ConfigTemplate.Toml

/-- One more character in front of a scanned text. -/
def add (c : Char) (scanned : Option (List Char × List Char)) : Option (List Char × List Char) :=
  scanned.map fun (s, rest) => (c :: s, rest)

/-- The quotes that still belong to the text after three of them were read. -/
def closing (quote : Char) : List Char → List Char × List Char
  | a :: b :: rest =>
    if a = quote then if b = quote then ([quote, quote], rest) else ([quote], b :: rest) else ([], a :: b :: rest)
  | [a] => if a = quote then ([quote], []) else ([], [a])
  | [] => ([], [])

/-! ## (1) Texts with escapes -/

inductive Mode where
  | plain
  /-- After a backslash. -/
  | escape
  /-- In a code point, with so many digits to come after the value read so far. -/
  | code (digits value : Nat)
  /-- After a backslash and blanks, before a line end. -/
  | toBreak
  /-- After a backslash and a line end. -/
  | afterBreak
  deriving DecidableEq, Repr

/-- The character a backslash and a letter stand for. -/
def escaped (c : Char) : Option Char :=
  if c = 'b' then some (Char.ofNat 8)
  else if c = 't' then some '\t'
  else if c = 'n' then some '\n'
  else if c = 'f' then some (Char.ofNat 12)
  else if c = 'r' then some '\r'
  else if c = '"' then some '"'
  else if c = '\\' then some '\\'
  else none

/-- The character with a code point, unless it is a surrogate or too large. -/
def codePoint (n : Nat) : Option Char := if n.isValidChar then some (Char.ofNat n) else none

def scanEscaped (multi : Bool) : Mode → List Char → Option (List Char × List Char)
  | _, [] => none
  | .escape, c :: rest =>
    if c = 'u' then scanEscaped multi (.code 3 0) rest
    else if c = 'U' then scanEscaped multi (.code 7 0) rest
    else match escaped c with
      | some e => add e (scanEscaped multi .plain rest)
      | none =>
        if multi && c = '\n' then scanEscaped multi .afterBreak rest
        else if multi && isSpace c then scanEscaped multi .toBreak rest
        else none
  | .code digits value, c :: rest =>
    match Text.hexValue c with
    | none => none
    | some d =>
      match digits with
      | left + 1 => scanEscaped multi (.code left (value * 16 + d)) rest
      | 0 =>
        match codePoint (value * 16 + d) with
        | none => none
        | some p => add p (scanEscaped multi .plain rest)
  | .toBreak, c :: rest =>
    if c = '\n' then scanEscaped multi .afterBreak rest
    else if isSpace c then scanEscaped multi .toBreak rest
    else none
  | mode, c :: rest =>
    if mode = .afterBreak ∧ (c = '\n' ∨ isSpace c) then scanEscaped multi .afterBreak rest
    else if c = '\\' then scanEscaped multi .escape rest
    else if c = '"' then
      if multi then
        match rest with
        | '"' :: '"' :: after => some (closing '"' after)
        | _ => add '"' (scanEscaped multi .plain rest)
      else some ([], rest)
    else if isPlain c || (multi && c = '\n') then add c (scanEscaped multi .plain rest)
    else none

/-! ## (2) Texts without escapes -/

def scanVerbatim (multi : Bool) : List Char → Option (List Char × List Char)
  | [] => none
  | c :: rest =>
    if c = '\'' then
      if multi then
        match rest with
        | '\'' :: '\'' :: after => some (closing '\'' after)
        | _ => add '\'' (scanVerbatim multi rest)
      else some ([], rest)
    else if isPlain c || (multi && c = '\n') then add c (scanVerbatim multi rest)
    else none

/-! ## (3) Texts with their quotes -/

def dropBreak : List Char → List Char
  | '\n' :: rest => rest
  | cs => cs

def scanText : List Char → Option (List Char × List Char)
  | '"' :: '"' :: '"' :: rest => scanEscaped true .plain (dropBreak rest)
  | '"' :: rest => scanEscaped false .plain rest
  | '\'' :: '\'' :: '\'' :: rest => scanVerbatim true (dropBreak rest)
  | '\'' :: rest => scanVerbatim false rest
  | _ => none

end ConfigTemplate.Toml
