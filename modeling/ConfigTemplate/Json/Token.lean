/-
  ConfigTemplate.Json.Token — the tokens of a JSON text.

  (1) `scanText`: the inside of a quoted text, up to its closing quote, as characters
      and as sixteen-bit units written in hexadecimal.
  (2) `joinUnits`: the text they denote; none if a surrogate has no partner.
  (3) `tokens`: the tokens in order. `bad` stands where no token can be read, and ends
      the list; blanks between tokens leave no trace.
-/
import ConfigTemplate.Json.Number

namespace ConfigTemplate.Json

open Text (hexNumber)

/-! ## (1) Quoted texts -/

inductive Piece where
  | char (c : Char)
  | unit (n : Nat)
  deriving DecidableEq, Repr

/-- The character a backslash and a letter stand for. -/
def escaped : Char → Option Char
  | '"' => some '"'
  | '\\' => some '\\'
  | '/' => some '/'
  | 'b' => some (Char.ofNat 8)
  | 'f' => some (Char.ofNat 12)
  | 'n' => some '\n'
  | 'r' => some '\r'
  | 't' => some '\t'
  | _ => none

/-- The pieces before the closing quote, and what follows it. -/
def scanText : List Char → Option (List Piece × List Char)
  | [] => none
  | '"' :: rest => some ([], rest)
  | '\\' :: 'u' :: a :: b :: c :: d :: rest =>
    match hexNumber [a, b, c, d] with
    | none => none
    | some n => (scanText rest).map fun (ps, more) => (.unit n :: ps, more)
  | '\\' :: e :: rest =>
    match escaped e with
    | none => none
    | some c => (scanText rest).map fun (ps, more) => (.char c :: ps, more)
  | c :: rest =>
    if c = '\\' ∨ c.toNat < 0x20 then none
    else (scanText rest).map fun (ps, more) => (.char c :: ps, more)

/-! ## (2) Surrogates -/

def isHigh (n : Nat) : Bool := 0xD800 ≤ n && n < 0xDC00

def isLow (n : Nat) : Bool := 0xDC00 ≤ n && n < 0xE000

/-- A high and a low surrogate together are one character; alone they are none. -/
def joinUnits : List Piece → Option (List Char)
  | [] => some []
  | .char c :: rest => (joinUnits rest).map (c :: ·)
  | .unit n :: .unit m :: rest =>
    if isHigh n then
      if isLow m then (joinUnits rest).map (Char.ofNat (0x10000 + (n - 0xD800) * 0x400 + (m - 0xDC00)) :: ·) else none
    else if isLow n then none
    else (joinUnits (.unit m :: rest)).map (Char.ofNat n :: ·)
  | .unit n :: rest => if isHigh n || isLow n then none else (joinUnits rest).map (Char.ofNat n :: ·)

/-! ## (3) Tokens -/

inductive Token where
  | openList
  | closeList
  | openTable
  | closeTable
  | comma
  | colon
  | null
  | bool (b : Bool)
  | number (n : Number)
  | text (s : Option String)
  | bad
  deriving DecidableEq, Repr

def isSpace (c : Char) : Bool := c = ' ' || c = '\t' || c = '\n' || c = '\r'

/-- One token at the start of a text without blanks in front. -/
def scanToken : List Char → Option (Token × List Char)
  | '[' :: rest => some (.openList, rest)
  | ']' :: rest => some (.closeList, rest)
  | '\x7b' :: rest => some (.openTable, rest)
  | '\x7d' :: rest => some (.closeTable, rest)
  | ',' :: rest => some (.comma, rest)
  | ':' :: rest => some (.colon, rest)
  | 'n' :: 'u' :: 'l' :: 'l' :: rest => some (.null, rest)
  | 't' :: 'r' :: 'u' :: 'e' :: rest => some (.bool true, rest)
  | 'f' :: 'a' :: 'l' :: 's' :: 'e' :: rest => some (.bool false, rest)
  | '"' :: rest => (scanText rest).map fun (ps, more) => (.text ((joinUnits ps).map String.ofList), more)
  | cs => (scanLiteral cs).map fun (l, more) => (.number l.number, more)

/-- At most `n` steps, each a blank or a token. -/
def tokensUpTo : Nat → List Char → List Token
  | _, [] => []
  | 0, _ => []
  | n + 1, c :: rest =>
    if isSpace c then tokensUpTo n rest
    else match scanToken (c :: rest) with
      | none => [.bad]
      | some (t, more) => t :: tokensUpTo n more

def tokens (cs : List Char) : List Token := tokensUpTo cs.length cs

end ConfigTemplate.Json
