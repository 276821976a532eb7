/-
  ConfigTemplate.Toml.Value — values: texts, flags, numbers, moments, arrays and
  tables written in line.

  (1) `scanScalar`: a value without brackets. What looks like a moment is one.
  (2) `value`, `items`, `pairs`: any value. Arrays may have line ends, comments and a
      last comma between their brackets, tables in line none of them.
-/
import ConfigTemplate.Toml.Key
import ConfigTemplate.Toml.Number
import ConfigTemplate.Toml.Moment
import ConfigTemplate.Toml.Table

namespace ConfigTemplate.Toml

/-! ## (1) Values without brackets -/

def scanScalar : List Char → Option (Data × List Char)
  | 't' :: 'r' :: 'u' :: 'e' :: rest => some (.bool true, rest)
  | 'f' :: 'a' :: 'l' :: 's' :: 'e' :: rest => some (.bool false, rest)
  | c :: rest =>
    if c = '"' ∨ c = '\'' then (scanText (c :: rest)).map fun (s, rest) => (.text (some (String.ofList s)), rest)
    else match scanMoment (c :: rest) with
      | some rest => some (.moment, rest)
      | none => (scanNumber (c :: rest)).map fun (n, rest) => (.number n, rest)
  | [] => none

/-! ## (2) Values with brackets -/

mutual

/-- A value with at most `room` brackets open in it, and at most `n` calls below each other. -/
def value : Nat → Nat → List Char → Option (Data × List Char)
  | 0, _, _ => none
  | n + 1, room, '[' :: rest =>
    match room with
    | 0 => none
    | inner + 1 => (items n inner rest).map fun (ds, rest) => (.list ds true, rest)
  | n + 1, room, '\x7b' :: rest =>
    match room, skipSpaces rest with
    | 0, _ => none
    | _, '\x7d' :: rest => some (.table [] true, rest)
    | inner + 1, rest => (pairs n inner [] rest).map fun (es, rest) => (.table (dataEntries es) true, rest)
  | _ + 1, _, cs => scanScalar cs

/-- The items of an array that are left, and what follows its bracket. -/
def items : Nat → Nat → List Char → Option (List Data × List Char)
  | 0, _, _ => none
  | n + 1, room, cs =>
    match skipGap false cs with
    | ']' :: rest => some ([], rest)
    | cs => do
      let (d, rest) ← value n room cs
      match skipGap false rest with
      | ',' :: rest =>
        let (ds, rest) ← items n room rest
        pure (d :: ds, rest)
      | ']' :: rest => pure ([d], rest)
      | _ => none

/-- The bindings of a table in line that are left, put into it. -/
def pairs : Nat → Nat → Entries → List Char → Option (Entries × List Char)
  | 0, _, _, _ => none
  | n + 1, room, es, cs => do
    let (key, rest) ← scanKey cs
    let rest ← scanExact '=' rest
    let (d, rest) ← value n room (skipSpaces rest)
    let es ← put d key es
    match skipSpaces rest with
    | ',' :: rest => pairs n room es rest
    | '\x7d' :: rest => pure (es, rest)
    | _ => none

end

end ConfigTemplate.Toml
