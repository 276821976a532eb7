/-
  ConfigTemplate.Json.Read — the data tree of a JSON text.

  (1) `value`, `items`, `members`: the grammar over tokens. Where the tokens stop
      following it, the tree gets a broken leaf or an unclosed bracket, and no token
      is left over.
  (2) `read`: the tree of a text, and whether the text ends with it.
-/
import ConfigTemplate.Json.Token

namespace ConfigTemplate.Json

/-! ## (1) The grammar -/

mutual

/-- One value, with at most `n` calls below each other. -/
def value : Nat → List Token → Data × List Token
  | 0, _ => (.broken, [])
  | _ + 1, [] => (.broken, [])
  | n + 1, t :: ts =>
    match t, ts with
    | .null, _ => (.null, ts)
    | .bool b, _ => (.bool b, ts)
    | .number k, _ => (.number k, ts)
    | .text s, _ => (.text s, ts)
    | .openList, .closeList :: rest => (.list [] true, rest)
    | .openList, _ =>
      let (ds, closed, rest) := items n ts
      (.list ds closed, rest)
    | .openTable, .closeTable :: rest => (.table [] true, rest)
    | .openTable, _ =>
      let (ms, closed, rest) := members n ts
      (.table ms closed, rest)
    | _, _ => (.broken, [])

/-- One item and those after it, up to the closing bracket. -/
def items : Nat → List Token → List Data × Bool × List Token
  | 0, _ => ([], false, [])
  | n + 1, ts =>
    let (d, rest) := value n ts
    match rest with
    | .comma :: rest =>
      let (ds, closed, rest) := items n rest
      (d :: ds, closed, rest)
    | .closeList :: rest => ([d], true, rest)
    | _ => ([d], false, [])

/-- One member and those after it, up to the closing brace. -/
def members : Nat → List Token → List (Option String × Data) × Bool × List Token
  | 0, _ => ([], false, [])
  | n + 1, .text key :: .colon :: ts =>
    let (d, rest) := value n ts
    match rest with
    | .comma :: rest =>
      let (ms, closed, rest) := members n rest
      ((key, d) :: ms, closed, rest)
    | .closeTable :: rest => ([(key, d)], true, rest)
    | _ => ([(key, d)], false, [])
  | _ + 1, .text key :: _ => ([(key, .broken)], false, [])
  | _ + 1, _ => ([], false, [])

end

/-! ## (2) Whole texts -/

/-- The tree, and whether nothing but blanks follows it. -/
def read (text : String) : Data × Bool :=
  let ts := tokens text.toList
  let (d, rest) := value (2 * ts.length + 2) ts
  (d, rest.isEmpty)

end ConfigTemplate.Json
