/-
  ConfigTemplate.Proofs.Example — what the example values of a template denote.

  (1) `Scalar.value`, `Scalar.arrayValue`, `Scalar.mapValues`, `Document.value`: the value
      that each literal stands for.
  (2) `Toml.Denotes`: a literal is read as its value when a blank or a line end follows.
      `Scalar.literal_denotes`, `Scalar.arrayLiteral_denotes`, `Scalar.mapLiterals_denote`,
      `Document.literal_denotes`.
-/
import ConfigTemplate.Proofs.Literal
import ConfigTemplate.Template.Example

namespace ConfigTemplate

open Toml (rounded)

/-! ## (1) Values -/

def Scalar.value : Scalar → Data
  | .boolean => .bool true
  | .byte => .number (.integer 10)
  | .int => .number (.integer 12)
  | .float => rounded 123 (-2)
  | .decimal => rounded 1234567 (-2)
  | .string => .text (some "str1")

def Scalar.arrayValue : Scalar → Data
  | .boolean => .list [.bool false, .bool false, .bool true] true
  | .byte => .list [.number (.integer 1), .number (.integer 2)] true
  | .int => .list [.number (.integer 12), .number (.integer 34)] true
  | .float => .list [rounded 123 (-1), rounded 456 (-1), rounded 789 (-1)] true
  | .decimal => .list [rounded 123004 (-1), rounded 567008 (-1), rounded 891002 (-1)] true
  | .string => .list [.text (some "str1"), .text (some "str2"), .text (some "str3")] true

def Scalar.mapValues : Scalar → Data × Data
  | .boolean => (.bool true, .bool true)
  | .byte => (.number (.integer 1), .number (.integer 80))
  | .int => (.number (.integer 1), .number (.integer 9090))
  | .float => (rounded 10000 (-2), rounded 190000 (-2))
  | .decimal => (rounded 2500000 (-2), rounded 3000000 (-2))
  | .string => (.text (some "value1"), .text (some "value2"))

def Document.value : Document → Data
  | .xml => .text (some "<book>The Lost World</book>")
  | .json => .table [(some "name", .text (some "Jane"))] true

/-! ## (2) Literals and their values -/

namespace Toml

/-- Every character of the line may stand in a comment. -/
def PlainLine (l : String) : Prop := ∀ c ∈ l.toList, isPlain c = true

instance (l : String) : Decidable (PlainLine l) := List.decidableBAll (fun c => isPlain c = true) l.toList

/-- The literal stands on a line, and is read as the value before a blank or a line end. -/
structure Denotes (literal : String) (d : Data) : Prop where
  plain : PlainLine literal
  starts : ∀ rest, skipSpaces (literal.toList ++ rest) = literal.toList ++ rest
  read : ∀ n c rest, c = ' ' ∨ c = '\n' → value (n + 6) limit (literal.toList ++ c :: rest) = some (d, c :: rest)

theorem Literal.Plain.denotes {l : Literal} (h : l.Plain) {s : String} (hplain : PlainLine s)
    (hs : s.toList = l.written) {d : Data} (hd : l.data = d) : Denotes s d := by
  refine ⟨hplain, fun rest => ?_, fun n c rest hc => ?_⟩
  · obtain ⟨c, cs, hc, hstart⟩ := h.starts
    have hblank : c ≠ ' ' := hstart.ne (by decide)
    have htab : c ≠ '\t' := hstart.ne (by decide)
    have hspace : isSpace c = false := by simp [isSpace, hblank, htab]
    rw [hs, hc]
    exact skipSpaces_cons hspace (cs ++ rest)
  · have hends : Ends c := by
      rcases hc with rfl | rfl
      · exact Or.inl rfl
      · exact Or.inr (Or.inl rfl)
    rw [hs, ← hd]
    exact value_literal (n + 5) limit h hends rest

theorem row_denotes {ls : List Literal} (hls : ∀ l ∈ ls, l.Plain) (hfew : ls.length ≤ 4) {s : String}
    (hplain : PlainLine s) (hs : s.toList = '[' :: (row ls ++ [']'])) {d : Data}
    (hd : .list (ls.map (·.data)) true = d) : Denotes s d := by
  refine ⟨hplain, fun rest => by rw [hs]; rfl, fun n c rest _ => ?_⟩
  obtain ⟨k, hk⟩ : ∃ k, n + 6 = k + ls.length + 2 := ⟨n + 4 - ls.length, by omega⟩
  have hcut : '[' :: (row ls ++ [']']) ++ c :: rest = '[' :: (row ls ++ ']' :: c :: rest) := by simp
  rw [hk, hs, ← hd, hcut]
  exact value_row hls k 78 (c :: rest)

end Toml

open Toml (Denotes Literal)

/-- The literal of a scalar, taken apart. -/
def Scalar.plain : Scalar → Literal
  | .boolean => .flag true
  | .byte => .integer ['1', '0']
  | .int => .integer ['1', '2']
  | .float => .fraction ['1'] ['2', '3']
  | .decimal => .fraction ['1', '2', '3', '4', '5'] ['6', '7']
  | .string => .text ['s', 't', 'r', '1']

def Scalar.plainItems : Scalar → List Literal
  | .boolean => [.flag false, .flag false, .flag true]
  | .byte => [.integer ['1'], .integer ['2']]
  | .int => [.integer ['1', '2'], .integer ['3', '4']]
  | .float => [.fraction ['1', '2'] ['3'], .fraction ['4', '5'] ['6'], .fraction ['7', '8'] ['9']]
  | .decimal =>
    [.fraction ['1', '2', '3', '0', '0'] ['4'], .fraction ['5', '6', '7', '0', '0'] ['8'],
      .fraction ['8', '9', '1', '0', '0'] ['2']]
  | .string => [.text ['s', 't', 'r', '1'], .text ['s', 't', 'r', '2'], .text ['s', 't', 'r', '3']]

def Scalar.plainPair : Scalar → Literal × Literal
  | .boolean => (.flag true, .flag true)
  | .byte => (.integer ['1'], .integer ['8', '0'])
  | .int => (.integer ['1'], .integer ['9', '0', '9', '0'])
  | .float => (.fraction ['1', '0', '0'] ['0', '0'], .fraction ['1', '9', '0', '0'] ['0', '0'])
  | .decimal => (.fraction ['2', '5', '0', '0', '0'] ['0', '0'], .fraction ['3', '0', '0', '0', '0'] ['0', '0'])
  | .string => (.text ['v', 'a', 'l', 'u', 'e', '1'], .text ['v', 'a', 'l', 'u', 'e', '2'])

theorem Scalar.literal_denotes (s : Scalar) : Denotes s.literal s.value := by
  have hplain : s.plain.Plain := by cases s <;> decide
  have hwritten : s.literal.toList = s.plain.written := by cases s <;> rfl
  have hvalue : s.plain.data = s.value := by cases s <;> rfl
  exact hplain.denotes (by cases s <;> decide) hwritten hvalue

theorem Scalar.arrayLiteral_denotes (s : Scalar) : Denotes s.arrayLiteral s.arrayValue := by
  have hplain : ∀ l ∈ s.plainItems, l.Plain := by cases s <;> decide
  have hwritten : s.arrayLiteral.toList = '[' :: (Toml.row s.plainItems ++ [']']) := by cases s <;> rfl
  have hvalue : .list (s.plainItems.map (·.data)) true = s.arrayValue := by cases s <;> rfl
  exact Toml.row_denotes hplain (by cases s <;> decide) (by cases s <;> decide) hwritten hvalue

theorem Scalar.mapLiterals_denote (s : Scalar) :
    Denotes s.mapLiterals.1 s.mapValues.1 ∧ Denotes s.mapLiterals.2 s.mapValues.2 := by
  have hplain : s.plainPair.1.Plain ∧ s.plainPair.2.Plain := by cases s <;> decide
  refine ⟨hplain.1.denotes ?_ ?_ ?_, hplain.2.denotes ?_ ?_ ?_⟩
  case refine_1 | refine_4 => cases s <;> decide
  all_goals cases s <;> rfl

theorem pairs_name (n room : Nat) (rest : List Char) :
    Toml.pairs (n + 2) room [] ("name = \"Jane\"\x7d".toList ++ rest) =
      some ([("name", .leaf (.text (some "Jane")))], rest) := by
  have hkey : Toml.scanKey ("name = \"Jane\"\x7d".toList ++ rest) =
      some (["name"], '=' :: ' ' :: ("\"Jane\"\x7d".toList ++ rest)) := rfl
  have hvalue : Toml.value (n + 1) room (Toml.skipSpaces (' ' :: ("\"Jane\"\x7d".toList ++ rest))) =
      some (.text (some "Jane"), '\x7d' :: rest) := rfl
  have hput : Toml.put (.text (some "Jane")) ["name"] [] = some [("name", .leaf (.text (some "Jane")))] := rfl
  rw [Toml.pairs]
  simp only [hkey, Toml.scanExact, if_true, Option.bind_eq_bind, Option.bind_some, hvalue, hput]
  rfl

theorem Document.literal_denotes (d : Document) : Denotes d.literal d.value := by
  cases d with
  | xml => exact Literal.Plain.denotes (l := .text "<book>The Lost World</book>".toList) (by decide) (by decide) rfl rfl
  | json =>
    refine ⟨by decide, fun rest => rfl, fun n c rest _ => ?_⟩
    have hname : "name = \"Jane\"\x7d".toList ++ c :: rest = 'n' :: ("ame = \"Jane\"\x7d".toList ++ c :: rest) := rfl
    have hpairs := pairs_name (n + 3) 78 (c :: rest)
    have htable := Toml.value_table (n + 5) 78 (c := 'n') (by decide) rfl ("ame = \"Jane\"\x7d".toList ++ c :: rest)
    rw [← hname, hpairs] at htable
    exact htable

end ConfigTemplate
