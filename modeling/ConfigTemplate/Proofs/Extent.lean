/-
  ConfigTemplate.Proofs.Extent — how far a document goes, and how far the reader follows it.

  (1) `Extent`: the greatest numbers of brackets open in a value and of parts of a key.
      `Measured`: what is read without a limit, with its extent. `Measured.within`: what a
      reader makes of it that goes no further than a limit.
  (2) `measureKey`, `measureValue`: keys and values of any extent.
  (3) `measure`: documents of any extent. `read_eq_some`: the reader takes those that are
      within its limit, and no others.
  (4) `measure_deepToml`: an array with any number of brackets.
-/
import ConfigTemplate.Proofs.Ending
import ConfigTemplate.Proofs.Reading

namespace ConfigTemplate.Toml

/-! ## (1) Extents -/

structure Extent where
  /-- The greatest number of brackets open around each other in a value. -/
  brackets : Nat
  /-- The greatest number of parts of a key. -/
  parts : Nat
  deriving DecidableEq, Repr

namespace Extent

def zero : Extent := ⟨0, 0⟩

def max (e f : Extent) : Extent := ⟨Nat.max e.brackets f.brackets, Nat.max e.parts f.parts⟩

instance : LE Extent := ⟨fun e f => e.brackets ≤ f.brackets ∧ e.parts ≤ f.parts⟩

instance (e f : Extent) : Decidable (e ≤ f) := inferInstanceAs (Decidable (e.brackets ≤ f.brackets ∧ e.parts ≤ f.parts))

theorem le_def {e f : Extent} : e ≤ f ↔ e.brackets ≤ f.brackets ∧ e.parts ≤ f.parts := Iff.rfl

theorem zero_le (e : Extent) : zero ≤ e := ⟨Nat.zero_le _, Nat.zero_le _⟩

theorem max_le {e f limit : Extent} : e.max f ≤ limit ↔ e ≤ limit ∧ f ≤ limit := by
  simp only [le_def, max, Nat.max_le]
  tauto

@[simp] theorem max_zero (e : Extent) : e.max zero = e := by simp [zero, max]

end Extent

/-- What is read from a text of any extent, with the extent. -/
abbrev Measured (α : Type) := Option (α × Extent)

namespace Measured

variable {α β : Type}

/-- Something without brackets and keys. -/
def plain (x : Option α) : Measured α := x.map fun a => (a, .zero)

/-- One thing after the other. -/
def andThen (x : Measured α) (f : α → Measured β) : Measured β :=
  x.bind fun (a, e) => (f a).map fun (b, e') => (b, e.max e')

/-- The value made into another one; what is left of the text stays. -/
def giving (x : Measured (α × List Char)) (f : α → β) : Measured (β × List Char) :=
  x.map fun (r, e) => ((f r.1, r.2), e)

/-- The same in one more bracket. -/
def enclosed (x : Measured α) : Measured α := x.map fun (a, e) => (a, ⟨e.brackets + 1, e.parts⟩)

/-- What a reader makes of it that goes no further than the limit. -/
def within (limit : Extent) (x : Measured α) : Option α := x.bind fun (a, e) => if e ≤ limit then some a else none

theorem within_eq_some {limit : Extent} {x : Measured α} {a : α} :
    within limit x = some a ↔ ∃ e, x = some (a, e) ∧ e ≤ limit := by
  cases x with
  | none => simp [within]
  | some r =>
    obtain ⟨b, e⟩ := r
    simp only [within, Option.bind_some, Option.ite_none_right_eq_some, Option.some.injEq, Prod.mk.injEq]
    constructor
    · rintro ⟨he, rfl⟩
      exact ⟨e, ⟨rfl, rfl⟩, he⟩
    · rintro ⟨e, ⟨rfl, rfl⟩, he⟩
      exact ⟨he, rfl⟩

theorem within_plain (limit : Extent) (x : Option α) : within limit (plain x) = x := by
  cases x with
  | none => rfl
  | some a => simp [within, plain, Extent.zero_le]

theorem within_andThen (limit : Extent) (x : Measured α) (f : α → Measured β) :
    within limit (x.andThen f) = (within limit x).bind fun a => within limit (f a) := by
  cases x with
  | none => rfl
  | some r =>
    obtain ⟨a, e⟩ := r
    by_cases he : e ≤ limit
    · have hx : within limit (some (a, e)) = some a := within_eq_some.mpr ⟨e, rfl, he⟩
      rw [hx]
      cases h : f a <;> simp [within, andThen, h, Extent.max_le, he]
    · have hx : within limit (some (a, e)) = none := by simp [within, he]
      rw [hx]
      cases h : f a <;> simp [within, andThen, h, Extent.max_le, he]

theorem within_giving (limit : Extent) (x : Measured (α × List Char)) (f : α → β) :
    within limit (x.giving f) = (within limit x).map fun (a, rest) => (f a, rest) := by
  cases x with
  | none => rfl
  | some r => simp [within, giving, apply_ite]

/-- Without room for one bracket, nothing in brackets is read. -/
theorem within_enclosed (brackets parts : Nat) (x : Measured α) :
    within ⟨brackets, parts⟩ x.enclosed =
      match brackets with
      | 0 => none
      | inner + 1 => within ⟨inner, parts⟩ x := by
  cases brackets with
  | zero => cases x <;> simp [within, enclosed, Extent.le_def]
  | succ inner => cases x <;> simp [within, enclosed, Extent.le_def]

theorem within_afterWord (limit : Extent) (w : List Char) (f g : List Char → Measured β) (cs : List Char) :
    within limit (afterWord w f g cs) =
      afterWord w (fun rest => within limit (f rest)) (fun cs => within limit (g cs)) cs := by
  rw [afterWord, afterWord]
  split <;> rfl

end Measured

open Measured

/-! ## (2) Keys and values -/

/-- A key of any number of parts. -/
def measureKey (cs : List Char) : Measured (List String × List Char) :=
  (scanKeyUpTo (cs.length + 1) cs).map fun r => (r, ⟨0, r.1.length⟩)

mutual

/-- A value with any number of brackets; at most `n` calls below each other. -/
def measureValue : Nat → List Char → Measured (Data × List Char)
  | 0, _ => none
  | n + 1, cs =>
    afterWord ['['] (fun rest => enclosed ((measureItems n rest).giving fun ds => .list ds true))
      (afterWord ['\x7b']
        (fun rest => enclosed (afterWord ['\x7d'] (fun rest => plain (some (.table [] true, rest)))
          (fun cs => (measurePairs n [] cs).giving fun es => .table (dataEntries es) true) (skipSpaces rest)))
        fun cs => plain (scanScalar cs)) cs

/-- The items of an array that are left. -/
def measureItems : Nat → List Char → Measured (List Data × List Char)
  | 0, _ => none
  | n + 1, cs =>
    afterWord [']'] (fun rest => plain (some ([], rest)))
      (fun cs => (measureValue n cs).andThen fun (d, rest) =>
        afterWord [','] (fun rest => (measureItems n rest).giving (d :: ·))
          (afterWord [']'] (fun rest => plain (some ([d], rest))) fun _ => none) (skipGap false rest))
      (skipGap false cs)

/-- The bindings of a table in line that are left, put into it. -/
def measurePairs : Nat → Entries → List Char → Measured (Entries × List Char)
  | 0, _, _ => none
  | n + 1, es, cs =>
    (measureKey cs).andThen fun (key, rest) => (plain (scanExact '=' rest)).andThen fun rest =>
      (measureValue n (skipSpaces rest)).andThen fun (d, rest) => (plain (put d key es)).andThen fun es =>
        afterWord [','] (measurePairs n es)
          (afterWord ['\x7d'] (fun rest => plain (some (es, rest))) fun _ => none) (skipSpaces rest)

end

/-! The reader reads the same, as long as there is room for it. -/

theorem scanKeyUpTo_ne_nil {n : Nat} {cs : List Char} {key : List String} {rest : List Char}
    (h : scanKeyUpTo n cs = some (key, rest)) : key ≠ [] := by
  cases n with
  | zero => cases h
  | succ n =>
    rw [scanKeyUpTo_succ] at h
    obtain ⟨⟨part, after⟩, -, h⟩ := Option.bind_eq_some_iff.mp h
    dsimp only [afterWord] at h
    split at h
    · obtain ⟨⟨parts, rest'⟩, -, h⟩ := Option.map_eq_some_iff.mp h
      obtain ⟨rfl, -⟩ := Prod.mk.inj h
      simp
    · obtain ⟨rfl, -⟩ := Prod.mk.inj (Option.some.inj h)
      simp

/-- Reading at most `n` parts is reading them all, if there are no more than `n`. -/
theorem scanKeyUpTo_within {m : Nat} {cs : List Char} (hm : cs.length < m) (n : Nat) :
    scanKeyUpTo n cs = (scanKeyUpTo m cs).bind fun r => if r.1.length ≤ n then some r else none := by
  induction m generalizing cs n with
  | zero => cases hm
  | succ m ih =>
    cases n with
    | zero =>
      cases h : scanKeyUpTo (m + 1) cs with
      | none => rfl
      | some r =>
        have hne : r.1 ≠ [] := scanKeyUpTo_ne_nil h
        simp [scanKeyUpTo, hne]
    | succ n =>
      rw [scanKeyUpTo_succ, scanKeyUpTo_succ, Option.bind_assoc]
      apply Option.bind_congr
      intro first hfirst
      obtain ⟨part, rest⟩ := first
      have hrest : rest.length ≤ (skipSpaces cs).length := ((steady_part _).took _ hfirst).length_le
      have hspaces := length_skipSpaces_le cs
      have hspaces' := length_skipSpaces_le rest
      dsimp only
      by_cases hdot : ['.'] <+: skipSpaces rest
      · obtain ⟨rest', hrest'⟩ := hdot
        rw [← hrest', afterWord_append, afterWord_append]
        rw [← hrest', List.length_append, List.length_singleton] at hspaces'
        have hshorter : rest'.length < m := by omega
        rw [ih hshorter n]
        cases scanKeyUpTo m rest' with
        | none => rfl
        | some r => simp [apply_ite]
      · rw [afterWord, afterWord, if_neg hdot, if_neg hdot]
        simp

theorem within_measureKey (brackets : Nat) (cs : List Char) :
    within ⟨brackets, limit⟩ (measureKey cs) = scanKey cs := by
  rw [scanKey, scanKeyUpTo_within (Nat.lt_succ_self cs.length) limit, measureKey]
  cases scanKeyUpTo (cs.length + 1) cs with
  | none => rfl
  | some r => simp [within, Extent.le_def]

/-- The induction is on the number of calls, for values, items and bindings together; in a bracket there is room for one
    less. -/
theorem within_calls (n : Nat) :
    (∀ room cs, within ⟨room, limit⟩ (measureValue n cs) = value n room cs) ∧
    (∀ room cs, within ⟨room, limit⟩ (measureItems n cs) = items n room cs) ∧
    ∀ room es cs, within ⟨room, limit⟩ (measurePairs n es cs) = pairs n room es cs := by
  induction n with
  | zero => exact ⟨fun _ _ => rfl, fun _ _ => rfl, fun _ _ _ => rfl⟩
  | succ n ih =>
    obtain ⟨hvalue, hitems, hpairs⟩ := ih
    refine ⟨fun room cs => ?_, fun room cs => ?_, fun room es cs => ?_⟩
    · simp only [measureValue, value_succ, within_afterWord, within_enclosed, within_plain]
      cases room with
      | zero => rfl
      | succ inner =>
        simp only [within_giving, hitems, hpairs]
        rfl
    · simp only [measureItems, items_succ, within_andThen, within_afterWord, within_plain, within_giving, hvalue,
        hitems]
      rfl
    · simp only [measurePairs, pairs_succ, within_andThen, within_afterWord, within_plain, within_measureKey, hvalue,
        hpairs]
      rfl

/-! ## (3) Documents -/

/-- The value of a binding and the blanks in front of it. -/
def measureBound (cs : List Char) : Measured (Data × List Char) := measureValue (2 * cs.length + 2) (skipSpaces cs)

/-- A statement without its line end. -/
def measureStatement (cs : List Char) : Measured (Statement × List Char) :=
  afterWord ['[', '[']
    (fun rest => (measureKey rest).andThen fun (key, rest) => (plain (scanExact ']' rest)).andThen fun rest =>
      (plain (scanExact ']' rest)).andThen fun rest => plain (some (.row key, rest)))
    (afterWord ['[']
      (fun rest => (measureKey rest).andThen fun (key, rest) => (plain (scanExact ']' rest)).andThen fun rest =>
        plain (some (.table key, rest)))
      fun cs => (measureKey cs).andThen fun (key, rest) => (plain (scanExact '=' rest)).andThen fun rest =>
        (measureBound rest).andThen fun (d, rest) => plain (some (.binding key d, rest))) cs

/-- At most `n` lines or statements. -/
def measureStatements : Nat → List Char → Measured (List Statement)
  | 0, _ => none
  | n + 1, cs =>
    match skipSpaces cs with
    | [] => plain (some [])
    | c :: rest =>
      if c = '\n' then measureStatements n rest
      else if c = '#' then (plain (lineEnd (c :: rest))).andThen (measureStatements n)
      else (measureStatement (c :: rest)).andThen fun (s, rest) => (plain (lineEnd rest)).andThen fun rest =>
        (measureStatements n rest).andThen fun more => plain (some (s :: more))

/-- The data tree of a text, and how far the text goes; none if it is no document. -/
def measure (text : String) : Measured Data :=
  let cs := unify (dropMark text.toList)
  (measureStatements (cs.length + 1) cs).andThen fun ss =>
    (plain (build ss)).andThen fun es => plain (some (.table (dataEntries es) true))

theorem within_measureStatement (cs : List Char) :
    within ⟨limit, limit⟩ (measureStatement cs) = scanStatement cs := by
  have hbound : ∀ rest, within ⟨limit, limit⟩ (measureBound rest) = scanBound rest := fun rest =>
    (within_calls _).1 limit _
  simp only [measureStatement, scanStatement_eq, within_afterWord, within_andThen, within_plain,
    within_measureKey, hbound]

theorem within_measureStatements (n : Nat) (cs : List Char) :
    within ⟨limit, limit⟩ (measureStatements n cs) = statements n cs := by
  induction n generalizing cs with
  | zero => rfl
  | succ n ih =>
    rw [statements_succ, measureStatements]
    cases skipSpaces cs with
    | nil => rfl
    | cons c rest =>
      dsimp only
      split
      · exact ih rest
      · split
        · simp only [within_andThen, within_plain, ih]
        · simp only [within_andThen, within_plain, ih, within_measureStatement, scanFrom]
          simp only [Option.map_eq_bind, Option.bind_assoc, Function.comp_def]

theorem read_eq_within (text : String) : read text = within ⟨limit, limit⟩ (measure text) := by
  simp only [read, measure, within_andThen, within_measureStatements, within_plain]
  rfl

/-- The reader reads the documents that are within its limit, as what they are, and rejects the others. -/
theorem read_eq_some {text : String} {d : Data} :
    read text = some d ↔ ∃ extent, measure text = some (d, extent) ∧ extent ≤ ⟨limit, limit⟩ := by
  rw [read_eq_within, within_eq_some]

/-! ## (4) Arrays in arrays -/

/-- An array with nothing in it, in `n` more arrays. -/
def nest : Nat → Data
  | 0 => .list [] true
  | n + 1 => .list [nest n] true

/-- So many opening brackets, and as many that close them. -/
def brackets (n : Nat) : List Char := List.replicate n '[' ++ List.replicate n ']'

theorem brackets_append (n : Nat) (rest : List Char) :
    brackets (n + 1) ++ rest = '[' :: (brackets n ++ ']' :: rest) := by
  rw [brackets, List.replicate_succ, List.replicate_succ']
  simp [brackets]

theorem measureValue_brackets {n calls : Nat} (h : 2 * n + 2 ≤ calls) (rest : List Char) :
    measureValue calls (brackets (n + 1) ++ rest) = some ((nest n, rest), ⟨n + 1, 0⟩) := by
  induction n generalizing calls rest with
  | zero =>
    obtain ⟨calls, rfl⟩ : ∃ k, calls = k + 2 := ⟨calls - 2, by omega⟩
    rfl
  | succ n ih =>
    obtain ⟨calls, rfl⟩ : ∃ k, calls = k + 2 := ⟨calls - 2, by omega⟩
    have hcalls : 2 * n + 2 ≤ calls := by omega
    have hinner := ih hcalls (']' :: rest)
    have hopen : brackets (n + 1) ++ ']' :: rest = '[' :: (brackets n ++ ']' :: ']' :: rest) :=
      brackets_append n (']' :: rest)
    have hitem : measureItems (calls + 1) (brackets (n + 1) ++ ']' :: rest) = some (([nest n], rest), ⟨n + 1, 0⟩) := by
      have hgap : skipGap false (brackets (n + 1) ++ ']' :: rest) = brackets (n + 1) ++ ']' :: rest := by
        rw [hopen]
        rfl
      rw [measureItems, hgap, hopen, afterWord_cons, if_neg (by decide), ← hopen, hinner]
      rfl
    rw [brackets_append, measureValue, afterWord_cons, if_pos rfl, hitem]
    rfl

/-- The text with such an array for its only value. -/
def deepToml (n : Nat) : String := String.ofList ('x' :: ' ' :: '=' :: ' ' :: brackets n)

theorem measureStatement_brackets (n : Nat) :
    measureStatement ('x' :: ' ' :: '=' :: ' ' :: brackets (n + 1)) =
      some ((.binding ["x"] (nest n), []), ⟨n + 1, 1⟩) := by
  have hkey : measureKey ('x' :: ' ' :: '=' :: ' ' :: brackets (n + 1)) =
      some ((["x"], '=' :: ' ' :: brackets (n + 1)), ⟨0, 1⟩) := rfl
  have hequal : scanExact '=' ('=' :: ' ' :: brackets (n + 1)) = some (' ' :: brackets (n + 1)) := rfl
  have hbound : measureBound (' ' :: brackets (n + 1)) = some ((nest n, []), ⟨n + 1, 0⟩) := by
    have hspaces : skipSpaces (' ' :: brackets (n + 1)) = brackets (n + 1) ++ [] := by
      have hopen : brackets (n + 1) = '[' :: (brackets n ++ [']']) := by rw [← brackets_append, List.append_nil]
      rw [List.append_nil, hopen]
      rfl
    rw [measureBound, hspaces]
    refine measureValue_brackets ?_ []
    simp [brackets]
    omega
  rw [measureStatement, afterWord_other ['[', '['] (by simp), afterWord_cons, if_neg (by decide), hkey]
  simp [andThen, hequal, hbound, plain, Extent.max, Extent.zero]

theorem measure_deepToml (n : Nat) :
    measure (deepToml (n + 1)) = some (.table [(some "x", nest n)] true, ⟨n + 1, 1⟩) := by
  have hreturn : '\r' ∉ 'x' :: ' ' :: '=' :: ' ' :: brackets (n + 1) := by
    simp [brackets]
  have hchars : unify (dropMark (deepToml (n + 1)).toList) = 'x' :: ' ' :: '=' :: ' ' :: brackets (n + 1) := by
    rw [deepToml, String.toList_ofList]
    exact unify_eq_self hreturn
  have hspaces : skipSpaces ('x' :: ' ' :: '=' :: ' ' :: brackets (n + 1)) =
      'x' :: ' ' :: '=' :: ' ' :: brackets (n + 1) := rfl
  have hend : lineEnd [] = some [] := rfl
  have hdone : measureStatements ('x' :: ' ' :: '=' :: ' ' :: brackets (n + 1)).length [] = some ([], .zero) := rfl
  have hbuild : build [.binding ["x"] (nest n)] = some [("x", .leaf (nest n))] := rfl
  rw [measure, hchars, measureStatements, hspaces]
  dsimp only
  rw [if_neg (by decide), if_neg (by decide), measureStatement_brackets]
  simp only [andThen, plain, hend, hdone, hbuild, Option.bind_some, Option.map_some, Extent.max_zero]
  rfl

end ConfigTemplate.Toml
