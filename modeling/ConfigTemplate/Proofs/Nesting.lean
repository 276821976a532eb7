/-
  ConfigTemplate.Proofs.Nesting — how deep the brackets of a JSON text nest.

  (1) `nesting`: counted on the characters of the text; a bracket inside quotes is none,
      and a quote after a backslash does not end its text.
  (2) `deepest_writeText`: nothing inside a quoted text counts.
  (3) `nesting_compact`: a written text nests as deep as its data.
-/
import ConfigTemplate.Json.Write
import Mathlib.Tactic.SplitIfs

namespace ConfigTemplate.Json

/-! ## (1) Counting brackets -/

/-- Where in a text a character stands. -/
inductive Spot where
  | outside
  | quoted
  /-- Just after a backslash in a quoted text. -/
  | escaped
  deriving DecidableEq

/-- The greatest number of brackets open at once from here on, with `n` open already. -/
def deepest : Spot → Nat → List Char → Nat
  | _, n, [] => n
  | .outside, n, c :: rest =>
    if c = '"' then deepest .quoted n rest
    else if c = '[' ∨ c = '\x7b' then deepest .outside (n + 1) rest
    else if c = ']' ∨ c = '\x7d' then max n (deepest .outside (n - 1) rest)
    else deepest .outside n rest
  | .quoted, n, c :: rest =>
    if c = '\\' then deepest .escaped n rest
    else if c = '"' then deepest .outside n rest
    else deepest .quoted n rest
  | .escaped, n, _ :: rest => deepest .quoted n rest

/-- The greatest number of brackets of the text that are open at once. -/
def nesting (text : String) : Nat := deepest .outside 0 text.toList

theorem le_deepest (spot : Spot) (n : Nat) (cs : List Char) : n ≤ deepest spot n cs := by
  induction cs generalizing spot n with
  | nil => simp [deepest]
  | cons c rest ih =>
    cases spot with
    | outside =>
      simp only [deepest]
      split_ifs
      · exact ih _ n
      · exact Nat.le_trans (Nat.le_succ n) (ih _ (n + 1))
      · exact Nat.le_max_left _ _
      · exact ih _ n
    | quoted =>
      simp only [deepest]
      split_ifs
      · exact ih _ n
      · exact ih _ n
      · exact ih _ n
    | escaped => exact ih _ n

/-! ## (2) Quoted texts -/

theorem deepest_writeChar (c : Char) (n : Nat) (rest : List Char) :
    deepest .quoted n (writeChar c ++ rest) = deepest .quoted n rest := by
  have hex : ∀ m, hexDigit m ≠ '\\' ∧ hexDigit m ≠ '"' := fun m => by
    have hdigit : ∀ k < 16, Nat.digitChar k ≠ '\\' ∧ Nat.digitChar k ≠ '"' := by decide
    exact hdigit (m % 16) (Nat.mod_lt m (by decide))
  unfold writeChar
  split_ifs with hquote hslash
  all_goals simp_all [deepest]

theorem deepest_writeText (s : String) (n : Nat) (rest : List Char) :
    deepest .outside n (writeText s ++ rest) = deepest .outside n rest := by
  have hchars : ∀ cs : List Char, deepest .quoted n (cs.flatMap writeChar ++ '"' :: rest) = deepest .outside n rest := by
    intro cs
    induction cs with
    | nil => simp [deepest]
    | cons c cs ih => rw [List.flatMap_cons, List.append_assoc, deepest_writeChar, ih]
  simp [writeText, deepest, hchars]

/-! ## (3) Written texts -/

namespace Plain

open Data (depthItems depthMembers)

theorem deepest_open {c : Char} (h : c = '[' ∨ c = '\x7b') (n : Nat) (cs : List Char) :
    deepest .outside n (c :: cs) = deepest .outside (n + 1) cs := by
  rcases h with rfl | rfl
  · simp [deepest]
  · simp [deepest]

theorem deepest_close {c : Char} (h : c = ']' ∨ c = '\x7d') (n : Nat) (cs : List Char) :
    deepest .outside (n + 1) (c :: cs) = max (n + 1) (deepest .outside n cs) := by
  rcases h with rfl | rfl
  · simp [deepest]
  · simp [deepest]

theorem deepest_sign {c : Char} (h : c = ',' ∨ c = ':') (n : Nat) (cs : List Char) :
    deepest .outside n (c :: cs) = deepest .outside n cs := by
  rcases h with rfl | rfl
  · simp [deepest]
  · simp [deepest]

mutual

theorem deepest_write : (v : Plain) → (n : Nat) → (rest : List Char) →
    deepest .outside n (v.write ++ rest) = max (n + v.data.depth) (deepest .outside n rest)
  | null, n, rest | bool true, n, rest | bool false, n, rest => by
    have := le_deepest .outside n rest
    simp [write, deepest, data, Data.depth, this]
  | text s, n, rest => by
    have := le_deepest .outside n rest
    simp [write, deepest_writeText, data, Data.depth, this]
  | list items, n, rest => by
    have hitems := deepest_writeItems items (n + 1) (']' :: rest)
    rw [deepest_close (by simp)] at hitems
    simp only [write, data, Data.depth, List.cons_append, List.append_assoc, List.nil_append]
    rw [deepest_open (by simp), hitems]
    omega
  | table members, n, rest => by
    have hmembers := deepest_writeMembers members (n + 1) ('\x7d' :: rest)
    rw [deepest_close (by simp)] at hmembers
    simp only [write, data, Data.depth, List.cons_append, List.append_assoc, List.nil_append]
    rw [deepest_open (by simp), hmembers]
    omega

theorem deepest_writeItems : (items : List Plain) → (n : Nat) → (rest : List Char) →
    deepest .outside n (writeItems items ++ rest) = max (n + depthItems (dataItems items)) (deepest .outside n rest)
  | [], n, rest => by simp [writeItems, dataItems, depthItems, le_deepest]
  | [v], n, rest => by simp [writeItems, dataItems, depthItems, deepest_write v n rest]
  | v :: w :: more, n, rest => by
    have hmore := deepest_writeItems (w :: more) n rest
    have hv := deepest_write v n (',' :: (writeItems (w :: more) ++ rest))
    rw [deepest_sign (by simp), hmore] at hv
    have hcomma : writeItems (v :: w :: more) ++ rest = v.write ++ ',' :: (writeItems (w :: more) ++ rest) := by
      simp [writeItems]
    have hdepth : depthItems (dataItems (v :: w :: more)) = max v.data.depth (depthItems (dataItems (w :: more))) := rfl
    rw [hcomma, hv, hdepth]
    omega

theorem deepest_writeMembers : (members : List (String × Plain)) → (n : Nat) → (rest : List Char) →
    deepest .outside n (writeMembers members ++ rest) =
      max (n + depthMembers (dataMembers members)) (deepest .outside n rest)
  | [], n, rest => by simp [writeMembers, dataMembers, depthMembers, le_deepest]
  | [(key, v)], n, rest => by
    have hkey : writeMembers [(key, v)] ++ rest = writeText key ++ ':' :: (v.write ++ rest) := by simp [writeMembers]
    rw [hkey, deepest_writeText, deepest_sign (by simp), deepest_write v n rest]
    simp [dataMembers, depthMembers]
  | (key, v) :: next :: more, n, rest => by
    have hmore := deepest_writeMembers (next :: more) n rest
    have hv := deepest_write v n (',' :: (writeMembers (next :: more) ++ rest))
    rw [deepest_sign (by simp), hmore] at hv
    have hkey : writeMembers ((key, v) :: next :: more) ++ rest =
        writeText key ++ ':' :: (v.write ++ ',' :: (writeMembers (next :: more) ++ rest)) := by simp [writeMembers]
    have hdepth : depthMembers (dataMembers ((key, v) :: next :: more)) =
        max v.data.depth (depthMembers (dataMembers (next :: more))) := rfl
    rw [hkey, deepest_writeText, deepest_sign (by simp), hv, hdepth]
    omega

end

theorem nesting_compact (v : Plain) : nesting v.compact = v.data.depth := by
  have h := deepest_write v 0 []
  rw [List.append_nil] at h
  simp [nesting, compact, h, deepest]

end Plain

end ConfigTemplate.Json
