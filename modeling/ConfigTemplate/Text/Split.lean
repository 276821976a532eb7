/-
  ConfigTemplate.Text.Split — the parts of a text between separators.

  (1) `split`: a text without the separator is its own only part. `split_ne_nil`: there
      is always a part, and `intercalate_split`: with the separators the parts are the
      text again.
  (2) `splitText`: the same on texts.
-/

namespace ConfigTemplate.Text

def split (sep : Char) : List Char → List (List Char)
  | [] => [[]]
  | c :: rest =>
    if c = sep then [] :: split sep rest
    else match split sep rest with
      | [] => [[c]]
      | part :: parts => (c :: part) :: parts

theorem split_ne_nil (sep : Char) (s : List Char) : split sep s ≠ [] := by
  cases s with
  | nil => simp [split]
  | cons c rest =>
    simp only [split]
    split
    · simp
    · split <;> simp

theorem intercalate_split (sep : Char) (s : List Char) : [sep].intercalate (split sep s) = s := by
  induction s with
  | nil => rfl
  | cons c rest ih =>
    simp only [split]
    by_cases h : c = sep
    · rw [if_pos h]
      cases hs : split sep rest with
      | nil => exact absurd hs (split_ne_nil sep rest)
      | cons part parts =>
        rw [hs] at ih
        simp [List.intercalate, List.intersperse, ← ih, h]
    · rw [if_neg h]
      cases hs : split sep rest with
      | nil => exact absurd hs (split_ne_nil sep rest)
      | cons part parts =>
        rw [hs] at ih
        cases parts <;> simp_all [List.intercalate, List.intersperse]

def splitText (sep : Char) (s : String) : List String := (split sep s.toList).map String.ofList

end ConfigTemplate.Text
