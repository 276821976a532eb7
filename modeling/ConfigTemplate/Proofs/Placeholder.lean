/-
  ConfigTemplate.Proofs.Placeholder — where the placeholders of a line stand.

  (1) `IsName`, `placeholder?_iff`: a placeholder is a dollar sign and a name in braces,
      and a name holds none of these characters, so a placeholder ends before a
      character that `Parts`, such as the next dollar sign.
  (2) `placeholders_around`: so placeholders do not overlap, and a line is read piece by
      piece around each of them.
  (3) `line_induction`: a line is a text without placeholders, or such a text, a
      placeholder and the rest of the line. `mem_placeholders` says which names a line has.
  (4) `mem_wanted`: which of them count.
-/
import ConfigTemplate.Settings.Placeholder
import Mathlib.Data.List.TakeWhile

namespace ConfigTemplate.Settings

/-! ## (1) Names -/

/-- Capitals, digits and underscores, not starting with a digit. -/
def IsName (name : List Char) : Prop := ∃ c rest, name = c :: rest ∧ startsName c = true ∧ ∀ d ∈ rest, inName d = true

theorem IsName.inName {name : List Char} (h : IsName name) : ∀ c ∈ name, inName c = true := by
  obtain ⟨c, rest, rfl, hc, hrest⟩ := h
  intro d hd
  rcases List.mem_cons.mp hd with rfl | hd
  · simp [Settings.inName, hc]
  · exact hrest d hd

theorem IsName.not_mem {name : List Char} (h : IsName name) {c : Char} (hc : Settings.inName c = false) : c ∉ name := by
  intro hmem
  rw [h.inName c hmem] at hc
  cases hc

theorem written_eq (name : List Char) : written name = '$' :: '\x7b' :: (name ++ ['\x7d']) := rfl

/-- A placeholder has only one dollar sign. -/
theorem IsName.dollar_not_mem_tail {name : List Char} (h : IsName name) : '$' ∉ '\x7b' :: (name ++ ['\x7d']) := by
  have hname : '$' ∉ name := h.not_mem rfl
  simp [hname]

/-- A text starts with a placeholder, and with which one. -/
theorem placeholder?_iff {s name : List Char} :
    placeholder? s = some name ↔ ∃ after, s = written name ++ after ∧ IsName name := by
  constructor
  · intro h
    unfold placeholder? at h
    split at h
    · rename_i c rest
      split at h
      · rename_i hcond
        obtain ⟨hc, hclose⟩ := hcond
        cases h
        obtain ⟨after, hafter⟩ := List.head?_eq_some_iff.mp hclose
        refine ⟨after, ?_, c, rest.takeWhile inName, rfl, hc, fun d hd => List.mem_takeWhile_imp hd⟩
        have hrest : rest = rest.takeWhile inName ++ '\x7d' :: after := by
          rw [← hafter, List.takeWhile_append_dropWhile]
        simp [written, ← hrest]
      · cases h
    · cases h
  · rintro ⟨after, rfl, c, rest, rfl, hc, hrest⟩
    have hclose : inName '\x7d' = false := rfl
    simp [written, placeholder?, hc, List.takeWhile_append_of_pos hrest, List.dropWhile_append_of_pos hrest, hclose]

theorem placeholder?_written {name : List Char} (h : IsName name) (after : List Char) :
    placeholder? (written name ++ after) = some name := placeholder?_iff.mpr ⟨after, rfl, h⟩

theorem placeholder?_dollar {c : Char} {rest name : List Char} (h : placeholder? (c :: rest) = some name) : c = '$' := by
  obtain ⟨after, hs, _⟩ := placeholder?_iff.mp h
  rw [written_eq, List.cons_append] at hs
  exact (List.cons.inj hs).1

/-- No placeholder goes on over the character. -/
def Parts (c : Char) : Prop := inName c = false ∧ c ≠ '\x7b' ∧ c ≠ '\x7d'

theorem parts_dollar : Parts '$' := ⟨rfl, by decide, by decide⟩

/-- A placeholder ends before a character that parts. -/
theorem placeholder?_append {s : List Char} (hs : s ≠ []) {c : Char} (hc : Parts c) (rest : List Char) :
    placeholder? (s ++ c :: rest) = placeholder? s := by
  refine Option.ext fun name => ?_
  rw [placeholder?_iff, placeholder?_iff]
  constructor
  · rintro ⟨after, h, hn⟩
    rcases List.append_eq_append_iff.mp h with ⟨more, hwritten, htail⟩ | ⟨more, hs', hafter⟩
    · cases more with
      | nil =>
        rw [List.append_nil] at hwritten
        exact ⟨[], by simp [hwritten], hn⟩
      | cons d more =>
        -- The placeholder would go on with a character that it does not have.
        obtain ⟨e, s, rfl⟩ := List.exists_cons_of_ne_nil hs
        have hd : c = d := (List.cons.inj htail).1
        rw [written_eq, List.cons_append] at hwritten
        have hmem : c ∈ '\x7b' :: (name ++ ['\x7d']) := by
          rw [(List.cons.inj hwritten).2, hd]
          simp
        obtain ⟨hname, hopen, hclose⟩ := hc
        simp [hopen, hclose, hn.not_mem hname] at hmem
    · exact ⟨more, hs', hn⟩
  · rintro ⟨after, rfl, hn⟩
    exact ⟨after ++ c :: rest, by simp, hn⟩

/-! ## (2) The placeholders of a line -/

theorem placeholders_cons (c : Char) (rest : List Char) :
    placeholders (c :: rest) = (placeholder? (c :: rest)).toList ++ placeholders rest := by
  rw [placeholders]
  cases placeholder? (c :: rest) <;> rfl

/-- A line without placeholders starts with none, and so does the rest of it. -/
theorem placeholders_cons_eq_nil {c : Char} {rest : List Char} :
    placeholders (c :: rest) = [] ↔ placeholder? (c :: rest) = none ∧ placeholders rest = [] := by
  rw [placeholders_cons, List.append_eq_nil_iff, Option.toList_eq_nil_iff]

theorem placeholders_no_dollar {s : List Char} (h : '$' ∉ s) (rest : List Char) :
    placeholders (s ++ rest) = placeholders rest := by
  induction s with
  | nil => rfl
  | cons c s ih =>
    have hc : placeholder? (c :: (s ++ rest)) = none := by
      rw [Option.eq_none_iff_forall_ne_some]
      intro name hname
      exact h (by simp [placeholder?_dollar hname])
    rw [List.cons_append, placeholders_cons, hc, ih fun hs => h (by simp [hs])]
    rfl

theorem placeholders_parted {c : Char} (hc : Parts c) (before rest : List Char) :
    placeholders (before ++ c :: rest) = placeholders before ++ placeholders (c :: rest) := by
  induction before with
  | nil => rfl
  | cons d before ih =>
    have hd : placeholder? (d :: (before ++ c :: rest)) = placeholder? (d :: before) :=
      placeholder?_append (List.cons_ne_nil d before) hc rest
    rw [List.cons_append, placeholders_cons, hd, ih, placeholders_cons d before, List.append_assoc]

theorem placeholders_written {name : List Char} (h : IsName name) (after : List Char) :
    placeholders (written name ++ after) = name :: placeholders after := by
  rw [written_eq, List.cons_append, placeholders_cons, placeholders_no_dollar h.dollar_not_mem_tail]
  rw [← List.cons_append, ← written_eq, placeholder?_written h]
  rfl

/-- The placeholders before a placeholder, it, and those after it. -/
theorem placeholders_around {name : List Char} (h : IsName name) (before after : List Char) :
    placeholders (before ++ (written name ++ after)) = placeholders before ++ name :: placeholders after := by
  rw [← placeholders_written h, written_eq, List.cons_append]
  exact placeholders_parted parts_dollar before _

/-! ## (3) Lines piece by piece -/

/-- The first placeholder of a line, what stands before it and what stands after it. -/
theorem first_placeholder (line : List Char) :
    placeholders line = [] ∨
      ∃ before name after, line = before ++ (written name ++ after) ∧ placeholders before = [] ∧ IsName name := by
  induction line with
  | nil => exact Or.inl rfl
  | cons c rest ih =>
    cases hc : placeholder? (c :: rest) with
    | some name =>
      obtain ⟨after, hline, hn⟩ := placeholder?_iff.mp hc
      exact Or.inr ⟨[], name, after, hline, rfl, hn⟩
    | none =>
      rcases ih with hrest | ⟨before, name, after, rfl, hbefore, hn⟩
      · exact Or.inl (placeholders_cons_eq_nil.mpr ⟨hc, hrest⟩)
      · right
        have hcb : placeholder? (c :: before) = none := by
          rw [← hc, written_eq, List.cons_append]
          exact (placeholder?_append (List.cons_ne_nil c before) parts_dollar _).symm
        exact ⟨c :: before, name, after, rfl, placeholders_cons_eq_nil.mpr ⟨hcb, hbefore⟩, hn⟩

theorem line_induction {P : List Char → Prop} (free : ∀ line, placeholders line = [] → P line)
    (step : ∀ before name after, placeholders before = [] → IsName name → P after →
      P (before ++ (written name ++ after))) : ∀ line, P line := by
  intro line
  induction hn : line.length using Nat.strongRecOn generalizing line with
  | _ n ih =>
    rcases first_placeholder line with hfree | ⟨before, name, after, rfl, hbefore, hname⟩
    · exact free line hfree
    · refine step before name after hbefore hname (ih after.length ?_ after rfl)
      simp [written] at hn
      omega

/-- The names of a line are those that stand in it as a placeholder. -/
theorem mem_placeholders {line name : List Char} :
    name ∈ placeholders line ↔ ∃ before after, line = before ++ (written name ++ after) ∧ IsName name := by
  constructor
  · induction line using line_induction with
    | free line h => simp [h]
    | step before m after hbefore hm ih =>
      intro h
      rw [placeholders_around hm, hbefore, List.nil_append] at h
      rcases List.mem_cons.mp h with rfl | h
      · exact ⟨before, after, rfl, hm⟩
      · obtain ⟨before', after', rfl, hn⟩ := ih h
        exact ⟨before ++ (written m ++ before'), after', by simp, hn⟩
  · rintro ⟨before, after, rfl, hn⟩
    rw [placeholders_around hn]
    simp

theorem isName_of_mem {line name : List Char} (h : name ∈ placeholders line) : IsName name := by
  obtain ⟨_, _, _, hn⟩ := mem_placeholders.mp h
  exact hn

/-! ## (4) Lines that count -/

theorem wanted_line {line : List Char} (h : isComment line = false) : wanted line = placeholders line := by
  rw [wanted, h]
  rfl

theorem not_comment {line name : List Char} (h : name ∈ wanted line) : isComment line = false := by
  rw [Bool.eq_false_iff]
  intro hcomment
  rw [wanted, if_pos hcomment] at h
  cases h

/-- The placeholders that count are those of a line that is no comment. -/
theorem mem_wanted {line name : List Char} :
    name ∈ wanted line ↔
      isComment line = false ∧ ∃ before after, line = before ++ (written name ++ after) ∧ IsName name := by
  rw [← mem_placeholders]
  constructor
  · intro h
    have hcomment := not_comment h
    rw [wanted_line hcomment] at h
    exact ⟨hcomment, h⟩
  · rintro ⟨hcomment, h⟩
    rw [wanted_line hcomment]
    exact h

end ConfigTemplate.Settings
