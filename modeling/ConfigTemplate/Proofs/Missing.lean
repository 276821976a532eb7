/-
  ConfigTemplate.Proofs.Missing — what filling a settings text reports, and what it
  leaves alone.

  (1) `Missing`: a variable that a line wants and the environment does not set.
      `mem_missing`, `missing_ordered`: the report has each of them once, in the order in
      which the text names them first.
  (2) `fillLine_copied`, `fillLine_tidy`: comments and lines without placeholders are
      copied, and a line whose dollar signs all start placeholders is filled at once if
      no value brings in another.
  (3) `missing_reported_lines_copied`: both together, for whole texts.
-/
import ConfigTemplate.Proofs.Substitution

namespace ConfigTemplate.Settings

/-! ## (1) The report -/

/-- A placeholder on a line that is no comment names the variable, and it is not set. -/
def Missing (env : Environment) (text variableName : String) : Prop :=
  ∃ line ∈ Text.lines text.toList, isComment line = false ∧
    ∃ before name after, line = before ++ (written name ++ after) ∧ IsName name ∧ variableName = String.ofList name ∧
      env.get? variableName = none

/-- The names of all placeholders that count, from the start of the text to its end. -/
def named (text : String) : List String := ((Text.lines text.toList).flatMap wanted).map String.ofList

theorem mem_missing {env : Environment} {text variableName : String} :
    variableName ∈ missing env text ↔ Missing env text variableName := by
  simp only [missing, Missing, List.mem_eraseDups, List.mem_filter, List.mem_map, List.mem_flatMap, mem_wanted,
    Option.isNone_iff_eq_none]
  constructor
  · rintro ⟨⟨name, ⟨line, hline, hcomment, before, after, hcut, hn⟩, rfl⟩, hunset⟩
    exact ⟨line, hline, hcomment, before, name, after, hcut, hn, rfl, hunset⟩
  · rintro ⟨line, hline, hcomment, before, name, after, hcut, hn, rfl, hunset⟩
    exact ⟨⟨name, ⟨line, hline, hcomment, before, after, hcut, hn⟩, rfl⟩, hunset⟩

theorem missing_ordered (env : Environment) (text : String) :
    (missing env text).Pairwise fun a b => (named text).idxOf a < (named text).idxOf b :=
  eraseDups_ordered _ (named text)

/-- What stands before another in the report is another. -/
theorem nodup_missing (env : Environment) (text : String) : (missing env text).Nodup :=
  (missing_ordered env text).imp fun h e => by simp [e] at h

theorem exists_substitute_error {env : Environment} {text : String} :
    (∃ names, substitute env text = .error names) ↔ ∃ variableName, Missing env text variableName := by
  simp only [substitute_error, exists_eq_left, ← mem_missing, ne_eq, List.eq_nil_iff_forall_not_mem, not_forall, not_not]

theorem substitute_succeeds {env : Environment} {text new : String} (h : substitute env text = .ok new) :
    new = filled env text := ((substitute_ok env text new).mp h).2

/-! ## (2) The lines -/

/-- A line whose placeholders do not count is copied. -/
theorem fillLine_copied {line : List Char} (h : isComment line = true ∨ placeholders line = []) (env : Environment) :
    fillLine env line = line := by
  have hnone : wanted line = [] := by
    rcases h with hcomment | hfree
    · rw [wanted, if_pos hcomment]
    · rw [wanted, hfree, ite_self]
  rw [fillLine, hnone, fillNames]

theorem fillLine_tidy {env : Environment} {line : List Char} (hcomment : isComment line = false) (hline : Tidy line)
    (hvalues : ∀ name ∈ placeholders line, '$' ∉ valueOf env name) :
    fillLine env line = fillWith (valueOf env) line := by
  rw [← wanted_line hcomment] at hvalues
  rw [fillLine_undisturbed (undisturbed_of_no_dollar hline hvalues), atOnce, hcomment]
  rfl

/-! ## (3) Whole texts -/

/-- A text is refused exactly for a placeholder on a line that is no comment whose variable is not set. The report has
    the variables that are missing and no others, each once, in the order in which the text names them first. Else every
    line becomes a piece with a line feed behind it: comments and lines without placeholders as they are, and a line
    whose dollar signs all start placeholders with every variable's value in its place, if no value has a dollar sign. -/
theorem missing_reported_lines_copied (env : Environment) (text : String) :
    ((∃ names, substitute env text = .error names) ↔ ∃ variableName, Missing env text variableName) ∧
    (∀ names, substitute env text = .error names →
      names.Nodup ∧ (∀ variableName, variableName ∈ names ↔ Missing env text variableName) ∧
        names.Pairwise fun a b => (named text).idxOf a < (named text).idxOf b) ∧
    (∀ new, substitute env text = .ok new →
      new = String.ofList ((Text.lines text.toList).flatMap fun line => fillLine env line ++ ['\n'])) ∧
    (∀ line, isComment line = true ∨ placeholders line = [] → fillLine env line = line) ∧
    (∀ line, isComment line = false → Tidy line → (∀ name ∈ placeholders line, '$' ∉ valueOf env name) →
      fillLine env line = fillWith (valueOf env) line) := by
  refine ⟨exists_substitute_error, fun names h => ?_, fun new h => substitute_succeeds h,
    fun line h => fillLine_copied h env, fun line hcomment => fillLine_tidy hcomment⟩
  obtain ⟨rfl, -⟩ := (substitute_error env text names).mp h
  exact ⟨nodup_missing env text, fun _ => mem_missing, missing_ordered env text⟩

/-- A variable that only a comment names, and three others, one of them on two lines. -/
def threeNamed : String := "# $\x7bNOTE\x7d\n$\x7bTHIRD\x7d-$\x7bFIRST\x7d\r\n$\x7bSECOND\x7d$\x7bTHIRD\x7d"

def onlyFirst : Environment := ⟨[("FIRST", "1".toUTF8)]⟩

def allThree : Environment := ⟨[("FIRST", "1".toUTF8), ("SECOND", "2".toUTF8), ("THIRD", "3".toUTF8)]⟩

theorem third_before_second :
    substitute onlyFirst threeNamed = .error ["THIRD", "SECOND"] ∧ Missing onlyFirst threeNamed "SECOND" ∧
      ¬ Missing onlyFirst threeNamed "NOTE" ∧ substitute allThree threeNamed = .ok "# $\x7bNOTE\x7d\n3-1\n23\n" ∧
      ∀ line ∈ Text.lines threeNamed.toList, isComment line = false →
        fillLine allThree line = fillWith (valueOf allThree) line := by
  have hreport : substitute onlyFirst threeNamed = .error ["THIRD", "SECOND"] := rfl
  have htidy : ∀ line ∈ Text.lines threeNamed.toList, Tidy line := by decide +kernel
  have hvalues : ∀ line ∈ Text.lines threeNamed.toList, ∀ name ∈ placeholders line, isComment line = false →
      '$' ∉ valueOf allThree name := by decide +kernel
  obtain ⟨-, hnames, -⟩ := missing_reported_lines_copied onlyFirst threeNamed
  obtain ⟨-, hmissing, -⟩ := hnames _ hreport
  obtain ⟨-, -, -, -, hfill⟩ := missing_reported_lines_copied allThree threeNamed
  refine ⟨hreport, (hmissing "SECOND").mp (by decide), fun h => ?_, rfl, fun line hline hcomment => ?_⟩
  · exact absurd ((hmissing "NOTE").mpr h) (by decide)
  · exact hfill line hcomment (htidy line hline) fun name hname => hvalues line hline name hname hcomment

end ConfigTemplate.Settings
