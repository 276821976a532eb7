/-
  ConfigTemplate.Proofs.Substitution — what becomes of a settings text when its
  placeholders are filled.

  (1) `substitute_ok`, `substitute_error`: a text is filled if the environment covers
      every line of it; else all variables that are missing are reported.
  (2) `filled_at_once`: a text is filled at once if its lines are undisturbed. A value may
      bring in a placeholder whose turn comes later on the line (`value_filled_again`),
      so just the texts with at most one placeholder on a line are filled at once
      whatever the values are.
-/
import ConfigTemplate.Proofs.Filling
import ConfigTemplate.Proofs.First

namespace ConfigTemplate.Settings

/-! ## (1) Success and failure -/

/-- The environment gives a value to every name of the line that counts. -/
def Covers (env : Environment) (line : List Char) : Prop :=
  ∀ name ∈ wanted line, (env.get? (String.ofList name)).isSome

instance (env : Environment) (line : List Char) : Decidable (Covers env line) :=
  inferInstanceAs (Decidable (∀ name ∈ wanted line, (env.get? (String.ofList name)).isSome))

/-- The names not seen before, each once, at its first occurrence. -/
theorem distinct_eq (names seen : List String) :
    distinct names seen = seen ++ (names.filter fun name => !seen.contains name).eraseDups := by
  induction names generalizing seen with
  | nil => simp [distinct]
  | cons first rest ih =>
    rw [distinct, ih]
    cases h : seen.contains first with
    | true => rw [if_pos rfl, List.filter_cons, if_neg (by rw [h]; simp)]
    | false =>
      rw [if_neg Bool.false_ne_true, List.filter_cons, if_pos (by rw [h]; simp), List.eraseDups_cons, List.filter_filter,
        List.append_assoc, List.singleton_append]
      congr 4
      funext name
      simp [Bool.and_comm]
      rfl

/-- The variables that are missing, in the order in which the text names them first. -/
theorem unset_eq (env : Environment) (lines : List (List Char)) :
    unset env lines =
      (((lines.flatMap wanted).map String.ofList).filter fun name => (env.get? name).isNone).eraseDups := by
  rw [unset, distinct_eq]
  simp

theorem unset_eq_nil {env : Environment} {lines : List (List Char)} :
    unset env lines = [] ↔ ∀ line ∈ lines, Covers env line := by
  rw [unset_eq, List.eq_nil_iff_forall_not_mem]
  simp only [List.mem_eraseDups, List.mem_filter, List.mem_map, List.mem_flatMap]
  constructor
  · intro h line hline name hname
    by_contra hset
    exact h (String.ofList name) ⟨⟨name, ⟨line, hline, hname⟩, rfl⟩, by simpa using hset⟩
  · rintro h _ ⟨⟨name, ⟨line, hline, hname⟩, rfl⟩, hset⟩
    have := h line hline name hname
    simp_all

/-- The text with the placeholders of each line filled, name after name. -/
def filled (env : Environment) (text : String) : String :=
  String.ofList ((Text.lines text.toList).flatMap fun line => fillLine env line ++ ['\n'])

theorem substitute_ok (env : Environment) (text new : String) :
    substitute env text = .ok new ↔ (∀ line ∈ Text.lines text.toList, Covers env line) ∧ new = filled env text := by
  rw [substitute]
  split
  · rename_i hnone
    rw [Except.ok.injEq]
    constructor
    · intro hnew
      exact ⟨unset_eq_nil.mp hnone, hnew.symm⟩
    · rintro ⟨-, rfl⟩
      rfl
  · rename_i hsome
    simp only [reduceCtorEq, false_iff, not_and]
    intro hcovers
    exact absurd (unset_eq_nil.mpr hcovers) hsome

theorem substitute_covered {env : Environment} {text : String}
    (h : ∀ line ∈ Text.lines text.toList, Covers env line) : substitute env text = .ok (filled env text) :=
  (substitute_ok env text _).mpr ⟨h, rfl⟩

/-- The variables that the text wants and the environment does not set, each once, where it is named first. -/
def missing (env : Environment) (text : String) : List String :=
  ((((Text.lines text.toList).flatMap wanted).map String.ofList).filter fun name => (env.get? name).isNone).eraseDups

theorem substitute_error (env : Environment) (text : String) (names : List String) :
    substitute env text = .error names ↔ names = missing env text ∧ names ≠ [] := by
  rw [substitute, missing, ← unset_eq]
  split
  · rename_i hnone
    rw [hnone]
    simp
  · rename_i hsome
    rw [Except.error.injEq]
    constructor
    · rintro rfl
      exact ⟨rfl, hsome⟩
    · rintro ⟨rfl, -⟩
      rfl

/-! ## (2) Filling at once -/

/-- Every line filled at once, and a line feed after each. -/
def textAtOnce (env : Environment) (text : String) : String :=
  String.ofList ((Text.lines text.toList).flatMap fun line => atOnce env line ++ ['\n'])

theorem flatMap_fillLine {env : Environment} {lines : List (List Char)}
    (h : ∀ line ∈ lines, Undisturbed env line) :
    (lines.flatMap fun line => fillLine env line ++ ['\n']) = lines.flatMap fun line => atOnce env line ++ ['\n'] := by
  rw [List.flatMap_def, List.flatMap_def, List.map_congr_left fun line hline => ?_]
  rw [fillLine_undisturbed (h line hline)]

/-- A text whose lines are undisturbed is filled all at once. -/
theorem substitute_undisturbed {env : Environment} {text : String}
    (hcovers : ∀ line ∈ Text.lines text.toList, Covers env line)
    (hcalm : ∀ line ∈ Text.lines text.toList, Undisturbed env line) :
    substitute env text = .ok (textAtOnce env text) := by
  rw [substitute_covered hcovers, filled, flatMap_fillLine hcalm, textAtOnce]

theorem fromUTF8?_toUTF8 (s : String) : String.fromUTF8? s.toUTF8 = some s := dif_pos s.isValidUTF8

/-- Some environment gives the same value to all of the names. -/
theorem exists_sameValue (names : List (List Char)) (value : List Char) :
    ∃ env : Environment, ∀ name ∈ names, env.get? (String.ofList name) = some (String.ofList value) := by
  refine ⟨⟨names.map fun name => (String.ofList name, (String.ofList value).toUTF8)⟩, fun name h => ?_⟩
  have hlookup : (names.map fun name => (String.ofList name, (String.ofList value).toUTF8)).lookup (String.ofList name) =
      some (String.ofList value).toUTF8 := by
    induction names with
    | nil => cases h
    | cons first rest ih =>
      rw [List.map_cons, List.lookup_cons]
      cases hfirst : String.ofList name == String.ofList first with
      | true => rfl
      | false =>
        rcases List.mem_cons.mp h with rfl | hrest
        · simp at hfirst
        · exact ih hrest
  rw [Environment.get?, hlookup]
  exact fromUTF8?_toUTF8 _

/-- The first line with two placeholders gives the text away: what stands before it is filled at once. -/
theorem two_placeholders_on_a_line {before after : List (List Char)} {line first second : List Char}
    {rest : List (List Char)} (hbefore : ∀ l ∈ before, (wanted l).length ≤ 1)
    (hline : wanted line = first :: second :: rest) :
    ∃ env, (∀ l ∈ before ++ line :: after, Covers env l) ∧
      ((before ++ line :: after).flatMap fun l => fillLine env l ++ ['\n']) ≠
        (before ++ line :: after).flatMap fun l => atOnce env l ++ ['\n'] := by
  obtain ⟨env, henv⟩ := exists_sameValue ((before ++ line :: after).flatMap wanted) ('x' :: written second)
  refine ⟨env, ?_, ?_⟩
  · intro l hl name hname
    rw [henv name (List.mem_flatMap.mpr ⟨l, hl, hname⟩)]
    rfl
  · intro heq
    have hvalue : ∀ name ∈ wanted line, valueOf env name = 'x' :: written second :=
      fun name hname => valueOf_some (henv name (List.mem_flatMap.mpr ⟨line, by simp, hname⟩))
    obtain ⟨start, filled, filledAtOnce, hfill, honce⟩ := fillLine_twice hline hvalue
    have hsame := flatMap_fillLine fun l hl => undisturbed_of_length_le_one (hbefore l hl) env
    rw [List.flatMap_append, List.flatMap_append, hsame, List.flatMap_cons, List.flatMap_cons, hfill, honce] at heq
    simp at heq

theorem substitute_always_at_once (text : String) :
    (∀ env, (∀ line ∈ Text.lines text.toList, Covers env line) →
      substitute env text = .ok (textAtOnce env text)) ↔
      ∀ line ∈ Text.lines text.toList, (wanted line).length ≤ 1 := by
  constructor
  · intro h
    by_contra hmany
    have hbad : ∃ line ∈ Text.lines text.toList, ¬ (wanted line).length ≤ 1 := by
      simpa only [not_forall, exists_prop] using hmany
    obtain ⟨before, line, after, hlines, hbefore, htwo⟩ := (firstOf_self _).mpr hbad
    obtain ⟨first, second, rest, hline⟩ : ∃ first second rest, wanted line = first :: second :: rest := by
      match hw : wanted line, htwo with
      | [], htwo => simp at htwo
      | [_], htwo => simp at htwo
      | first :: second :: rest, _ => exact ⟨first, second, rest, rfl⟩
    have hbefore' : ∀ l ∈ before, (wanted l).length ≤ 1 := fun l hl => not_not.mp (hbefore l hl)
    obtain ⟨env, hcovers, hne⟩ := two_placeholders_on_a_line hbefore' hline
    rw [← hlines] at hcovers hne
    have htext := h env hcovers
    rw [substitute_covered hcovers, filled, textAtOnce, Except.ok.injEq] at htext
    exact hne (String.ofList_injective htext)
  · intro h env hcovers
    exact substitute_undisturbed hcovers fun line hline => undisturbed_of_length_le_one (h line hline) env

/-- A text is filled at once, with every placeholder of a line that counts replaced by its variable's value and all else
    unchanged, if no name stands anywhere else when its turn comes. So it is on a line whose dollar signs all start
    placeholders, if no value has a dollar sign. Just the texts with at most one placeholder on a line are filled at
    once whatever the values are. -/
theorem filled_at_once (text : String) :
    (∀ env, (∀ line ∈ Text.lines text.toList, Covers env line) →
      (∀ line ∈ Text.lines text.toList, Undisturbed env line) →
      substitute env text = .ok (textAtOnce env text)) ∧
    (∀ env, ∀ line ∈ Text.lines text.toList, Tidy line → (∀ name ∈ wanted line, '$' ∉ valueOf env name) →
      Undisturbed env line) ∧
    ((∀ env, (∀ line ∈ Text.lines text.toList, Covers env line) →
      substitute env text = .ok (textAtOnce env text)) ↔
      ∀ line ∈ Text.lines text.toList, (wanted line).length ≤ 1) :=
  ⟨fun _ => substitute_undisturbed, fun _ _ _ => undisturbed_of_no_dollar, substitute_always_at_once text⟩

def firstThenSecond : String := "$\x7bFIRST\x7d-$\x7bSECOND\x7d"

def unrelated : Environment := ⟨[("FIRST", "left".toUTF8), ("SECOND", "right".toUTF8)]⟩

theorem unrelated_values_filled_at_once : substitute unrelated firstThenSecond = .ok "left-right\n" := by
  have hcovers : ∀ line ∈ Text.lines firstThenSecond.toList, Covers unrelated line := by decide +kernel
  have htidy : ∀ line ∈ Text.lines firstThenSecond.toList, Tidy line := by decide +kernel
  have hvalues : ∀ line ∈ Text.lines firstThenSecond.toList, ∀ name ∈ wanted line, '$' ∉ valueOf unrelated name := by
    decide +kernel
  obtain ⟨hatOnce, hundisturbed, -⟩ := filled_at_once firstThenSecond
  rw [hatOnce unrelated hcovers fun line hline => hundisturbed unrelated line hline (htidy line hline) (hvalues line hline)]
  rfl

/-- The first variable's value is the placeholder of the second one. -/
def pointing : Environment := ⟨[("FIRST", "$\x7bSECOND\x7d".toUTF8), ("SECOND", "x".toUTF8)]⟩

/-- What a value brings in is filled again when its turn comes later on the line. -/
theorem value_filled_again :
    ¬ ∀ (env : Environment) (text : String), (∀ line ∈ Text.lines text.toList, Covers env line) →
        substitute env text = .ok (textAtOnce env text) := by
  intro h
  have hcovers : ∀ line ∈ Text.lines firstThenSecond.toList, Covers pointing line := by decide +kernel
  have hfilled : substitute pointing firstThenSecond = .ok "x-x\n" := rfl
  have honce : textAtOnce pointing firstThenSecond = "$\x7bSECOND\x7d-x\n" := rfl
  have htext := h pointing firstThenSecond hcovers
  rw [hfilled, honce] at htext
  exact absurd (Except.ok.inj htext) (by decide)

/-! Before the other one, the same placeholder stays. -/
example : substitute pointing "$\x7bSECOND\x7d-$\x7bFIRST\x7d" = .ok "x-$\x7bSECOND\x7d\n" := rfl

end ConfigTemplate.Settings
