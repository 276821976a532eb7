/-
  ConfigTemplate.Proofs.FromFile — a text parsed as it stands and loaded from a file, where
  it is put together again from its lines.

  (1) `flatMap_lines_unify`: apart from a line feed at the end, the text from the lines is
      the old one with its line ends unified. `Clean`, `apart_flatMap`: a carriage return
      stands before a line feed in it only if a line ended with one.
  (2) `read_lines`, `read_clean`: a document reads the same when it is put together again,
      and no line of it ends with a carriage return.
  (3) `file_agrees_with_clean_text`: so the settings that a text gives are those that a
      file gives, but for a carriage return at the end of a line. It is refused in a text; in
      a file it makes a line end with the line feed that is put behind it, and may be passed
      over (`lone_return_loaded_not_parsed`).
-/
import ConfigTemplate.Proofs.Ending
import ConfigTemplate.Proofs.Reading
import ConfigTemplate.Proofs.Validity

namespace ConfigTemplate

namespace Text

/-! ## (1) A text from its lines -/

theorem lines_prefix {s line : List Char} {more : List (List Char)} (h : lines s = line :: more) : line <+: s := by
  fun_induction lines s generalizing line more with
  | case1 => cases h
  | case2 rest ih => exact (List.cons.inj h).1 ▸ List.nil_prefix
  | case3 rest ih => exact (List.cons.inj h).1 ▸ List.nil_prefix
  | case4 c rest hc hr hl ih => exact (List.cons.inj h).1 ▸ List.prefix_append [c] rest
  | case5 c rest hc hr first others hl ih => exact (List.cons.inj h).1 ▸ List.cons_prefix_cons.mpr ⟨rfl, ih hl⟩

/-- A line stands in the text as it is. -/
theorem lines_infix {s line : List Char} (h : line ∈ lines s) : line <:+: s := by
  fun_induction lines s with
  | case1 => cases h
  | case2 rest ih =>
    rcases List.mem_cons.mp h with rfl | h
    · exact List.nil_infix
    · exact (ih h).trans (List.suffix_cons '\n' rest).isInfix
  | case3 rest ih =>
    rcases List.mem_cons.mp h with rfl | h
    · exact List.nil_infix
    · exact (ih h).trans ((List.suffix_cons '\n' rest).trans (List.suffix_cons '\r' _)).isInfix
  | case4 c rest hc hr hl ih =>
    obtain rfl := List.mem_singleton.mp h
    exact (List.prefix_append [c] rest).isInfix
  | case5 c rest hc hr first more hl ih =>
    rcases List.mem_cons.mp h with rfl | h
    · exact (List.cons_prefix_cons.mpr ⟨rfl, lines_prefix hl⟩).isInfix
    · exact (ih (hl ▸ List.mem_cons_of_mem first h)).trans (List.suffix_cons c rest).isInfix

open Toml (unify)

/-- The text from the lines is the text with its line ends unified, with a line feed more if it did not end with one. -/
theorem flatMap_lines_unify (s : List Char) :
    (lines s).flatMap (· ++ ['\n']) = unify s ∨ (lines s).flatMap (· ++ ['\n']) = unify s ++ ['\n'] := by
  have hcons (c : Char) {t u : List Char} (h : t = u ∨ t = u ++ ['\n']) : c :: t = c :: u ∨ c :: t = c :: u ++ ['\n'] :=
    h.imp (congrArg (c :: ·)) (congrArg (c :: ·))
  fun_induction lines s with
  | case1 => exact Or.inl rfl
  | case2 rest ih =>
    rw [unify]
    · exact hcons '\n' ih
    · simp
  | case3 rest ih => exact hcons '\n' ih
  | case4 c rest hc hr hl ih =>
    -- nothing follows, so the line feed is one more
    obtain rfl : rest = [] := by
      by_contra hne
      exact lines_ne_nil hne hl
    exact Or.inr (by simp [unify])
  | case5 c rest hc hr line more hl ih =>
    rw [unify]
    · rw [hl] at ih
      exact hcons c ih
    · exact fun after h => hr after h

/-- No line feed stands right behind a carriage return when each line gets one. -/
theorem apart_flatMap {ls : List (List Char)} (hfeed : ∀ l ∈ ls, '\n' ∉ l)
    (hclean : ∀ l ∈ ls, l.getLast? ≠ some '\r') : Apart '\r' '\n' (ls.flatMap (· ++ ['\n'])) := by
  induction ls with
  | nil => exact List.isChain_nil
  | cons l rest ih =>
    rw [List.flatMap_cons, apart_append, apart_append]
    refine ⟨⟨apart_of_not_mem (hfeed l List.mem_cons_self), List.isChain_singleton _, ?_⟩, ih ?_ ?_, by simp⟩
    · exact fun h => hclean l List.mem_cons_self h.1
    · exact fun m hm => hfeed m (List.mem_cons_of_mem l hm)
    · exact fun m hm => hclean m (List.mem_cons_of_mem l hm)

theorem toList_unlines_linesOf (s : String) :
    (unlines (linesOf s)).toList = (lines s.toList).flatMap (· ++ ['\n']) := by
  simp [toList_unlines, linesOf, List.flatMap_map]

/-- No line ends with a carriage return. -/
def Clean (s : List Char) : Prop := ∀ line ∈ lines s, line.getLast? ≠ some '\r'

instance (s : List Char) : Decidable (Clean s) :=
  inferInstanceAs (Decidable (∀ line ∈ lines s, line.getLast? ≠ some '\r'))

end Text

namespace Toml

open Text (lines)

/-! ## (2) Documents -/

theorem unify_apart {cs : List Char} (h : Text.Apart '\r' '\n' cs) : unify cs = cs := by
  fun_induction unify cs with
  | case1 => rfl
  | case2 rest ih => exact absurd ⟨rfl, rfl⟩ ((List.isChain_cons.mp h).1 '\n' rfl)
  | case3 c rest hc ih => rw [ih (List.isChain_cons.mp h).2]

theorem dropMark_unify (cs : List Char) : dropMark (unify cs) = unify (dropMark cs) := by
  fun_cases unify cs with
  | case1 => rfl
  | case2 rest => rfl
  | case3 c rest hc =>
    rw [dropMark, dropMark]
    split
    · rfl
    · rw [unify]
      exact hc

theorem dropMark_feed (cs : List Char) : dropMark (cs ++ ['\n']) = dropMark cs ++ ['\n'] := by
  cases cs with
  | nil => rfl
  | cons c rest =>
    rw [List.cons_append, dropMark, dropMark]
    split <;> rfl

theorem mem_dropMark {cs : List Char} {c : Char} (h : c ∈ cs) (hc : c.toNat ≠ 0xFEFF) : c ∈ dropMark cs := by
  cases cs with
  | nil => cases h
  | cons d rest =>
    rw [dropMark]
    split
    · rename_i hd
      rcases List.mem_cons.mp h with rfl | h
      · exact absurd hd hc
      · exact h
    · exact h

theorem dropMark_suffix (cs : List Char) : dropMark cs <:+ cs := by
  cases cs with
  | nil => exact List.suffix_rfl
  | cons c rest =>
    rw [dropMark]
    split
    · exact List.suffix_cons c rest
    · exact List.suffix_rfl

/-- Without its mark, the text from the lines is the document as it is read, perhaps with a line feed more. -/
theorem dropMark_lines (cs : List Char) :
    dropMark ((lines cs).flatMap (· ++ ['\n'])) = unify (dropMark cs) ∨
      dropMark ((lines cs).flatMap (· ++ ['\n'])) = unify (dropMark cs) ++ ['\n'] := by
  rcases Text.flatMap_lines_unify cs with h | h
  · rw [h, dropMark_unify]
    exact Or.inl rfl
  · rw [h, dropMark_feed, dropMark_unify]
    exact Or.inr rfl

/-- The statements of a text that is read. -/
def statementsOf (cs : List Char) : Option (List Statement) := statements (cs.length + 1) cs

theorem statementsOf_feed (cs : List Char) : statementsOf (cs ++ ['\n']) = statementsOf cs := by
  have hlength : (cs ++ ['\n']).length = cs.length + 1 := by simp
  rw [statementsOf, statementsOf, hlength]
  exact statements_feed (Nat.lt_succ_self cs.length)

theorem read_eq (text : String) :
    read text = (statementsOf (unify (dropMark text.toList))).bind fun ss =>
      (build ss).map fun es => .table (dataEntries es) true := by
  rw [read]
  refine Option.bind_congr fun ss _ => ?_
  cases build ss <;> rfl

/-- No line of a document ends with a carriage return. -/
theorem read_clean {text : String} {d : Data} (h : read text = some d) : Text.Clean text.toList := by
  intro line hline hlast
  rw [read_eq] at h
  obtain ⟨ss, hss, -⟩ := Option.bind_eq_some_iff.mp h
  have hreturn : '\r' ∈ (lines text.toList).flatMap (· ++ ['\n']) :=
    List.mem_flatMap.mpr ⟨line, hline, List.mem_append_left _ (List.mem_of_getLast? hlast)⟩
  have hmark := mem_dropMark hreturn (by decide)
  have hnone := statements_no_return hss
  rcases dropMark_lines text.toList with hlines | hlines
  · rw [hlines] at hmark
    exact hnone hmark
  · rw [hlines] at hmark
    simp [hnone] at hmark

/-- A text without such lines reads the same when it is put together again from its lines. -/
theorem read_lines {text : String} (h : Text.Clean text.toList) :
    read (Text.unlines (Text.linesOf text)) = read text := by
  have hapart : Text.Apart '\r' '\n' (dropMark ((lines text.toList).flatMap (· ++ ['\n']))) :=
    (Text.apart_flatMap (fun _ hl => Text.no_feed_of_mem_lines hl) h).suffix (dropMark_suffix _)
  have hunify := unify_apart hapart
  rw [read_eq, read_eq, Text.toList_unlines_linesOf, hunify]
  rcases dropMark_lines text.toList with hlines | hlines
  · rw [hlines]
  · rw [hlines, statementsOf_feed]

end Toml

namespace Settings

/-! ## (3) Settings -/

/-- No placeholder stands in the text, be it in a comment or not. -/
def Plain (text : String) : Prop := ∀ name, IsName name → ¬ written name <:+: text.toList

theorem plain_of_no_dollar {text : String} (h : '$' ∉ text.toList) : Plain text := by
  intro name _ hin
  exact h (hin.subset (by simp [written]))

theorem Plain.wanted {text : String} (h : Plain text) {line : List Char} (hline : line ∈ Text.lines text.toList) :
    wanted line = [] := by
  rw [List.eq_nil_iff_forall_not_mem]
  intro name hname
  obtain ⟨-, before, after, hcut, hn⟩ := mem_wanted.mp hname
  have hin : written name <:+: line := ⟨before, after, by rw [hcut, List.append_assoc]⟩
  exact h name hn (hin.trans (Text.lines_infix hline))

theorem Plain.filled {text : String} (h : Plain text) (env : Environment) :
    filled env text = Text.unlines (Text.linesOf text) := by
  rw [← String.toList_inj, Text.toList_unlines_linesOf, Settings.filled, String.toList_ofList, List.flatMap_def,
    List.flatMap_def, List.map_congr_left fun line hline => ?_]
  rw [fillLine, h.wanted hline, fillNames]

theorem applyOverrides_unset {env : Environment} {os : List Override}
    (h : ∀ o ∈ os, env.get? o.variableName = none) (s : Settings) : applyOverrides env os s = .ok s := by
  induction os with
  | nil => rfl
  | cons o rest ih =>
    rw [applyOverrides, h o List.mem_cons_self]
    exact ih fun o ho => h o (List.mem_cons_of_mem _ ho)

/-- Only one text is in a file. -/
theorem Holds.unique {t : FileTree} {path text text' : String} (h : Holds t path text) (h' : Holds t path text') :
    text' = text := by
  have hread := (readFile_ok t path text).mpr h
  rw [(readFile_ok t path text').mpr h'] at hread
  exact Except.ok.inj hread

/-- Without placeholders and overrides, a file gives what the text from its lines gives. -/
theorem load_plain {t : FileTree} {env : Environment} {path text : String} (hholds : Holds t path text)
    (hplain : Plain text) (hunset : ∀ o ∈ overrides, env.get? o.variableName = none) (c : Settings) :
    (load t env path).result = .ok c ↔ parse (Text.unlines (Text.linesOf text)) = .ok c := by
  rw [load_ok, parse_ok, validate_ok]
  constructor
  · rintro ⟨text', hholds', -, s, hdecodes, hoverridden, hvalid⟩
    obtain rfl := hholds.unique hholds'
    have happly := (applyOverrides_ok env s c).mpr hoverridden
    rw [applyOverrides_unset hunset] at happly
    obtain rfl := Except.ok.inj happly
    rw [← hplain.filled env]
    exact ⟨(ofToml_ok _ _).mpr hdecodes, hvalid⟩
  · rintro ⟨hstates, hvalid⟩
    refine ⟨text, hholds, fun line hline => covers_plain (hplain.wanted hline) env, c, ?_, ?_, hvalid⟩
    · rw [hplain.filled env]
      exact (ofToml_ok _ _).mp hstates
    · exact (applyOverrides_ok env c c).mp (applyOverrides_unset hunset c)

theorem parse_lines {text : String} (h : Text.Clean text.toList) :
    parse (Text.unlines (Text.linesOf text)) = parse text := by
  rw [parse, parse, ofToml, ofToml, Toml.read_lines h]

theorem parse_clean {text : String} {c : Settings} (h : parse text = .ok c) : Text.Clean text.toList := by
  have hstates := ((parse_ok text c).mp h).1
  rw [ofToml] at hstates
  cases hread : Toml.read text with
  | none =>
    rw [hread] at hstates
    cases hstates
  | some d => exact Toml.read_clean hread

/-- Where nothing of the environment counts, a file gives the settings of its text put together again from its lines.
    So it gives the settings that the text gives as it stands, unless a line of it ends with a carriage return: then
    the text as it stands gives none. -/
theorem file_agrees_with_clean_text {t : FileTree} {env : Environment} {path text : String}
    (hholds : Holds t path text) (hplain : Plain text) (hunset : ∀ o ∈ overrides, env.get? o.variableName = none)
    (c : Settings) :
    ((load t env path).result = .ok c ↔ parse (Text.unlines (Text.linesOf text)) = .ok c) ∧
      (parse text = .ok c ↔ (load t env path).result = .ok c ∧ Text.Clean text.toList) := by
  have hload := load_plain hholds hplain hunset c
  refine ⟨hload, fun h => ?_, fun ⟨h, hclean⟩ => ?_⟩
  · have hclean := parse_clean h
    exact ⟨hload.mpr ((parse_lines hclean).trans h), hclean⟩
  · exact (parse_lines hclean).symm.trans (hload.mp h)

/-- Each line ends with a carriage return and a line feed, also within the text on several lines, and the last one with
    nothing. -/
def pairedText : String := "# paired\r\n[logging]\r\nlog_level = \"\"\"\r\nWARN\"\"\""

def loudWarnings : Settings := { logging := { level := "WARN" } }

def pairedFile : FileTree := ⟨[], [(["settings.toml"], .file pairedText.toUTF8)]⟩

theorem paired_file_agrees_with_text :
    parse pairedText = .ok loudWarnings ∧
      (load pairedFile ⟨[]⟩ "settings.toml").result = .ok loudWarnings := by
  have hholds : Holds pairedFile "settings.toml" pairedText := ⟨["settings.toml"], rfl⟩
  have hplain : Plain pairedText := plain_of_no_dollar (by decide)
  have hparse : parse pairedText = .ok loudWarnings := by decide +kernel
  have hunset : ∀ o ∈ overrides, (Environment.mk []).get? o.variableName = none := fun _ _ => rfl
  obtain ⟨-, hagree⟩ := file_agrees_with_clean_text hholds hplain hunset loudWarnings
  exact ⟨hparse, (hagree.mp hparse).1⟩

def debugSettings : Settings := { logging := { level := "debug" } }

/-- The last line ends with a carriage return alone. -/
def loneText : String := "[logging]\nlog_level = \"debug\"\r"

def loneFile : FileTree := ⟨[], [(["settings.toml"], .file loneText.toUTF8)]⟩

/-- The line feed that is put behind the last line makes a line end of its carriage return, which is none by itself. -/
theorem lone_return_loaded_not_parsed :
    ¬ ∀ (t : FileTree) (env : Environment) (path text : String), Holds t path text → Plain text →
        (∀ o ∈ overrides, env.get? o.variableName = none) →
        ∀ c, (load t env path).result = .ok c ↔ parse text = .ok c := by
  intro h
  have hholds : Holds loneFile "settings.toml" loneText := ⟨["settings.toml"], rfl⟩
  have hplain : Plain loneText := plain_of_no_dollar (by decide)
  have hload : (load loneFile ⟨[]⟩ "settings.toml").result = .ok debugSettings := by decide +kernel
  have hparse : parse loneText ≠ .ok debugSettings := by decide +kernel
  exact hparse ((h loneFile ⟨[]⟩ "settings.toml" loneText hholds hplain (fun _ _ => rfl) _).mp hload)

end Settings

end ConfigTemplate
