/-
  ConfigTemplate.Proofs.Loading — what loading settings from a file returns, for every
  file tree, path and environment.

  (1) `Valid`, `Flaw`: settings that can be used, and the first reason why others cannot.
  (2) `Holds`, `Present`: what a path has to lead to.
  (3) `Loads`, `Refuses`: the settings that loading returns and the faults it reports,
      stage by stage. `load_result` says that it returns and reports just these.
-/
import ConfigTemplate.Log.Level
import ConfigTemplate.Log.Rotation
import ConfigTemplate.Proofs.Override
import ConfigTemplate.Proofs.Stated
import ConfigTemplate.Proofs.Substitution
import ConfigTemplate.Proofs.Traced
import ConfigTemplate.Settings.Load

namespace ConfigTemplate

/-! ## (1) Validation -/

/-- The level is known in any case, the rotation by its exact name, and a log directory is named if one is needed. -/
structure Settings.Valid (s : Settings) : Prop where
  level : ∃ level, Log.Level.ofName? s.logging.level = some level
  rotation : ∃ rotation : Log.Rotation, s.logging.rotation = rotation.name
  directory : s.logging.toFile = true → ∃ c ∈ s.logging.directory.toList, Text.isBlank c = false

/-- The first of the three rules, in this order, that the settings break. -/
inductive Settings.Flaw (s : Settings) : Invalid → Prop
  | level : Log.Level.ofName? s.logging.level = none → Flaw s (.level s.logging.level)
  | rotation {level : Log.Level} : Log.Level.ofName? s.logging.level = some level →
      (∀ rotation : Log.Rotation, s.logging.rotation ≠ rotation.name) → Flaw s (.rotation s.logging.rotation)
  | directory {level : Log.Level} {rotation : Log.Rotation} : Log.Level.ofName? s.logging.level = some level →
      s.logging.rotation = rotation.name → s.logging.toFile = true →
      (∀ c ∈ s.logging.directory.toList, Text.isBlank c = true) → Flaw s .blankDirectory

theorem Log.Rotation.ofName?_name (r : Rotation) : ofName? r.name = some r := by cases r <;> rfl

theorem Log.Rotation.ofName?_eq_some {name : String} {r : Rotation} (h : ofName? name = some r) : name = r.name := by
  have hname := List.find?_some h
  simp only [beq_iff_eq] at hname
  exact hname.symm

theorem Log.Rotation.ofName?_eq_none {name : String} : ofName? name = none ↔ ∀ r : Rotation, name ≠ r.name := by
  constructor
  · rintro h r rfl
    rw [ofName?_name] at h
    cases h
  · intro h
    cases hname : ofName? name with
    | none => rfl
    | some r => exact absurd (ofName?_eq_some hname) (h r)

/-- The level names that are accepted are those of the levels. -/
theorem LogSettings.any_levelNames (name : String) :
    (levelNames.any fun known => Text.isWord known name) = (Log.Level.ofName? name).isSome := by
  simp only [levelNames, List.any_cons, List.any_nil, Bool.or_false, Log.Level.ofName?]
  cases Text.isWord "trace" name <;> cases Text.isWord "debug" name <;> cases Text.isWord "info" name <;>
    cases Text.isWord "warn" name <;> cases Text.isWord "error" name <;> rfl

theorem LogSettings.contains_rotationNames (name : String) :
    rotationNames.contains name = (Log.Rotation.ofName? name).isSome := by
  rw [Bool.eq_iff_iff, List.contains_iff_mem, Option.isSome_iff_exists]
  simp only [rotationNames, List.mem_cons, List.not_mem_nil, or_false]
  constructor
  · rintro (rfl | rfl | rfl)
    · exact ⟨.daily, rfl⟩
    · exact ⟨.hourly, rfl⟩
    · exact ⟨.never, rfl⟩
  · rintro ⟨rotation, h⟩
    rw [Log.Rotation.ofName?_eq_some h]
    cases rotation <;> simp [Log.Rotation.name]

/-- The checks by what the names stand for. -/
theorem LogSettings.validate_eq (l : LogSettings) :
    l.validate =
      if (Log.Level.ofName? l.level).isNone then .error (.level l.level)
      else if (Log.Rotation.ofName? l.rotation).isNone then .error (.rotation l.rotation)
      else if l.toFile && Text.allBlank l.directory then .error .blankDirectory
      else .ok () := by
  rw [validate, any_levelNames, contains_rotationNames, Option.not_isSome, Option.not_isSome]

theorem Settings.validate_ok (s : Settings) : s.validate = .ok () ↔ s.Valid := by
  rw [validate, LogSettings.validate_eq]
  constructor
  · intro h
    split at h
    · cases h
    · rename_i hlevel
      split at h
      · cases h
      · rename_i hrotation
        split at h
        · cases h
        · rename_i hdirectory
          obtain ⟨level, hlevel⟩ := Option.ne_none_iff_exists'.mp (by simpa using hlevel)
          obtain ⟨rotation, hrotation⟩ := Option.ne_none_iff_exists'.mp (by simpa using hrotation)
          refine ⟨⟨level, hlevel⟩, ⟨rotation, Log.Rotation.ofName?_eq_some hrotation⟩, fun htoFile => ?_⟩
          rw [← Text.allBlank_iff]
          simpa [htoFile] using hdirectory
  · rintro ⟨⟨level, hlevel⟩, ⟨rotation, hrotation⟩, hdirectory⟩
    have hblank : (s.logging.toFile && Text.allBlank s.logging.directory) = false := by
      rw [Bool.and_eq_false_iff, Text.allBlank_iff]
      cases htoFile : s.logging.toFile with
      | false => exact Or.inl rfl
      | true => exact Or.inr (hdirectory htoFile)
    simp [hlevel, hrotation, Log.Rotation.ofName?_name, hblank]

theorem Settings.validate_error (s : Settings) (i : Invalid) : s.validate = .error i ↔ s.Flaw i := by
  rw [validate, LogSettings.validate_eq]
  constructor
  · intro h
    split at h
    · rename_i hlevel
      obtain rfl := Except.error.inj h
      exact .level (by simpa using hlevel)
    · rename_i hlevel
      obtain ⟨level, hlevel⟩ := Option.ne_none_iff_exists'.mp (by simpa using hlevel)
      split at h
      · rename_i hrotation
        obtain rfl := Except.error.inj h
        exact .rotation hlevel (Log.Rotation.ofName?_eq_none.mp (by simpa using hrotation))
      · rename_i hrotation
        obtain ⟨rotation, hrotation⟩ := Option.ne_none_iff_exists'.mp (by simpa using hrotation)
        split at h
        · rename_i hdirectory
          obtain rfl := Except.error.inj h
          obtain ⟨htoFile, hblank⟩ := Bool.and_eq_true_iff.mp hdirectory
          exact .directory hlevel (Log.Rotation.ofName?_eq_some hrotation) htoFile (by simpa [Text.allBlank] using hblank)
        · cases h
  · rintro (hlevel | ⟨hlevel, hrotation⟩ | ⟨hlevel, hrotation, htoFile, hblank⟩)
    · simp [hlevel]
    · simp [hlevel, Log.Rotation.ofName?_eq_none.mpr hrotation]
    · have hallBlank : Text.allBlank s.logging.directory = true := by simpa [Text.allBlank] using hblank
      simp [hlevel, hrotation, Log.Rotation.ofName?_name, htoFile, hallBlank]

namespace Settings

/-! ## (2) Files -/

/-- The path leads to a file whose bytes are the text. -/
def Holds (t : FileTree) (path text : String) : Prop := ∃ place, t.find path = .ok (.file place text.toUTF8 false)

theorem fromUTF8?_iff {bytes : ByteArray} {text : String} : String.fromUTF8? bytes = some text ↔ bytes = text.toUTF8 := by
  constructor
  · intro h
    rw [String.fromUTF8?] at h
    split at h
    · obtain rfl := Option.some.inj h
      rfl
    · cases h
  · rintro rfl
    exact fromUTF8?_toUTF8 text

/-- The path leads to something, and does not end as if a file were a directory. -/
def Present (t : FileTree) (path : String) : Prop :=
  ∃ place, t.find path = .ok (.dir place) ∨ ∃ bytes, t.find path = .ok (.file place bytes false)

theorem readFile_ok (t : FileTree) (path text : String) : readFile t path = .ok text ↔ Holds t path text := by
  rw [readFile, FileTree.isThere, FileTree.readText, Holds]
  cases hfind : t.find path with
  | error fault => simp
  | ok found =>
    cases found with
    | dir place => simp
    | vacant place => simp
    | file place bytes slash =>
      cases slash with
      | true => simp
      | false =>
        simp only [if_true, Except.ok_bind, Except.mapError_eq_ok, Except.ok.injEq, FileTree.Found.file.injEq, and_true]
        constructor
        · intro h
          cases htext : String.fromUTF8? bytes with
          | none =>
            rw [htext] at h
            cases h
          | some text' =>
            rw [htext] at h
            obtain rfl := Except.ok.inj h
            exact ⟨place, rfl, fromUTF8?_iff.mp htext⟩
        · rintro ⟨place', rfl, hbytes⟩
          rw [fromUTF8?_iff.mpr hbytes]

/-- Why a path cannot be read: there is nothing, or a directory, or a file that is no text. -/
inductive Unread (t : FileTree) (path : String) : SettingsFault → Prop
  | notThere : ¬ Present t path → Unread t path (.notThere path)
  | directory {place : Place} : t.find path = .ok (.dir place) → Unread t path (.unreadableFile path .isDirectory)
  | notUtf8 {place : Place} {bytes : ByteArray} : t.find path = .ok (.file place bytes false) →
      (∀ text : String, bytes ≠ text.toUTF8) → Unread t path (.unreadableFile path .notUtf8)

theorem isThere_iff (t : FileTree) (path : String) : t.isThere path = true ↔ Present t path := by
  rw [FileTree.isThere, Present]
  cases hfind : t.find path with
  | error fault => simp
  | ok found =>
    cases found with
    | dir place => simp
    | vacant place => simp
    | file place bytes slash => cases slash <;> simp

theorem readFile_error (t : FileTree) (path : String) (fault : SettingsFault) :
    readFile t path = .error fault ↔ Unread t path fault := by
  constructor
  · intro h
    rw [readFile] at h
    split at h
    · rename_i hthere
      obtain ⟨f, hread, rfl⟩ := Except.mapError_eq_error.mp h
      rw [FileTree.readText] at hread
      obtain ⟨place, hfind | ⟨bytes, hfind⟩⟩ := (isThere_iff t path).mp hthere
      · rw [hfind] at hread
        obtain rfl := Except.error.inj hread
        exact .directory hfind
      · rw [hfind] at hread
        simp only [Except.ok_bind] at hread
        split at hread
        · cases hread
        · rename_i hnone
          obtain rfl := Except.error.inj hread
          refine .notUtf8 hfind fun text htext => ?_
          rw [fromUTF8?_iff.mpr htext] at hnone
          cases hnone
    · rename_i hthere
      obtain rfl := Except.error.inj h
      exact .notThere fun hpresent => hthere ((isThere_iff t path).mpr hpresent)
  · rintro (habsent | ⟨hfind⟩ | ⟨hfind, hbytes⟩)
    · have hthere : ¬ t.isThere path = true := fun h => habsent ((isThere_iff t path).mp h)
      rw [readFile, if_neg hthere]
    · simp [readFile, FileTree.isThere, FileTree.readText, hfind]
    · rename_i place bytes
      have hnone : String.fromUTF8? bytes = none := by
        rw [Option.eq_none_iff_forall_ne_some]
        intro text htext
        exact hbytes text (fromUTF8?_iff.mp htext)
      simp [readFile, FileTree.isThere, FileTree.readText, hfind, hnone]

/-! ## (3) Loading -/

/-- The settings that a file's text gives under an environment: what the filled text states, overridden, and valid
    then. -/
def Gives (env : Environment) (text : String) (c : Settings) : Prop :=
  (∀ line ∈ Text.lines text.toList, Covers env line) ∧
    ∃ s, Decodes (filled env text) s ∧ Overridden env s c ∧ c.Valid

/-- The fault of the first stage that a file's text does not pass. -/
inductive Refuses (env : Environment) (text : String) : SettingsFault → Prop
  | unset : missing env text ≠ [] → Refuses env text (.unset (missing env text))
  | malformed {p : Data.Problem} : (∀ line ∈ Text.lines text.toList, Covers env line) →
      ofToml (filled env text) = .error p → Refuses env text (.malformedFile p)
  | override {s : Settings} {fault : SettingsFault} : (∀ line ∈ Text.lines text.toList, Covers env line) →
      Decodes (filled env text) s → OverrideFault env fault → Refuses env text fault
  | invalid {s c : Settings} {i : Invalid} : (∀ line ∈ Text.lines text.toList, Covers env line) →
      Decodes (filled env text) s → Overridden env s c → c.Flaw i → Refuses env text (.invalidFile i)

theorem ofFileText_ok (env : Environment) (text : String) (c : Settings) :
    ofFileText env text = .ok c ↔ Gives env text c := by
  simp only [ofFileText, Except.bind_eq_ok, Except.mapError_eq_ok, substitute_ok, ofToml_ok, applyOverrides_ok,
    Except.pure_eq, Except.ok.injEq]
  constructor
  · rintro ⟨_, ⟨hcovers, rfl⟩, s, hdecodes, c', hoverridden, _, hvalid, rfl⟩
    exact ⟨hcovers, s, hdecodes, hoverridden, (Settings.validate_ok _).mp hvalid⟩
  · rintro ⟨hcovers, s, hdecodes, hoverridden, hvalid⟩
    exact ⟨_, ⟨hcovers, rfl⟩, s, hdecodes, c, hoverridden, (), (Settings.validate_ok c).mpr hvalid, rfl⟩

theorem ofFileText_error (env : Environment) (text : String) (fault : SettingsFault) :
    ofFileText env text = .error fault ↔ Refuses env text fault := by
  simp only [ofFileText, Except.bind_eq_error, Except.mapError_eq_ok, Except.mapError_eq_error, substitute_ok,
    substitute_error, ofToml_ok, applyOverrides_ok, applyOverrides_error, Settings.validate_error, Except.pure_eq,
    reduceCtorEq, and_false, exists_false, or_false]
  constructor
  · rintro (⟨names, ⟨rfl, hnames⟩, rfl⟩ | ⟨_, ⟨hcovers, rfl⟩, ⟨p, hp, rfl⟩ | ⟨s, hdecodes, hfault | ⟨c, hoverridden,
      i, hflaw, rfl⟩⟩⟩)
    · exact .unset hnames
    · exact .malformed hcovers hp
    · exact .override hcovers hdecodes hfault
    · exact .invalid hcovers hdecodes hoverridden hflaw
  · rintro (hnames | ⟨hcovers, hp⟩ | ⟨hcovers, hdecodes, hfault⟩ | ⟨hcovers, hdecodes, hoverridden, hflaw⟩)
    · exact Or.inl ⟨_, ⟨rfl, hnames⟩, rfl⟩
    · exact Or.inr ⟨_, ⟨hcovers, rfl⟩, Or.inl ⟨_, hp, rfl⟩⟩
    · exact Or.inr ⟨_, ⟨hcovers, rfl⟩, Or.inr ⟨_, hdecodes, Or.inl hfault⟩⟩
    · exact Or.inr ⟨_, ⟨hcovers, rfl⟩, Or.inr ⟨_, hdecodes, Or.inr ⟨_, hoverridden, _, hflaw, rfl⟩⟩⟩

theorem load_ok (t : FileTree) (env : Environment) (path : String) (c : Settings) :
    (load t env path).result = .ok c ↔ ∃ text, Holds t path text ∧ Gives env text c := by
  simp only [load, Log.Traced.bind_ok, Log.Traced.result_ofExcept, Log.Traced.result_report, Log.Traced.result_pure,
    Except.mapError_eq_ok, readFile_ok, ofFileText_ok, Except.ok.injEq]
  constructor
  · rintro ⟨text, hholds, c', hgives, _, _, rfl⟩
    exact ⟨text, hholds, hgives⟩
  · rintro ⟨text, hholds, hgives⟩
    exact ⟨text, hholds, c, hgives, (), trivial, rfl⟩

theorem load_error (t : FileTree) (env : Environment) (path : String) (f : Failure) :
    (load t env path).result = .error f ↔
      ∃ fault, f = .settings fault ∧ (Unread t path fault ∨ ∃ text, Holds t path text ∧ Refuses env text fault) := by
  simp only [load, Log.Traced.bind_error, Log.Traced.result_ofExcept, Log.Traced.result_report,
    Log.Traced.result_pure, Except.mapError_eq_ok, Except.mapError_eq_error, readFile_ok, readFile_error,
    ofFileText_error, reduceCtorEq, and_false, exists_false, or_false]
  constructor
  · rintro (⟨fault, hunread, rfl⟩ | ⟨text, hholds, fault, hrefuses, rfl⟩)
    · exact ⟨fault, rfl, Or.inl hunread⟩
    · exact ⟨fault, rfl, Or.inr ⟨text, hholds, hrefuses⟩⟩
  · rintro ⟨fault, rfl, hunread | ⟨text, hholds, hrefuses⟩⟩
    · exact Or.inl ⟨fault, hunread, rfl⟩
    · exact Or.inr ⟨text, hholds, fault, hrefuses, rfl⟩

/-! Overrides count before validation. -/

/-- A text without placeholders is the same under every environment. -/
theorem filled_plain {text : String} (h : ∀ line ∈ Text.lines text.toList, wanted line = []) (env env' : Environment) :
    filled env text = filled env' text := by
  have hline : ∀ env : Environment, ∀ line ∈ Text.lines text.toList, fillLine env line = line := by
    intro env line hline
    rw [fillLine, h line hline, fillNames]
  rw [filled, filled, List.flatMap_def, List.flatMap_def, List.map_congr_left fun line hl => ?_]
  rw [hline env line hl, hline env' line hl]

theorem covers_plain {line : List Char} (h : wanted line = []) (env : Environment) : Covers env line := by
  intro name hname
  rw [h] at hname
  cases hname

/-- Every rule of validation is met. -/
def repairing : Environment :=
  ⟨[("CFGTEMPLATE_LOGGING_LOG_LEVEL", "info".toUTF8), ("CFGTEMPLATE_LOGGING_LOCAL_ENABLED", "false".toUTF8),
    ("CFGTEMPLATE_LOGGING_LOCAL_ROTATION", "daily".toUTF8)]⟩

/-- The level is set, and empty. -/
def spoiling : Environment := ⟨[("CFGTEMPLATE_LOGGING_LOG_LEVEL", "".toUTF8)]⟩

theorem exists_repaired (s : Settings) : ∃ c, Overridden repairing s c ∧ c.Valid := by
  have hlevel : Log.Level.ofName? "info" = some .info := by decide +kernel
  refine ⟨{ s with logging := { s.logging with level := "info", toFile := false, rotation := "daily" } }, ?_, ?_⟩
  · exact ⟨rfl, rfl, rfl, rfl, rfl, rfl⟩
  · exact ⟨⟨.info, hlevel⟩, ⟨.daily, rfl⟩, by simp⟩

theorem exists_spoiled (s : Settings) : ∃ c i, Overridden spoiling s c ∧ c.Flaw i := by
  refine ⟨{ s with logging := { s.logging with level := "" } }, .level "", ?_, ?_⟩
  · exact ⟨rfl, rfl, rfl, rfl, rfl, rfl⟩
  · exact .level rfl

/-- Loading returns the settings that the file states, overridden by the environment, if they are valid then; else it
    reports the fault of the first stage that fails. An override names the style in any case
    (`Style.ofName?_eq_some`), a flag in exactly one way (`flag?`). Whatever a text without placeholders states,
    overrides can make it valid and can make it invalid. -/
theorem load_result (t : FileTree) (env : Environment) (path : String) :
    (∀ c, (load t env path).result = .ok c ↔ ∃ text, Holds t path text ∧ Gives env text c) ∧
    (∀ f, (load t env path).result = .error f ↔
      ∃ fault, f = .settings fault ∧ (Unread t path fault ∨ ∃ text, Holds t path text ∧ Refuses env text fault)) ∧
    (∀ text s, Holds t path text → (∀ line ∈ Text.lines text.toList, wanted line = []) →
      Decodes (filled env text) s →
      (∃ env' c, (load t env' path).result = .ok c) ∧
      ∃ env' i, (load t env' path).result = .error (.settings (.invalidFile i))) := by
  refine ⟨load_ok t env path, load_error t env path, ?_⟩
  intro text s hholds hplain hdecodes
  have hcovers : ∀ env' : Environment, ∀ line ∈ Text.lines text.toList, Covers env' line :=
    fun env' line hline => covers_plain (hplain line hline) env'
  have hdecodes' : ∀ env' : Environment, Decodes (filled env' text) s := by
    intro env'
    rw [filled_plain hplain env' env]
    exact hdecodes
  constructor
  · obtain ⟨c, hoverridden, hvalid⟩ := exists_repaired s
    exact ⟨repairing, c, (load_ok t _ path c).mpr ⟨text, hholds, hcovers _, s, hdecodes' _, hoverridden, hvalid⟩⟩
  · obtain ⟨c, i, hoverridden, hflaw⟩ := exists_spoiled s
    have hrefuses : Refuses spoiling text (.invalidFile i) := .invalid (hcovers _) (hdecodes' _) hoverridden hflaw
    exact ⟨spoiling, i, (load_error t _ path _).mpr ⟨_, rfl, Or.inr ⟨text, hholds, hrefuses⟩⟩⟩

/-- There is no level of this name. -/
def quietPlain : String := "[logging]\nlog_level = 'quiet'\n"

/-- The same, with a directory that the environment has to give. -/
def quietText : String :=
  "# $\x7bUNSET\x7d\n[logging]\nlog_level = 'quiet'\nlocal_path = '$\x7bDIR\x7d/app'\nlocal_rotation = 'never'\n"

def quietFiles : FileTree := ⟨[], [(["settings.toml"], .file quietText.toUTF8), (["plain.toml"], .file quietPlain.toUTF8)]⟩

def asked : Environment := ⟨[("DIR", "logs".toUTF8)]⟩

/-- The same directory, and a level and a style in mixed case. -/
def speaking : Environment :=
  ⟨[("DIR", "logs".toUTF8), ("CFGTEMPLATE_LOGGING_LOG_LEVEL", "Warn".toUTF8),
    ("CFGTEMPLATE_GENERATOR_OPTIONAL_STYLE", "Comment_Each_Line".toUTF8)]⟩

theorem read_quietPlain : Toml.read quietPlain =
    some (.table [(some "logging", .table [(some "log_level", .text (some "quiet"))] true)] true) := by
  have hchars : quietPlain.toList = [
      '[', 'l', 'o', 'g', 'g', 'i', 'n', 'g', ']', '\n',
      'l', 'o', 'g', '_', 'l', 'e', 'v', 'e', 'l', ' ', '=', ' ', '\'', 'q', 'u', 'i', 'e', 't', '\'', '\n'] := by
    decide +kernel
  rw [Toml.read, hchars]
  rfl

def quietFilled : String :=
  "# $\x7bUNSET\x7d\n[logging]\nlog_level = 'quiet'\nlocal_path = 'logs/app'\nlocal_rotation = 'never'\n"

theorem read_quietFilled : Toml.read quietFilled = some (.table [(some "logging", .table [
    (some "log_level", .text (some "quiet")), (some "local_path", .text (some "logs/app")),
    (some "local_rotation", .text (some "never"))] true)] true) := by
  have hchars : quietFilled.toList = [
      '#', ' ', '$', '\x7b', 'U', 'N', 'S', 'E', 'T', '\x7d', '\n',
      '[', 'l', 'o', 'g', 'g', 'i', 'n', 'g', ']', '\n',
      'l', 'o', 'g', '_', 'l', 'e', 'v', 'e', 'l', ' ', '=', ' ', '\'', 'q', 'u', 'i', 'e', 't', '\'', '\n',
      'l', 'o', 'c', 'a', 'l', '_', 'p', 'a', 't', 'h', ' ', '=', ' ', '\'', 'l', 'o', 'g', 's', '/', 'a', 'p', 'p',
      '\'', '\n',
      'l', 'o', 'c', 'a', 'l', '_', 'r', 'o', 't', 'a', 't', 'i', 'o', 'n', ' ', '=', ' ', '\'', 'n', 'e', 'v', 'e',
      'r', '\'', '\n'] := by
    decide +kernel
  rw [Toml.read, hchars]
  rfl

theorem decodes_quietText {env : Environment} (h : filled env quietText = quietFilled) :
    Decodes (filled env quietText) { logging := { level := "quiet", directory := "logs/app", rotation := "never" } } := by
  rw [h]
  exact ⟨[("logging", _)], read_quietFilled, rfl, _, rfl, rfl, rfl, rfl, rfl⟩

/-- The level of the file is refused as it stands. An override repairs it, another one gives the style, and the other
    settings are those of the file, with its placeholder filled. -/
theorem quiet_level_repaired :
    (load quietFiles asked "settings.toml").result = .error (.settings (.invalidFile (.level "quiet"))) ∧
      (load quietFiles speaking "settings.toml").result = .ok
        { options := { style := .commentEachLine }
          logging := { level := "Warn", directory := "logs/app", rotation := "never" } } ∧
      (∃ env c, (load quietFiles env "plain.toml").result = .ok c) ∧
      ∃ env i, (load quietFiles env "plain.toml").result = .error (.settings (.invalidFile i)) := by
  have hholds : Holds quietFiles "settings.toml" quietText := ⟨["settings.toml"], rfl⟩
  have hholdsPlain : Holds quietFiles "plain.toml" quietPlain := ⟨["plain.toml"], rfl⟩
  refine ⟨?_, ?_, ?_⟩
  · have hcovers : ∀ line ∈ Text.lines quietText.toList, Covers asked line := by decide +kernel
    have hfilled : filled asked quietText = quietFilled := by decide +kernel
    have hoverridden (s : Settings) : Overridden asked s s := ⟨rfl, rfl, rfl, rfl, rfl, rfl⟩
    have hnone : Log.Level.ofName? "quiet" = none := by decide +kernel
    exact ((load_result quietFiles asked "settings.toml").2.1 _).mpr ⟨_, rfl, Or.inr ⟨quietText, hholds,
      .invalid hcovers (decodes_quietText hfilled) (hoverridden _) (.level hnone)⟩⟩
  · have hcovers : ∀ line ∈ Text.lines quietText.toList, Covers speaking line := by decide +kernel
    have hfilled : filled speaking quietText = quietFilled := by decide +kernel
    have hstyle : Style.ofName? "Comment_Each_Line" = some .commentEachLine :=
      Style.ofName?_eq_some.mpr (by decide +kernel)
    have hlevel : Log.Level.ofName? "Warn" = some .warn := by decide +kernel
    refine ((load_result quietFiles speaking "settings.toml").1 _).mpr ⟨quietText, hholds, hcovers, _,
      decodes_quietText hfilled, ⟨hstyle, rfl, rfl, rfl, rfl, rfl⟩, ⟨⟨.warn, hlevel⟩, ⟨.never, rfl⟩, ?_⟩⟩
    simp
  · have hplain : ∀ line ∈ Text.lines quietPlain.toList, wanted line = [] := by decide +kernel
    have hfilled : filled asked quietPlain = quietPlain := by decide +kernel
    have hdecodes : Decodes (filled asked quietPlain) { logging := { level := "quiet" } } := by
      rw [hfilled]
      exact ⟨[("logging", _)], read_quietPlain, rfl, _, rfl, rfl, rfl, rfl, rfl⟩
    exact (load_result quietFiles asked "plain.toml").2.2 quietPlain _ hholdsPlain hplain hdecodes

end Settings

end ConfigTemplate
