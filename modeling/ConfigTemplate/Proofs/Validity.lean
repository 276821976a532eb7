/-
  ConfigTemplate.Proofs.Validity — settings that were loaded can be used to start the log.

  (1) `LogSettings.validate_ok_iff`: settings are valid exactly when the log knows their
      level and their rotation, and a directory is named for the log file if one is kept.
      The names that validation accepts and those that a start of the log accepts are two
      lists.
  (2) `Loaded`: settings from a file, whatever the environment, or from a text. All of them
      are valid (`Loaded.valid`).
  (3) `refused_valid`: valid settings are refused only by the file system, or because the
      log was started before. `loaded_settings_start_the_log` puts this together.
-/
import ConfigTemplate.Proofs.Loading
import ConfigTemplate.Proofs.Starting

namespace ConfigTemplate

open Log (Level Rotation Time)

/-! ## (1) Valid settings -/

theorem LogSettings.validate_ok_iff (l : LogSettings) :
    l.validate = .ok () ↔
      (∃ level, Level.ofName? l.level = some level) ∧ (∃ rotation, Rotation.ofName? l.rotation = some rotation) ∧
        (l.toFile = true → ∃ c ∈ l.directory.toList, Text.isBlank c = false) := by
  have hvalid : l.validate = .ok () ↔ Settings.Valid { logging := l } := Settings.validate_ok { logging := l }
  rw [hvalid]
  constructor
  · intro h
    obtain ⟨hlevel, ⟨rotation, hrotation⟩, hdirectory⟩ := h
    exact ⟨hlevel, ⟨rotation, hrotation ▸ Rotation.ofName?_name rotation⟩, hdirectory⟩
  · intro h
    obtain ⟨hlevel, ⟨rotation, hrotation⟩, hdirectory⟩ := h
    exact ⟨hlevel, ⟨rotation, Rotation.ofName?_eq_some hrotation⟩, hdirectory⟩

namespace Settings

/-! ## (2) Loaded settings -/

/-- Some file gives the settings under some environment, or some text does. -/
inductive Loaded (c : Settings) : Prop
  | file (t : FileTree) (env : Environment) (path : String) : (load t env path).result = .ok c → Loaded c
  | text (text : String) : parse text = .ok c → Loaded c

/-- A text gives the settings it states, if they are valid. -/
theorem parse_ok (text : String) (c : Settings) : parse text = .ok c ↔ ofToml text = .ok c ∧ c.validate = .ok () := by
  simp only [parse, Except.bind_eq_ok, Except.mapError_eq_ok, Except.pure_eq, Except.ok.injEq]
  constructor
  · rintro ⟨s, hs, ⟨⟩, hvalid, rfl⟩
    exact ⟨hs, hvalid⟩
  · rintro ⟨hc, hvalid⟩
    exact ⟨c, hc, (), hvalid, rfl⟩

theorem Loaded.valid {c : Settings} (h : Loaded c) : c.validate = .ok () := by
  cases h with
  | file t env path h =>
    obtain ⟨text, -, -, s, -, -, hvalid⟩ := (load_ok t env path c).mp h
    exact (validate_ok c).mpr hvalid
  | text text h => exact ((parse_ok text c).mp h).2

/-! ## (3) Starting the log -/

open Logging (Logger)

/-- With valid settings, neither the level nor the rotation is a reason to refuse. -/
theorem refused_valid {c : Settings} (h : c.validate = .ok ()) {logger : Logger} {now : Time} {fault : SettingsFault}
    (hstart : (logger.start now c.logging.level c.logging).1 = .refused fault) :
    fault = .logInstalled ∨ ∃ found, fault = .logDirectory c.logging.directory found := by
  obtain ⟨⟨level, hlevel⟩, ⟨rotation, hrotation⟩, -⟩ := (LogSettings.validate_ok_iff c.logging).mp h
  have hcall : logger.call ⟨now, c.logging.level, c.logging⟩ =
      (.refused fault, (logger.start now c.logging.level c.logging).2) := Prod.ext hstart rfl
  obtain ⟨files, -, hrefusal⟩ := Logger.call_refused.mp hcall
  cases hrefusal with
  | level hnone =>
    rw [hlevel] at hnone
    cases hnone
  | rotation _ _ hnone =>
    rw [hrotation] at hnone
    cases hnone
  | directory _ _ => exact Or.inr ⟨_, rfl⟩
  | installed _ _ _ => exact Or.inl rfl
  | opened _ _ _ _ => exact Or.inl rfl

/-- Validation accepts the names of levels and rotations that a start of the log accepts, and no others. All settings
    that are loaded are valid, so a start of the log with their own level is never refused for its level or for its
    rotation. -/
theorem loaded_settings_start_the_log :
    (∀ l : LogSettings, l.validate = .ok () ↔
      (∃ level, Level.ofName? l.level = some level) ∧ (∃ rotation, Rotation.ofName? l.rotation = some rotation) ∧
        (l.toFile = true → ∃ c ∈ l.directory.toList, Text.isBlank c = false)) ∧
    (∀ c : Settings, Loaded c → c.validate = .ok () ∧ ∀ (logger : Logger) (now : Time) (name : String),
      (logger.start now c.logging.level c.logging).1 ≠ .refused (.logLevel name) ∧
        (logger.start now c.logging.level c.logging).1 ≠ .refused (.logRotation name)) := by
  refine ⟨LogSettings.validate_ok_iff, fun c h => ⟨h.valid, fun logger now name => ⟨fun hstart => ?_, fun hstart => ?_⟩⟩⟩
  · rcases refused_valid h.valid hstart with hfault | ⟨_, hfault⟩
    · cases hfault
    · cases hfault
  · rcases refused_valid h.valid hstart with hfault | ⟨_, hfault⟩
    · cases hfault
    · cases hfault

/-- A level in capitals, and a log file. -/
def loudText : String := "logging = \x7b log_level = \"WARN\", local_enabled = true, local_rotation = \"never\" \x7d"

def loudSettings : Settings := { logging := { level := "WARN", toFile := true, rotation := "never" } }

theorem loud_settings_start_the_log :
    parse loudText = .ok loudSettings ∧ ∀ (logger : Logger) (now : Time) (name : String),
      (logger.start now "WARN" loudSettings.logging).1 ≠ .refused (.logLevel name) ∧
        (logger.start now "WARN" loudSettings.logging).1 ≠ .refused (.logRotation name) := by
  have hparse : parse loudText = .ok loudSettings := by decide +kernel
  exact ⟨hparse, (loaded_settings_start_the_log.2 loudSettings (.text loudText hparse)).2⟩

end Settings

end ConfigTemplate
