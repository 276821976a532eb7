/-
  ConfigTemplate.Settings.Override — settings given by variables of the environment.

  (1) `Override`: one variable for each setting, and how its text sets it.
  (2) `applyOverrides`: the variables that are set, in order; the first one whose text cannot
      be used is reported. A variable that is set to the empty text is set.
-/
import ConfigTemplate.Environment
import ConfigTemplate.Failure

namespace ConfigTemplate.Settings

/-! ## (1) Overrides -/

structure Override where
  variableName : String
  apply : String → Settings → Except SettingsFault Settings

def readFlag (variableName : String) : String → Except SettingsFault Bool
  | "true" => .ok true
  | "false" => .ok false
  | s => .error (.flag variableName s)

def styleOverride : Override :=
  ⟨"CFGTEMPLATE_GENERATOR_OPTIONAL_STYLE", fun text s =>
    match Style.ofName? text with
    | some style => .ok { s with options.style := style }
    | none => .error (.style text)⟩

def includeOverride : Override :=
  ⟨"CFGTEMPLATE_GENERATOR_INCLUDE_OPTIONAL", fun text s =>
    (readFlag "CFGTEMPLATE_GENERATOR_INCLUDE_OPTIONAL" text).map fun b => { s with options.includeOptional := b }⟩

def levelOverride : Override :=
  ⟨"CFGTEMPLATE_LOGGING_LOG_LEVEL", fun text s => .ok { s with logging.level := text }⟩

def toFileOverride : Override :=
  ⟨"CFGTEMPLATE_LOGGING_LOCAL_ENABLED", fun text s =>
    (readFlag "CFGTEMPLATE_LOGGING_LOCAL_ENABLED" text).map fun b => { s with logging.toFile := b }⟩

def directoryOverride : Override :=
  ⟨"CFGTEMPLATE_LOGGING_LOCAL_PATH", fun text s => .ok { s with logging.directory := text }⟩

def rotationOverride : Override :=
  ⟨"CFGTEMPLATE_LOGGING_LOCAL_ROTATION", fun text s => .ok { s with logging.rotation := text }⟩

def overrides : List Override :=
  [styleOverride, includeOverride, levelOverride, toFileOverride, directoryOverride, rotationOverride]

/-! ## (2) Applying them -/

def applyOverrides (env : Environment) : List Override → Settings → Except SettingsFault Settings
  | [], s => .ok s
  | o :: rest, s =>
    match env.get? o.variableName with
    | none => applyOverrides env rest s
    | some text => do
      let s ← o.apply text s
      applyOverrides env rest s

end ConfigTemplate.Settings
