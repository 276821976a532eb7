/-
  ConfigTemplate.Settings — how templates are written and what is logged.

  (1) `Settings`: every setting has a default.
  (2) `Settings.validate`: the level and the rotation have to be among the known names,
      and a log directory has to be named if a log file is kept.
  (3) `Settings.plain`: the written form, with every setting.
-/
import ConfigTemplate.Options
import ConfigTemplate.Text.Blank
import ConfigTemplate.Text.Caseless
import ConfigTemplate.Json.Write

namespace ConfigTemplate

/-! ## (1) Settings -/

structure LogSettings where
  level : String := "info"
  /-- Whether a log file is kept. -/
  toFile : Bool := false
  directory : String := "./logs"
  rotation : String := "daily"
  deriving DecidableEq, Repr

structure Settings where
  options : Options := {}
  logging : LogSettings := {}
  deriving DecidableEq, Repr

/-! ## (2) Validation -/

/-- The names that a level may have, in any case. -/
def LogSettings.levelNames : List String := ["trace", "debug", "info", "warn", "error"]

def LogSettings.rotationNames : List String := ["daily", "hourly", "never"]

inductive Invalid where
  | level (found : String)
  | rotation (found : String)
  | blankDirectory
  deriving DecidableEq, Repr

def Invalid.message : Invalid → String
  | .level found => "Invalid logging.log_level '" ++ found ++ "'. Must be one of: " ++ ", ".intercalate LogSettings.levelNames
  | .rotation found =>
    "Invalid logging.local_rotation '" ++ found ++ "'. Must be one of: " ++ ", ".intercalate LogSettings.rotationNames
  | .blankDirectory => "logging.local_path cannot be empty when local_enabled = true"

def LogSettings.validate (l : LogSettings) : Except Invalid Unit :=
  if !levelNames.any fun name => Text.isWord name l.level then .error (.level l.level)
  else if !rotationNames.contains l.rotation then .error (.rotation l.rotation)
  else if l.toFile && Text.allBlank l.directory then .error .blankDirectory
  else .ok ()

def Settings.validate (s : Settings) : Except Invalid Unit := s.logging.validate

/-! ## (3) The written form -/

open Json (Plain)

def Options.plain (o : Options) : Plain :=
  .table [("optional_style", .text o.style.name), ("include_optional", .bool o.includeOptional)]

def LogSettings.plain (l : LogSettings) : Plain :=
  .table [("log_level", .text l.level), ("local_enabled", .bool l.toFile), ("local_path", .text l.directory),
    ("local_rotation", .text l.rotation)]

def Settings.plain (s : Settings) : Plain := .table [("generator", s.options.plain), ("logging", s.logging.plain)]

end ConfigTemplate
