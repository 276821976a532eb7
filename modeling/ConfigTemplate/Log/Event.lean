/-
  ConfigTemplate.Log.Event — what the program reports while it works.

  (1) `Event`: the seven kinds of report, with what each is about.
  (2) `Event.level`, `Event.target`, `Event.message`, `Event.fields`: an event as it
      is logged; texts, counts and flags keep their kind.
-/
import ConfigTemplate.ModuleKey
import ConfigTemplate.Options
import ConfigTemplate.Log.Level

namespace ConfigTemplate.Log

inductive Event where
  | sectionRendered (key : ModuleKey) (required optional : Nat)
  | templateGenerated (modules bytes : Nat)
  | variableSkipped (key : ModuleKey) (name reason : String)
  | fieldSkipped (owner field kind : String)
  | manifestLoaded (path : String) (modules members : Nat)
  | settingsLoaded (path : String) (options : Options)
  | loggingStarted (level : Level) (toFile : Bool) (path : String)
  deriving DecidableEq

/-- The value of a logged field. -/
inductive Field where
  | text (s : String)
  | count (n : Nat)
  | flag (b : Bool)
  deriving DecidableEq, Repr

namespace Event

def level : Event → Level
  | fieldSkipped .. => .trace
  | _ => .debug

def target : Event → String
  | sectionRendered .. | templateGenerated .. => "cfgtemplate::core::assemble"
  | variableSkipped .. | fieldSkipped .. => "cfgtemplate::core::composite"
  | manifestLoaded .. => "cfgtemplate::manifest"
  | settingsLoaded .. => "cfgtemplate::config::loader"
  | loggingStarted .. => "cfgtemplate::logging::structured"

def message : Event → String
  | sectionRendered .. => "Module section rendered"
  | templateGenerated .. => "Config template generated"
  | variableSkipped .. => "Skipping configurable with no template representation"
  | fieldSkipped .. => "Skipping non-scalar record field"
  | manifestLoaded .. => "Manifest loaded"
  | settingsLoaded .. => "Settings loaded"
  | loggingStarted .. => "Logging initialized"

def fields : Event → List (String × Field)
  | sectionRendered key required optional =>
    [("module", .text key.canonical), ("required", .count required), ("optional", .count optional)]
  | templateGenerated modules bytes => [("modules", .count modules), ("bytes", .count bytes)]
  | variableSkipped key name reason =>
    [("module", .text key.canonical), ("variable", .text name), ("reason", .text reason)]
  | fieldSkipped owner field kind =>
    [("variable", .text owner), ("field", .text field), ("kind", .text kind)]
  | manifestLoaded path modules members =>
    [("path", .text path), ("modules", .count modules), ("variables", .count members)]
  | settingsLoaded path options =>
    [("path", .text path), ("optional_style", .text options.style.name),
      ("include_optional", .flag options.includeOptional)]
  | loggingStarted level toFile path =>
    [("level", .text level.upper), ("local_enabled", .flag toFile), ("local_path", .text path)]

end Event

end ConfigTemplate.Log
