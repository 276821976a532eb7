/-
  ConfigTemplate.Settings.Read — reading settings out of a TOML text.

  (1) `readStyle`: a style by its exact name, or as the name of the only member of a
      table, with nothing in it.
  (2) `record`: the sections and their fields; a setting that is left out keeps its
      default, and others are passed over.
  (3) `ofToml`: a whole text.
-/
import ConfigTemplate.Settings
import ConfigTemplate.Data.Record
import ConfigTemplate.Toml.Document
import ConfigTemplate.Manifest.Read

namespace ConfigTemplate.Settings

open Data

/-! ## (1) Styles -/

def styles : List Style := [.inherited, .commentEachLine]

def readStyleName (name : String) : Except Problem Style :=
  match styles.find? (·.name == name) with
  | some style => .ok style
  | none => .error (.unknownVariant name (styles.map (·.name)))

def readStyle : Data → Except Problem Style
  | text (some s) => readStyleName s
  | table [(some key, d)] _ => do
    let style ← readStyleName key
    match d with
    | list [] _ | table [] _ => pure style
    | _ => .error .unreadable
  | _ => .error .unreadable

/-! ## (2) Sections -/

def optionsRecord (r : Reading) : Record Options :=
  ⟨"struct GeneratorSection", {}, [
    ⟨"optional_style", false, fun _ d => (readStyle d).map fun style o => { o with style := style }⟩,
    ⟨"include_optional", false, fun _ d => (readBool r d).map fun b o => { o with includeOptional := b }⟩]⟩

def loggingRecord (r : Reading) : Record LogSettings :=
  ⟨"struct LoggingConfig", {}, [
    ⟨"log_level", false, fun _ d => (readText r d).map fun s l => { l with level := s }⟩,
    ⟨"local_enabled", false, fun _ d => (readBool r d).map fun b l => { l with toFile := b }⟩,
    ⟨"local_path", false, fun _ d => (readText r d).map fun s l => { l with directory := s }⟩,
    ⟨"local_rotation", false, fun _ d => (readText r d).map fun s l => { l with rotation := s }⟩]⟩

def record (r : Reading) : Record Settings :=
  ⟨"struct GeneratorConfig", {}, [
    ⟨"generator", false, fun room d =>
      ((optionsRecord r).read r room d).map fun o s => { s with options := o }⟩,
    ⟨"logging", false, fun room d =>
      ((loggingRecord r).read r room d).map fun l s => { s with logging := l }⟩]⟩

/-! ## (3) Whole texts -/

/-- The settings a text states, not yet validated. -/
def ofToml (text : String) : Except Problem Settings :=
  match Toml.read text with
  | none => .error .unreadable
  | some d => (record Manifest.tomlReading).read Manifest.tomlReading none d

end ConfigTemplate.Settings
