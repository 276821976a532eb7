/-
  ConfigTemplate.Failure — everything that can go wrong, by its cause.

  (1) `SettingsFault`, `ManifestFault`, `FileProblem`: the causes, by what was being
      done.
  (2) `Failure`: a cause with the part of the program that gave up.
  (3) `Failure.message`: the wording.
-/
import ConfigTemplate.Data.Problem
import ConfigTemplate.Template.Fragment
import ConfigTemplate.FileTree
import ConfigTemplate.Settings
import ConfigTemplate.Manifest.Read

namespace ConfigTemplate

open Data (Problem)

/-! ## (1) Causes -/

/-- Why settings or logging cannot be used. -/
inductive SettingsFault where
  | notThere (path : String)
  | unreadableFile (path : String) (fault : FileFault)
  | unset (names : List String)
  | malformedFile (p : Problem)
  | malformedText (p : Problem)
  | style (found : String)
  | flag (variableName found : String)
  | invalidFile (i : Invalid)
  | invalid (i : Invalid)
  | logLevel (found : String)
  | logRotation (found : String)
  | logDirectory (path : String) (fault : FileFault)
  | logInstalled
  | stated (text : String)
  deriving DecidableEq, Repr

def SettingsFault.message : SettingsFault → String
  | .notThere path => "Configuration file not found: " ++ path
  | .unreadableFile path fault => "Failed to read configuration file " ++ path ++ ": " ++ fault.message
  | .unset names => "Missing required environment variables: " ++ String.intercalate ", " names
  | .malformedFile p => "Failed to parse TOML: " ++ p.message
  | .malformedText p => "TOML parse error: " ++ p.message
  | .style found => Style.refusal found
  | .flag variableName found =>
    "Invalid value '" ++ found ++ "' for " ++ variableName ++ ": provided string was not `true` or `false`"
  | .invalidFile i => "Configuration validation failed: " ++ i.message
  | .invalid i => i.message
  | .logLevel found => "Invalid log level: " ++ found ++ ". Must be one of: trace, debug, info, warn, error"
  | .logRotation found => "Invalid log rotation: " ++ found ++ ". Must be one of: daily, hourly, never"
  | .logDirectory path fault => "Failed to create log directory " ++ path ++ ": " ++ fault.message
  | .logInstalled => "Failed to install subscriber: a global default trace dispatcher has already been set"
  | .stated text => text

/-- Why a manifest cannot be used. -/
inductive ManifestFault where
  | malformed (format : Manifest.Format) (p : Problem)
  | key (p : KeyProblem)
  | unknownFormat (path : String)
  | stated (text : String)
  deriving DecidableEq, Repr

def ManifestFault.message : ManifestFault → String
  | .malformed .json p => "Failed to parse JSON manifest: " ++ p.message
  | .malformed .toml p => "Failed to parse TOML manifest: " ++ p.message
  | .key p => p.message
  | .unknownFormat path => "Unsupported manifest format: " ++ path ++ ". Expected a .json or .toml file"
  | .stated text => text

/-- Why a file cannot be used. -/
inductive FileProblem where
  | manifest (path : String) (fault : FileFault)
  | stated (text : String)
  deriving DecidableEq, Repr

def FileProblem.message : FileProblem → String
  | .manifest path fault => "Failed to read manifest " ++ path ++ ": " ++ fault.message
  | .stated text => text

/-- Why data cannot be written or read back. -/
inductive DataFault where
  | malformed (p : Problem)
  | stated (text : String)
  deriving DecidableEq, Repr

def DataFault.message : DataFault → String
  | .malformed p => p.message
  | .stated text => text

/-! ## (2) Failures -/

inductive Failure where
  | unsupported (u : Unsupported)
  | settings (fault : SettingsFault)
  | manifest (fault : ManifestFault)
  | data (fault : DataFault)
  | file (problem : FileProblem)
  deriving DecidableEq, Repr

/-! ## (3) Wording -/

def Failure.message : Failure → String
  | .unsupported u => "Unsupported type kind '" ++ u.kind ++ "' found for configurable: " ++ u.name
  | .settings fault => "Configuration error: " ++ fault.message
  | .manifest fault => "Manifest error: " ++ fault.message
  | .data fault => "Serialization error: " ++ fault.message
  | .file problem => "I/O error: " ++ problem.message

end ConfigTemplate
