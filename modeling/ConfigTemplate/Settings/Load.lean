/-
  ConfigTemplate.Settings.Load — settings from a text or a file.

  (1) `parse`: the settings of a text, validated.
  (2) `load`: a file is read, its placeholders are filled from the environment, its
      settings are read, overridden by the environment and validated, in this order.
-/
import ConfigTemplate.Settings.Read
import ConfigTemplate.Settings.Placeholder
import ConfigTemplate.Settings.Override
import ConfigTemplate.Log.Traced

namespace ConfigTemplate.Settings

open Log (Traced)

/-! ## (1) Texts -/

def parse (text : String) : Except Failure Settings := do
  let s ← (ofToml text).mapError fun p => .settings (.malformedText p)
  s.validate.mapError fun i => .settings (.invalid i)
  pure s

/-! ## (2) Files -/

/-- The settings of a file's text under an environment. -/
def ofFileText (env : Environment) (text : String) : Except SettingsFault Settings := do
  let text ← (substitute env text).mapError .unset
  let s ← (ofToml text).mapError .malformedFile
  let s ← applyOverrides env overrides s
  s.validate.mapError .invalidFile
  pure s

def readFile (t : FileTree) (path : String) : Except SettingsFault String :=
  if t.isThere path then (t.readText path).mapError (.unreadableFile path) else .error (.notThere path)

def load (t : FileTree) (env : Environment) (path : String) : Traced Failure Settings := do
  let text ← .ofExcept ((readFile t path).mapError .settings)
  let s ← .ofExcept ((ofFileText env text).mapError .settings)
  .report (.settingsLoaded path s.options)
  pure s

end ConfigTemplate.Settings
