/-
  ConfigTemplate.Log.Rotation — how often a new log file is begun.

  (1) `Rotation`, and its three names.
  (2) `Rotation.fileName`: the name of the log file at a time.
-/

namespace ConfigTemplate.Log

inductive Rotation where
  | daily
  | hourly
  | never
  deriving DecidableEq, Repr

/-- A time as a log shows it. -/
structure Time where
  /-- The whole time, as a line of the log gives it. -/
  stamp : String
  date : String
  hour : String

namespace Rotation

def name : Rotation → String
  | daily => "daily"
  | hourly => "hourly"
  | never => "never"

def ofName? (s : String) : Option Rotation := [daily, hourly, never].find? (·.name == s)

def fileName (r : Rotation) (now : Time) : String :=
  match r with
  | never => "cfgtemplate.log"
  | daily => "cfgtemplate.log." ++ now.date
  | hourly => "cfgtemplate.log." ++ now.date ++ "-" ++ now.hour

end Rotation

end ConfigTemplate.Log
