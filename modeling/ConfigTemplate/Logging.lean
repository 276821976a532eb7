/-
  ConfigTemplate.Logging — the log that one run of the program keeps, once logging has
  been started, and the files it is kept in.

  (1) `Logger`: the files, and what was installed. Only one start can succeed.
  (2) `Logger.start`: the level is checked first. For a log file, the rotation is
      checked, the directory is made and the file is opened; only then is it seen
      whether logging had been started before.
  (3) `Logger.record`: the events of a piece of work that the filter keeps go to the
      end of the log file.
-/
import ConfigTemplate.Failure
import ConfigTemplate.Log.Filter
import ConfigTemplate.Log.Line
import ConfigTemplate.Log.Rotation

namespace ConfigTemplate.Logging

open Log (Event Filter Level Rotation Time)

/-! ## (1) Loggers -/

structure Installed where
  filter : Filter
  /-- The place of the log file, if one is kept. -/
  file : Option Place

structure Logger where
  files : FileTree
  installed : Option Installed := none
  /-- The directives that the environment gives, if it gives any. -/
  directives : Option String := none

namespace Logger

/-! ## (2) Starting -/

inductive Outcome where
  | started
  | refused (fault : SettingsFault)
  /-- The log file could not be opened, which ends the program. -/
  | aborted (fault : FileFault)
  deriving DecidableEq, Repr

/-- The directives of the environment count, if they can be read. -/
def filterFor (logger : Logger) (level : Level) : Filter :=
  (logger.directives.bind Filter.ofText?).getD (.upTo level)

/-- The path of a file in a directory. -/
def join (directory name : String) : String :=
  if directory = "" ∨ directory.toList.getLast? = some '/' then directory ++ name else directory ++ "/" ++ name

/-- The events of a piece of work, as far as they are kept. -/
def record (logger : Logger) (now : Time) (events : List Event) : Logger :=
  match logger.installed with
  | some ⟨filter, some place⟩ =>
    let lines := (events.filter filter.keeps).map fun e => e.line now.stamp
    { logger with files := logger.files.append place (String.join lines).toUTF8 }
  | _ => logger

/-- Installs the filter and the log file unless logging was started before. -/
def install (logger : Logger) (now : Time) (level : Level) (l : LogSettings) (file : Option Place) : Outcome × Logger :=
  match logger.installed with
  | some _ => (.refused .logInstalled, logger)
  | none =>
    let logger := { logger with installed := some ⟨logger.filterFor level, file⟩ }
    (.started, logger.record now [.loggingStarted level l.toFile l.directory])

/-- Makes the log directory and opens the log file. -/
def openLog (logger : Logger) (now : Time) (level : Level) (l : LogSettings) (r : Rotation) : Outcome × Logger :=
  match logger.files.makeDirs l.directory with
  | (files, .error fault) => (.refused (.logDirectory l.directory fault), { logger with files := files })
  | (files, .ok ()) =>
    match files.openEnd (join l.directory (r.fileName now)) with
    | .error fault => (.aborted fault, { logger with files := files })
    | .ok (place, files) => install { logger with files := files } now level l (some place)

def start (logger : Logger) (now : Time) (levelName : String) (l : LogSettings) : Outcome × Logger :=
  match Level.ofName? levelName with
  | none => (.refused (.logLevel levelName), logger)
  | some level =>
    if l.toFile then
      match Rotation.ofName? l.rotation with
      | none => (.refused (.logRotation l.rotation), logger)
      | some r => openLog logger now level l r
    else install logger now level l none

end Logger

end ConfigTemplate.Logging
