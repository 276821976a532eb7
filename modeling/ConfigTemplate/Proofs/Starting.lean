/-
  ConfigTemplate.Proofs.Starting — what a start of the log leaves behind that is refused.

  (1) `Call`: one start with all that it is given. `Refusal`: why it is refused, and the
      files it leaves. `call_cases`: what a start can come to. `call_refused`: there is no
      other reason, and nothing but the files changes. `call_aborted`: only a log file that
      cannot be opened ends the program.
  (2) `Refusal.grown`, `Refusal.untouched`: nothing is taken away, and nothing is left
      before the log directory is made.
  (3) `Run`: starts one after the other. `run_installed`, `run_started`: the first that
      succeeds decides what is installed, and no later one does.
  (4) `refused_start_leaves_directories`: all of this together, and
      `refused_start_leaves_a_trace`: what a refused start may leave.
-/
import ConfigTemplate.Logging
import ConfigTemplate.Proofs.Growth

namespace ConfigTemplate.Logging

open Log (Level Rotation Time)

/-! ## (1) Why a start is refused -/

structure Call where
  now : Time
  level : String
  settings : LogSettings

/-- The call asks for a log file, and its level and rotation are proper names. -/
structure Call.Asks (c : Call) (level : Level) (r : Rotation) : Prop where
  level : Level.ofName? c.level = some level
  toFile : c.settings.toFile = true
  rotation : Rotation.ofName? c.settings.rotation = some r

def Call.path (c : Call) (r : Rotation) : String := Logger.join c.settings.directory (r.fileName c.now)

namespace Logger

def call (logger : Logger) (c : Call) : Outcome × Logger := logger.start c.now c.level c.settings

/-- The reason, and the files that are left. The checks come in this order. -/
inductive Refusal (logger : Logger) (c : Call) : SettingsFault → FileTree → Prop
  | level : Level.ofName? c.level = none → Refusal logger c (.logLevel c.level) logger.files
  | rotation {level : Level} : Level.ofName? c.level = some level → c.settings.toFile = true →
      Rotation.ofName? c.settings.rotation = none → Refusal logger c (.logRotation c.settings.rotation) logger.files
  | directory {level : Level} {r : Rotation} {files : FileTree} {fault : FileFault} : c.Asks level r →
      logger.files.makeDirs c.settings.directory = (files, .error fault) →
      Refusal logger c (.logDirectory c.settings.directory fault) files
  | installed {level : Level} : Level.ofName? c.level = some level → c.settings.toFile = false →
      logger.installed.isSome → Refusal logger c .logInstalled logger.files
  /-- Logging was started before, which is seen only when the log file is open. -/
  | opened {level : Level} {r : Rotation} {made files : FileTree} {place : Place} : c.Asks level r →
      logger.files.makeDirs c.settings.directory = (made, .ok ()) → made.openEnd (c.path r) = .ok (place, files) →
      logger.installed.isSome → Refusal logger c .logInstalled files

variable {logger after : Logger} {c : Call} {level : Level} {r : Rotation} {fault : SettingsFault}

/-- Events go to the log file, and to nothing else. -/
theorem record_installed (logger : Logger) (now : Time) (events : List Log.Event) :
    (logger.record now events).installed = logger.installed := by
  unfold record
  split <;> simp_all

theorem install_refused {now : Time} {l : LogSettings} {file : Option Place} :
    install logger now level l file = (.refused fault, after) ↔
      logger.installed.isSome ∧ fault = .logInstalled ∧ after = logger := by
  unfold install
  cases h : logger.installed with
  | none => simp
  | some i => simp [eq_comm]

theorem install_not_aborted {now : Time} {l : LogSettings} {file : Option Place} (fault : FileFault) (after : Logger) :
    install logger now level l file ≠ (.aborted fault, after) := by
  unfold install
  cases logger.installed <;> simp

theorem install_started {now : Time} {l : LogSettings} {file : Option Place}
    (h : install logger now level l file = (.started, after)) : logger.installed = none ∧ after.installed.isSome := by
  unfold install at h
  cases hinstalled : logger.installed with
  | some i => simp [hinstalled] at h
  | none =>
    simp only [hinstalled, Prod.mk.injEq, true_and] at h
    rw [← h, record_installed]
    exact ⟨rfl, rfl⟩

theorem call_level (h : Level.ofName? c.level = none) : logger.call c = (.refused (.logLevel c.level), logger) := by
  rw [call, start, h]

theorem call_rotation (hlevel : Level.ofName? c.level = some level) (hfile : c.settings.toFile = true)
    (h : Rotation.ofName? c.settings.rotation = none) :
    logger.call c = (.refused (.logRotation c.settings.rotation), logger) := by
  rw [call, start, hlevel]
  simp [hfile, h]

theorem call_plain (hlevel : Level.ofName? c.level = some level) (hfile : c.settings.toFile = false) :
    logger.call c = install logger c.now level c.settings none := by
  rw [call, start, hlevel]
  simp [hfile]

theorem call_unmade {files : FileTree} {fault : FileFault} (hasks : c.Asks level r)
    (h : logger.files.makeDirs c.settings.directory = (files, .error fault)) :
    logger.call c = (.refused (.logDirectory c.settings.directory fault), { logger with files := files }) := by
  rw [call, start, hasks.level]
  simp [hasks.toFile, hasks.rotation, openLog, h]

theorem call_unopened {made : FileTree} {fault : FileFault} (hasks : c.Asks level r)
    (h : logger.files.makeDirs c.settings.directory = (made, .ok ())) (ho : made.openEnd (c.path r) = .error fault) :
    logger.call c = (.aborted fault, { logger with files := made }) := by
  rw [Call.path] at ho
  rw [call, start, hasks.level]
  simp [hasks.toFile, hasks.rotation, openLog, h, ho]

theorem call_opened {made files : FileTree} {place : Place} (hasks : c.Asks level r)
    (h : logger.files.makeDirs c.settings.directory = (made, .ok ()))
    (ho : made.openEnd (c.path r) = .ok (place, files)) :
    logger.call c = install { logger with files := files } c.now level c.settings (some place) := by
  rw [Call.path] at ho
  rw [call, start, hasks.level]
  simp [hasks.toFile, hasks.rotation, openLog, h, ho]

/-- All that a start can come to: it is refused, the log file cannot be opened, or only the
    last check is left. -/
theorem call_cases (logger : Logger) (c : Call) :
    (∃ fault files, logger.call c = (.refused fault, { logger with files := files }) ∧ Refusal logger c fault files) ∨
    (∃ level r made fault, c.Asks level r ∧ logger.files.makeDirs c.settings.directory = (made, .ok ()) ∧
      made.openEnd (c.path r) = .error fault ∧ logger.call c = (.aborted fault, { logger with files := made })) ∨
    (∃ level files file, logger.call c = install { logger with files := files } c.now level c.settings file ∧
      (logger.installed.isSome → Refusal logger c .logInstalled files)) := by
  cases hlevel : Level.ofName? c.level with
  | none => exact Or.inl ⟨_, logger.files, call_level hlevel, .level hlevel⟩
  | some level =>
    cases hfile : c.settings.toFile with
    | false => exact Or.inr (Or.inr ⟨level, logger.files, none, call_plain hlevel hfile, .installed hlevel hfile⟩)
    | true =>
      cases hrotation : Rotation.ofName? c.settings.rotation with
      | none =>
        exact Or.inl ⟨_, logger.files, call_rotation hlevel hfile hrotation, .rotation hlevel hfile hrotation⟩
      | some r =>
        have hasks : c.Asks level r := ⟨hlevel, hfile, hrotation⟩
        rcases hmade : logger.files.makeDirs c.settings.directory with ⟨made, fault | _⟩
        · exact Or.inl ⟨_, made, call_unmade hasks hmade, .directory hasks hmade⟩
        · cases hopen : made.openEnd (c.path r) with
          | error fault =>
            exact Or.inr (Or.inl ⟨level, r, made, fault, hasks, rfl, hopen, call_unopened hasks hmade hopen⟩)
          | ok opened =>
            obtain ⟨place, files⟩ := opened
            exact Or.inr (Or.inr ⟨level, files, some place, call_opened hasks hmade hopen, .opened hasks hmade hopen⟩)

theorem call_refused : logger.call c = (.refused fault, after) ↔
    ∃ files, after = { logger with files := files } ∧ Refusal logger c fault files := by
  constructor
  · intro h
    rcases call_cases logger c with ⟨fault', files, hcall, hrefusal⟩ | ⟨_, _, _, _, _, _, _, hcall⟩ |
      ⟨level, files, file, hcall, hrefusal⟩
    · rw [hcall] at h
      cases h
      exact ⟨files, rfl, hrefusal⟩
    · rw [hcall] at h
      cases h
    · rw [hcall] at h
      obtain ⟨hinstalled, rfl, rfl⟩ := install_refused.mp h
      exact ⟨files, rfl, hrefusal hinstalled⟩
  · intro h
    obtain ⟨files, rfl, hrefusal⟩ := h
    cases hrefusal with
    | level hlevel => exact call_level hlevel
    | rotation hlevel hfile hrotation => exact call_rotation hlevel hfile hrotation
    | directory hasks hmade => exact call_unmade hasks hmade
    | installed hlevel hfile hinstalled =>
      rw [call_plain hlevel hfile]
      exact install_refused.mpr ⟨hinstalled, rfl, rfl⟩
    | opened hasks hmade hopen hinstalled =>
      rw [call_opened hasks hmade hopen]
      exact install_refused.mpr ⟨hinstalled, rfl, rfl⟩

theorem call_aborted {fault : FileFault} (h : logger.call c = (.aborted fault, after)) :
    ∃ level r made, c.Asks level r ∧ logger.files.makeDirs c.settings.directory = (made, .ok ()) ∧
      made.openEnd (c.path r) = .error fault := by
  rcases call_cases logger c with ⟨_, _, hcall, -⟩ | ⟨level, r, made, fault', hasks, hmade, hopen, hcall⟩ |
    ⟨level, files, file, hcall, -⟩
  · rw [hcall] at h
    cases h
  · rw [hcall] at h
    cases h
    exact ⟨level, r, made, hasks, hmade, hopen⟩
  · rw [hcall] at h
    exact absurd h (install_not_aborted fault after)

theorem call_started (h : logger.call c = (.started, after)) :
    logger.installed = none ∧ after.installed.isSome := by
  rcases call_cases logger c with ⟨_, _, hcall, -⟩ | ⟨_, _, _, _, _, _, _, hcall⟩ | ⟨level, files, file, hcall, -⟩
  · rw [hcall] at h
    cases h
  · rw [hcall] at h
    cases h
  · rw [hcall] at h
    obtain ⟨hnone, hsome⟩ := install_started h
    exact ⟨hnone, hsome⟩

/-! ## (2) The files that are left -/

/-- A directory, or a file with nothing in it. -/
def Bare (n : Node) : Prop := n = .dir ∨ n = .file .empty

theorem Refusal.grown {files : FileTree} (h : Refusal logger c fault files) : logger.files.Grown Bare files := by
  cases h with
  | level _ => exact .refl _
  | rotation _ _ _ => exact .refl _
  | installed _ _ _ => exact .refl _
  | directory hasks hmade =>
    have hgrown := logger.files.makeDirs_grown c.settings.directory
    rw [hmade] at hgrown
    exact hgrown.mono fun n hn => Or.inl hn
  | opened hasks hmade hopen _ =>
    have hgrown := logger.files.makeDirs_grown c.settings.directory
    rw [hmade] at hgrown
    exact (hgrown.mono fun n hn => Or.inl hn).trans ((FileTree.openEnd_grown hopen).mono fun n hn => Or.inr hn)

/-- Without a log file to keep, nothing is left. -/
theorem Refusal.untouched {files : FileTree} (h : Refusal logger c fault files) (hasks : ¬ ∃ level r, c.Asks level r) :
    files = logger.files := by
  cases h with
  | level _ => rfl
  | rotation _ _ _ => rfl
  | installed _ _ _ => rfl
  | directory h _ => exact absurd ⟨_, _, h⟩ hasks
  | opened h _ _ _ => exact absurd ⟨_, _, h⟩ hasks

/-! ## (3) Starts one after the other -/

/-- The outcomes of some calls, in order, none of which ended the program. -/
inductive Run : Logger → List Outcome → Logger → Prop
  | nil (logger : Logger) : Run logger [] logger
  | call {logger mid after : Logger} {c : Call} {outcome : Outcome} {outcomes : List Outcome} :
      logger.call c = (outcome, mid) → (∀ fault, outcome ≠ .aborted fault) → Run mid outcomes after →
      Run logger (outcome :: outcomes) after

/-- Once logging was started, every later start is refused. -/
theorem run_installed {outcomes : List Outcome} (h : Run logger outcomes after) (hinstalled : logger.installed.isSome) :
    Outcome.started ∉ outcomes ∧ after.installed = logger.installed ∧ logger.files.Grown Bare after.files := by
  induction h with
  | nil logger => exact ⟨by simp, rfl, .refl _⟩
  | @call logger mid after c outcome outcomes hcall hends _ ih =>
    cases outcome with
    | started =>
      obtain ⟨hnone, -⟩ := call_started hcall
      rw [hnone] at hinstalled
      cases hinstalled
    | aborted fault => exact absurd rfl (hends fault)
    | refused fault =>
      obtain ⟨files, rfl, hrefusal⟩ := call_refused.mp hcall
      obtain ⟨hnot, hsame, hgrown⟩ := ih hinstalled
      exact ⟨by simp [hnot], hsame, hrefusal.grown.trans hgrown⟩

/-- The first start that succeeds is the only one; until then nothing is installed. -/
theorem run_started {outcomes : List Outcome} (h : Run logger outcomes after) (hnone : logger.installed = none) :
    outcomes.count .started ≤ 1 ∧ (after.installed.isSome ↔ .started ∈ outcomes) ∧
      (.started ∉ outcomes → logger.files.Grown Bare after.files) := by
  induction h with
  | nil logger => exact ⟨by simp, by simp [hnone], fun _ => .refl _⟩
  | @call logger mid after c outcome outcomes hcall hends hrun ih =>
    cases outcome with
    | started =>
      obtain ⟨-, hsome⟩ := call_started hcall
      obtain ⟨hnot, hsame, -⟩ := run_installed hrun hsome
      refine ⟨?_, ?_, ?_⟩
      · simp [List.count_eq_zero.mpr hnot]
      · simp [hsame, hsome]
      · simp
    | aborted fault => exact absurd rfl (hends fault)
    | refused fault =>
      obtain ⟨files, rfl, hrefusal⟩ := call_refused.mp hcall
      obtain ⟨hcount, hiff, hgrown⟩ := ih hnone
      refine ⟨?_, ?_, fun hnot => ?_⟩
      · simpa using hcount
      · simpa using hiff
      · exact hrefusal.grown.trans (hgrown (by simpa using hnot))

/-! ## (4) Refused starts -/

/-- A start that is refused changes nothing but the files, and takes none of them away: it
    leaves directories above the log file, and an empty log file, when all checks before the
    last went well. So it leaves nothing when a name is not proper or no log file is asked
    for. Every start succeeds or is refused if the log file can be opened, and in any number
    of starts only the first that succeeds has an effect on what is installed. -/
theorem refused_start_leaves_directories :
    (∀ (logger after : Logger) (c : Call) (fault : SettingsFault), logger.call c = (.refused fault, after) ↔
      ∃ files, after = { logger with files := files } ∧ Refusal logger c fault files) ∧
    (∀ (logger : Logger) (c : Call) (fault : SettingsFault) (files : FileTree), Refusal logger c fault files →
      logger.files.Grown Bare files ∧ ((¬ ∃ level r, c.Asks level r) → files = logger.files)) ∧
    (∀ (logger after : Logger) (c : Call) (fault : FileFault), logger.call c = (.aborted fault, after) →
      ∃ level r made, c.Asks level r ∧ logger.files.makeDirs c.settings.directory = (made, .ok ()) ∧
        made.openEnd (c.path r) = .error fault) ∧
    (∀ (logger after : Logger) (outcomes : List Outcome), Run logger outcomes after →
      (logger.installed.isSome → Outcome.started ∉ outcomes ∧ after.installed = logger.installed ∧
        logger.files.Grown Bare after.files) ∧
      (logger.installed = none → outcomes.count .started ≤ 1 ∧ (after.installed.isSome ↔ .started ∈ outcomes) ∧
        (.started ∉ outcomes → logger.files.Grown Bare after.files))) := by
  refine ⟨fun logger after c fault => call_refused, fun logger c fault files h => ⟨h.grown, h.untouched⟩,
    fun logger after c fault h => call_aborted h, fun logger after outcomes h => ⟨run_installed h, run_started h⟩⟩

/-- An empty home, with logging started and no log file kept. -/
def startedPlain : Logger := ⟨.empty ["work"], some ⟨.upTo .info, none⟩, none⟩

/-- A start that asks for a log file in a directory below the home. -/
def askForLogs : Call := ⟨⟨"", "", ""⟩, "info", { toFile := true, directory := "logs", rotation := "never" }⟩

theorem second_start_leaves_its_directory :
    (startedPlain.call askForLogs).1 = .refused .logInstalled ∧
    Refusal startedPlain askForLogs .logInstalled (startedPlain.call askForLogs).2.files ∧
    startedPlain.files.Grown Bare (startedPlain.call askForLogs).2.files ∧
    (startedPlain.call askForLogs).2.files.nodes =
      [(["work"], .dir), (["work", "logs"], .dir), (["work", "logs", "cfgtemplate.log"], .file .empty)] := by
  have houtcome : (startedPlain.call askForLogs).1 = .refused .logInstalled := by decide +kernel
  have hcall : startedPlain.call askForLogs = (.refused .logInstalled, (startedPlain.call askForLogs).2) :=
    Prod.ext houtcome rfl
  obtain ⟨files, hafter, hrefusal⟩ := (refused_start_leaves_directories.1 _ _ _ _).mp hcall
  have hfiles : (startedPlain.call askForLogs).2.files = files := congrArg Logger.files hafter
  refine ⟨houtcome, hfiles ▸ hrefusal, ?_, by decide +kernel⟩
  exact hfiles ▸ (refused_start_leaves_directories.2.1 _ _ _ _ hrefusal).1

/-- The start succeeds, or it is refused and everything is as it was. -/
def LeavesNoTrace (logger : Logger) (c : Call) : Prop :=
  ∃ after, logger.call c = (.started, after) ∨
    ∃ fault, logger.call c = (.refused fault, after) ∧ after.installed = logger.installed ∧ after.files = logger.files

/-- The log directory and the log file are made before the last check. -/
theorem refused_start_leaves_a_trace : ¬ ∀ (logger : Logger) (c : Call), LeavesNoTrace logger c := by
  intro h
  have hrefused : (startedPlain.call askForLogs).1 ≠ .started := by decide +kernel
  have hgrew : (startedPlain.call askForLogs).2.files.nodes ≠ startedPlain.files.nodes := by decide +kernel
  obtain ⟨after, hcall | ⟨fault, hcall, -, hfiles⟩⟩ := h startedPlain askForLogs
  · exact hrefused (congrArg Prod.fst hcall)
  · rw [hcall] at hgrew
    exact hgrew (congrArg FileTree.nodes hfiles)

end Logger

end ConfigTemplate.Logging
