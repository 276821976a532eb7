/-
  ConfigTemplate.Proofs.Override — what the environment makes of settings, and when it
  cannot be used.

  (1) `Override.Sets`: an override reads its text and sets one setting. `step_ok` and
      `step_error` say what one override does.
  (2) `Overridden`, `applyOverrides_ok`: every setting has the value its variable gives, if
      that is set, and else the one it had.
  (3) `OverrideFault`, `applyOverrides_error`: the first text that cannot be used is
      reported, whatever the settings were.
-/
import ConfigTemplate.Proofs.Results
import ConfigTemplate.Settings.Override

namespace ConfigTemplate.Settings

/-! ## (1) One override -/

variable {α : Type}

/-- The new value is what the variable's text reads as, or the old value if the variable is not set. -/
def Given (env : Environment) (variableName : String) (parse : String → Option α) (old new : α) : Prop :=
  match env.get? variableName with
  | none => new = old
  | some text => parse text = some new

/-- The variable is not set, or its text can be used. -/
def Usable (env : Environment) (variableName : String) (parse : String → Option α) : Prop :=
  ∀ text, env.get? variableName = some text → ∃ value, parse text = some value

/-- The override sets what `get` finds to the value of its text. -/
structure Override.Sets (o : Override) (parse : String → Option α) (fault : String → SettingsFault)
    (get : Settings → α) (put : α → Settings → Settings) : Prop where
  apply_some : ∀ text value s, parse text = some value → o.apply text s = .ok (put value s)
  apply_none : ∀ text s, parse text = none → o.apply text s = .error (fault text)
  put_get : ∀ s, put (get s) s = s

def Override.step (env : Environment) (o : Override) (s : Settings) : Except SettingsFault Settings :=
  match env.get? o.variableName with
  | none => .ok s
  | some text => o.apply text s

theorem applyOverrides_nil (env : Environment) (s : Settings) : applyOverrides env [] s = .ok s := rfl

theorem applyOverrides_cons (env : Environment) (o : Override) (rest : List Override) (s : Settings) :
    applyOverrides env (o :: rest) s = (o.step env s >>= applyOverrides env rest) := by
  rw [applyOverrides, Override.step]
  cases env.get? o.variableName <;> rfl

section Step

variable {env : Environment} {o : Override} {parse : String → Option α} {fault : String → SettingsFault}
  {get : Settings → α} {put : α → Settings → Settings}

theorem Override.Sets.step_ok (h : o.Sets parse fault get put) (s s' : Settings) :
    o.step env s = .ok s' ↔ ∃ value, Given env o.variableName parse (get s) value ∧ s' = put value s := by
  rw [Override.step]
  constructor
  · intro hstep
    cases hget : env.get? o.variableName with
    | none =>
      rw [hget] at hstep
      obtain rfl := Except.ok.inj hstep
      exact ⟨get s, by rw [Given, hget], (h.put_get s).symm⟩
    | some text =>
      rw [hget] at hstep
      cases hparse : parse text with
      | none =>
        simp only [h.apply_none text s hparse] at hstep
        cases hstep
      | some value =>
        simp only [h.apply_some text value s hparse] at hstep
        obtain rfl := Except.ok.inj hstep
        exact ⟨value, by rw [Given, hget]; exact hparse, rfl⟩
  · rintro ⟨value, hgiven, rfl⟩
    cases hget : env.get? o.variableName with
    | none =>
      rw [Given, hget] at hgiven
      obtain rfl : value = get s := hgiven
      simp only [h.put_get]
    | some text =>
      rw [Given, hget] at hgiven
      exact h.apply_some text value s hgiven

theorem Override.Sets.step_error (h : o.Sets parse fault get put) (s : Settings) (e : SettingsFault) :
    o.step env s = .error e ↔ ∃ text, env.get? o.variableName = some text ∧ parse text = none ∧ e = fault text := by
  rw [Override.step]
  constructor
  · intro hstep
    cases hget : env.get? o.variableName with
    | none =>
      rw [hget] at hstep
      cases hstep
    | some text =>
      rw [hget] at hstep
      cases hparse : parse text with
      | none =>
        simp only [h.apply_none text s hparse] at hstep
        exact ⟨text, rfl, hparse, (Except.error.inj hstep).symm⟩
      | some value =>
        simp only [h.apply_some text value s hparse] at hstep
        cases hstep
  · rintro ⟨text, hget, hparse, rfl⟩
    rw [hget]
    exact h.apply_none text s hparse

/-- An override goes through unless its text cannot be used. -/
theorem Override.Sets.step_usable (h : o.Sets parse fault get put) (s : Settings) :
    (∃ s', o.step env s = .ok s') ↔ Usable env o.variableName parse := by
  constructor
  · rintro ⟨s', hstep⟩ text hget
    obtain ⟨value, hgiven, -⟩ := (h.step_ok s s').mp hstep
    rw [Given, hget] at hgiven
    exact ⟨value, hgiven⟩
  · intro husable
    cases hget : env.get? o.variableName with
    | none => exact ⟨s, by rw [Override.step, hget]⟩
    | some text =>
      obtain ⟨value, hparse⟩ := husable text hget
      exact ⟨put value s, by rw [Override.step, hget]; exact h.apply_some text value s hparse⟩

end Step

/-! ## (2) All of them -/

/-- Flags are written in exactly one way. -/
def flag? : String → Option Bool
  | "true" => some true
  | "false" => some false
  | _ => none

/-- The settings `c` are the settings `s` with the values that the environment gives. -/
structure Overridden (env : Environment) (s c : Settings) : Prop where
  style : Given env "CFGTEMPLATE_GENERATOR_OPTIONAL_STYLE" Style.ofName? s.options.style c.options.style
  includeOptional :
    Given env "CFGTEMPLATE_GENERATOR_INCLUDE_OPTIONAL" flag? s.options.includeOptional c.options.includeOptional
  level : Given env "CFGTEMPLATE_LOGGING_LOG_LEVEL" some s.logging.level c.logging.level
  toFile : Given env "CFGTEMPLATE_LOGGING_LOCAL_ENABLED" flag? s.logging.toFile c.logging.toFile
  directory : Given env "CFGTEMPLATE_LOGGING_LOCAL_PATH" some s.logging.directory c.logging.directory
  rotation : Given env "CFGTEMPLATE_LOGGING_LOCAL_ROTATION" some s.logging.rotation c.logging.rotation

theorem readFlag_eq (variableName text : String) :
    readFlag variableName text =
      match flag? text with
      | some b => .ok b
      | none => .error (.flag variableName text) := by
  unfold readFlag
  split
  · rfl
  · rfl
  · rename_i htrue hfalse
    have hnone : flag? text = none := by
      unfold flag?
      split
      · exact absurd rfl htrue
      · exact absurd rfl hfalse
      · rfl
    rw [hnone]

theorem styleOverride_sets :
    styleOverride.Sets Style.ofName? .style (·.options.style) fun v s => { s with options.style := v } := by
  refine ⟨fun text value s h => ?_, fun text s h => ?_, fun _ => rfl⟩
  · simp only [styleOverride, h]
  · simp only [styleOverride, h]

theorem includeOverride_sets :
    includeOverride.Sets flag? (.flag "CFGTEMPLATE_GENERATOR_INCLUDE_OPTIONAL") (·.options.includeOptional)
      fun v s => { s with options.includeOptional := v } := by
  refine ⟨fun text value s h => ?_, fun text s h => ?_, fun _ => rfl⟩
  · simp only [includeOverride, readFlag_eq, h, Except.map]
  · simp only [includeOverride, readFlag_eq, h, Except.map]

theorem toFileOverride_sets :
    toFileOverride.Sets flag? (.flag "CFGTEMPLATE_LOGGING_LOCAL_ENABLED") (·.logging.toFile)
      fun v s => { s with logging.toFile := v } := by
  refine ⟨fun text value s h => ?_, fun text s h => ?_, fun _ => rfl⟩
  · simp only [toFileOverride, readFlag_eq, h, Except.map]
  · simp only [toFileOverride, readFlag_eq, h, Except.map]

/-- A text is taken as it is; there is no fault of it. -/
theorem sets_text {o : Override} {get : Settings → String} {put : String → Settings → Settings}
    (happly : ∀ text s, o.apply text s = .ok (put text s)) (hput : ∀ s, put (get s) s = s)
    (fault : String → SettingsFault) : o.Sets some fault get put := by
  refine ⟨fun text value s h => ?_, fun text s h => ?_, hput⟩
  · obtain rfl := Option.some.inj h
    exact happly _ s
  · cases h

theorem levelOverride_sets :
    levelOverride.Sets some .stated (·.logging.level) fun v s => { s with logging.level := v } :=
  sets_text (fun _ _ => rfl) (fun _ => rfl) _

theorem directoryOverride_sets :
    directoryOverride.Sets some .stated (·.logging.directory) fun v s => { s with logging.directory := v } :=
  sets_text (fun _ _ => rfl) (fun _ => rfl) _

theorem rotationOverride_sets :
    rotationOverride.Sets some .stated (·.logging.rotation) fun v s => { s with logging.rotation := v } :=
  sets_text (fun _ _ => rfl) (fun _ => rfl) _

theorem applyOverrides_ok (env : Environment) (s c : Settings) :
    applyOverrides env overrides s = .ok c ↔ Overridden env s c := by
  simp only [overrides, applyOverrides_cons, Except.bind_eq_ok, styleOverride_sets.step_ok,
    includeOverride_sets.step_ok, levelOverride_sets.step_ok, toFileOverride_sets.step_ok,
    directoryOverride_sets.step_ok, rotationOverride_sets.step_ok, applyOverrides_nil, Except.ok.injEq]
  constructor
  · rintro ⟨_, ⟨_, hstyle, rfl⟩, _, ⟨_, hinclude, rfl⟩, _, ⟨_, hlevel, rfl⟩, _, ⟨_, htoFile, rfl⟩, _,
      ⟨_, hdirectory, rfl⟩, _, ⟨_, hrotation, rfl⟩, rfl⟩
    exact ⟨hstyle, hinclude, hlevel, htoFile, hdirectory, hrotation⟩
  · rintro ⟨hstyle, hinclude, hlevel, htoFile, hdirectory, hrotation⟩
    exact ⟨_, ⟨_, hstyle, rfl⟩, _, ⟨_, hinclude, rfl⟩, _, ⟨_, hlevel, rfl⟩, _, ⟨_, htoFile, rfl⟩, _,
      ⟨_, hdirectory, rfl⟩, _, ⟨_, hrotation, rfl⟩, rfl⟩

/-! ## (3) The first fault -/

/-- The first of the three texts, in this order, that cannot be used. -/
inductive OverrideFault (env : Environment) : SettingsFault → Prop
  | style {text : String} : env.get? "CFGTEMPLATE_GENERATOR_OPTIONAL_STYLE" = some text → Style.ofName? text = none →
      OverrideFault env (.style text)
  | includeOptional {text : String} : Usable env "CFGTEMPLATE_GENERATOR_OPTIONAL_STYLE" Style.ofName? →
      env.get? "CFGTEMPLATE_GENERATOR_INCLUDE_OPTIONAL" = some text → flag? text = none →
      OverrideFault env (.flag "CFGTEMPLATE_GENERATOR_INCLUDE_OPTIONAL" text)
  | toFile {text : String} : Usable env "CFGTEMPLATE_GENERATOR_OPTIONAL_STYLE" Style.ofName? →
      Usable env "CFGTEMPLATE_GENERATOR_INCLUDE_OPTIONAL" flag? →
      env.get? "CFGTEMPLATE_LOGGING_LOCAL_ENABLED" = some text → flag? text = none →
      OverrideFault env (.flag "CFGTEMPLATE_LOGGING_LOCAL_ENABLED" text)

theorem usable_some (env : Environment) (variableName : String) : Usable env variableName some :=
  fun text _ => ⟨text, rfl⟩

/-- What fails after an override fails just the same without it, if the fault does not depend on the settings. -/
theorem step_then_error {env : Environment} {o : Override} {parse : String → Option α} {fault : String → SettingsFault}
    {get : Settings → α} {put : α → Settings → Settings} (h : o.Sets parse fault get put) {rest : List Override}
    {e : SettingsFault} {P : Prop} (hrest : ∀ s, applyOverrides env rest s = .error e ↔ P) (s : Settings) :
    applyOverrides env (o :: rest) s = .error e ↔
      (∃ text, env.get? o.variableName = some text ∧ parse text = none ∧ e = fault text) ∨
        (Usable env o.variableName parse ∧ P) := by
  rw [applyOverrides_cons, Except.bind_eq_error, h.step_error, ← h.step_usable s]
  constructor
  · rintro (hnow | ⟨s', hstep, herror⟩)
    · exact Or.inl hnow
    · exact Or.inr ⟨⟨s', hstep⟩, (hrest s').mp herror⟩
  · rintro (hnow | ⟨⟨s', hstep⟩, hp⟩)
    · exact Or.inl hnow
    · exact Or.inr ⟨s', hstep, (hrest s').mpr hp⟩

theorem applyOverrides_error (env : Environment) (s : Settings) (e : SettingsFault) :
    applyOverrides env overrides s = .error e ↔ OverrideFault env e := by
  have hnone : ∀ s, applyOverrides env [] s = .error e ↔ False := by simp [applyOverrides_nil]
  have hall := step_then_error styleOverride_sets (step_then_error includeOverride_sets
    (step_then_error levelOverride_sets (step_then_error toFileOverride_sets
      (step_then_error directoryOverride_sets (step_then_error rotationOverride_sets hnone))))) s
  rw [overrides, hall]
  constructor
  · rintro (⟨text, hget, hparse, rfl⟩ | ⟨hstyle, ⟨text, hget, hparse, rfl⟩ | ⟨hinclude, ⟨_, _, h, _⟩ | ⟨-,
      ⟨text, hget, hparse, rfl⟩ | ⟨-, ⟨_, _, h, _⟩ | ⟨-, ⟨_, _, h, _⟩ | ⟨-, h⟩⟩⟩⟩⟩⟩)
    · exact .style hget hparse
    · exact .includeOptional hstyle hget hparse
    · cases h
    · exact .toFile hstyle hinclude hget hparse
    · cases h
    · cases h
    · exact h.elim
  · rintro (⟨hget, hparse⟩ | ⟨hstyle, hget, hparse⟩ | ⟨hstyle, hinclude, hget, hparse⟩)
    · exact Or.inl ⟨_, hget, hparse, rfl⟩
    · exact Or.inr ⟨hstyle, Or.inl ⟨_, hget, hparse, rfl⟩⟩
    · exact Or.inr ⟨hstyle, Or.inr ⟨hinclude, Or.inr ⟨usable_some env _, Or.inl ⟨_, hget, hparse, rfl⟩⟩⟩⟩

end ConfigTemplate.Settings
