/-
  ConfigTemplate.Proofs.Stated — the settings that a text states: the defaults, overlaid
  by what the text gives.

  (1) `States`: what a document states, setting by setting. Keys without a setting do not
      count, and a setting that is not given has its default.
  (2) `options_read`, `logging_read`, `settings_read`: reading a record finds just that.
  (3) `ofToml_ok`: so does reading a text.
-/
import ConfigTemplate.Proofs.Overlay
import ConfigTemplate.Settings.Read

namespace ConfigTemplate.Settings

open Data

/-! ## (1) Statements -/

/-- A style is given by its exact name, or as the only member of a table, with nothing in it. -/
def Spells (d : Data) (style : Style) : Prop :=
  d = .text (some style.name) ∨
    ∃ inner closed, d = .table [(some style.name, inner)] closed ∧ ((∃ c, inner = .list [] c) ∨ ∃ c, inner = .table [] c)

structure OptionsStated (entries : List (String × Data)) (o : Options) : Prop where
  style : Stated Spells .inherited (entries.lookup "optional_style") o.style
  includeOptional : Stated (fun d b => d = .bool b) true (entries.lookup "include_optional") o.includeOptional

structure LogStated (entries : List (String × Data)) (l : LogSettings) : Prop where
  level : Stated (fun d s => d = .text (some s)) "info" (entries.lookup "log_level") l.level
  toFile : Stated (fun d b => d = .bool b) false (entries.lookup "local_enabled") l.toFile
  directory : Stated (fun d s => d = .text (some s)) "./logs" (entries.lookup "local_path") l.directory
  rotation : Stated (fun d s => d = .text (some s)) "daily" (entries.lookup "local_rotation") l.rotation

/-- The section of the options, in whatever form it is written. -/
def StatesOptions (d : Data) (o : Options) : Prop :=
  ∃ entries, d.entries? ["optional_style", "include_optional"] = some entries ∧ OptionsStated entries o

def StatesLogging (d : Data) (l : LogSettings) : Prop :=
  ∃ entries, d.entries? ["log_level", "local_enabled", "local_path", "local_rotation"] = some entries ∧
    LogStated entries l

structure States (entries : List (String × Data)) (s : Settings) : Prop where
  options : Stated StatesOptions {} (entries.lookup "generator") s.options
  logging : Stated StatesLogging {} (entries.lookup "logging") s.logging

/-- The text is a document, and states the settings. -/
def Decodes (text : String) (s : Settings) : Prop :=
  ∃ entries : List (String × Data),
    Toml.read text = some (.table (entries.map fun e => (some e.1, e.2)) true) ∧ States entries s

/-! ## (2) Records -/

theorem readText_ok (r : Reading) (d : Data) (s : String) : readText r d = .ok s ↔ d = .text (some s) := by
  unfold readText
  split
  · simp
  · rename_i hd
    simp only [reduceCtorEq, false_iff]
    exact hd s

theorem readBool_ok (r : Reading) (d : Data) (b : Bool) : readBool r d = .ok b ↔ d = .bool b := by
  unfold readBool
  split
  · simp
  · rename_i hd
    simp only [reduceCtorEq, false_iff]
    exact hd b

theorem readStyleName_ok (name : String) (style : Style) : readStyleName name = .ok style ↔ name = style.name := by
  rw [readStyleName]
  constructor
  · intro h
    split at h
    · rename_i found hfind
      have hname := List.find?_some hfind
      obtain rfl := Except.ok.inj h
      simp only [beq_iff_eq] at hname
      exact hname.symm
    · cases h
  · rintro rfl
    cases style <;> rfl

theorem readStyle_ok (d : Data) (style : Style) : readStyle d = .ok style ↔ Spells d style := by
  unfold readStyle
  split
  · rename_i s
    simp [readStyleName_ok, Spells]
  · rename_i key inner closed
    simp only [Except.bind_eq_ok, readStyleName_ok, Spells]
    constructor
    · rintro ⟨found, rfl, h⟩
      split at h
      · obtain rfl := Except.ok.inj h
        exact Or.inr ⟨_, closed, rfl, Or.inl ⟨_, rfl⟩⟩
      · obtain rfl := Except.ok.inj h
        exact Or.inr ⟨_, closed, rfl, Or.inr ⟨_, rfl⟩⟩
      · cases h
    · rintro (h | ⟨inner', closed', h, hinner⟩)
      · cases h
      · obtain ⟨hmembers, rfl⟩ := Data.table.inj h
        obtain ⟨hkey, rfl⟩ := Prod.mk.inj (List.cons.inj hmembers).1
        refine ⟨style, Option.some.inj hkey, ?_⟩
        rcases hinner with ⟨c, rfl⟩ | ⟨c, rfl⟩
        · rfl
        · rfl
  · rename_i hother htext
    simp only [reduceCtorEq, false_iff, Spells]
    rintro (rfl | ⟨inner, closed, rfl, -⟩)
    · exact hother _ rfl
    · exact htext _ _ _ rfl

/-! The relations between a value and what it reads as. -/

theorem reads_text (r : Reading) : (fun d s => readText r d = .ok s) = fun d s => d = .text (some s) := by
  funext d s
  exact propext (readText_ok r d s)

theorem reads_bool (r : Reading) : (fun d b => readBool r d = .ok b) = fun d b => d = .bool b := by
  funext d b
  exact propext (readBool_ok r d b)

theorem reads_style : (fun d style => readStyle d = .ok style) = Spells := by
  funext d style
  exact propext (readStyle_ok d style)

theorem optionsStated_iff (r : Reading) (entries : List (String × Data)) (o : Options) : OptionsStated entries o ↔
    Stated (fun d v => readStyle d = .ok v) .inherited (entries.lookup "optional_style") o.style ∧
    Stated (fun d v => readBool r d = .ok v) true (entries.lookup "include_optional") o.includeOptional := by
  rw [reads_style, reads_bool]
  constructor
  · rintro ⟨hstyle, hinclude⟩
    exact ⟨hstyle, hinclude⟩
  · rintro ⟨hstyle, hinclude⟩
    exact ⟨hstyle, hinclude⟩

theorem logStated_iff (r : Reading) (entries : List (String × Data)) (l : LogSettings) : LogStated entries l ↔
    Stated (fun d v => readText r d = .ok v) "info" (entries.lookup "log_level") l.level ∧
    Stated (fun d v => readBool r d = .ok v) false (entries.lookup "local_enabled") l.toFile ∧
    Stated (fun d v => readText r d = .ok v) "./logs" (entries.lookup "local_path") l.directory ∧
    Stated (fun d v => readText r d = .ok v) "daily" (entries.lookup "local_rotation") l.rotation := by
  rw [reads_text, reads_bool]
  constructor
  · rintro ⟨hlevel, htoFile, hdirectory, hrotation⟩
    exact ⟨hlevel, htoFile, hdirectory, hrotation⟩
  · rintro ⟨hlevel, htoFile, hdirectory, hrotation⟩
    exact ⟨hlevel, htoFile, hdirectory, hrotation⟩

theorem options_assign (r : Reading) {entries : List (String × Data)} (hkeys : (entries.map (·.1)).Nodup)
    (o : Options) : assign none (known (optionsRecord r).fields entries) {} = .ok o ↔ OptionsStated entries o := by
  refine assign_iff hkeys (fun o h => (optionsStated_iff r entries o).mpr ⟨?_, ?_⟩) ?_ ?_
  · refine assign_get "optional_style" Options.style rfl (fun _ _ => rfl) ?_ hkeys h
    simp [optionsRecord, RecordField.spares]
  · refine assign_get "include_optional" Options.includeOptional rfl (fun _ _ => rfl) ?_ hkeys h
    simp [optionsRecord, RecordField.spares]
  · intro h f hf
    obtain ⟨hstyle, hinclude⟩ := (optionsStated_iff r entries o).mp h
    simp only [optionsRecord, List.mem_cons, List.not_mem_nil, or_false] at hf
    rcases hf with rfl | rfl
    · exact hstyle.readable _
    · exact hinclude.readable _
  · intro o' h h'
    obtain ⟨hstyle, hinclude⟩ := (optionsStated_iff r entries o).mp h
    obtain ⟨hstyle', hinclude'⟩ := (optionsStated_iff r entries o').mp h'
    cases o
    cases o'
    rw [Options.mk.injEq]
    exact ⟨hstyle'.unique hstyle, hinclude'.unique hinclude⟩

theorem logging_assign (r : Reading) {entries : List (String × Data)} (hkeys : (entries.map (·.1)).Nodup)
    (l : LogSettings) : assign none (known (loggingRecord r).fields entries) {} = .ok l ↔ LogStated entries l := by
  refine assign_iff hkeys (fun l h => (logStated_iff r entries l).mpr ⟨?_, ?_, ?_, ?_⟩) ?_ ?_
  · refine assign_get "log_level" LogSettings.level rfl (fun _ _ => rfl) ?_ hkeys h
    simp [loggingRecord, RecordField.spares]
  · refine assign_get "local_enabled" LogSettings.toFile rfl (fun _ _ => rfl) ?_ hkeys h
    simp [loggingRecord, RecordField.spares]
  · refine assign_get "local_path" LogSettings.directory rfl (fun _ _ => rfl) ?_ hkeys h
    simp [loggingRecord, RecordField.spares]
  · refine assign_get "local_rotation" LogSettings.rotation rfl (fun _ _ => rfl) ?_ hkeys h
    simp [loggingRecord, RecordField.spares]
  · intro h f hf
    obtain ⟨hlevel, htoFile, hdirectory, hrotation⟩ := (logStated_iff r entries l).mp h
    simp only [loggingRecord, List.mem_cons, List.not_mem_nil, or_false] at hf
    rcases hf with rfl | rfl | rfl | rfl
    · exact hlevel.readable _
    · exact htoFile.readable _
    · exact hdirectory.readable _
    · exact hrotation.readable _
  · intro l' h h'
    obtain ⟨hlevel, htoFile, hdirectory, hrotation⟩ := (logStated_iff r entries l).mp h
    obtain ⟨hlevel', htoFile', hdirectory', hrotation'⟩ := (logStated_iff r entries l').mp h'
    cases l
    cases l'
    rw [LogSettings.mk.injEq]
    exact ⟨hlevel'.unique hlevel, htoFile'.unique htoFile, hdirectory'.unique hdirectory, hrotation'.unique hrotation⟩

/-! The sections, and the whole, are records without required fields; surplus items of a list are passed over. -/

theorem options_read {d : Data} (h : d.Proper) (o : Options) :
    (optionsRecord Manifest.tomlReading).read Manifest.tomlReading none d = .ok o ↔ StatesOptions d o :=
  read_states (by simp [optionsRecord]) (by decide) rfl (fun _ hkeys _ => options_assign _ hkeys o) h

theorem logging_read {d : Data} (h : d.Proper) (l : LogSettings) :
    (loggingRecord Manifest.tomlReading).read Manifest.tomlReading none d = .ok l ↔ StatesLogging d l :=
  read_states (by simp [loggingRecord]) (by decide) rfl (fun _ hkeys _ => logging_assign _ hkeys l) h

theorem states_iff {entries : List (String × Data)} (hproper : ∀ e ∈ entries, e.2.Proper) (s : Settings) :
    States entries s ↔
      Stated (fun d o => (optionsRecord Manifest.tomlReading).read Manifest.tomlReading none d = .ok o) {}
        (entries.lookup "generator") s.options ∧
      Stated (fun d l => (loggingRecord Manifest.tomlReading).read Manifest.tomlReading none d = .ok l) {}
        (entries.lookup "logging") s.logging := by
  constructor
  · rintro ⟨hoptions, hlogging⟩
    exact ⟨(Stated.congr fun d hd => options_read (lookup_proper hproper hd) s.options).mpr hoptions,
      (Stated.congr fun d hd => logging_read (lookup_proper hproper hd) s.logging).mpr hlogging⟩
  · rintro ⟨hoptions, hlogging⟩
    exact ⟨(Stated.congr fun d hd => options_read (lookup_proper hproper hd) s.options).mp hoptions,
      (Stated.congr fun d hd => logging_read (lookup_proper hproper hd) s.logging).mp hlogging⟩

theorem settings_assign {entries : List (String × Data)} (hkeys : (entries.map (·.1)).Nodup)
    (hproper : ∀ e ∈ entries, e.2.Proper) (s : Settings) :
    assign none (known (record Manifest.tomlReading).fields entries) {} = .ok s ↔ States entries s := by
  refine assign_iff hkeys (fun s h => (states_iff hproper s).mpr ⟨?_, ?_⟩) ?_ ?_
  · refine assign_get "generator" Settings.options rfl (fun _ _ => rfl) ?_ hkeys h
    simp [record, RecordField.spares]
  · refine assign_get "logging" Settings.logging rfl (fun _ _ => rfl) ?_ hkeys h
    simp [record, RecordField.spares]
  · intro h f hf
    obtain ⟨hoptions, hlogging⟩ := (states_iff hproper s).mp h
    simp only [record, List.mem_cons, List.not_mem_nil, or_false] at hf
    rcases hf with rfl | rfl
    · exact hoptions.readable _
    · exact hlogging.readable _
  · intro s' h h'
    obtain ⟨hoptions, hlogging⟩ := (states_iff hproper s).mp h
    obtain ⟨hoptions', hlogging'⟩ := (states_iff hproper s').mp h'
    cases s
    cases s'
    rw [Settings.mk.injEq]
    exact ⟨hoptions'.unique hoptions, hlogging'.unique hlogging⟩

theorem settings_read {d : Data} (h : d.Proper) (s : Settings) :
    (record Manifest.tomlReading).read Manifest.tomlReading none d = .ok s ↔
      ∃ entries, d.entries? ["generator", "logging"] = some entries ∧ States entries s :=
  read_states (by simp [record]) (by decide) rfl (fun _ hkeys hproper => settings_assign hkeys hproper s) h

/-! ## (3) Whole texts -/

/-- Reading a text finds the settings that it states, and fails if it is no document or states none. -/
theorem ofToml_ok (text : String) (s : Settings) : ofToml text = .ok s ↔ Decodes text s := by
  rw [ofToml, Decodes]
  cases hread : Toml.read text with
  | none => simp
  | some d =>
    obtain ⟨hproper, entries, rfl⟩ := Toml.read_proper hread
    rw [settings_read hproper, entries?_table]
    constructor
    · rintro ⟨entries', hentries, hstates⟩
      obtain rfl := Option.some.inj hentries
      exact ⟨entries, rfl, hstates⟩
    · rintro ⟨entries', hd, hstates⟩
      have hsame := congrArg (entries? ["generator", "logging"]) (Option.some.inj hd)
      rw [entries?_table, entries?_table] at hsame
      exact ⟨entries', hsame, hstates⟩

end ConfigTemplate.Settings
