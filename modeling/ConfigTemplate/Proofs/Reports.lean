/-
  ConfigTemplate.Proofs.Reports — what the log says about a template.

  (1) `Log.Entry`: an event as it is read in the log. `Ty.refused`: the check whether a
      type is fatal.
  (2) What there is to say: `fieldReports` of the fields of a record, `variableReports` of
      a variable, `groupReports` of a group and `templateReports` of all groups, each up to
      the first failure.
  (3) `fieldLines_events`, `fragment_events`: what is said while one variable is shown.
  (4) `fragments_events`, `moduleSection_events`, `sections_events`: variables in a row,
      the section of a group, groups in a row.
  (5) `log_of_a_template`: the log of a template says all there is to say and nothing
      else, in the order of its parts.
-/
import ConfigTemplate.Proofs.Composition

namespace ConfigTemplate

/-! ## (1) Entries of the log -/

/-- What is read of an event in the log. -/
structure Log.Entry where
  level : Log.Level
  message : String
  fields : List (String × Log.Field)
  deriving DecidableEq

def Log.Event.entry (e : Log.Event) : Log.Entry := ⟨e.level, e.message, e.fields⟩

namespace Ty

def isOther : Ty → Bool
  | other _ => true
  | _ => false

theorem isOther_iff {t : Ty} : t.isOther = true ↔ ∃ kind, t = other kind := by
  cases t <;> simp [isOther]

/-- No template can show a variable of the type. -/
def refused (t : Ty) : Bool :=
  match t.shape? with
  | .error _ => true
  | .ok (.record fields) | .ok (.rows fields) => fields.any (·.2.core.isOther)
  | .ok _ => false

theorem refused_iff (t : Ty) : t.refused = true ↔ t.Fatal := by
  constructor
  · intro h
    have ofFields : ∀ fields : Fields, t.Shows fields → fields.any (·.2.core.isOther) = true → t.Fatal := by
      intro fields hshows hany
      obtain ⟨f, hf, hother⟩ := List.any_eq_true.mp hany
      obtain ⟨kind, hkind⟩ := isOther_iff.mp hother
      exact .field fields f kind hshows hf hkind
    unfold refused at h
    split at h
    · rename_i kind hshape
      rcases shape?_error.mp hshape with hkind | ⟨row, htable, hrow, -⟩
      · exact .kind kind hkind
      · exact .table row htable hrow
    · rename_i fields hshape
      exact ofFields fields (shape?_fields.mp (Or.inl hshape)) h
    · rename_i fields hshape
      exact ofFields fields (shape?_fields.mp (Or.inr hshape)) h
    · cases h
  · intro h
    cases h with
    | kind kind hkind => simp [refused, shape?_error.mpr (Or.inl hkind)]
    | table row htable hrow => simp [refused, shape?_error.mpr (Or.inr ⟨row, htable, hrow, rfl⟩)]
    | field fields f kind hshows hf hkind =>
      have hany : fields.any (·.2.core.isOther) = true := List.any_eq_true.mpr ⟨f, hf, isOther_iff.mpr ⟨kind, hkind⟩⟩
      rcases shape?_fields.mpr hshows with hshape | hshape
      · simpa [refused, hshape] using hany
      · simpa [refused, hshape] using hany

instance : DecidablePred Ty.Fatal := fun t => decidable_of_iff _ (refused_iff t)

end Ty

namespace Template

open Log (Traced Entry)

/-! ## (2) What there is to say -/

/-- Of a field that is passed over. -/
def fieldReport? (owner : String) (f : String × Ty) : Option Entry :=
  match f.2.core with
  | .scalar _ | .other _ => none
  | t => some ⟨.trace, "Skipping non-scalar record field",
      [("variable", .text owner), ("field", .text f.1), ("kind", .text t.kindName)]⟩

def fieldReports (owner : String) (fields : Fields) : List Entry :=
  (fields.takeWhile fun f => !f.2.core.isOther).filterMap (fieldReport? owner)

def variableReports (key : ModuleKey) (v : Variable) : List Entry :=
  match v.type.shape? with
  | .ok (.record fields) | .ok (.rows fields) => fieldReports v.name fields
  | .ok (.none why) => [⟨.debug, "Skipping configurable with no template representation",
      [("module", .text key.canonical), ("variable", .text v.name), ("reason", .text why.reason)]⟩]
  | _ => []

/-- The optional variables that a template shows. -/
def shownOptional (o : Options) (g : Group) : List Variable := if o.includeOptional then g.optional else []

/-- The optional variables whose entry is written. -/
def written (o : Options) (g : Group) : List Variable := (shownOptional o g).filter (leavesText g.key)

/-- No template can show the variable. -/
def VariableFails (v : Variable) : Prop := v.type.Fatal

instance : DecidablePred VariableFails := fun v => inferInstanceAs (Decidable v.type.Fatal)

/-- Some variable that a template shows of the group fails. -/
def GroupFails (o : Options) (g : Group) : Prop := ∃ v ∈ shown o g, VariableFails v

instance (o : Options) : DecidablePred (GroupFails o) := fun g => List.decidableBEx VariableFails (shown o g)

def groupReports (o : Options) (g : Group) : List Entry :=
  (throughFirst VariableFails (shown o g)).flatMap (variableReports g.key) ++
    if GroupFails o g then [] else [⟨.debug, "Module section rendered",
      [("module", .text g.key.canonical), ("required", .count g.required.length),
        ("optional", .count (written o g).length)]⟩]

def templateReports (o : Options) (gs : List Group) : List Entry :=
  (throughFirst (GroupFails o) gs).flatMap (groupReports o) ++
    match (document o gs).result with
    | .ok text => [⟨.debug, "Config template generated",
        [("modules", .count gs.length), ("bytes", .count text.utf8ByteSize)]⟩]
    | .error _ => []

/-- The entries of the events of a computation. -/
def logOf {ε α : Type} (t : Traced ε α) : List Entry := t.events.map (·.entry)

/-! ## (3) One variable -/

section

variable {ε α β : Type}

theorem logOf_bind_ok {t : Traced ε α} {a : α} (h : t.result = .ok a) (f : α → Traced ε β) :
    logOf (t >>= f) = logOf t ++ logOf (f a) := by
  simp [logOf, Traced.events_bind_ok h]

theorem logOf_bind_error {t : Traced ε α} {e : ε} (h : t.result = .error e) (f : α → Traced ε β) :
    logOf (t >>= f) = logOf t := by
  simp [logOf, Traced.events_bind_error h]

theorem logOf_bind_silent (t : Traced ε α) {f : α → Traced ε β} (h : ∀ a, (f a).events = []) :
    logOf (t >>= f) = logOf t := by
  simp [logOf, Traced.events_bind_silent t h]

end

/-- A field of an unrecognised kind ends the record without a word. -/
theorem fieldLines_events (owner : String) (fields : Fields) :
    logOf (fieldLines owner fields) = fieldReports owner fields := by
  induction fields with
  | nil => rfl
  | cons f rest ih =>
    obtain ⟨field, t⟩ := f
    have hrest : ∀ line : String, logOf (fieldLines owner rest >>= fun more => pure (line ++ more)) =
        fieldReports owner rest := fun line => by rw [logOf_bind_silent _ fun _ => rfl, ih]
    cases hcore : t.core with
    | other kind =>
      have hfail : (fieldLine owner field t.core).result = .error ⟨owner ++ "." ++ field, kind⟩ := by rw [hcore]; rfl
      rw [fieldLines, logOf_bind_error hfail, hcore]
      simp [fieldReports, hcore, Ty.isOther, fieldLine, logOf]
    | constrained base => exact absurd hcore (Ty.core_not_constrained t base)
    | scalar s =>
      have hline : (fieldLine owner field t.core).result = .ok (scalarLine field s) := by rw [hcore]; rfl
      rw [fieldLines, logOf_bind_ok hline, hrest, hcore]
      simp [fieldReports, fieldReport?, hcore, Ty.isOther, fieldLine, logOf]
    | _ =>
      have hline : (fieldLine owner field t.core).result = .ok "" := by rw [hcore]; rfl
      rw [fieldLines, logOf_bind_ok hline, hrest, hcore]
      simp [fieldReports, fieldReport?, hcore, Ty.isOther]
      rfl

theorem fragment_events (key : ModuleKey) (v : Variable) : logOf (fragment key v) = variableReports key v := by
  unfold fragment variableReports
  cases v.type.shape? with
  | error kind => rfl
  | ok shape =>
    cases shape with
    | record fields | rows fields => exact (logOf_bind_silent _ fun _ => rfl).trans (fieldLines_events v.name fields)
    | _ => rfl

/-! ## (4) Variables and groups in a row -/

theorem fragments_events (key : ModuleKey) (vs : List Variable) :
    logOf (fragments key vs) = (throughFirst VariableFails vs).flatMap (variableReports key) := by
  induction vs with
  | nil => rfl
  | cons v rest ih =>
    by_cases hfails : VariableFails v
    · obtain ⟨u, hu⟩ := (fatal_iff_blame v.name v.type).mp hfails
      rw [fragments, logOf_bind_error ((fragment_error key v u).mpr hu), fragment_events,
        throughFirst_cons_of_pos hfails, List.flatMap_singleton]
    · obtain ⟨text, htext⟩ := (fragment_succeeds key v).mpr hfails
      rw [fragments, logOf_bind_ok htext, logOf_bind_silent _ fun _ => rfl, fragment_events, ih,
        throughFirst_cons_of_neg hfails, List.flatMap_cons]

theorem optionalFragments_events (o : Options) (g : Group) : logOf (optionalFragments o g) =
    (throughFirst VariableFails (shownOptional o g)).flatMap (variableReports g.key) := by
  unfold optionalFragments shownOptional
  cases o.includeOptional with
  | true =>
    rw [if_pos rfl, if_pos rfl, ← fragments_events]
    exact logOf_bind_silent _ fun _ => rfl
  | false => rfl

theorem optionalFragments_succeed (o : Options) (g : Group) :
    (∃ texts, (optionalFragments o g).result = .ok texts) ↔ ∀ v ∈ shownOptional o g, ¬ v.type.Fatal := by
  unfold optionalFragments shownOptional
  cases o.includeOptional with
  | true =>
    rw [if_pos rfl, if_pos rfl, ← fragments_succeed g.key]
    simp
  | false => simp

/-- An entry is written for each optional variable that leaves text. -/
theorem length_optionalFragments {o : Options} {g : Group} {texts : List String}
    (h : (optionalFragments o g).result = .ok texts) : texts.length = (written o g).length := by
  unfold optionalFragments at h
  unfold written shownOptional
  cases hinclude : o.includeOptional with
  | true =>
    simp only [hinclude, if_true, Traced.bind_ok, Traced.result_pure, Except.ok.injEq] at h ⊢
    obtain ⟨all, hall, rfl⟩ := h
    have hkept : (fragments g.key (g.optional.filter (leavesText g.key))).result = .ok (all.filter (· != "")) := by
      rw [fragments_filter, hall]
      rfl
    exact (fragments_ok_iff.mp hkept).length_eq.symm
  | false =>
    obtain rfl : [] = texts := by simpa [hinclude] using h
    rfl

theorem groupFails_iff (o : Options) (g : Group) :
    GroupFails o g ↔ (∃ v ∈ g.required, VariableFails v) ∨ ∃ v ∈ shownOptional o g, VariableFails v := by
  show (∃ v ∈ g.required ++ shownOptional o g, VariableFails v) ↔ _
  simp only [List.mem_append, or_and_right, exists_or]

theorem moduleSection_events (o : Options) (g : Group) : logOf (moduleSection o g) = groupReports o g := by
  have hshown : shown o g = g.required ++ shownOptional o g := rfl
  rw [groupReports, hshown, moduleSection]
  by_cases hrequired : ∃ v ∈ g.required, VariableFails v
  · -- a required variable fails: nothing is said of the optional ones, nor of the section
    obtain ⟨u, hu⟩ := (exists_firstFatal g.required).mpr hrequired
    rw [logOf_bind_error ((fragments_error g.key _ u).mpr hu), fragments_events, throughFirst_append_of_pos hrequired,
      if_pos ((groupFails_iff o g).mpr (Or.inl hrequired)), List.append_nil]
  · have hsafe : ∀ v ∈ g.required, ¬ VariableFails v := by simpa using hrequired
    obtain ⟨required, htexts⟩ := (fragments_succeed g.key g.required).mpr hsafe
    have hall : throughFirst VariableFails g.required = g.required := by
      simpa [throughFirst] using throughFirst_append_of_neg hsafe []
    rw [logOf_bind_ok htexts, fragments_events, hall, throughFirst_append_of_neg hsafe, List.flatMap_append,
      List.append_assoc]
    congr 1
    cases hresult : (optionalFragments o g).result with
    | error u =>
      have hoptional : ∃ v ∈ shownOptional o g, VariableFails v := by
        by_contra h
        have hnone : ∀ v ∈ shownOptional o g, ¬ VariableFails v := by simpa using h
        obtain ⟨texts, htexts⟩ := (optionalFragments_succeed o g).mpr hnone
        rw [hresult] at htexts
        cases htexts
      rw [logOf_bind_error hresult, optionalFragments_events, if_pos ((groupFails_iff o g).mpr (Or.inr hoptional)),
        List.append_nil]
    | ok optional =>
      have hoptional : ∀ v ∈ shownOptional o g, ¬ VariableFails v := (optionalFragments_succeed o g).mp ⟨optional, hresult⟩
      have hholds : ¬ GroupFails o g := by
        rw [groupFails_iff]
        simpa using ⟨hsafe, hoptional⟩
      rw [logOf_bind_ok hresult, optionalFragments_events, if_neg hholds, (fragments_ok_iff.mp htexts).length_eq,
        ← length_optionalFragments hresult]
      rfl

theorem sections_events (o : Options) (gs : List Group) :
    logOf (sections o gs) = (throughFirst (GroupFails o) gs).flatMap (groupReports o) := by
  induction gs with
  | nil => rfl
  | cons g rest ih =>
    by_cases hfails : GroupFails o g
    · obtain ⟨u, hu⟩ := (exists_firstFatal (shown o g)).mpr hfails
      rw [sections, logOf_bind_error ((moduleSection_error o g u).mpr hu), moduleSection_events,
        throughFirst_cons_of_pos hfails, List.flatMap_singleton]
    · have hsafe : ∀ v ∈ shown o g, ¬ VariableFails v := fun v hv hfatal => hfails ⟨v, hv, hfatal⟩
      obtain ⟨text, hresult⟩ := (moduleSection_succeeds o g).mpr hsafe
      rw [sections, logOf_bind_ok hresult, logOf_bind_silent _ fun _ => rfl, moduleSection_events, ih,
        throughFirst_cons_of_neg hfails, List.flatMap_cons]

/-! ## (5) Templates -/

/-- Group by group up to the first that fails, the log says what is passed over, variable
    by variable up to the first that fails, and then how many entries the section has. It
    tells of the whole template when there is one. -/
theorem log_of_a_template (o : Options) (gs : List Group) :
    (document o gs).events.map (·.entry) = templateReports o gs := by
  show logOf (document o gs) = _
  unfold templateReports
  rw [← sections_events, document_result, document]
  cases hresult : (sections o gs).result with
  | ok text =>
    rw [logOf_bind_ok hresult]
    rfl
  | error u => rw [logOf_bind_error hresult, List.append_nil]

/-- An optional map without a form beside a required number. -/
def lookupAndPort : Group := ⟨shopKey, [⟨"lookup", .map .xml, false⟩, ⟨"port", .scalar .int, true⟩]⟩

/-- A record that fails at its third field. -/
def brokenHook : Group :=
  ⟨shopKey, [⟨"hook", .record [("id", .scalar .int), ("body", .xml), ("run", .other "function"), ("more", .json)], true⟩]⟩

example : (document {} [lookupAndPort, brokenHook, lookupAndPort]).events.map (·.entry) =
    [⟨.debug, "Skipping configurable with no template representation",
        [("module", .text "shop.store.db"), ("variable", .text "lookup"), ("reason", .text "map value is not a scalar")]⟩,
      ⟨.debug, "Module section rendered",
        [("module", .text "shop.store.db"), ("required", .count 1), ("optional", .count 0)]⟩,
      ⟨.trace, "Skipping non-scalar record field",
        [("variable", .text "hook"), ("field", .text "body"), ("kind", .text "xml")]⟩] := by decide

end Template

end ConfigTemplate
