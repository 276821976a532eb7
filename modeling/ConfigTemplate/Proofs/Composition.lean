/-
  ConfigTemplate.Proofs.Composition — a template is put together group by group, and a
  section variable by variable: first the required ones, then the optional ones.

  (1) `moduleSection_result`, `sections_append`: the results of sections, without their
      events. Groups in a row give their sections in a row.
  (2) `Group.tidy`: a group with its variables in the order of its section, and without
      those that leave no text. `moduleSection_tidy`: its section is the same.
  (3) `EntryTexts`, `SectionText`: a section from the texts of its variables.
  (4) `template_goes_group_by_group`: the laws for whole templates.
-/
import ConfigTemplate.Proofs.Layout
import ConfigTemplate.Proofs.Refusal
import ConfigTemplate.Proofs.Results
import Mathlib.Data.List.Forall2

namespace ConfigTemplate

namespace Template

open Log (Traced)

/-! ## (1) Sections in a row -/

theorem moduleSection_result (o : Options) (g : Group) :
    (moduleSection o g).result = (do
      let required ← (fragments g.key g.required).result
      let optional ← (optionalFragments o g).result
      pure ("[" ++ g.key.canonical ++ "]\n" ++ String.join required ++
        String.join (optional.map (commentOut o.style)) ++ "\n")) := by
  simp only [moduleSection, Traced.result_bind, Traced.result_report, Traced.result_pure, Except.ok_bind, Except.pure_eq]

theorem sections_cons_result (o : Options) (g : Group) (rest : List Group) :
    (sections o (g :: rest)).result = (do
      let first ← (moduleSection o g).result
      let more ← (sections o rest).result
      pure (first ++ more)) := by
  simp only [sections, Traced.result_bind, Traced.result_pure, Except.pure_eq]

theorem document_result (o : Options) (gs : List Group) : (document o gs).result = (sections o gs).result := by
  simp only [document, Traced.result_bind, Traced.result_report, Traced.result_pure, Except.ok_bind]
  cases (sections o gs).result with
  | ok text => rfl
  | error u => rfl

/-- The texts stand in a row; a failure of the first groups comes before one of the others. -/
theorem sections_append (o : Options) (gs hs : List Group) :
    (sections o (gs ++ hs)).result = (do
      let first ← (sections o gs).result
      let more ← (sections o hs).result
      pure (first ++ more)) := by
  induction gs with
  | nil =>
    have hnil : (sections o []).result = .ok "" := rfl
    rw [List.nil_append, hnil, Except.ok_bind]
    cases (sections o hs).result with
    | ok text => simp
    | error u => rfl
  | cons g rest ih =>
    rw [List.cons_append, sections_cons_result, sections_cons_result, ih]
    cases (moduleSection o g).result with
    | error u => rfl
    | ok first =>
      cases (sections o rest).result with
      | error u => rfl
      | ok more =>
        cases (sections o hs).result with
        | error u => rfl
        | ok last => simp [String.append_assoc]

/-! ## (2) Groups in order -/

/-- The variable does not leave the empty text: it is written, or it is refused. -/
def leavesText (key : ModuleKey) (v : Variable) : Bool :=
  match (fragment key v).result with
  | .ok text => text != ""
  | .error _ => true

end Template

namespace Group

/-- The group with its variables in the order of its section, and without those that a
    template leaves out. -/
def tidy (o : Options) (g : Group) : Group := ⟨g.key, (Template.shown o g).filter (Template.leavesText g.key)⟩

/-- The two groups differ in nothing but how required and optional variables alternate. -/
structure SameParts (g h : Group) : Prop where
  key : g.key = h.key
  required : g.required = h.required
  optional : g.optional = h.optional

theorem filter_required (g : Group) : g.required.filter (·.required) = g.required := by simp [required]

theorem filter_optional (g : Group) : g.optional.filter (·.required) = [] := by simp [optional]

theorem required_tidy (o : Options) (g : Group) :
    (g.tidy o).required = g.required.filter (Template.leavesText g.key) := by
  have hshown : (Template.shown o g).filter (·.required) = g.required := by
    unfold Template.shown
    rw [List.filter_append, filter_required]
    cases o.includeOptional with
    | true => simp [filter_optional]
    | false => simp
  show ((Template.shown o g).filter _).filter _ = _
  rw [← hshown, List.filter_filter, List.filter_filter]
  simp only [Bool.and_comm]

theorem optional_tidy {o : Options} (h : o.includeOptional = true) (g : Group) :
    (g.tidy o).optional = g.optional.filter (Template.leavesText g.key) := by
  have hshown : (Template.shown o g).filter (!·.required) = g.optional := by
    unfold Template.shown
    rw [h, if_pos rfl, List.filter_append]
    simp [required, optional]
  show ((Template.shown o g).filter _).filter _ = _
  rw [← hshown, List.filter_filter, List.filter_filter]
  simp only [Bool.and_comm]

end Group

namespace Template

open Log (Traced)

/-- Variables that leave no text leave nothing among the fragments. -/
theorem fragments_filter (key : ModuleKey) (vs : List Variable) :
    (fragments key (vs.filter (leavesText key))).result = (fragments key vs).result.map (·.filter (· != "")) := by
  induction vs with
  | nil => rfl
  | cons v rest ih =>
    have hcons : ∀ more, (fragments key (v :: more)).result = (do
        let first ← (fragment key v).result
        let others ← (fragments key more).result
        pure (first :: others)) := by
      intro more
      simp only [fragments, Traced.result_bind, Traced.result_pure, Except.pure_eq]
    cases hv : (fragment key v).result with
    | error u =>
      have hleaves : leavesText key v = true := by simp [leavesText, hv]
      rw [List.filter_cons_of_pos hleaves, hcons, hcons, hv]
      rfl
    | ok first =>
      by_cases hempty : first = ""
      · have hleaves : ¬ leavesText key v = true := by simp [leavesText, hv, hempty]
        rw [List.filter_cons_of_neg hleaves, ih, hcons, hv, hempty, Except.ok_bind]
        cases (fragments key rest).result with
        | error u => rfl
        | ok others => simp [Except.map]
      · have hleaves : leavesText key v = true := by simp [leavesText, hv, hempty]
        rw [List.filter_cons_of_pos hleaves, hcons, hcons, hv, ih, Except.ok_bind, Except.ok_bind]
        cases (fragments key rest).result with
        | error u => rfl
        | ok others => simp [Except.map, hempty]

theorem join_filter (texts : List String) : String.join (texts.filter (· != "")) = String.join texts := by
  induction texts with
  | nil => rfl
  | cons text rest ih =>
    by_cases hempty : text = ""
    · simp [hempty, ih]
    · simp [hempty, ih]

theorem optionalFragments_tidy (o : Options) (g : Group) :
    (optionalFragments o (g.tidy o)).result = (optionalFragments o g).result := by
  unfold optionalFragments
  cases h : o.includeOptional with
  | false => rfl
  | true =>
    show ((fragments g.key (g.tidy o).optional >>= _).result) = _
    rw [Group.optional_tidy h]
    simp only [Traced.result_bind, fragments_filter, if_true, Traced.result_pure]
    cases (fragments g.key g.optional).result with
    | error u => rfl
    | ok texts => simp [Except.map]

/-- A section tells neither the order in which the kinds alternate nor the variables without text. -/
theorem moduleSection_tidy (o : Options) (g : Group) :
    (moduleSection o (g.tidy o)).result = (moduleSection o g).result := by
  rw [moduleSection_result, moduleSection_result, optionalFragments_tidy, Group.required_tidy]
  show ((fragments g.key _).result >>= _) = _
  rw [fragments_filter]
  cases (fragments g.key g.required).result with
  | error u => rfl
  | ok texts => simp only [Except.map, Except.ok_bind, join_filter, Group.tidy]

theorem sections_tidy (o : Options) (gs : List Group) :
    (sections o (gs.map (Group.tidy o))).result = (sections o gs).result := by
  induction gs with
  | nil => rfl
  | cons g rest ih => rw [List.map_cons, sections_cons_result, sections_cons_result, moduleSection_tidy, ih]

theorem moduleSection_sameParts (o : Options) {g h : Group} (same : g.SameParts h) :
    moduleSection o g = moduleSection o h := by
  simp only [moduleSection, optionalFragments, same.key, same.required, same.optional]

theorem sections_sameParts (o : Options) {gs hs : List Group} (same : List.Forall₂ Group.SameParts gs hs) :
    sections o gs = sections o hs := by
  induction same with
  | nil => rfl
  | cons hg _ ih => simp only [sections, moduleSection_sameParts o hg, ih]

/-! ## (3) Sections from their entries -/

/-- One text for each variable. -/
def EntryTexts (key : ModuleKey) (vs : List Variable) (texts : List String) : Prop :=
  List.Forall₂ (fun v text => (fragment key v).result = .ok text) vs texts

/-- The section of a group: its header, an entry for each required variable, a comment for
    each optional one that is shown and leaves text, and an empty line. -/
def SectionText (o : Options) (g : Group) (text : String) : Prop :=
  ∃ required optional, EntryTexts g.key g.required required ∧
    EntryTexts g.key (if o.includeOptional then g.optional else []) optional ∧
    text = "[" ++ g.key.canonical ++ "]\n" ++ String.join required ++
      String.join ((optional.filter (· != "")).map (commentOut o.style)) ++ "\n"

theorem fragments_ok_iff {key : ModuleKey} {vs : List Variable} {texts : List String} :
    (fragments key vs).result = .ok texts ↔ EntryTexts key vs texts := by
  unfold EntryTexts
  induction vs generalizing texts with
  | nil =>
    rw [List.forall₂_nil_left_iff]
    exact ⟨fun h => (Except.ok.inj h).symm, fun h => h ▸ rfl⟩
  | cons v rest ih =>
    rw [fragments_ok_cons]
    constructor
    · intro h
      obtain ⟨first, more, hv, hmore, rfl⟩ := h
      exact .cons hv (ih.mp hmore)
    · intro h
      cases h with
      | cons hv hmore => exact ⟨_, _, hv, ih.mpr hmore, rfl⟩

theorem moduleSection_ok_iff {o : Options} {g : Group} {text : String} :
    (moduleSection o g).result = .ok text ↔ SectionText o g text := by
  rw [moduleSection_ok, SectionText]
  unfold optionalFragments
  cases o.includeOptional with
  | true =>
    simp only [if_true, Traced.bind_ok, Traced.result_pure, Except.ok.injEq, fragments_ok_iff]
    constructor
    · intro h
      obtain ⟨required, _, hr, ⟨optional, ho, rfl⟩, ht⟩ := h
      exact ⟨required, optional, hr, ho, ht⟩
    · intro h
      obtain ⟨required, optional, hr, ho, ht⟩ := h
      exact ⟨required, _, hr, ⟨optional, ho, rfl⟩, ht⟩
  | false => simp [fragments_ok_iff, EntryTexts]

theorem sections_ok_iff {o : Options} {gs : List Group} {text : String} :
    (sections o gs).result = .ok text ↔ ∃ texts, List.Forall₂ (SectionText o) gs texts ∧ text = String.join texts := by
  induction gs generalizing text with
  | nil =>
    simp only [List.forall₂_nil_left_iff, exists_eq_left]
    exact ⟨fun h => (Except.ok.inj h).symm, fun h => h ▸ rfl⟩
  | cons g rest ih =>
    rw [sections_ok_cons]
    simp only [moduleSection_ok_iff, ih]
    constructor
    · intro h
      obtain ⟨first, _, hg, ⟨texts, hrest, rfl⟩, rfl⟩ := h
      exact ⟨first :: texts, .cons hg hrest, by rw [String.join_cons]⟩
    · intro h
      obtain ⟨_, hall, rfl⟩ := h
      cases hall with
      | cons hg hrest => exact ⟨_, _, hg, ⟨_, hrest, rfl⟩, by rw [String.join_cons]⟩

/-! ## (4) Whole templates -/

/-- Groups in a row give their templates in a row, or the first failure. A template is the
    same, or fails alike, when every group is put in order and rid of the variables that
    leave no text, and however a group's required and optional variables alternate. It has
    one section for each group, in order, with the required entries before the optional. -/
theorem template_goes_group_by_group (o : Options) :
    (∀ gs hs, (document o (gs ++ hs)).result = (do
      let first ← (document o gs).result
      let more ← (document o hs).result
      pure (first ++ more))) ∧
    (∀ gs, (document o (gs.map (Group.tidy o))).result = (document o gs).result) ∧
    (∀ gs hs, List.Forall₂ Group.SameParts gs hs → (document o gs).result = (document o hs).result) ∧
    (∀ gs d, (document o gs).result = .ok d ↔
      ∃ texts, List.Forall₂ (SectionText o) gs texts ∧ d = String.join texts) := by
  simp only [document_result]
  refine ⟨sections_append o, sections_tidy o, fun gs hs same => ?_, fun gs d => sections_ok_iff⟩
  rw [sections_sameParts o same]

def shopKey : ModuleKey := ⟨"shop", "store", some "db", Eq.refl false, Eq.refl false, by decide⟩

/-- An optional variable in front of a required one, with one that leaves no text between them. -/
def debugFirst : Group :=
  ⟨shopKey, [⟨"debug", .scalar .boolean, false⟩, ⟨"lookup", .map .xml, true⟩, ⟨"port", .scalar .int, true⟩]⟩

def debugLast : Group :=
  ⟨shopKey, [⟨"lookup", .map .xml, true⟩, ⟨"port", .scalar .int, true⟩, ⟨"debug", .scalar .boolean, false⟩]⟩

theorem debug_first_or_last :
    List.Forall₂ Group.SameParts [debugFirst] [debugLast] ∧
    (document {} [debugFirst]).result = (document {} [debugLast]).result ∧
    (document {} [debugLast]).result =
      .ok "[shop.store.db]\nport = 12 # type: int\n# debug = true # type: boolean\n (optional)\n\n" := by
  have same : List.Forall₂ Group.SameParts [debugFirst] [debugLast] := .cons ⟨rfl, rfl, rfl⟩ .nil
  exact ⟨same, (template_goes_group_by_group {}).2.2.1 _ _ same, rfl⟩

end Template

end ConfigTemplate
