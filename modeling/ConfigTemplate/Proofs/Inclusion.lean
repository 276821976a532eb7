/-
  ConfigTemplate.Proofs.Inclusion — what the settings have to do with the failure of a
  template.

  (1) `shown_without`: without optional entries a template shows the required variables
      of what it shows with them. `firstFatal_filter`: the first fatal variable stays the
      first when it is kept.
  (2) `inclusion_decides_failure`: the style never counts. Two settings give different
      verdicts exactly when one shows the optional variables and the other does not, some
      optional variable is of a fatal type and no required one is. Where a required
      variable is the first fatal one of all, every setting fails for it.
  (3) `settings_decide_failure`: so a template may fail under one setting and not under
      another.
-/
import ConfigTemplate.Proofs.Refusal
import Mathlib.Data.List.Basic

namespace ConfigTemplate.Template

/-! ## (1) With and without optional variables -/

theorem shown_without {o o' : Options} (h : o.includeOptional = true) (h' : o'.includeOptional = false)
    (gs : List Group) : gs.flatMap (shown o') = (gs.flatMap (shown o)).filter (·.required) := by
  rw [List.filter_flatMap]
  refine List.flatMap_congr fun g _ => ?_
  simp [shown, h, h', Group.required, Group.optional]

theorem shown_congr {o o' : Options} (h : o.includeOptional = o'.includeOptional) : shown o = shown o' := by
  funext g
  simp only [shown, h]

theorem firstFatal_filter {before after : List Variable} {v : Variable} {u : Unsupported} (kept : Variable → Bool)
    (hb : ∀ w ∈ before, ¬ w.type.Fatal) (hv : kept v = true) (hu : Blame v.name v.type u) :
    FirstFatal ((before ++ v :: after).filter kept) u := by
  rw [List.filter_append, List.filter_cons_of_pos hv]
  exact ⟨before.filter kept, v, after.filter kept, rfl, fun w hw => hb w (List.mem_filter.mp hw).1, hu⟩

/-! ## (2) What the settings decide -/

/-- Some group has a variable of a fatal type among the required ones, or the optional. -/
def SomeFatal (part : Group → List Variable) (gs : List Group) : Prop := ∃ g ∈ gs, ∃ v ∈ part g, v.type.Fatal

theorem exists_document_error (o : Options) (gs : List Group) :
    (∃ u, (document o gs).result = .error u) ↔
      SomeFatal Group.required gs ∨ (o.includeOptional = true ∧ SomeFatal Group.optional gs) := by
  simp only [document_error, exists_firstFatal, List.mem_flatMap, SomeFatal]
  have hshown : ∀ g v, v ∈ shown o g ↔ v ∈ g.required ∨ (o.includeOptional = true ∧ v ∈ g.optional) := by
    intro g v
    unfold shown
    cases o.includeOptional with
    | true => simp
    | false => simp
  constructor
  · intro h
    obtain ⟨v, ⟨g, hg, hv⟩, hf⟩ := h
    rcases (hshown g v).mp hv with hv | ⟨ho, hv⟩
    · exact Or.inl ⟨g, hg, v, hv, hf⟩
    · exact Or.inr ⟨ho, g, hg, v, hv, hf⟩
  · intro h
    rcases h with ⟨g, hg, v, hv, hf⟩ | ⟨ho, g, hg, v, hv, hf⟩
    · exact ⟨v, ⟨g, hg, (hshown g v).mpr (Or.inl hv)⟩, hf⟩
    · exact ⟨v, ⟨g, hg, (hshown g v).mpr (Or.inr ⟨ho, hv⟩)⟩, hf⟩

/-- The first variable of a fatal type among all variables of the groups, the required
    ones of a group before its optional ones, is a required one, and to blame for `u`. -/
def RequiredFails (gs : List Group) (u : Unsupported) : Prop :=
  ∃ before v after, gs.flatMap (fun g => g.required ++ g.optional) = before ++ v :: after ∧
    (∀ w ∈ before, ¬ w.type.Fatal) ∧ v.required = true ∧ Blame v.name v.type u

theorem RequiredFails.document_error {gs : List Group} {u : Unsupported} (h : RequiredFails gs u) (o : Options) :
    (document o gs).result = .error u := by
  obtain ⟨before, v, after, hall, hb, hv, hu⟩ := h
  have hwith : ∀ o' : Options, o'.includeOptional = true → gs.flatMap (shown o') = before ++ v :: after := by
    intro o' ho'
    rw [← hall]
    refine List.flatMap_congr fun g _ => ?_
    simp [shown, ho']
  rw [Template.document_error]
  cases ho : o.includeOptional with
  | true => exact ⟨before, v, after, hwith o ho, hb, hu⟩
  | false =>
    rw [shown_without (show ({} : Options).includeOptional = true from rfl) ho, hwith _ rfl]
    exact firstFatal_filter _ hb hv hu

/-- Of the settings, only whether optional entries are written has to do with failure. It
    makes a difference exactly when an optional variable is of a fatal type and no required
    one is; and none at all when a required variable is the first fatal one. -/
theorem inclusion_decides_failure (gs : List Group) :
    (∀ style style' included u,
      (document ⟨style, included⟩ gs).result = .error u ↔ (document ⟨style', included⟩ gs).result = .error u) ∧
    (∀ o o' : Options,
      ¬ ((∃ u, (document o gs).result = .error u) ↔ ∃ u, (document o' gs).result = .error u) ↔
        o.includeOptional ≠ o'.includeOptional ∧ SomeFatal Group.optional gs ∧ ¬ SomeFatal Group.required gs) ∧
    (∀ u, RequiredFails gs u → ∀ o, (document o gs).result = .error u) := by
  refine ⟨fun style style' included u => ?_, fun o o' => ?_, fun u h o => h.document_error o⟩
  · have hshown : shown ⟨style, included⟩ = shown ⟨style', included⟩ := shown_congr rfl
    rw [document_error, document_error, hshown]
  · rw [exists_document_error, exists_document_error]
    by_cases hr : SomeFatal Group.required gs
    · simp [hr]
    · by_cases ho : SomeFatal Group.optional gs
      · cases o.includeOptional <;> cases o'.includeOptional <;> simp [hr, ho]
      · simp [hr, ho]

def storeKey : ModuleKey := ⟨"acme", "store", none, Eq.refl false, Eq.refl false, ModuleKey.sub_named_none _⟩

/-- A required record with a field of an unrecognised kind, and an optional variable of one. -/
def brokenRecord : Group :=
  ⟨storeKey, [⟨"hook", .other "function", false⟩, ⟨"pool", .record [("size", .other "range")], true⟩]⟩

theorem broken_record_fails_always :
    RequiredFails [brokenRecord] ⟨"pool.size", "range"⟩ ∧
    ∀ o, (document o [brokenRecord]).result = .error ⟨"pool.size", "range"⟩ := by
  have h : RequiredFails [brokenRecord] ⟨"pool.size", "range"⟩ :=
    ⟨[], _, [_], rfl, by simp, rfl, .field _ "size" "range" (.record rfl) ⟨[], _, [], rfl, rfl, by simp⟩⟩
  exact ⟨h, (inclusion_decides_failure [brokenRecord]).2.2 _ h⟩

/-! ## (3) Settings that let a bad type pass -/

/-- One optional variable, of an unrecognised kind. -/
def optionalHook : Group := ⟨storeKey, [⟨"hook", .other "function", false⟩]⟩

/-- A template may fail under one setting and not under another. -/
theorem settings_decide_failure :
    ¬ ∀ (gs : List Group) (o o' : Options) (u : Unsupported),
        (document o gs).result = .error u ↔ (document o' gs).result = .error u := by
  intro h
  have hfails : (document ⟨.inherited, true⟩ [optionalHook]).result = .error ⟨"hook", "function"⟩ := rfl
  have hpasses : (document ⟨.inherited, false⟩ [optionalHook]).result = .ok "[acme.store]\n\n" := rfl
  have hfails' := (h [optionalHook] ⟨.inherited, true⟩ ⟨.inherited, false⟩ ⟨"hook", "function"⟩).mp hfails
  rw [hpasses] at hfails'
  cases hfails'

end ConfigTemplate.Template
