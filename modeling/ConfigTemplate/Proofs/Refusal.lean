/-
  ConfigTemplate.Proofs.Refusal — which variables no template can show, and what is
  reported of them.

  (1) `Ty.Fatal`: a type is fatal by its kind, by the rows of a table, or by a field of
      the record it shows (`Ty.Shows`). Constraints do not count, nor does anything
      below an element, a value or a field.
  (2) `Blame`: what is reported of a variable of a fatal type. `fatal_iff_blame`: a
      type is fatal exactly when there is something to report.
  (3) `fieldLines_error`, `fragment_error`: a record fails at its first field of an
      unrecognised kind, a variable with what it is to blame for.
  (4) `fragments_error`, `moduleSection_error`, `sections_error`: a list fails at its
      first fatal variable (`FirstFatal`), in the order in which a template shows them
      (`shown`).
  (5) `document_fails_at_first_fatal`: so does the whole template.
-/
import ConfigTemplate.Proofs.First
import ConfigTemplate.Proofs.Shape
import ConfigTemplate.Proofs.Traced
import ConfigTemplate.Template

namespace ConfigTemplate

/-! ## (1) Fatal types -/

/-- No template can show a variable of the type. -/
inductive Ty.Fatal (t : Ty) : Prop
  | kind (kind : String) : t.core = .other kind → t.Fatal
  | table (row : Ty) : t.core = .table row → (∀ fields, row.core ≠ .record fields) → t.Fatal
  | field (fields : Fields) (f : String × Ty) (kind : String) :
      t.Shows fields → f ∈ fields → f.2.core = .other kind → t.Fatal

/-! ## (2) What is to blame -/

/-- The first field of an unrecognised kind is `field`, of the kind `kind`. -/
def FirstOther (fields : Fields) (field kind : String) : Prop :=
  ∃ before t after, fields = before ++ (field, t) :: after ∧ t.core = .other kind ∧
    ∀ f ∈ before, ∀ kind, f.2.core ≠ .other kind

/-- What is reported of the variable `name` of type `t`. -/
inductive Blame (name : String) (t : Ty) : Unsupported → Prop
  | kind (kind : String) : t.core = .other kind → Blame name t ⟨name, kind⟩
  | table (row : Ty) : t.core = .table row → (∀ fields, row.core ≠ .record fields) →
      Blame name t ⟨name, "table<" ++ row.core.kindName ++ ">"⟩
  | field (fields : Fields) (field kind : String) : t.Shows fields → FirstOther fields field kind →
      Blame name t ⟨name ++ "." ++ field, kind⟩

theorem firstOther_iff {fields : Fields} {field kind : String} :
    FirstOther fields field kind ↔
      FirstOf (fun f => ∃ k, f.2.core = .other k) (fun f => f.1 = field ∧ f.2.core = .other kind) fields := by
  simp only [FirstOther, FirstOf, not_exists]
  constructor
  · intro h
    obtain ⟨before, t, after, rfl, ht, hb⟩ := h
    exact ⟨before, (field, t), after, rfl, hb, rfl, ht⟩
  · intro h
    obtain ⟨before, f, after, rfl, hb, rfl, ht⟩ := h
    exact ⟨before, f.2, after, rfl, ht, hb⟩

theorem firstOther_cons (f : String × Ty) (rest : Fields) (field kind : String) :
    FirstOther (f :: rest) field kind ↔
      (f.1 = field ∧ f.2.core = .other kind) ∨ ((∀ k, f.2.core ≠ .other k) ∧ FirstOther rest field kind) := by
  simp only [firstOther_iff, firstOf_cons, not_exists, ne_eq]

theorem exists_firstOther {fields : Fields} {f : String × Ty} {kind : String} (hf : f ∈ fields)
    (hk : f.2.core = .other kind) : ∃ field kind, FirstOther fields field kind := by
  have hP : ∀ g : String × Ty, (∃ k, g.2.core = .other k) ↔
      ∃ u : String × String, g.1 = u.1 ∧ g.2.core = .other u.2 := fun g => by simp
  obtain ⟨u, h⟩ := (exists_firstOf hP fields).mpr ⟨f, hf, kind, hk⟩
  exact ⟨u.1, u.2, firstOther_iff.mpr h⟩

theorem fatal_iff_blame (name : String) (t : Ty) : t.Fatal ↔ ∃ u, Blame name t u := by
  constructor
  · intro h
    cases h with
    | kind kind h => exact ⟨_, .kind kind h⟩
    | table row h hr => exact ⟨_, .table row h hr⟩
    | field fields f kind hs hf hk =>
      obtain ⟨field, kind, h⟩ := exists_firstOther hf hk
      exact ⟨_, .field fields field kind hs h⟩
  · intro h
    obtain ⟨u, h⟩ := h
    cases h with
    | kind kind h => exact .kind kind h
    | table row h hr => exact .table row h hr
    | field fields field kind hs h =>
      obtain ⟨before, t, after, rfl, ht, -⟩ := h
      exact .field _ (field, t) kind hs (by simp) ht

/-- Blame goes to a type without a shape, or to a field of the record the type shows. -/
theorem blame_iff {name : String} {t : Ty} {u : Unsupported} :
    Blame name t u ↔ (∃ kind, t.shape? = .error kind ∧ u = ⟨name, kind⟩) ∨
      ∃ fields, t.Shows fields ∧ ∃ field kind, FirstOther fields field kind ∧ u = ⟨name ++ "." ++ field, kind⟩ := by
  constructor
  · intro h
    cases h with
    | kind kind h => exact Or.inl ⟨kind, Ty.shape?_error.mpr (Or.inl h), rfl⟩
    | table row h hr => exact Or.inl ⟨_, Ty.shape?_error.mpr (Or.inr ⟨row, h, hr, rfl⟩), rfl⟩
    | field fields field kind hs h => exact Or.inr ⟨fields, hs, field, kind, h, rfl⟩
  · intro h
    rcases h with ⟨kind, h, rfl⟩ | ⟨fields, hs, field, kind, h, rfl⟩
    · rcases Ty.shape?_error.mp h with hk | ⟨row, ht, hr, rfl⟩
      · exact .kind kind hk
      · exact .table row ht hr
    · exact .field fields field kind hs h

namespace Template

open Log (Traced)

/-! ## (3) One variable -/

theorem fieldLines_error {owner : String} {fields : Fields} {u : Unsupported} :
    (fieldLines owner fields).result = .error u ↔
      ∃ field kind, FirstOther fields field kind ∧ u = ⟨owner ++ "." ++ field, kind⟩ := by
  induction fields with
  | nil => simp [fieldLines, firstOther_iff, firstOf_nil]
  | cons f rest ih =>
    obtain ⟨field, t⟩ := f
    simp only [fieldLines, Traced.bind_error, ih, Traced.result_pure, firstOther_cons]
    cases h : t.core with
    | other kind =>
      constructor
      · intro h
        rcases h with h | ⟨line, h, -⟩
        · exact ⟨field, kind, Or.inl ⟨rfl, rfl⟩, by simpa [fieldLine, eq_comm] using h⟩
        · simp [fieldLine] at h
      · intro h
        obtain ⟨_, _, ⟨rfl, h⟩ | ⟨h, -⟩, rfl⟩ := h
        · exact Or.inl (by simpa [fieldLine] using h)
        · exact absurd rfl (h kind)
    | constrained base => exact absurd h (Ty.core_not_constrained t base)
    | _ => simp [fieldLine]

theorem ofShape_error {key : ModuleKey} {name : String} {shape : Shape} {u : Unsupported} :
    (ofShape key name shape).result = .error u ↔
      ∃ fields, (shape = .record fields ∨ shape = .rows fields) ∧ (fieldLines name fields).result = .error u := by
  cases shape <;> simp [ofShape]

theorem fragment_error (key : ModuleKey) (v : Variable) (u : Unsupported) :
    (fragment key v).result = .error u ↔ Blame v.name v.type u := by
  rw [blame_iff]
  simp only [← Ty.shape?_fields, ← fieldLines_error]
  unfold fragment
  cases h : v.type.shape? with
  | error kind => simp [eq_comm]
  | ok shape => simp [ofShape_error]

theorem fragment_succeeds (key : ModuleKey) (v : Variable) :
    (∃ text, (fragment key v).result = .ok text) ↔ ¬ v.type.Fatal := by
  rw [Traced.ok_iff_not_error, fatal_iff_blame v.name]
  simp [fragment_error]

/-! ## (4) Lists of variables and of groups -/

/-- The first variable of a fatal type is to blame for `u`. -/
def FirstFatal (vs : List Variable) (u : Unsupported) : Prop :=
  ∃ before v after, vs = before ++ v :: after ∧ (∀ w ∈ before, ¬ w.type.Fatal) ∧ Blame v.name v.type u

theorem firstFatal_nil (u : Unsupported) : ¬ FirstFatal [] u := firstOf_nil

theorem firstFatal_cons (v : Variable) (rest : List Variable) (u : Unsupported) :
    FirstFatal (v :: rest) u ↔ Blame v.name v.type u ∨ (¬ v.type.Fatal ∧ FirstFatal rest u) := firstOf_cons v rest

theorem firstFatal_append (vs ws : List Variable) (u : Unsupported) :
    FirstFatal (vs ++ ws) u ↔ FirstFatal vs u ∨ ((∀ v ∈ vs, ¬ v.type.Fatal) ∧ FirstFatal ws u) := firstOf_append vs ws

theorem exists_firstFatal (vs : List Variable) : (∃ u, FirstFatal vs u) ↔ ∃ v ∈ vs, v.type.Fatal :=
  exists_firstOf (fun v : Variable => fatal_iff_blame v.name v.type) vs

theorem no_firstFatal (vs : List Variable) : (∀ u, ¬ FirstFatal vs u) ↔ ∀ v ∈ vs, ¬ v.type.Fatal := by
  rw [← not_exists, exists_firstFatal]
  simp

theorem fragments_error (key : ModuleKey) (vs : List Variable) (u : Unsupported) :
    (fragments key vs).result = .error u ↔ FirstFatal vs u := by
  induction vs with
  | nil => simp [fragments, firstFatal_nil]
  | cons v rest ih =>
    rw [firstFatal_cons, ← fragment_succeeds key, ← fragment_error key, ← ih]
    simp [fragments]

theorem fragments_succeed (key : ModuleKey) (vs : List Variable) :
    (∃ texts, (fragments key vs).result = .ok texts) ↔ ∀ v ∈ vs, ¬ v.type.Fatal := by
  rw [Traced.ok_iff_not_error, ← no_firstFatal]
  simp only [ne_eq, fragments_error]

/-- The variables of a group that a template shows, in the order in which it does. -/
def shown (o : Options) (g : Group) : List Variable :=
  g.required ++ if o.includeOptional then g.optional else []

theorem mem_shown {o : Options} {g : Group} {v : Variable} :
    v ∈ shown o g ↔ v ∈ g.members ∧ (v.required = true ∨ o.includeOptional = true) := by
  unfold shown Group.required Group.optional
  cases o.includeOptional with
  | true => cases hv : v.required <;> simp [hv]
  | false => simp

theorem moduleSection_error (o : Options) (g : Group) (u : Unsupported) :
    (moduleSection o g).result = .error u ↔ FirstFatal (shown o g) u := by
  unfold shown moduleSection optionalFragments
  rw [firstFatal_append, ← fragments_succeed g.key, ← fragments_error g.key]
  cases o.includeOptional with
  | true => simp [fragments_error]
  | false => simp [firstFatal_nil]

theorem moduleSection_succeeds (o : Options) (g : Group) :
    (∃ text, (moduleSection o g).result = .ok text) ↔ ∀ v ∈ shown o g, ¬ v.type.Fatal := by
  rw [Traced.ok_iff_not_error, ← no_firstFatal]
  simp only [ne_eq, moduleSection_error]

theorem sections_error (o : Options) (gs : List Group) (u : Unsupported) :
    (sections o gs).result = .error u ↔ FirstFatal (gs.flatMap (shown o)) u := by
  induction gs with
  | nil => simp [sections, firstFatal_nil]
  | cons g rest ih =>
    rw [List.flatMap_cons, firstFatal_append, ← moduleSection_error, ← moduleSection_succeeds, ← ih]
    simp [sections]

theorem document_error (o : Options) (gs : List Group) (u : Unsupported) :
    (document o gs).result = .error u ↔ FirstFatal (gs.flatMap (shown o)) u := by
  simp [document, sections_error]

/-! ## (5) Templates -/

/-- A template fails exactly when some variable it shows is of a fatal type, and then
    with what is reported of the first one. -/
theorem document_fails_at_first_fatal (o : Options) (gs : List Group) :
    (∀ u, (document o gs).result = .error u ↔
        ∃ before v after, gs.flatMap (shown o) = before ++ v :: after ∧
          (∀ w ∈ before, ¬ w.type.Fatal) ∧ Blame v.name v.type u) ∧
      ((∃ u, (document o gs).result = .error u) ↔
        ∃ g ∈ gs, ∃ v ∈ g.members, (v.required = true ∨ o.includeOptional = true) ∧ v.type.Fatal) := by
  refine ⟨document_error o gs, ?_⟩
  simp only [document_error, exists_firstFatal, List.mem_flatMap, mem_shown]
  constructor
  · intro h
    obtain ⟨v, ⟨g, hg, hv, hs⟩, hf⟩ := h
    exact ⟨g, hg, v, hv, hs, hf⟩
  · intro h
    obtain ⟨g, hg, v, hv, hs, hf⟩ := h
    exact ⟨v, ⟨g, hg, hv, hs⟩, hf⟩

end Template

end ConfigTemplate
