/-
  ConfigTemplate.Proofs.Shape — which types have which shape.

  (1) `Ty.Shows`: the record whose fields a type shows, its own or that of its rows.
      `Ty.OpensTable`, `Ty.Inline`: a type that takes a table of its own, and one that
      takes a line.
  (2) `shape?_core`: constraints do not count. `shape?_error`: the kinds without a
      shape. `shape?_fields`, `shape?_map`, `Inline.shape?`: the shapes of the types
      of (1). `Shows.unique`: a type shows one record at most. `inline_of_shape?`: no other
      type has a shape on one line.
-/
import ConfigTemplate.Template.Shape

namespace ConfigTemplate.Ty

/-! ## (1) Types by their form -/

/-- A template of `t` shows the fields of a record: its own, or those of its rows. -/
inductive Shows (t : Ty) (fields : Fields) : Prop
  | record : t.core = .record fields → t.Shows fields
  | array (element : Ty) : t.core = .array element → element.core = .record fields → t.Shows fields
  | table (row : Ty) : t.core = .table row → row.core = .record fields → t.Shows fields

/-- A template of `t` is a table with a header of its own. -/
inductive OpensTable (t : Ty) : Prop
  | map (value : Ty) (s : Scalar) : t.core = .map value → value.core = .scalar s → t.OpensTable
  | fields (fields : Fields) : t.Shows fields → t.OpensTable

/-- A template of `t` is one entry on one line. -/
inductive Inline (t : Ty) : Prop
  | scalar (s : Scalar) : t.core = .scalar s → t.Inline
  | xml : t.core = .xml → t.Inline
  | json : t.core = .json → t.Inline
  | array (element : Ty) (s : Scalar) : t.core = .array element → element.core = .scalar s → t.Inline

/-! ## (2) Shapes -/

theorem shape?_core (t : Ty) : t.core.shape? = t.shape? := apply_core (fun _ => by rw [shape?]) t

/-- The kinds that have no shape: unrecognised ones, and tables of anything but records. -/
theorem shape?_error {t : Ty} {kind : String} :
    t.shape? = .error kind ↔ t.core = .other kind ∨
      ∃ row, t.core = .table row ∧ (∀ fields, row.core ≠ .record fields) ∧
        kind = "table<" ++ row.core.kindName ++ ">" := by
  rw [← shape?_core]
  cases h : t.core with
  | constrained base => exact absurd h (core_not_constrained t base)
  | table row => cases hr : row.core <;> simp [shape?, tableShape?, hr, eq_comm]
  | _ => simp [shape?, eq_comm]

/-- The shapes with the fields of a record are those of the types that show one. -/
theorem shape?_fields {t : Ty} {fields : Fields} :
    (t.shape? = .ok (.record fields) ∨ t.shape? = .ok (.rows fields)) ↔ t.Shows fields := by
  rw [← shape?_core]
  constructor
  · intro h
    cases hc : t.core with
    | constrained base => exact absurd hc (core_not_constrained t base)
    | record own =>
      simp only [hc, shape?, Except.ok.injEq, Shape.record.injEq, reduceCtorEq, or_false] at h
      exact .record (h ▸ hc)
    | array element =>
      cases he : element.core <;> simp [hc, he, shape?, arrayShape] at h
      exact .array element hc (h ▸ he)
    | table row =>
      cases hr : row.core <;> simp [hc, hr, shape?, tableShape?] at h
      exact .table row hc (h ▸ hr)
    | map value => cases hv : value.core <;> simp [hc, hv, shape?, mapShape] at h
    | _ => simp [hc, shape?] at h
  · intro h
    cases h with
    | record h => simp [h, shape?]
    | array element h he => simp [h, he, shape?, arrayShape]
    | table row h hr => simp [h, hr, shape?, tableShape?]

theorem shows_of_shape? {t : Ty} {shape : Shape} {fields : Fields} (h : t.shape? = .ok shape)
    (hfields : shape = .record fields ∨ shape = .rows fields) : t.Shows fields := by
  rw [← shape?_fields, h]
  simpa using hfields

/-- A type shows one record at most. -/
theorem Shows.unique {t : Ty} {fields other : Fields} (h : t.Shows fields) (h' : t.Shows other) : fields = other := by
  rcases shape?_fields.mpr h with hs | hs
  · simpa [hs] using shape?_fields.mpr h'
  · simpa [hs] using shape?_fields.mpr h'

theorem shape?_map {t : Ty} {s : Scalar} :
    t.shape? = .ok (.map s) ↔ ∃ value, t.core = .map value ∧ value.core = .scalar s := by
  rw [← shape?_core]
  constructor
  · intro h
    cases hc : t.core with
    | constrained base => exact absurd hc (core_not_constrained t base)
    | map value => cases hv : value.core <;> simp [hc, hv, shape?, mapShape] at h ⊢; exact h
    | array element => cases he : element.core <;> simp [hc, he, shape?, arrayShape] at h
    | table row => cases hr : row.core <;> simp [hc, hr, shape?, tableShape?] at h
    | _ => simp [hc, shape?] at h
  · intro h
    obtain ⟨value, h, hv⟩ := h
    simp [h, hv, shape?, mapShape]

theorem Inline.shape? {t : Ty} (h : t.Inline) :
    (∃ s, t.shape? = .ok (.scalar s)) ∨ (∃ d, t.shape? = .ok (.document d)) ∨ ∃ s, t.shape? = .ok (.array s) := by
  rw [← shape?_core]
  cases h with
  | scalar s h => exact Or.inl ⟨s, by rw [h]; rfl⟩
  | xml h => exact Or.inr (Or.inl ⟨.xml, by rw [h]; rfl⟩)
  | json h => exact Or.inr (Or.inl ⟨.json, by rw [h]; rfl⟩)
  | array element s h he => exact Or.inr (Or.inr ⟨s, by simp [h, he, Ty.shape?, arrayShape]⟩)

/-- A type with a shape on one line takes one line. -/
theorem inline_of_shape? {t : Ty} {shape : Shape} (h : t.shape? = .ok shape)
    (hline : (∃ s, shape = .scalar s) ∨ (∃ d, shape = .document d) ∨ ∃ s, shape = .array s) : t.Inline := by
  rw [← shape?_core] at h
  cases hc : t.core with
  | constrained base => exact absurd hc (core_not_constrained t base)
  | scalar s => exact .scalar s hc
  | xml => exact .xml hc
  | json => exact .json hc
  | array element =>
    cases he : element.core with
    | scalar s => exact .array element s hc he
    | _ =>
      have hshape : shape = element.core.arrayShape := by simpa [hc, Ty.shape?, eq_comm] using h
      simp [hshape, he, arrayShape] at hline
  | map value =>
    have hshape : shape = value.core.mapShape := by simpa [hc, Ty.shape?, eq_comm] using h
    cases hv : value.core <;> simp [hshape, hv, mapShape] at hline
  | record fields =>
    have hshape : shape = .record fields := by simpa [hc, Ty.shape?, eq_comm] using h
    simp [hshape] at hline
  | table row =>
    cases hr : row.core with
    | record fields =>
      have hshape : shape = .rows fields := by simpa [hc, hr, Ty.shape?, tableShape?, eq_comm] using h
      simp [hshape] at hline
    | _ => simp [hc, hr, Ty.shape?, tableShape?] at h
  | other kind => simp [hc, Ty.shape?] at h

end ConfigTemplate.Ty
