/-
  ConfigTemplate.Proofs.Constraints — a template shows no constraint, and it shows a
  table of records as an array of them.

  (1) `Ty.plain`: a type with no constraint left anywhere in it. `plain_core`: taking
      the constraints at the top away first or last makes no difference.
  (2) `Ty.form`: the plain type, with an array in place of a table of records. Two
      groups are alike (`Group.Alike`) when only the forms of their types must agree.
  (3) `shape?_plain`, `fieldLines_plain`: the shape of the plain type, and its lines;
      reports included.
  (4) `fragment_alike`, `moduleSection_alike`, `document_alike`: alike groups have the
      same template, the same failure and the same events.
-/
import ConfigTemplate.Template
import Mathlib.Data.List.Forall2

namespace ConfigTemplate

/-! ## (1) Plain types -/

namespace Ty

mutual

/-- The type without the constraints in it. -/
def plain : Ty → Ty
  | scalar s => scalar s
  | xml => xml
  | json => json
  | array element => array element.plain
  | map value => map value.plain
  | record fields => record (plainFields fields)
  | table row => table row.plain
  | constrained base => base.plain
  | other kind => other kind

def plainFields : List (String × Ty) → List (String × Ty)
  | [] => []
  | (field, t) :: rest => (field, t.plain) :: plainFields rest

end

theorem plain_core (t : Ty) : t.plain.core = t.core.plain := by
  have hplain : t.core.plain = t.plain := apply_core (fun _ => by rw [plain]) t
  rw [← hplain]
  cases h : t.core with
  | constrained base => exact absurd h (core_not_constrained t base)
  | _ => simp [plain, core]

/-! ## (2) Types and groups that look alike -/

/-- An array of records in place of a table of them. -/
def tableAsArray : Ty → Ty
  | table (record fields) => array (record fields)
  | t => t

/-- All that a template can tell of a type. -/
def form (t : Ty) : Ty := t.plain.tableAsArray

end Ty

structure Variable.Alike (v w : Variable) : Prop where
  name : v.name = w.name
  required : v.required = w.required
  form : v.type.form = w.type.form

structure Group.Alike (g h : Group) : Prop where
  key : g.key = h.key
  members : List.Forall₂ Variable.Alike g.members h.members

theorem Group.Alike.requiredAlike {g h : Group} (a : g.Alike h) : List.Forall₂ Variable.Alike g.required h.required :=
  List.rel_filter (fun _ _ e => by simp [e.required]) a.members

theorem Group.Alike.optionalAlike {g h : Group} (a : g.Alike h) : List.Forall₂ Variable.Alike g.optional h.optional :=
  List.rel_filter (fun _ _ e => by simp [e.required]) a.members

/-! ## (3) Shapes and fields -/

/-- The shape with the fields' types plain. -/
def Shape.plain : Shape → Shape
  | .record fields => .record (Ty.plainFields fields)
  | .rows fields => .rows (Ty.plainFields fields)
  | shape => shape

namespace Ty

theorem arrayShape_plain (t : Ty) : t.plain.core.arrayShape = t.core.arrayShape.plain := by
  rw [plain_core]
  cases h : t.core with
  | constrained base => exact absurd h (core_not_constrained t base)
  | _ => rfl

theorem mapShape_plain (t : Ty) : t.plain.core.mapShape = t.core.mapShape.plain := by
  rw [plain_core]
  cases h : t.core with
  | constrained base => exact absurd h (core_not_constrained t base)
  | _ => rfl

theorem tableShape?_plain (t : Ty) : t.plain.core.tableShape? = t.core.tableShape?.map Shape.plain := by
  rw [plain_core]
  cases h : t.core with
  | constrained base => exact absurd h (core_not_constrained t base)
  | _ => rfl

theorem shape?_plain (t : Ty) : t.plain.shape? = t.shape?.map Shape.plain := by
  induction t using core.induct with
  | case1 base ih => simpa [plain, shape?] using ih
  | case2 t h =>
    cases t with
    | constrained base => exact absurd rfl (h base)
    | array element => simp [plain, shape?, arrayShape_plain, Except.map]
    | map value => simp [plain, shape?, mapShape_plain, Except.map]
    | table row => simp [plain, shape?, tableShape?_plain]
    | _ => rfl

theorem shape?_tableAsArray (t : Ty) : t.tableAsArray.shape? = t.shape? := by
  unfold tableAsArray
  split
  · rfl
  · rfl

theorem shape?_form (t : Ty) : t.form.shape? = t.shape?.map Shape.plain := by
  rw [form, shape?_tableAsArray, shape?_plain]

end Ty

namespace Template

theorem fieldLine_plain (owner field : String) (t : Ty) :
    fieldLine owner field t.plain.core = fieldLine owner field t.core := by
  rw [Ty.plain_core]
  cases h : t.core with
  | constrained base => exact absurd h (Ty.core_not_constrained t base)
  | _ => rfl

theorem fieldLines_plain (owner : String) (fields : Fields) :
    fieldLines owner (Ty.plainFields fields) = fieldLines owner fields := by
  induction fields with
  | nil => rfl
  | cons f rest ih => simp [Ty.plainFields, fieldLines, fieldLine_plain, ih]

theorem ofShape_plain (key : ModuleKey) (name : String) (shape : Shape) :
    ofShape key name shape.plain = ofShape key name shape := by
  cases shape <;> simp [Shape.plain, ofShape, fieldLines_plain]

/-! ## (4) Templates -/

/-- A fragment depends on the form of the type only. -/
theorem fragment_form (key : ModuleKey) (v : Variable) :
    fragment key v = fragment key { v with type := v.type.form } := by
  simp only [fragment, Ty.shape?_form]
  cases v.type.shape? with
  | error kind => rfl
  | ok shape => simp [Except.map, ofShape_plain]

theorem fragment_alike (key : ModuleKey) {v w : Variable} (h : v.Alike w) : fragment key v = fragment key w := by
  rw [fragment_form key v, fragment_form key w]
  simp only [fragment, h.name, h.form]

theorem fragments_alike (key : ModuleKey) {vs ws : List Variable} (h : List.Forall₂ Variable.Alike vs ws) :
    fragments key vs = fragments key ws := by
  induction h with
  | nil => rfl
  | cons hv _ ih => simp only [fragments, fragment_alike key hv, ih]

theorem moduleSection_alike (o : Options) {g h : Group} (a : g.Alike h) : moduleSection o g = moduleSection o h := by
  have hr := fragments_alike h.key a.requiredAlike
  have ho := fragments_alike h.key a.optionalAlike
  simp only [moduleSection, optionalFragments, a.key, hr, ho, a.requiredAlike.length_eq]

theorem sections_alike (o : Options) {gs hs : List Group} (h : List.Forall₂ Group.Alike gs hs) :
    sections o gs = sections o hs := by
  induction h with
  | nil => rfl
  | cons hg _ ih => simp only [sections, moduleSection_alike o hg, ih]

/-- Alike groups have the same template, or the same failure, and the same events. -/
theorem document_alike (o : Options) (gs hs : List Group) (h : List.Forall₂ Group.Alike gs hs) :
    document o gs = document o hs := by
  simp only [document, sections_alike o h, h.length_eq]

/-- A constrained table of constrained records, with a field that is passed over. -/
def wrappedRows : Group :=
  ⟨⟨"shop", "store", none, Eq.refl false, Eq.refl false, ModuleKey.sub_named_none _⟩,
    [⟨"rows", .constrained (.table (.constrained (.record
      [("id", .constrained (.scalar .int)), ("tags", .constrained (.array (.constrained (.scalar .string))))]))), true⟩]⟩

def plainRows : Group :=
  ⟨⟨"shop", "store", none, Eq.refl false, Eq.refl false, ModuleKey.sub_named_none _⟩,
    [⟨"rows", .array (.record [("id", .scalar .int), ("tags", .array (.scalar .string))]), true⟩]⟩

theorem wrapped_rows_alike : wrappedRows.Alike plainRows := ⟨rfl, .cons ⟨rfl, rfl, rfl⟩ .nil⟩

theorem wrapped_rows_same_template :
    List.Forall₂ Group.Alike [wrappedRows] [plainRows] ∧ document {} [wrappedRows] = document {} [plainRows] :=
  ⟨.cons wrapped_rows_alike .nil, document_alike {} [wrappedRows] [plainRows] (.cons wrapped_rows_alike .nil)⟩

end Template

end ConfigTemplate
