/-
  ConfigTemplate.Ty — the static type of a configurable variable.

  (1) `Scalar`: the six leaf kinds, each with one name.
  (2) `Ty`: scalars, the two document kinds, arrays, maps, records with ordered fields,
      tables, constrained types and kinds that are not recognised.
  (3) `Ty.core`: the type below every constraint; `core_not_constrained` says that no
      constraint is left, and `core_eq_self` that nothing else changes. `apply_core`:
      what a constraint does not change is the same for a type and its core.
  (4) `Ty.same_iff`: the structural comparison decides equality.
-/

namespace ConfigTemplate

/-! ## (1) Scalars -/

inductive Scalar where
  | boolean
  | byte
  | int
  | float
  | decimal
  | string
  deriving DecidableEq, Repr

def Scalar.name : Scalar → String
  | .boolean => "boolean"
  | .byte => "byte"
  | .int => "int"
  | .float => "float"
  | .decimal => "decimal"
  | .string => "string"

/-! ## (2) Types -/

inductive Ty where
  | scalar (s : Scalar)
  | xml
  | json
  | array (element : Ty)
  | map (value : Ty)
  | record (fields : List (String × Ty))
  | table (row : Ty)
  | constrained (base : Ty)
  | other (kind : String)
  deriving Repr, Inhabited

namespace Ty

/-- The name of the outermost constructor; an unrecognised kind names itself. -/
def kindName : Ty → String
  | scalar s => s.name
  | xml => "xml"
  | json => "json"
  | array _ => "array"
  | map _ => "map"
  | record _ => "record"
  | table _ => "table"
  | constrained _ => "constrained"
  | other kind => kind

/-! ## (3) Below the constraints -/

/-- The type below every constraint at the top. -/
def core : Ty → Ty
  | constrained base => base.core
  | t => t

/-- How many constraints stand at the top. -/
def constraints : Ty → Nat
  | constrained base => base.constraints + 1
  | _ => 0

/-- The type under `n` more constraints. -/
def constrain : Nat → Ty → Ty
  | 0, t => t
  | n + 1, t => constrained (constrain n t)

theorem core_not_constrained : (t base : Ty) → t.core ≠ constrained base
  | constrained b, base => core_not_constrained b base
  | scalar _, _ | xml, _ | json, _ | array _, _ | map _, _ | record _, _ | table _, _ | other _, _ => nofun

theorem core_eq_self {t : Ty} (h : ∀ base, t ≠ constrained base) : t.core = t := by
  cases t with
  | constrained base => exact absurd rfl (h base)
  | _ => rfl

/-- A type is its core, in as many constraints as it has. -/
theorem constrain_core (t : Ty) : constrain t.constraints t.core = t := by
  induction t using core.induct with
  | case1 base ih => simp [constraints, core, constrain, ih]
  | case2 t h =>
    cases t with
    | constrained base => exact absurd rfl (h base)
    | _ => rfl

theorem apply_core {α : Type} {f : Ty → α} (h : ∀ base, f (constrained base) = f base) (t : Ty) : f t.core = f t := by
  have hconstrain : ∀ n, f (constrain n t.core) = f t.core := by
    intro n
    induction n with
    | zero => rfl
    | succ n ih => rw [constrain, h, ih]
  rw [← hconstrain t.constraints, constrain_core]

/-! ## (4) Equality -/

mutual

def same : Ty → Ty → Bool
  | scalar a, scalar b => a == b
  | xml, xml => true
  | json, json => true
  | array a, array b => same a b
  | map a, map b => same a b
  | record a, record b => sameFields a b
  | table a, table b => same a b
  | constrained a, constrained b => same a b
  | other a, other b => a == b
  | _, _ => false

def sameFields : List (String × Ty) → List (String × Ty) → Bool
  | [], [] => true
  | (n, t) :: rest, (m, u) :: more => n == m && same t u && sameFields rest more
  | _, _ => false

end

mutual

theorem same_iff : (a b : Ty) → (same a b = true ↔ a = b)
  | scalar a, b => by cases b <;> simp [same]
  | xml, b => by cases b <;> simp [same]
  | json, b => by cases b <;> simp [same]
  | array a, b => by
    cases b with
    | array b => simp [same, same_iff a b]
    | _ => simp [same]
  | map a, b => by
    cases b with
    | map b => simp [same, same_iff a b]
    | _ => simp [same]
  | record a, b => by
    cases b with
    | record b => simp [same, sameFields_iff a b]
    | _ => simp [same]
  | table a, b => by
    cases b with
    | table b => simp [same, same_iff a b]
    | _ => simp [same]
  | constrained a, b => by
    cases b with
    | constrained b => simp [same, same_iff a b]
    | _ => simp [same]
  | other a, b => by cases b <;> simp [same]

theorem sameFields_iff : (a b : List (String × Ty)) → (sameFields a b = true ↔ a = b)
  | [], b => by cases b <;> simp [sameFields]
  | (n, t) :: rest, b => by
    cases b with
    | nil => simp [sameFields]
    | cons head more =>
      obtain ⟨m, u⟩ := head
      simp [sameFields, same_iff t u, sameFields_iff rest more, and_assoc]

end

instance : DecidableEq Ty := fun a b => decidable_of_iff _ (same_iff a b)

end Ty

end ConfigTemplate
