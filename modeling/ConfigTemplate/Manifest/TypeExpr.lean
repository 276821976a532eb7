/-
  ConfigTemplate.Manifest.TypeExpr — types as a manifest writes them.

  (1) `Kind`: the fourteen kinds, each with its name.
  (2) `TypeExpr`: a kind with its parts; one constructor for each kind.
  (3) `TypeExpr.type`, `TypeExpr.ofType`: the type that is meant, and how a type is
      written. `ofType_type` and `type_ofType` say that each undoes the other.
  (4) `TypeExpr.plain`: the written form, the kind first.
-/
import ConfigTemplate.Ty
import ConfigTemplate.Json.Write

namespace ConfigTemplate.Manifest

/-! ## (1) Kinds -/

inductive Kind where
  | boolean
  | byte
  | int
  | float
  | decimal
  | string
  | xml
  | json
  | array
  | map
  | record
  | table
  | constrained
  | other
  deriving DecidableEq, Repr

namespace Kind

def name : Kind → String
  | boolean => "boolean"
  | byte => "byte"
  | int => "int"
  | float => "float"
  | decimal => "decimal"
  | string => "string"
  | xml => "xml"
  | json => "json"
  | array => "array"
  | map => "map"
  | record => "record"
  | table => "table"
  | constrained => "constrained"
  | other => "other"

/-- In the order in which a kind may be given by its number. -/
def all : List Kind :=
  [boolean, byte, int, float, decimal, string, xml, json, array, map, record, table, constrained, other]

def ofName? (s : String) : Option Kind := all.find? (·.name == s)

end Kind

/-! ## (2) Type expressions -/

inductive TypeExpr where
  | boolean
  | byte
  | int
  | float
  | decimal
  | string
  | xml
  | json
  | array (element : TypeExpr)
  | map (value : TypeExpr)
  | record (fields : List (String × TypeExpr))
  | table (row : TypeExpr)
  | constrained (base : TypeExpr)
  | other (name : String)
  deriving Repr, Inhabited

namespace TypeExpr

/-! ## (3) Meaning -/

mutual

def type : TypeExpr → Ty
  | boolean => .scalar .boolean
  | byte => .scalar .byte
  | int => .scalar .int
  | float => .scalar .float
  | decimal => .scalar .decimal
  | string => .scalar .string
  | xml => .xml
  | json => .json
  | array element => .array element.type
  | map value => .map value.type
  | record fields => .record (typeFields fields)
  | table row => .table row.type
  | constrained base => .constrained base.type
  | other name => .other name

def typeFields : List (String × TypeExpr) → List (String × Ty)
  | [] => []
  | (name, e) :: rest => (name, e.type) :: typeFields rest

end

mutual

def ofType : Ty → TypeExpr
  | .scalar .boolean => boolean
  | .scalar .byte => byte
  | .scalar .int => int
  | .scalar .float => float
  | .scalar .decimal => decimal
  | .scalar .string => string
  | .xml => xml
  | .json => json
  | .array element => array (ofType element)
  | .map value => map (ofType value)
  | .record fields => record (ofFields fields)
  | .table row => table (ofType row)
  | .constrained base => constrained (ofType base)
  | .other name => other name

def ofFields : List (String × Ty) → List (String × TypeExpr)
  | [] => []
  | (name, t) :: rest => (name, ofType t) :: ofFields rest

end

mutual

theorem ofType_type : (e : TypeExpr) → ofType e.type = e
  | boolean | byte | int | float | decimal | string | xml | json | other _ => rfl
  | array e | map e | table e | constrained e => by simp [type, ofType, ofType_type e]
  | record fields => by simp [type, ofType, ofFields_typeFields fields]

theorem ofFields_typeFields : (fields : List (String × TypeExpr)) → ofFields (typeFields fields) = fields
  | [] => rfl
  | (name, e) :: rest => by simp [typeFields, ofFields, ofType_type e, ofFields_typeFields rest]

end

mutual

theorem type_ofType : (t : Ty) → (ofType t).type = t
  | .scalar s => by cases s <;> rfl
  | .xml | .json | .other _ => rfl
  | .array t | .map t | .table t | .constrained t => by simp [type, ofType, type_ofType t]
  | .record fields => by simp [type, ofType, typeFields_ofFields fields]

theorem typeFields_ofFields : (fields : List (String × Ty)) → typeFields (ofFields fields) = fields
  | [] => rfl
  | (name, t) :: rest => by simp [typeFields, ofFields, type_ofType t, typeFields_ofFields rest]

end

theorem type_inj {a b : TypeExpr} : a.type = b.type ↔ a = b :=
  ⟨fun h => by rw [← ofType_type a, h, ofType_type], fun h => h ▸ rfl⟩

instance : DecidableEq TypeExpr := fun _ _ => decidable_of_iff _ type_inj

/-! ## (4) The written form -/

open Json (Plain)

/-- A type of a kind without parts. -/
def plainKind (k : Kind) : Plain := .table [("kind", .text k.name)]

/-- A type of a kind with one part. -/
def plainWith (k : Kind) (label : String) (part : Plain) : Plain :=
  .table [("kind", .text k.name), (label, part)]

mutual

def plain : TypeExpr → Plain
  | boolean => plainKind .boolean
  | byte => plainKind .byte
  | int => plainKind .int
  | float => plainKind .float
  | decimal => plainKind .decimal
  | string => plainKind .string
  | xml => plainKind .xml
  | json => plainKind .json
  | array element => plainWith .array "element" element.plain
  | map value => plainWith .map "value" value.plain
  | record fields => plainWith .record "fields" (.list (plainFields fields))
  | table row => plainWith .table "constraint" row.plain
  | constrained base => plainWith .constrained "effective" base.plain
  | other name => plainWith .other "name" (.text name)

def plainFields : List (String × TypeExpr) → List Plain
  | [] => []
  | (name, e) :: rest => .table [("name", .text name), ("type", e.plain)] :: plainFields rest

end

end TypeExpr

end ConfigTemplate.Manifest
