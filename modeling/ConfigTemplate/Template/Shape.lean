/-
  ConfigTemplate.Template.Shape — what a type looks like in a template.

  (1) `Shape`: one form for each rule; two kinds of types have no form.
  (2) `Ty.shape?`: the shape of a type, whatever constraints stand around it or its
      part. A kind that is not recognised has none, nor has a table whose rows are no
      records; either is named.
-/
import ConfigTemplate.Ty

namespace ConfigTemplate

/-! ## (1) Shapes -/

/-- Documents embedded in a value. -/
inductive Document where
  | xml
  | json
  deriving DecidableEq, Repr

def Document.name : Document → String
  | .xml => "xml"
  | .json => "json"

/-- Why a recognised type has no form in a template. -/
inductive Formless where
  | arrayElement
  | mapValue
  deriving DecidableEq, Repr

def Formless.reason : Formless → String
  | .arrayElement => "array element has no inline representation"
  | .mapValue => "map value is not a scalar"

abbrev Fields := List (String × Ty)

inductive Shape where
  | scalar (s : Scalar)
  | document (d : Document)
  | array (element : Scalar)
  | map (value : Scalar)
  | record (fields : Fields)
  /-- Any number of records of one type. -/
  | rows (fields : Fields)
  | none (why : Formless)
  deriving DecidableEq

/-! ## (2) The shape of a type -/

namespace Ty

def arrayShape : Ty → Shape
  | record fields => .rows fields
  | scalar s => .array s
  | _ => .none .arrayElement

def mapShape : Ty → Shape
  | scalar s => .map s
  | _ => .none .mapValue

def tableShape? : Ty → Except String Shape
  | record fields => .ok (.rows fields)
  | row => .error ("table<" ++ row.kindName ++ ">")

/-- The shape, or the name of the kind that is not supported. -/
def shape? : Ty → Except String Shape
  | constrained base => base.shape?
  | scalar s => .ok (.scalar s)
  | xml => .ok (.document .xml)
  | json => .ok (.document .json)
  | array element => .ok element.core.arrayShape
  | map value => .ok value.core.mapShape
  | record fields => .ok (.record fields)
  | table row => row.core.tableShape?
  | other kind => .error kind

end Ty

end ConfigTemplate
