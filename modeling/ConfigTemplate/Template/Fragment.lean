/-
  ConfigTemplate.Template.Fragment — the part of a template that shows one variable.

  (1) `Unsupported`: a variable or field of a kind that has no template; it ends the
      whole template.
  (2) `fieldLines`: the scalar fields of a record, in order. Other fields are passed
      over, each with a report.
  (3) `fragment`: the lines of a variable; the empty text for a type without a form,
      with a report.
-/
import ConfigTemplate.Template.Example
import ConfigTemplate.Group
import ConfigTemplate.Log.Traced

namespace ConfigTemplate

structure Unsupported where
  name : String
  kind : String
  deriving DecidableEq, Repr

namespace Template

open Log (Traced)

/-! ## (2) Records -/

/-- The lines of one field. -/
def fieldLine (owner field : String) : Ty → Traced Unsupported String
  | .scalar s => pure (scalarLine field s)
  | .other kind => .fail ⟨owner ++ "." ++ field, kind⟩
  | t => do
    .report (.fieldSkipped owner field t.kindName)
    pure ""

def fieldLines (owner : String) : Fields → Traced Unsupported String
  | [] => pure ""
  | (field, t) :: rest => do
    let line ← fieldLine owner field t.core
    let more ← fieldLines owner rest
    pure (line ++ more)

/-! ## (3) Variables -/

def ofShape (key : ModuleKey) (name : String) : Shape → Traced Unsupported String
  | .scalar s => pure (scalarLine name s)
  | .document d => pure (documentLine name d)
  | .array s => pure (arrayLine name s)
  | .map s => pure (mapLines (key.qualify name) s)
  | .record fields => do
    let lines ← fieldLines name fields
    pure ("[" ++ key.qualify name ++ "]\n" ++ lines)
  | .rows fields => do
    let lines ← fieldLines name fields
    pure ("[[" ++ key.qualify name ++ "]]\n" ++ lines)
  | .none why => do
    .report (.variableSkipped key name why.reason)
    pure ""

def fragment (key : ModuleKey) (v : Variable) : Traced Unsupported String :=
  match v.type.shape? with
  | .error kind => .fail ⟨v.name, kind⟩
  | .ok shape => ofShape key v.name shape

def fragments (key : ModuleKey) : List Variable → Traced Unsupported (List String)
  | [] => pure []
  | v :: rest => do
    let f ← fragment key v
    let more ← fragments key rest
    pure (f :: more)

end Template

end ConfigTemplate
