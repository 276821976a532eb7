/-
  ConfigTemplate.Manifest — manifests: the modules of a package and their variables, as
  handed over by whoever resolved them.

  (1) `Manifest`: module entries in order; several entries may name the same module.
  (2) `Manifest.groups`: one group for each module, in the order in which the modules
      first appear, with the variables of all its entries in order. The first entry
      without a proper name is refused.
  (3) `Manifest.ofGroups`: the manifest that hands over some groups.
  (4) `Manifest.json`: the compact written form; a module's name is left out when the
      entry has none.
-/
import ConfigTemplate.Group
import ConfigTemplate.Manifest.TypeExpr

namespace ConfigTemplate

/-! ## (1) Manifests -/

namespace Manifest

structure VariableEntry where
  name : String
  type : TypeExpr
  required : Bool
  deriving DecidableEq

structure ModuleEntry where
  org : String
  package : String
  /-- None, or the package's own name, for the package's root module. -/
  module : Option String
  members : List VariableEntry
  deriving DecidableEq

end Manifest

structure Manifest where
  modules : List Manifest.ModuleEntry
  deriving DecidableEq

namespace Manifest

/-! ## (2) Groups -/

def VariableEntry.variable (e : VariableEntry) : Variable := ⟨e.name, e.type.type, e.required⟩

def ModuleEntry.key? (e : ModuleEntry) : Except KeyProblem ModuleKey := ModuleKey.of? e.org e.package e.module

def ModuleEntry.keyed? (e : ModuleEntry) : Except KeyProblem (ModuleKey × List Variable) :=
  e.key?.map fun key => (key, e.members.map (·.variable))

/-- Every entry with its key, or the problem of the first that has none. -/
def keyedEntries? : List ModuleEntry → Except KeyProblem (List (ModuleKey × List Variable))
  | [] => .ok []
  | e :: rest => do
    let head ← e.keyed?
    let more ← keyedEntries? rest
    pure (head :: more)

/-- The variables of the entries are collected by module; then every module that has an
    entry gets its group, also one without variables. -/
def groups (m : Manifest) : Except KeyProblem (List Group) :=
  (keyedEntries? m.modules).map fun entries =>
    Group.arrange (entries.map (·.1)).eraseDups (Group.collect (entries.flatMap fun e => e.2.map fun v => (e.1, v)))

/-! ## (3) Handing over groups -/

def VariableEntry.ofVariable (v : Variable) : VariableEntry := ⟨v.name, .ofType v.type, v.required⟩

def ModuleEntry.ofGroup (g : Group) : ModuleEntry :=
  ⟨g.key.org, g.key.package, g.key.sub, g.members.map .ofVariable⟩

def ofGroups (gs : List Group) : Manifest := ⟨gs.map .ofGroup⟩

/-! ## (4) The written form -/

open Json (Plain)

def VariableEntry.plain (e : VariableEntry) : Plain :=
  .table [("name", .text e.name), ("type", e.type.plain), ("required", .bool e.required)]

def ModuleEntry.plain (e : ModuleEntry) : Plain :=
  let module := match e.module with
    | none => []
    | some m => [("module", Plain.text m)]
  .table ([("org", .text e.org), ("package", .text e.package)] ++ module ++
    [("variables", .list (e.members.map (·.plain)))])

def plain (m : Manifest) : Plain := .table [("modules", .list (m.modules.map (·.plain)))]

def json (m : Manifest) : String := m.plain.compact

end Manifest

end ConfigTemplate
