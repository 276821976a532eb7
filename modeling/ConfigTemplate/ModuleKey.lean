/-
  ConfigTemplate.ModuleKey — the name of a module: its organization, its package, and
  the module within the package unless it is the package's root module.

  (1) `ModuleKey`: no part is blank, and a module is never stored under its package's
      own name, so that each module has one key.
  (2) `root?`, `named?`: the checked constructors; the first blank part is reported,
      the organization before the package before the module.
  (3) `canonical`, `qualify`: the dotted forms.
  (4) `ofDotted?`: reading a key of two or three dotted parts.
-/
import ConfigTemplate.Text.Blank
import ConfigTemplate.Text.Split

namespace ConfigTemplate

open Text (allBlank)

/-! ## (1) Keys -/

structure ModuleKey where
  org : String
  package : String
  /-- The module within the package; none for the root module. -/
  sub : Option String
  org_named : allBlank org = false
  package_named : allBlank package = false
  sub_named : ∀ m ∈ sub, allBlank m = false ∧ m ≠ package
  deriving DecidableEq

/-- The root module has no name that could be blank or its package's. -/
theorem ModuleKey.sub_named_none (package : String) :
    ∀ m ∈ (none : Option String), allBlank m = false ∧ m ≠ package := by
  simp

inductive KeyProblem where
  | blankOrg
  | blankPackage
  | blankModule
  | malformed (text : String)
  deriving DecidableEq, Repr

def KeyProblem.message : KeyProblem → String
  | .blankOrg => "Organization name cannot be empty"
  | .blankPackage => "Package name cannot be empty"
  | .blankModule => "Module name cannot be empty"
  | .malformed text => "Invalid module key '" ++ text ++ "'. Expected 'org.package' or 'org.package.module'"

namespace ModuleKey

/-! ## (2) Checked constructors -/

/-- The key of a package's root module. -/
def root? (org package : String) : Except KeyProblem ModuleKey :=
  if ho : allBlank org = true then .error .blankOrg
  else if hp : allBlank package = true then .error .blankPackage
  else .ok ⟨org, package, none, by simpa using ho, by simpa using hp, by simp⟩

/-- The key of a module of a package; the package's own name denotes its root module. -/
def named? (org package module : String) : Except KeyProblem ModuleKey :=
  if ho : allBlank org = true then .error .blankOrg
  else if hp : allBlank package = true then .error .blankPackage
  else if hm : allBlank module = true then .error .blankModule
  else if he : module = package then .ok ⟨org, package, none, by simpa using ho, by simpa using hp, by simp⟩
  else .ok ⟨org, package, some module, by simpa using ho, by simpa using hp, by
    intro m h
    obtain rfl : module = m := by simpa using h
    exact ⟨by simpa using hm, he⟩⟩

/-- The key with or without a module name. -/
def of? (org package : String) : Option String → Except KeyProblem ModuleKey
  | none => root? org package
  | some module => named? org package module

/-! ## (3) Dotted forms -/

def isRoot (k : ModuleKey) : Bool := k.sub.isNone

/-- The module's name; the root module is named after its package. -/
def module (k : ModuleKey) : String := k.sub.getD k.package

def canonical (k : ModuleKey) : String :=
  match k.sub with
  | none => k.org ++ "." ++ k.package
  | some m => k.org ++ "." ++ k.package ++ "." ++ m

/-- The dotted name of a variable of the module. -/
def qualify (k : ModuleKey) (name : String) : String := k.canonical ++ "." ++ name

/-! ## (4) Reading a dotted key -/

def ofDotted? (text : String) : Except KeyProblem ModuleKey :=
  match Text.splitText '.' text with
  | [org, package] => root? org package
  | [org, package, module] => named? org package module
  | _ => .error (.malformed text)

end ModuleKey

end ConfigTemplate
