/-
  ConfigTemplate.Group — configurable variables and the modules that declare them.

  (1) `Variable`, `Group`: a group keeps its module's variables in order.
  (2) `Group.required`, `Group.optional`: the two parts of a group, each in order.
  (3) `Group.merge`, `Group.collect`: the groups of a list of declarations, in the
      order in which their modules first appear.
  (4) `Group.arrange`: the groups in the order of a list of modules, each taken out of
      those that are left; a module without a group gets an empty one.
-/
import ConfigTemplate.Ty
import ConfigTemplate.ModuleKey

namespace ConfigTemplate

structure Variable where
  name : String
  type : Ty
  required : Bool
  deriving DecidableEq

structure Group where
  key : ModuleKey
  members : List Variable
  deriving DecidableEq

namespace Group

/-! ## (2) Required and optional variables -/

def required (g : Group) : List Variable := g.members.filter (·.required)

def optional (g : Group) : List Variable := g.members.filter (!·.required)

/-! ## (3) Grouping declarations -/

/-- More variables of a module: at the end of its group, or in a new last group. -/
def merge (key : ModuleKey) (vs : List Variable) : List Group → List Group
  | [] => [⟨key, vs⟩]
  | g :: rest => if g.key = key then ⟨g.key, g.members ++ vs⟩ :: rest else g :: merge key vs rest

def collect (declarations : List (ModuleKey × Variable)) : List Group :=
  declarations.foldl (fun groups d => merge d.1 [d.2] groups) []

/-- The declarations of a list of groups, in order. -/
def declarations (groups : List Group) : List (ModuleKey × Variable) :=
  groups.flatMap fun g => g.members.map fun v => (g.key, v)

/-! ## (4) Groups in a given order -/

/-- The groups but one; the last group comes in its place. -/
def takeOut (i : Nat) (groups : List Group) : List Group :=
  match groups.getLast? with
  | none => []
  | some last => (groups.set i last).dropLast

def arrange : List ModuleKey → List Group → List Group
  | [], _ => []
  | key :: rest, groups =>
    match groups.findFinIdx? (·.key = key) with
    | none => ⟨key, []⟩ :: arrange rest groups
    | some i => groups[i] :: arrange rest (takeOut i groups)

end Group

end ConfigTemplate
