/-
  ConfigTemplate.Proofs.Handover — groups that are handed over as a manifest arrive as
  they were.

  (1) `TypeExpr.kind`, `TypeExpr.kindName`: a type expression means a type of the same
      name. `type_bijective`: every type has just one expression.
  (2) `names_ofGroup`, `groups_ofGroups`: the entry of a group means the group's module
      and no other, so groups of different modules are found again one by one.
  (3) `handed_over_groups_come_back`: any groups of different modules, and so the groups
      of any manifest.
-/
import ConfigTemplate.Proofs.Merge
import Mathlib.Logic.Function.Iterate

namespace ConfigTemplate.Manifest

/-! ## (1) Type expressions and types -/

namespace TypeExpr

def kind : TypeExpr → Kind
  | boolean => .boolean
  | byte => .byte
  | int => .int
  | float => .float
  | decimal => .decimal
  | string => .string
  | xml => .xml
  | json => .json
  | array _ => .array
  | map _ => .map
  | record _ => .record
  | table _ => .table
  | constrained _ => .constrained
  | other _ => .other

/-- The name of the kind; a kind that is not recognised is kept under its own name. -/
def kindName : TypeExpr → String
  | other name => name
  | e => e.kind.name

theorem kindName_type (e : TypeExpr) : e.type.kindName = e.kindName := by
  cases e <;> rfl

theorem typeFields_eq (fields : List (String × TypeExpr)) :
    typeFields fields = fields.map fun f => (f.1, f.2.type) := by
  induction fields with
  | nil => rfl
  | cons f rest ih => rw [typeFields, ih, List.map_cons]

theorem type_bijective : Function.Bijective type :=
  ⟨fun _ _ h => type_inj.mp h, fun t => ⟨ofType t, type_ofType t⟩⟩

/-- So many constraints around an expression are so many around its type. -/
theorem type_constrained (n : Nat) (e : TypeExpr) : (constrained^[n] e).type = Ty.constrain n e.type := by
  induction n with
  | zero => rfl
  | succ n ih => rw [Function.iterate_succ_apply', type, ih, Ty.constrain]

end TypeExpr

/-! ## (2) The groups of handed-over groups -/

theorem variable_ofVariable (v : Variable) : (VariableEntry.ofVariable v).variable = v := by
  rw [VariableEntry.ofVariable, VariableEntry.variable, TypeExpr.type_ofType]

theorem names_ofGroup (g : Group) : (ModuleEntry.ofGroup g).Names g.key := ⟨rfl, rfl, rfl⟩

theorem names_ofGroup_iff (g : Group) (key : ModuleKey) : (ModuleEntry.ofGroup g).Names key ↔ g.key = key := by
  constructor
  · intro h
    exact (names_ofGroup g).unique h
  · rintro rfl
    exact names_ofGroup g

theorem eraseDups_eq_self {keys : List ModuleKey} (h : keys.Nodup) : keys.eraseDups = keys := by
  induction keys with
  | nil => rfl
  | cons key rest ih =>
    obtain ⟨hkey, hrest⟩ := List.nodup_cons.mp h
    have hkept : rest.filter (fun k => !k == key) = rest := by
      refine List.filter_eq_self.mpr fun k hk => ?_
      have hne : k ≠ key := fun he => hkey (he ▸ hk)
      simpa using hne
    rw [List.eraseDups_cons, hkept, ih hrest]

/-- Of groups of different modules, only one is of a given module. -/
theorem filter_key {gs : List Group} (h : (gs.map (·.key)).Nodup) {g : Group} (hg : g ∈ gs) :
    gs.filter (·.key = g.key) = [g] := by
  induction gs with
  | nil => cases hg
  | cons head rest ih =>
    obtain ⟨hhead, hrest⟩ := List.nodup_cons.mp h
    rcases List.mem_cons.mp hg with rfl | hg
    · have hnone : rest.filter (·.key = g.key) = [] := by
        refine List.filter_eq_nil_iff.mpr fun g' hg' hkey => ?_
        exact hhead (List.mem_map.mpr ⟨g', hg', of_decide_eq_true hkey⟩)
      rw [List.filter_cons_of_pos (by simp), hnone]
    · have hne : head.key ≠ g.key := fun he => hhead (List.mem_map.mpr ⟨g, hg, he.symm⟩)
      rw [List.filter_cons_of_neg (by simpa using hne), ih hrest hg]

theorem membersOf_ofGroups {gs : List Group} (h : (gs.map (·.key)).Nodup) {g : Group} (hg : g ∈ gs) :
    (ofGroups gs).membersOf g.key = g.members := by
  have hentries : (gs.map ModuleEntry.ofGroup).filter (·.Names g.key) = [ModuleEntry.ofGroup g] := by
    have hnames : ((fun e : ModuleEntry => decide (e.Names g.key)) ∘ ModuleEntry.ofGroup) =
        fun g' => decide (g'.key = g.key) := by
      funext g'
      exact decide_eq_decide.mpr (names_ofGroup_iff g' g.key)
    rw [List.filter_map, hnames, filter_key h hg, List.map_singleton]
  have hvariables : (ModuleEntry.ofGroup g).members.map (·.variable) = g.members := by
    have hback : VariableEntry.variable ∘ VariableEntry.ofVariable = id := funext variable_ofVariable
    rw [ModuleEntry.ofGroup, List.map_map, hback, List.map_id]
  rw [membersOf, ofGroups, hentries, List.flatMap_singleton, hvariables]

theorem groups_ofGroups {gs : List Group} (h : (gs.map (·.key)).Nodup) : (ofGroups gs).groups = .ok gs := by
  have hnames : List.Forall₂ ModuleEntry.Names (ofGroups gs).modules (gs.map (·.key)) := by
    rw [ofGroups, List.forall₂_map_left_iff, List.forall₂_map_right_iff, List.forall₂_same]
    exact fun g _ => names_ofGroup g
  refine groups_ok.mpr ⟨gs.map (·.key), hnames, ?_⟩
  have hown : gs.map (fun g => (⟨g.key, (ofGroups gs).membersOf g.key⟩ : Group)) = gs.map id :=
    List.map_congr_left fun g hg => by rw [membersOf_ofGroups h hg, id]
  rw [merged, eraseDups_eq_self h, List.map_map]
  exact (hown.trans (List.map_id gs)).symm

/-- The groups of a manifest are of different modules. -/
theorem nodup_keys_of_grouped {m : Manifest} {gs : List Group} (h : m.grouped = .ok gs) : (gs.map (·.key)).Nodup := by
  rw [grouped, Except.mapError_eq_ok, groups_ok] at h
  obtain ⟨keys, -, rfl⟩ := h
  have hkeys : (m.merged keys).map (·.key) = keys.eraseDups := by simp [merged, Function.comp_def]
  exact hkeys ▸ Group.nodup_eraseDups keys

/-! ## (3) Handing over -/

/-- Groups of different modules come back from the manifest that hands them over, with all
    their variables. The groups of a manifest are of different modules, so handing them over
    again changes nothing. A module's name is given just for the modules that are not a
    root module, and the types are those of the expressions, under the same names. -/
theorem handed_over_groups_come_back :
    (∀ gs : List Group, (gs.map (·.key)).Nodup → (ofGroups gs).grouped = .ok gs) ∧
    (∀ (m : Manifest) (gs : List Group), m.grouped = .ok gs → (ofGroups gs).grouped = .ok gs) ∧
    (∀ g : Group, (ModuleEntry.ofGroup g).key? = .ok g.key ∧
      (ModuleEntry.ofGroup g).module = if g.key.isRoot then none else some g.key.module) ∧
    Function.Bijective TypeExpr.type ∧
    (∀ e : TypeExpr, e.type.kindName = e.kindName) ∧
    (∀ fields, (TypeExpr.record fields).type = .record (fields.map fun f => (f.1, f.2.type))) ∧
    (∀ n e, (TypeExpr.constrained^[n] e).type = Ty.constrain n e.type) := by
  have hback : ∀ gs : List Group, (gs.map (·.key)).Nodup → (ofGroups gs).grouped = .ok gs := fun gs h => by
    rw [grouped, groups_ofGroups h]
    rfl
  refine ⟨hback, fun m gs h => hback gs (nodup_keys_of_grouped h), fun g => ⟨?_, ?_⟩, TypeExpr.type_bijective,
    TypeExpr.kindName_type, fun fields => ?_, TypeExpr.type_constrained⟩
  · exact ((ModuleEntry.ofGroup g).key?_ok g.key).mpr (names_ofGroup g)
  · obtain ⟨key, members⟩ := g
    cases hsub : key.sub with
    | none => simp [ModuleEntry.ofGroup, ModuleKey.isRoot, hsub]
    | some m => simp [ModuleEntry.ofGroup, ModuleKey.isRoot, ModuleKey.module, hsub]
  · rw [TypeExpr.type, TypeExpr.typeFields_eq]

/-- Entries of one module with a module of its own between them, and one without variables. -/
def scattered : Manifest := ⟨[
  ⟨"acme", "shop", none, [⟨"rows", .table (.constrained (.record [("id", .int), ("tag", .other "union")])), true⟩]⟩,
  ⟨"acme", "shop", some "db", []⟩,
  ⟨"acme", "shop", some "shop", [⟨"debug", .boolean, false⟩]⟩]⟩

def gathered : List Group := [
  ⟨⟨"acme", "shop", none, Eq.refl false, Eq.refl false, ModuleKey.sub_named_none _⟩, [
    ⟨"rows", .table (.constrained (.record [("id", .scalar .int), ("tag", .other "union")])), true⟩,
    ⟨"debug", .scalar .boolean, false⟩]⟩,
  ⟨⟨"acme", "shop", some "db", Eq.refl false, Eq.refl false, by decide⟩, []⟩]

theorem scattered_entries_come_back :
    (gathered.map (·.key)).Nodup ∧ scattered.grouped = .ok gathered ∧ (ofGroups gathered).grouped = .ok gathered := by
  have hgroups : scattered.grouped = .ok gathered := by rfl
  exact ⟨by decide, hgroups, handed_over_groups_come_back.2.1 scattered gathered hgroups⟩

end ConfigTemplate.Manifest
