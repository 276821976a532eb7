/-
  ConfigTemplate.Proofs.Merge — the groups of a manifest are the stable merge of its
  entries.

  (1) `ModuleEntry.Names`, `ModuleEntry.Nameless`: which module an entry means, and what
      is wrong with one that means none.
  (2) `keyedEntries?_ok`, `keyedEntries?_error`: the modules of all entries, or the first
      entry that means none.
  (3) `groups_ok`, `declarations_merged`: the groups, and that nothing is lost in them.
  (4) `groups_are_the_stable_merge`: one group for each module, in the order of their
      first entries, with the variables of all its entries in order; or the problem of
      the first entry that means no module.
-/
import ConfigTemplate.Manifest.Load
import ConfigTemplate.Proofs.First
import ConfigTemplate.Proofs.Grouping
import ConfigTemplate.Proofs.Keys
import ConfigTemplate.Proofs.Results
import Mathlib.Data.List.Forall2

namespace ConfigTemplate.Manifest

/-! ## (1) The module of an entry -/

/-- The entry means the module of the key. A package's root module is meant by leaving
    the module out, or by giving the package's own name. -/
def ModuleEntry.Names (e : ModuleEntry) (key : ModuleKey) : Prop :=
  e.org = key.org ∧ e.package = key.package ∧ e.module.getD e.package = key.module

instance (e : ModuleEntry) (key : ModuleKey) : Decidable (e.Names key) :=
  inferInstanceAs (Decidable (_ ∧ _ ∧ _))

/-- What is wrong with an entry that means no module: the organization counts before the
    package, and the package before the module. -/
inductive ModuleEntry.Nameless (e : ModuleEntry) : KeyProblem → Prop
  | org : Text.allBlank e.org = true → Nameless e .blankOrg
  | package : Text.allBlank e.org = false → Text.allBlank e.package = true → Nameless e .blankPackage
  | module (m : String) : Text.allBlank e.org = false → Text.allBlank e.package = false → e.module = some m →
      Text.allBlank m = true → Nameless e .blankModule

theorem ModuleEntry.key?_ok (e : ModuleEntry) (key : ModuleKey) : e.key? = .ok key ↔ e.Names key := ModuleKey.of?_ok

theorem ModuleEntry.key?_error (e : ModuleEntry) (p : KeyProblem) : e.key? = .error p ↔ e.Nameless p := by
  rw [key?, ModuleKey.of?_error]
  constructor
  · rintro (⟨ho, rfl⟩ | ⟨ho, hp, rfl⟩ | ⟨ho, hp, m, hm, hb, rfl⟩)
    · exact .org ho
    · exact .package ho hp
    · exact .module m ho hp hm hb
  · intro h
    cases h with
    | org ho => exact Or.inl ⟨ho, rfl⟩
    | package ho hp => exact Or.inr (Or.inl ⟨ho, hp, rfl⟩)
    | module m ho hp hm hb => exact Or.inr (Or.inr ⟨ho, hp, m, hm, hb, rfl⟩)

/-! ## (2) The modules of all entries -/

/-- The variables that an entry declares for a module. -/
def ModuleEntry.keyed (e : ModuleEntry) (key : ModuleKey) : ModuleKey × List Variable :=
  (key, e.members.map (·.variable))

theorem keyedEntries?_ok {es : List ModuleEntry} {entries : List (ModuleKey × List Variable)} :
    keyedEntries? es = .ok entries ↔
      ∃ keys, List.Forall₂ ModuleEntry.Names es keys ∧ entries = List.zipWith ModuleEntry.keyed es keys := by
  induction es generalizing entries with
  | nil => simp [keyedEntries?, eq_comm]
  | cons e rest ih =>
    simp only [keyedEntries?, ModuleEntry.keyed?, Except.bind_eq_ok, Except.map_eq_ok, ModuleEntry.key?_ok, ih,
      Except.pure_eq, Except.ok.injEq]
    constructor
    · rintro ⟨_, ⟨key, hkey, rfl⟩, _, ⟨keys, hkeys, rfl⟩, rfl⟩
      exact ⟨key :: keys, .cons hkey hkeys, rfl⟩
    · rintro ⟨keys, hkeys, rfl⟩
      cases hkeys with
      | cons hkey hkeys => exact ⟨_, ⟨_, hkey, rfl⟩, _, ⟨_, hkeys, rfl⟩, rfl⟩

theorem keyedEntries?_error {es : List ModuleEntry} {p : KeyProblem} :
    keyedEntries? es = .error p ↔ FirstOf (fun e => ¬ ∃ key, e.Names key) (·.Nameless p) es := by
  induction es with
  | nil => simp [keyedEntries?, firstOf_nil]
  | cons e rest ih =>
    simp only [keyedEntries?, ModuleEntry.keyed?, Except.bind_eq_error, Except.map_eq_error, Except.map_eq_ok,
      ModuleEntry.key?_error, ModuleEntry.key?_ok, firstOf_cons, ih, not_not]
    simp

theorem map_fst_keyed {es : List ModuleEntry} {keys : List ModuleKey} (h : List.Forall₂ ModuleEntry.Names es keys) :
    (List.zipWith ModuleEntry.keyed es keys).map (·.1) = keys := by
  induction h with
  | nil => rfl
  | cons _ _ ih => simp [ModuleEntry.keyed, ih]

/-! ## (3) The groups of a manifest -/

/-- What the entries declare, in order, each for the module that it means. -/
def entryDeclarations (es : List ModuleEntry) (keys : List ModuleKey) : List (ModuleKey × Variable) :=
  (List.zipWith ModuleEntry.keyed es keys).flatMap fun e => e.2.map fun v => (e.1, v)

/-- The variables of all entries that mean the module, in order. -/
def membersOf (m : Manifest) (key : ModuleKey) : List Variable :=
  (m.modules.filter (·.Names key)).flatMap fun e => e.members.map (·.variable)

theorem ModuleEntry.Names.unique {e : ModuleEntry} {a b : ModuleKey} (ha : e.Names a) (hb : e.Names b) : a = b :=
  ModuleKey.eq_of_names (ha.1.symm.trans hb.1) (ha.2.1.symm.trans hb.2.1) (ha.2.2.symm.trans hb.2.2)

theorem declared_entryDeclarations {es : List ModuleEntry} {keys : List ModuleKey}
    (h : List.Forall₂ ModuleEntry.Names es keys) (key : ModuleKey) :
    Group.declared (entryDeclarations es keys) key = membersOf ⟨es⟩ key := by
  induction h with
  | nil => rfl
  | @cons e k es keys hk _ ih =>
    have hcons : entryDeclarations (e :: es) (k :: keys) =
        (e.members.map fun v => (k, v.variable)) ++ entryDeclarations es keys := by
      simp [entryDeclarations, ModuleEntry.keyed, Function.comp_def]
    rw [hcons, Group.declared_append, ih]
    by_cases he : k = key
    · subst he
      simp [Group.declared, membersOf, hk, List.filter_map, Function.comp_def]
    · have hno : ¬ e.Names key := fun h => he (hk.unique h)
      simp [Group.declared, membersOf, hno, he, List.filter_map, Function.comp_def]

theorem key_mem_of_entryDeclarations {es : List ModuleEntry} {keys : List ModuleKey}
    (h : List.Forall₂ ModuleEntry.Names es keys) : ∀ d ∈ entryDeclarations es keys, d.1 ∈ keys := by
  intro d hd
  obtain ⟨entry, hentry, hv⟩ := List.mem_flatMap.mp hd
  obtain ⟨v, -, rfl⟩ := List.mem_map.mp hv
  exact map_fst_keyed h ▸ List.mem_map_of_mem hentry

/-- The merge of the entries, whose modules are `keys`. -/
def merged (m : Manifest) (keys : List ModuleKey) : List Group := keys.eraseDups.map fun key => ⟨key, m.membersOf key⟩

theorem groups_ok {m : Manifest} {gs : List Group} :
    m.groups = .ok gs ↔ ∃ keys, List.Forall₂ ModuleEntry.Names m.modules keys ∧ gs = m.merged keys := by
  have hmerged : ∀ keys, List.Forall₂ ModuleEntry.Names m.modules keys →
      Group.arrange keys.eraseDups (Group.collect (entryDeclarations m.modules keys)) = m.merged keys := by
    intro keys hkeys
    have hgroups : ((Group.stable (entryDeclarations m.modules keys)).map (·.key)).Nodup :=
      Group.keys_stable _ ▸ Group.nodup_eraseDups _
    rw [Group.collect_eq, Group.arrange_eq (Group.nodup_eraseDups keys) hgroups]
    refine List.map_congr_left fun key _ => ?_
    rw [Group.groupOf_stable, declared_entryDeclarations hkeys]
  simp only [groups, Except.map_eq_ok, keyedEntries?_ok]
  constructor
  · rintro ⟨_, ⟨keys, hkeys, rfl⟩, rfl⟩
    rw [map_fst_keyed hkeys]
    exact ⟨keys, hkeys, hmerged keys hkeys⟩
  · rintro ⟨keys, hkeys, rfl⟩
    refine ⟨_, ⟨keys, hkeys, rfl⟩, ?_⟩
    rw [map_fst_keyed hkeys]
    exact hmerged keys hkeys

/-- No variable is lost, added or moved to another module. -/
theorem declarations_merged {m : Manifest} {keys : List ModuleKey}
    (h : List.Forall₂ ModuleEntry.Names m.modules keys) :
    (Group.declarations (m.merged keys)).Perm (entryDeclarations m.modules keys) := by
  have hall : (entryDeclarations m.modules keys).filter (·.1 ∈ keys.eraseDups) = entryDeclarations m.modules keys :=
    List.filter_eq_self.mpr fun d hd => by simpa using key_mem_of_entryDeclarations h d hd
  have hsorted := Group.flatMap_filter_perm (Group.nodup_eraseDups keys) (entryDeclarations m.modules keys)
  rw [hall, ← Group.declarations_map] at hsorted
  simpa only [merged, declared_entryDeclarations h] using hsorted

theorem length_entryDeclarations {es : List ModuleEntry} {keys : List ModuleKey}
    (h : List.Forall₂ ModuleEntry.Names es keys) :
    (entryDeclarations es keys).length = (es.flatMap (·.members)).length := by
  induction h with
  | nil => rfl
  | cons _ _ ih => simpa [entryDeclarations, ModuleEntry.keyed] using ih

/-! ## (4) The stable merge -/

/-- A manifest is refused for its first entry that means no module. Otherwise each module
    that has an entry has one group, in the order of the first entries, with the variables
    of all its entries in order. -/
theorem groups_are_the_stable_merge (m : Manifest) :
    (∀ f, m.grouped = .error f ↔
      ∃ p, FirstOf (fun e => ¬ ∃ key, e.Names key) (·.Nameless p) m.modules ∧ f = .manifest (.key p)) ∧
    (∀ gs, m.grouped = .ok gs ↔
      ∃ keys, List.Forall₂ ModuleEntry.Names m.modules keys ∧
        gs = keys.eraseDups.map (fun key => ⟨key, m.membersOf key⟩) ∧
        (gs.map (·.key)).Nodup ∧
        (Group.declarations gs).Perm (entryDeclarations m.modules keys) ∧
        (gs.flatMap (·.members)).length = (m.modules.flatMap (·.members)).length) := by
  refine ⟨fun f => ?_, fun gs => ?_⟩
  · simp only [grouped, groups, Except.mapError_eq_error, Except.map_eq_error, keyedEntries?_error,
      @eq_comm _ f]
  · rw [grouped, Except.mapError_eq_ok, groups_ok]
    refine exists_congr fun keys => and_congr_right fun hkeys => ⟨?_, fun h => h.1⟩
    rintro rfl
    have hperm := declarations_merged hkeys
    refine ⟨rfl, ?_, hperm, ?_⟩
    · have hkey : (m.merged keys).map (·.key) = keys.eraseDups := by simp [merged, Function.comp_def]
      exact hkey ▸ Group.nodup_eraseDups keys
    · rw [← length_entryDeclarations hkeys, ← hperm.length_eq]
      simp [Group.declarations, List.length_flatMap]

end ConfigTemplate.Manifest
