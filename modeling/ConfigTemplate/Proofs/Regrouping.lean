/-
  ConfigTemplate.Proofs.Regrouping — what the groups of a list of declarations are, and
  which lists have the same groups.

  (1) `members_ne_nil`, `declarations_collect_perm`: no group is empty, and the
      declarations of the groups are the given ones in another order.
  (2) `collect_block`: a module's declarations in a row become one group behind the
      others. `collect_declarations`: so groups of different modules come back from
      their declarations, if none is empty.
  (3) `collect_swap`: two declarations of modules that were both declared before can
      change places.
  (4) `collected_groups`: all of this together.
-/
import ConfigTemplate.Proofs.First
import ConfigTemplate.Proofs.Grouping

namespace ConfigTemplate.Group

/-! ## (1) What the groups hold -/

theorem members_ne_nil {ds : List (ModuleKey × Variable)} {g : Group} (h : g ∈ collect ds) : g.members ≠ [] := by
  rw [collect_eq] at h
  obtain ⟨key, hkey, rfl⟩ := List.mem_map.mp h
  obtain ⟨d, hd, hk⟩ := List.mem_map.mp (List.mem_eraseDups.mp hkey)
  have hmem : d.2 ∈ declared ds key := List.mem_map.mpr ⟨d, List.mem_filter.mpr ⟨hd, by simpa using hk⟩, rfl⟩
  exact List.ne_nil_of_mem hmem

/-- Nothing is lost or added. -/
theorem declarations_collect_perm (ds : List (ModuleKey × Variable)) : (declarations (collect ds)).Perm ds := by
  have hall : ds.filter (·.1 ∈ (ds.map (·.1)).eraseDups) = ds := by
    refine List.filter_eq_self.mpr fun d hd => ?_
    simpa using ⟨d.2, hd⟩
  have hsorted := flatMap_filter_perm (nodup_eraseDups (ds.map (·.1))) ds
  rw [hall] at hsorted
  rw [collect_eq, stable, declarations_map]
  exact hsorted

theorem nodup_keys_collect (ds : List (ModuleKey × Variable)) : ((collect ds).map (·.key)).Nodup := by
  rw [collect_eq, keys_stable]
  exact nodup_eraseDups _

/-! ## (2) Groups from their own declarations -/

theorem merge_absent {key : ModuleKey} {gs : List Group} (h : key ∉ gs.map (·.key)) (vs : List Variable) :
    merge key vs gs = gs ++ [⟨key, vs⟩] := by
  induction gs with
  | nil => rfl
  | cons g rest ih =>
    obtain ⟨hg, hrest⟩ : key ≠ g.key ∧ key ∉ rest.map (·.key) := by simpa using h
    rw [merge, if_neg hg.symm, ih hrest, List.cons_append]

theorem merge_last {key : ModuleKey} {gs : List Group} (h : key ∉ gs.map (·.key)) (vs ws : List Variable) :
    merge key ws (gs ++ [⟨key, vs⟩]) = gs ++ [⟨key, vs ++ ws⟩] := by
  induction gs with
  | nil => simp [merge]
  | cons g rest ih =>
    obtain ⟨hg, hrest⟩ : key ≠ g.key ∧ key ∉ rest.map (·.key) := by simpa using h
    rw [List.cons_append, merge, if_neg hg.symm, ih hrest, List.cons_append]

/-- The declarations that are left of a block go to the group that its first one made. -/
theorem foldl_merge_last {key : ModuleKey} {gs : List Group} (h : key ∉ gs.map (·.key)) (vs ws : List Variable) :
    (ws.map fun v => (key, v)).foldl (fun groups d => merge d.1 [d.2] groups) (gs ++ [⟨key, vs⟩]) =
      gs ++ [⟨key, vs ++ ws⟩] := by
  induction ws generalizing vs with
  | nil => simp
  | cons w ws ih =>
    rw [List.map_cons, List.foldl_cons, merge_last h, ih]
    simp

/-- A row of declarations of one more module becomes one more group. -/
theorem collect_block {ds : List (ModuleKey × Variable)} {g : Group} (hkey : g.key ∉ (collect ds).map (·.key))
    (hmembers : g.members ≠ []) : collect (ds ++ g.members.map fun v => (g.key, v)) = collect ds ++ [g] := by
  obtain ⟨v, vs, hvs⟩ := List.exists_cons_of_ne_nil hmembers
  have hfold : collect (ds ++ g.members.map fun v => (g.key, v)) =
      (g.members.map fun v => (g.key, v)).foldl (fun groups d => merge d.1 [d.2] groups) (collect ds) := by
    rw [collect, List.foldl_append]
    rfl
  rw [hfold, hvs, List.map_cons, List.foldl_cons, merge_absent hkey, foldl_merge_last hkey, List.singleton_append, ← hvs]

/-- Groups come back from their declarations if their modules differ and none is empty. -/
theorem collect_declarations {gs : List Group} (hkeys : (gs.map (·.key)).Nodup) (hmembers : ∀ g ∈ gs, g.members ≠ []) :
    collect (declarations gs) = gs := by
  -- by the last group: those before it come back first
  induction gs using List.reverseRecOn with
  | nil => rfl
  | append_singleton gs g ih =>
    rw [List.map_append, List.nodup_append] at hkeys
    obtain ⟨hgs, -, hdisjoint⟩ := hkeys
    have hback := ih hgs fun g' hg' => hmembers g' (List.mem_append_left _ hg')
    have hkey : g.key ∉ (collect (declarations gs)).map (·.key) := by
      rw [hback]
      intro hmem
      exact hdisjoint g.key hmem g.key (by simp) rfl
    have hsplit : declarations (gs ++ [g]) = declarations gs ++ g.members.map fun v => (g.key, v) := by
      simp [declarations]
    rw [hsplit, collect_block hkey (hmembers g (by simp)), hback]

/-! ## (3) Declarations that change places -/

theorem declared_swap {d e : ModuleKey × Variable} (h : d.1 ≠ e.1) (key : ModuleKey) :
    declared [d, e] key = declared [e, d] key := by
  by_cases hd : d.1 = key
  · have he : e.1 ≠ key := fun he => h (hd.trans he.symm)
    simp [declared, hd, he]
  · by_cases he : e.1 = key <;> simp [declared, hd, he]

/-- Declarations of known modules make no difference to the order of the modules. -/
theorem eraseDups_known {before known after : List ModuleKey} (h : ∀ key ∈ known, key ∈ before) :
    (before ++ (known ++ after)).eraseDups = (before ++ after).eraseDups := by
  have hnone : known.removeAll before = [] := by
    rw [List.removeAll, List.filter_eq_nil_iff]
    intro key hkey
    simpa using h key hkey
  rw [List.eraseDups_append, List.eraseDups_append, List.removeAll, List.filter_append, ← List.removeAll, hnone,
    List.nil_append, ← List.removeAll]

theorem collect_swap {before : List (ModuleKey × Variable)} {d e : ModuleKey × Variable} (h : d.1 ≠ e.1)
    (hd : d.1 ∈ before.map (·.1)) (he : e.1 ∈ before.map (·.1)) (after : List (ModuleKey × Variable)) :
    collect (before ++ d :: e :: after) = collect (before ++ e :: d :: after) := by
  have hkeys : ∀ a b : ModuleKey × Variable, a.1 ∈ before.map (·.1) → b.1 ∈ before.map (·.1) →
      ((before ++ a :: b :: after).map (·.1)).eraseDups = ((before ++ after).map (·.1)).eraseDups := by
    intro a b ha hb
    have hknown : ∀ key ∈ [a.1, b.1], key ∈ before.map (·.1) := by
      simpa only [List.forall_mem_cons, List.not_mem_nil, false_implies, implies_true, and_true] using ⟨ha, hb⟩
    rw [List.map_append, List.map_append]
    exact eraseDups_known hknown
  have hdeclared : ∀ key, declared (before ++ d :: e :: after) key = declared (before ++ e :: d :: after) key := by
    intro key
    have hde : before ++ d :: e :: after = before ++ ([d, e] ++ after) := rfl
    have hed : before ++ e :: d :: after = before ++ ([e, d] ++ after) := rfl
    rw [hde, hed, declared_append, declared_append, declared_append, declared_append, declared_swap h]
  rw [collect_eq, collect_eq, stable, stable, hkeys d e hd he, hkeys e d he hd]
  simp only [hdeclared]

/-! ## (4) The groups of a list of declarations -/

/-- The modules have one group each, in the order in which they are declared first, with their variables in the order
    of the declarations. So no group is empty, nothing is lost or added, collecting the declarations of the groups gives
    the groups again, and two declarations in a row can change places if their modules differ and were both declared
    before. -/
theorem collected_groups (ds : List (ModuleKey × Variable)) :
    collect ds = (ds.map (·.1)).eraseDups.map (fun key => ⟨key, (ds.filter (·.1 = key)).map (·.2)⟩) ∧
    ((collect ds).map (·.key)).Nodup ∧
    (∀ key, key ∈ (collect ds).map (·.key) ↔ key ∈ ds.map (·.1)) ∧
    ((collect ds).map (·.key)).Pairwise (fun a b => (ds.map (·.1)).idxOf a < (ds.map (·.1)).idxOf b) ∧
    (∀ g ∈ collect ds, g.members ≠ []) ∧
    (declarations (collect ds)).Perm ds ∧
    collect (declarations (collect ds)) = collect ds ∧
    (∀ before d e after, ds = before ++ d :: e :: after → d.1 ≠ e.1 → d.1 ∈ before.map (·.1) →
      e.1 ∈ before.map (·.1) → collect (before ++ e :: d :: after) = collect ds) := by
  have hkeys : (collect ds).map (·.key) = (ds.map (·.1)).eraseDups := by rw [collect_eq, keys_stable]
  refine ⟨collect_eq ds, nodup_keys_collect ds, ?_, ?_, fun g => members_ne_nil, declarations_collect_perm ds,
    collect_declarations (nodup_keys_collect ds) fun g => members_ne_nil, ?_⟩
  · intro key
    rw [hkeys, List.mem_eraseDups]
  · rw [hkeys]
    simpa using eraseDups_ordered (fun _ => true) (ds.map (·.1))
  · rintro before d e after rfl hne hd he
    exact (collect_swap hne hd he after).symm

def storeModule : ModuleKey := ⟨"shop", "store", some "stock", Eq.refl false, Eq.refl false, by decide⟩

def storeRoot : ModuleKey := ⟨"shop", "store", none, Eq.refl false, Eq.refl false, ModuleKey.sub_named_none _⟩

/-- A module is declared before its package's root module, and the declarations take turns after that. -/
def takingTurns : List (ModuleKey × Variable) := [
  (storeModule, ⟨"host", .scalar .string, true⟩), (storeRoot, ⟨"debug", .scalar .boolean, false⟩),
  (storeModule, ⟨"port", .scalar .int, true⟩), (storeRoot, ⟨"port", .scalar .int, true⟩)]

theorem last_two_change_places :
    collect takingTurns = [
      ⟨storeModule, [⟨"host", .scalar .string, true⟩, ⟨"port", .scalar .int, true⟩]⟩,
      ⟨storeRoot, [⟨"debug", .scalar .boolean, false⟩, ⟨"port", .scalar .int, true⟩]⟩] ∧
    collect (takingTurns.take 2 ++
        [(storeRoot, ⟨"port", .scalar .int, true⟩), (storeModule, ⟨"port", .scalar .int, true⟩)]) =
      collect takingTurns := by
  obtain ⟨-, -, -, -, -, -, -, hswap⟩ := collected_groups takingTurns
  exact ⟨by decide, hswap _ _ _ [] rfl (by decide) (by decide) (by decide)⟩

end ConfigTemplate.Group
