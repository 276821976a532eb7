/-
  ConfigTemplate.Proofs.Grouping — the groups of a list of declarations, key by key.

  (1) `declared`, `stable`: the groups that a list of declarations should have.
      `collect_eq`: they are the ones that collecting finds one declaration at a time.
  (2) `takeOut_perm`, `arrange_eq`: taking groups out shuffles those that are left, but
      loses none; each module gets its own group.
  (3) `flatMap_filter_perm`: sorted by module, the declarations are the same.
-/
import ConfigTemplate.Group
import Mathlib.Data.List.Perm.Basic
import Mathlib.Data.List.Induction
import Mathlib.Data.List.Nodup

namespace ConfigTemplate

namespace Group

/-! ## (1) Collecting declarations -/

section

variable {α : Type} [BEq α] [LawfulBEq α]

theorem nodup_eraseDups : (l : List α) → l.eraseDups.Nodup
  | [] => by simp
  | a :: rest => by
    rw [List.eraseDups_cons, List.nodup_cons]
    exact ⟨by simp, nodup_eraseDups (rest.filter fun b => !b == a)⟩
termination_by l => l.length
decreasing_by exact Nat.lt_succ_of_le (List.length_filter_le _ _)

theorem eraseDups_snoc (l : List α) (a : α) :
    (l ++ [a]).eraseDups = if l.contains a then l.eraseDups else l.eraseDups ++ [a] := by
  rw [List.eraseDups_append]
  by_cases h : a ∈ l
  · simp [List.removeAll, h]
  · simp [List.removeAll, h, List.eraseDups_cons]

end

/-- The declared variables of a module. -/
def declared (declarations : List (ModuleKey × Variable)) (key : ModuleKey) : List Variable :=
  (declarations.filter (·.1 = key)).map (·.2)

/-- One group for each module, in the order of the first declarations. -/
def stable (declarations : List (ModuleKey × Variable)) : List Group :=
  (declarations.map (·.1)).eraseDups.map fun key => ⟨key, declared declarations key⟩

theorem declared_append (ds es : List (ModuleKey × Variable)) (key : ModuleKey) :
    declared (ds ++ es) key = declared ds key ++ declared es key := by simp [declared]

theorem declared_snoc (ds : List (ModuleKey × Variable)) (d : ModuleKey × Variable) (key : ModuleKey) :
    declared (ds ++ [d]) key = if d.1 = key then declared ds key ++ [d.2] else declared ds key := by
  by_cases h : d.1 = key
  · simp [declared, h]
  · simp [declared, h]

theorem declared_eq_nil {ds : List (ModuleKey × Variable)} {key : ModuleKey} (h : key ∉ ds.map (·.1)) :
    declared ds key = [] := by
  simp only [declared, List.map_eq_nil_iff, List.filter_eq_nil_iff, decide_eq_true_eq]
  intro d hd hk
  exact h (List.mem_map.mpr ⟨d, hd, hk⟩)

/-- Merging goes to the group of the module, wherever it stands. -/
theorem merge_map (key : ModuleKey) (vs : List Variable) (keys : List ModuleKey) (f : ModuleKey → List Variable)
    (h : keys.Nodup) :
    merge key vs (keys.map fun k => ⟨k, f k⟩) =
      if key ∈ keys then keys.map fun k => ⟨k, if k = key then f k ++ vs else f k⟩
      else (keys.map fun k => ⟨k, f k⟩) ++ [⟨key, vs⟩] := by
  induction keys with
  | nil => simp [merge]
  | cons k rest ih =>
    obtain ⟨hk, hrest⟩ := List.nodup_cons.mp h
    by_cases he : k = key
    · subst he
      have hrest : rest.map (fun j => (⟨j, if j = k then f j ++ vs else f j⟩ : Group)) = rest.map fun j => ⟨j, f j⟩ :=
        List.map_congr_left fun j hj => by
          have hj : j ≠ k := fun e => hk (e ▸ hj)
          simp [hj]
      simp [merge, hrest]
    · have he' : key ≠ k := Ne.symm he
      by_cases hm : key ∈ rest
      · simp [merge, he, he', ih hrest, hm]
      · simp [merge, he, he', ih hrest, hm]

theorem collect_snoc (ds : List (ModuleKey × Variable)) (d : ModuleKey × Variable) :
    collect (ds ++ [d]) = merge d.1 [d.2] (collect ds) := by
  simp [collect]

/-- Collecting declarations one at a time gives each module its own, in order. -/
theorem collect_eq (ds : List (ModuleKey × Variable)) : collect ds = stable ds := by
  induction ds using List.reverseRecOn with
  | nil => simp [collect, stable]
  | append_singleton ds d ih =>
    rw [collect_snoc, ih, stable, merge_map _ _ _ _ (nodup_eraseDups _)]
    simp only [stable, List.map_append, List.map_cons, List.map_nil, eraseDups_snoc, List.contains_iff_mem,
      List.mem_eraseDups, declared_snoc]
    by_cases h : d.1 ∈ ds.map (·.1)
    · rw [if_pos h, if_pos h]
      refine List.map_congr_left fun k _ => ?_
      by_cases hk : k = d.1
      · simp [hk]
      · simp [hk, Ne.symm hk]
    · rw [if_neg h, if_neg h, List.map_append]
      congr 1
      · refine List.map_congr_left fun k hk => ?_
        have hk : d.1 ≠ k := fun e => h (e ▸ List.mem_eraseDups.mp hk)
        simp [hk]
      · simp [declared_eq_nil h]

theorem keys_stable (ds : List (ModuleKey × Variable)) : (stable ds).map (·.key) = (ds.map (·.1)).eraseDups := by
  simp [stable, Function.comp_def]

/-! ## (2) Groups in a given order -/

theorem takeOut_last (before : List Group) (g : Group) : takeOut before.length (before ++ [g]) = before := by
  simp [takeOut]

theorem takeOut_inner (before between : List Group) (g last : Group) :
    takeOut before.length (before ++ g :: (between ++ [last])) = before ++ last :: between := by
  have hlast : (before ++ g :: (between ++ [last])).getLast? = some last := by
    rw [← List.cons_append, ← List.append_assoc, List.getLast?_concat]
  have hset : (before ++ g :: (between ++ [last])).set before.length last = (before ++ last :: between) ++ [last] := by
    simp
  simp only [takeOut, hlast, hset, List.dropLast_concat]

/-- Nothing but the group itself is taken out. -/
theorem takeOut_perm {groups : List Group} {i : Nat} (hi : i < groups.length) :
    (groups[i] :: takeOut i groups).Perm groups := by
  obtain ⟨before, after, hlen, hgroups⟩ :
      ∃ before after, before.length = i ∧ groups = before ++ groups[i] :: after :=
    ⟨groups.take i, groups.drop (i + 1), by simp; omega, by simp⟩
  generalize groups[i] = g at hgroups
  subst hgroups hlen
  rcases List.eq_nil_or_concat' after with rfl | ⟨between, last, rfl⟩
  · rw [takeOut_last]
    exact (List.perm_append_singleton g before).symm
  · rw [takeOut_inner]
    have hmove : (last :: between).Perm (between ++ [last]) := (List.perm_append_singleton last between).symm
    exact List.perm_middle.symm.trans ((hmove.cons g).append_left before)

/-- Of groups of different modules, the one of a given module. -/
theorem find_key_iff {groups : List Group} (h : (groups.map (·.key)).Nodup) {key : ModuleKey} {g : Group} :
    groups.find? (·.key = key) = some g ↔ g ∈ groups ∧ g.key = key := by
  constructor
  · intro hf
    exact ⟨List.mem_of_find?_eq_some hf, by simpa using List.find?_some hf⟩
  · rintro ⟨hg, hk⟩
    cases hf : groups.find? (·.key = key) with
    | none => exact absurd hk (by simpa using List.find?_eq_none.mp hf g hg)
    | some found =>
      have hfk : found.key = key := by simpa using List.find?_some hf
      rw [List.inj_on_of_nodup_map h (List.mem_of_find?_eq_some hf) hg (hfk.trans hk.symm)]

/-- Taking one module's group out leaves the groups of the others. -/
theorem find_takeOut {groups : List Group} (h : (groups.map (·.key)).Nodup) {i : Nat} (hi : i < groups.length)
    {key : ModuleKey} (hk : key ≠ groups[i].key) :
    (takeOut i groups).find? (·.key = key) = groups.find? (·.key = key) := by
  have hperm := takeOut_perm hi
  have hrest : ((takeOut i groups).map (·.key)).Nodup :=
    (List.nodup_cons.mp ((hperm.map (·.key)).nodup_iff.mpr h)).2
  refine Option.ext fun g => ?_
  rw [find_key_iff hrest, find_key_iff h, ← hperm.mem_iff, List.mem_cons]
  constructor
  · exact fun ⟨hg, he⟩ => ⟨Or.inr hg, he⟩
  · rintro ⟨rfl | hg, he⟩
    · exact absurd he.symm hk
    · exact ⟨hg, he⟩

/-- The group of a module among `groups`, empty if there is none. -/
def groupOf (groups : List Group) (key : ModuleKey) : Group := (groups.find? (·.key = key)).getD ⟨key, []⟩

/-- Each module gets its own group, however those that are left get shuffled. -/
theorem arrange_eq {keys : List ModuleKey} {groups : List Group} (hk : keys.Nodup)
    (hg : (groups.map (·.key)).Nodup) : arrange keys groups = keys.map (groupOf groups) := by
  induction keys generalizing groups with
  | nil => rfl
  | cons key rest ih =>
    obtain ⟨hkey, hrest⟩ := List.nodup_cons.mp hk
    rw [arrange, List.map_cons]
    split
    · rename_i hf
      have hno : groups.find? (·.key = key) = none := List.find?_eq_none.mpr (List.findFinIdx?_eq_none_iff.mp hf)
      rw [ih hrest hg, groupOf, hno]
      rfl
    · rename_i i hf
      have hi : groups[i].key = key := by simpa using (List.findFinIdx?_eq_some_iff.mp hf).1
      have hown : groups.find? (·.key = key) = some groups[i] := (find_key_iff hg).mpr ⟨List.getElem_mem _, hi⟩
      have hleft : ((takeOut i groups).map (·.key)).Nodup :=
        (List.nodup_cons.mp (((takeOut_perm i.isLt).map (·.key)).nodup_iff.mpr hg)).2
      rw [ih hrest hleft, groupOf, hown]
      refine congrArg (_ :: ·) (List.map_congr_left fun k hk => ?_)
      have hne : k ≠ groups[i].key := fun e => hkey (hi ▸ e ▸ hk)
      rw [groupOf, groupOf, find_takeOut hg i.isLt hne]

theorem groupOf_stable (ds : List (ModuleKey × Variable)) (key : ModuleKey) :
    groupOf (stable ds) key = ⟨key, declared ds key⟩ := by
  have hn : ((stable ds).map (·.key)).Nodup := keys_stable ds ▸ nodup_eraseDups _
  by_cases h : key ∈ ds.map (·.1)
  · have hf : (stable ds).find? (·.key = key) = some ⟨key, declared ds key⟩ :=
      (find_key_iff hn).mpr ⟨List.mem_map.mpr ⟨key, List.mem_eraseDups.mpr h, rfl⟩, rfl⟩
    rw [groupOf, hf, Option.getD_some]
  · have hf : (stable ds).find? (·.key = key) = none := by
      refine List.find?_eq_none.mpr fun g hg => ?_
      have hmem : g.key ∈ (stable ds).map (·.key) := List.mem_map_of_mem hg
      rw [keys_stable, List.mem_eraseDups] at hmem
      simpa using fun e : g.key = key => h (e ▸ hmem)
    rw [groupOf, hf, Option.getD_none, declared_eq_nil h]

/-! ## (3) Sorted by module -/

theorem declarations_map (ds : List (ModuleKey × Variable)) (keys : List ModuleKey) :
    declarations (keys.map fun key => ⟨key, declared ds key⟩) = keys.flatMap fun key => ds.filter (·.1 = key) := by
  simp only [declarations, List.flatMap_map]
  refine List.flatMap_congr fun key _ => ?_
  have hd : ∀ d ∈ ds.filter (·.1 = key), (key, d.2) = d := fun d h => by
    rw [← of_decide_eq_true (List.mem_filter.mp h).2]
  rw [declared, List.map_map]
  exact (List.map_congr_left hd).trans (List.map_id _)

/-- Sorted by module, the declarations of some modules are still the same. -/
theorem flatMap_filter_perm {keys : List ModuleKey} (hk : keys.Nodup) (ds : List (ModuleKey × Variable)) :
    (keys.flatMap fun key => ds.filter (·.1 = key)).Perm (ds.filter (·.1 ∈ keys)) := by
  induction keys with
  | nil => simp
  | cons key rest ih =>
    obtain ⟨hkey, hrest⟩ := List.nodup_cons.mp hk
    have hown : (ds.filter (·.1 ∈ key :: rest)).filter (·.1 = key) = ds.filter (·.1 = key) := by
      rw [List.filter_filter]
      refine List.filter_congr fun d _ => ?_
      by_cases h : d.1 = key <;> simp [h]
    have hothers : (ds.filter (·.1 ∈ key :: rest)).filter (fun d => !decide (d.1 = key)) = ds.filter (·.1 ∈ rest) := by
      rw [List.filter_filter]
      refine List.filter_congr fun d _ => ?_
      by_cases h : d.1 = key
      · simp [h, hkey]
      · simp [h]
    have hsplit := List.filter_append_perm (fun d : ModuleKey × Variable => decide (d.1 = key))
      (ds.filter (·.1 ∈ key :: rest))
    rw [hown, hothers] at hsplit
    rw [List.flatMap_cons]
    exact ((ih hrest).append_left _).trans hsplit

end Group

end ConfigTemplate
