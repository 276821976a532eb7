/-
  ConfigTemplate.Proofs.Dotted — the dotted names of modules, and which modules share one.

  (1) `ModuleKey.names`, `canonical_eq`: a key's dotted name is its names joined by dots.
  (2) `ModuleKey.dottedParts`: the names cut at the dots in them. `canonical_inj_parts`: two
      keys have one dotted name exactly when these parts are the same.
  (3) `ModuleKey.Undivided`: no dot in the organization and the package, whatever is in the
      module. `Undivided.canonical_inj`: such keys have dotted names of their own.
  (4) `headers_tell_modules_apart`: so has each module of a manifest without dots in
      organizations and packages, and each section of its template has a header of its own.
  (5) `two_modules_one_name`: with dots, two modules may share a dotted name.
-/
import ConfigTemplate.Proofs.Composition
import ConfigTemplate.Proofs.Merge
import ConfigTemplate.Proofs.Scope

namespace ConfigTemplate

namespace Text

theorem split_append (sep : Char) (s t : List Char) : split sep (s ++ sep :: t) = split sep s ++ split sep t := by
  induction s with
  | nil => simp [split]
  | cons c rest ih =>
    rw [List.cons_append, split, split]
    by_cases h : c = sep
    · rw [if_pos h, if_pos h, ih, List.cons_append]
    · rw [if_neg h, if_neg h, ih]
      cases hs : split sep rest with
      | nil => exact absurd hs (split_ne_nil sep rest)
      | cons part parts => rfl

theorem split_undivided {sep : Char} {s : List Char} (h : sep ∉ s) : split sep s = [s] := by
  induction s with
  | nil => rfl
  | cons c rest ih =>
    have hc : c ≠ sep := fun e => h (by simp [e])
    have hrest : sep ∉ rest := fun hm => h (by simp [hm])
    rw [split, if_neg hc, ih hrest]

theorem splitText_append (s t : String) : splitText '.' (s ++ "." ++ t) = splitText '.' s ++ splitText '.' t := by
  have hdot : ".".toList = ['.'] := rfl
  have hcut : (s ++ "." ++ t).toList = s.toList ++ '.' :: t.toList := by simp [String.toList_append, hdot]
  rw [splitText, hcut, split_append, List.map_append]
  rfl

theorem splitText_undivided {s : String} (h : '.' ∉ s.toList) : splitText '.' s = [s] := by
  rw [splitText, split_undivided h, List.map_singleton, String.ofList_toList]

/-- A text is known by its parts. -/
theorem splitText_inj {s t : String} (h : splitText '.' s = splitText '.' t) : s = t := by
  have hparts : split '.' s.toList = split '.' t.toList :=
    List.map_injective_iff.mpr (fun a b hab => String.ofList_inj.mp hab) h
  rw [← String.toList_inj, ← intercalate_split '.' s.toList, hparts, intercalate_split]

end Text

namespace ModuleKey

open Text (splitText splitText_append splitText_undivided splitText_inj)

/-! ## (1) Dotted names -/

/-- The organization, the package, and the module within the package if it is not the root. -/
def names (k : ModuleKey) : List String := k.org :: k.package :: k.sub.toList

theorem canonical_eq (k : ModuleKey) : k.canonical = String.intercalate "." k.names := by
  unfold canonical names
  cases k.sub with
  | none => rfl
  | some m => rfl

theorem names_inj {k l : ModuleKey} (h : k.names = l.names) : k = l := by
  obtain ⟨org, package, sub, _, _, _⟩ := k
  obtain ⟨org', package', sub', _, _, _⟩ := l
  simp only [names, List.cons.injEq] at h
  obtain ⟨rfl, rfl, hs⟩ := h
  obtain rfl : sub = sub' := by
    cases sub with
    | none => cases sub' <;> simp_all
    | some m => cases sub' <;> simp_all
  rfl

/-! ## (2) The parts of a dotted name -/

/-- The names, cut at the dots in them. -/
def dottedParts (k : ModuleKey) : List String := k.names.flatMap (splitText '.')

theorem splitText_canonical (k : ModuleKey) : splitText '.' k.canonical = k.dottedParts := by
  unfold canonical dottedParts names
  cases k.sub with
  | none => simp [splitText_append]
  | some m => simp [splitText_append]

theorem canonical_inj_parts (k l : ModuleKey) : k.canonical = l.canonical ↔ k.dottedParts = l.dottedParts := by
  rw [← splitText_canonical, ← splitText_canonical]
  exact ⟨fun h => by rw [h], splitText_inj⟩

/-! ## (3) Keys without dots -/

/-- No dot stands in the organization's name, nor in the package's. -/
def Undivided (k : ModuleKey) : Prop := '.' ∉ k.org.toList ∧ '.' ∉ k.package.toList

theorem Undivided.dottedParts {k : ModuleKey} (h : k.Undivided) :
    k.dottedParts = k.org :: k.package :: k.sub.toList.flatMap (splitText '.') := by
  simp [ModuleKey.dottedParts, names, splitText_undivided h.1, splitText_undivided h.2]

theorem splitText_sub_inj {a b : Option String}
    (h : a.toList.flatMap (splitText '.') = b.toList.flatMap (splitText '.')) : a = b := by
  have hne : ∀ s : String, splitText '.' s ≠ [] := by
    intro s hs
    exact Text.split_ne_nil '.' s.toList (List.map_eq_nil_iff.mp hs)
  cases a with
  | none =>
    cases b with
    | none => rfl
    | some n => exact absurd (by simpa using h.symm) (hne n)
  | some m =>
    cases b with
    | none => exact absurd (by simpa using h) (hne m)
    | some n => exact congrArg some (splitText_inj (by simpa using h))

/-- The first dot of the dotted name ends the organization, and the second the package. -/
theorem Undivided.canonical_inj {k l : ModuleKey} (hk : k.Undivided) (hl : l.Undivided) :
    k.canonical = l.canonical ↔ k = l := by
  refine ⟨fun h => ?_, fun h => by rw [h]⟩
  rw [canonical_inj_parts, hk.dottedParts, hl.dottedParts] at h
  obtain ⟨ho, hp, hs⟩ : k.org = l.org ∧ k.package = l.package ∧ _ := by simpa using h
  exact names_inj (by rw [names, names, ho, hp, splitText_sub_inj hs])

end ModuleKey

namespace Manifest

open Template (document moduleHeader)

/-! ## (4) Modules by their dotted names -/

/-- No dot stands in the names of organizations and packages. -/
def Undivided (m : Manifest) : Prop := ∀ e ∈ m.modules, '.' ∉ e.org.toList ∧ '.' ∉ e.package.toList

instance (m : Manifest) : Decidable m.Undivided :=
  List.decidableBAll (fun e : ModuleEntry => '.' ∉ e.org.toList ∧ '.' ∉ e.package.toList) m.modules

theorem exists_names {es : List ModuleEntry} {keys : List ModuleKey} (h : List.Forall₂ ModuleEntry.Names es keys) :
    ∀ key ∈ keys, ∃ e ∈ es, e.Names key := by
  induction h with
  | nil => simp
  | @cons e key es keys hkey _ ih =>
    intro other hother
    rcases List.mem_cons.mp hother with rfl | hother
    · exact ⟨e, by simp, hkey⟩
    · obtain ⟨e', he', hnames⟩ := ih other hother
      exact ⟨e', List.mem_cons_of_mem _ he', hnames⟩

theorem Undivided.keys {m : Manifest} (h : m.Undivided) {gs : List Group} (hg : m.grouped = .ok gs) :
    (∀ g ∈ gs, g.key.Undivided) ∧ (gs.map (·.key)).Nodup := by
  obtain ⟨keys, hkeys, rfl⟩ := groups_ok.mp (Except.mapError_eq_ok.mp hg)
  refine ⟨fun g hg => ?_, ?_⟩
  · obtain ⟨key, hkey, rfl⟩ := List.mem_map.mp hg
    obtain ⟨e, he, horg, hpackage, -⟩ := exists_names hkeys key (List.mem_eraseDups.mp hkey)
    obtain ⟨ho, hp⟩ := h e he
    exact ⟨horg ▸ ho, hpackage ▸ hp⟩
  · have hkey : (m.merged keys).map (·.key) = keys.eraseDups := by simp [merged, Function.comp_def]
    exact hkey ▸ Group.nodup_eraseDups keys

/-- Keys with dotted names of their own have them in a list as well. -/
theorem nodup_canonical {keys : List ModuleKey} (hkeys : keys.Nodup) (h : ∀ k ∈ keys, k.Undivided) :
    (keys.map (·.canonical)).Nodup :=
  List.Nodup.map_on (fun k hk l hl e => ((h k hk).canonical_inj (h l hl)).mp e) hkeys

/-- The text is a section of the group: it starts with the group's header. -/
def Opens (g : Group) (text : String) : Prop := ∃ body, text = moduleHeader g.key ++ "\n" ++ body

theorem sections_open {o : Options} {gs : List Group} {d : String} (h : (document o gs).result = .ok d) :
    ∃ texts, List.Forall₂ Opens gs texts ∧ d = String.join texts := by
  obtain ⟨texts, hsections, rfl⟩ := Template.sections_ok_iff.mp (Template.document_ok.mp h)
  refine ⟨texts, hsections.imp fun g text htext => ?_, rfl⟩
  obtain ⟨required, optional, -, -, rfl⟩ := htext
  have hclose : "]\n" = "]" ++ "\n" := rfl
  exact ⟨String.join required ++ (String.join ((optional.filter (· != "")).map (Template.commentOut o.style)) ++ "\n"),
    by simp only [moduleHeader, hclose, String.append_assoc]⟩

/-- Two keys share a dotted name exactly when their names, cut at every dot, are the same
    parts. So keys without dots in organization and package never do, and the modules of a
    manifest without such dots have dotted names, and headers in a template, of their own. -/
theorem headers_tell_modules_apart :
    (∀ k l : ModuleKey, k.canonical = l.canonical ↔ k.dottedParts = l.dottedParts) ∧
    (∀ k l : ModuleKey, k.Undivided → l.Undivided → (k.canonical = l.canonical ↔ k = l)) ∧
    (∀ (m : Manifest) (gs : List Group), m.Undivided → m.grouped = .ok gs →
      (gs.map (·.key.canonical)).Nodup ∧
      ∀ o d, (document o gs).result = .ok d →
        ∃ texts, List.Forall₂ Opens gs texts ∧ d = String.join texts ∧ (gs.map (moduleHeader ·.key)).Nodup) := by
  refine ⟨ModuleKey.canonical_inj_parts, fun k l hk hl => hk.canonical_inj hl, fun m gs hm hg => ?_⟩
  obtain ⟨hall, hkeys⟩ := hm.keys hg
  have hnames : (gs.map (·.key.canonical)).Nodup := by
    have h := nodup_canonical hkeys fun k hk => by
      obtain ⟨g, hg, rfl⟩ := List.mem_map.mp hk
      exact hall g hg
    rwa [List.map_map] at h
  refine ⟨hnames, fun o d hd => ?_⟩
  obtain ⟨texts, htexts, rfl⟩ := sections_open hd
  refine ⟨texts, htexts, rfl, ?_⟩
  have hheader : ∀ s t : String, "[" ++ s ++ "]" = "[" ++ t ++ "]" → s = t := fun s t h => by simpa using h
  have h := hnames.map (f := fun s => "[" ++ s ++ "]") hheader
  rwa [List.map_map] at h

/-- The root module of a package, and a module of it with a dot in its name. -/
def dottedModule : Manifest := ⟨[⟨"acme", "web", none, []⟩, ⟨"acme", "web", some "a.b", []⟩]⟩

def dottedModuleGroups : List Group :=
  [⟨⟨"acme", "web", none, Eq.refl false, Eq.refl false, ModuleKey.sub_named_none _⟩, []⟩,
    ⟨⟨"acme", "web", some "a.b", Eq.refl false, Eq.refl false, by decide⟩, []⟩]

theorem dotted_module_apart :
    dottedModule.Undivided ∧ dottedModule.grouped = .ok dottedModuleGroups ∧
    (dottedModuleGroups.map (·.key.canonical)).Nodup ∧
    ∀ o d, (document o dottedModuleGroups).result = .ok d →
      ∃ texts, List.Forall₂ Opens dottedModuleGroups texts ∧ d = String.join texts ∧
        (dottedModuleGroups.map (moduleHeader ·.key)).Nodup := by
  have hplain : dottedModule.Undivided := by decide
  have hgroups : dottedModule.grouped = .ok dottedModuleGroups := by rfl
  exact ⟨hplain, hgroups, headers_tell_modules_apart.2.2 _ _ hplain hgroups⟩

/-! ## (5) Modules that share a dotted name -/

/-- Two organizations with a package each. -/
def sharedName : Manifest := ⟨[⟨"a.b", "c", none, []⟩, ⟨"a", "b.c", none, []⟩]⟩

/-- The modules of a manifest need not have dotted names of their own. -/
theorem two_modules_one_name :
    ¬ ∀ (m : Manifest) (gs : List Group), m.grouped = .ok gs → (gs.map (·.key.canonical)).Nodup := by
  intro h
  have hnames := h sharedName [⟨⟨"a.b", "c", none, by decide, by decide, by decide⟩, []⟩,
    ⟨⟨"a", "b.c", none, by decide, by decide, by decide⟩, []⟩] rfl
  exact absurd hnames (by decide)

end Manifest

end ConfigTemplate
