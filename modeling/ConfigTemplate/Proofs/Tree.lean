/-
  ConfigTemplate.Proofs.Tree — the tables that the sections of modules build.

  (1) Entries with a new last key: `update_absent`, `update_last`, `openTable_absent`,
      `openRow_absent`, and the bindings of a list of leaves (`putAll_leaves`).
  (2) Names in the order of their first mention (`seen`), and a name that moves to the
      end (`moved`). `update_tabulate`, `openTable_tabulate`: changing the entry of one name.
  (3) `ModuleKey.orgs`, `ModuleKey.packages`, `Toml.members`: the tables of a list of
      modules. `grown`: the document that they make up.
  (4) `Fits`: no table names a key twice. `openAt_names`: the header of a module places
      its table. `under_names`: what the table of the module last placed gets.
-/
import ConfigTemplate.Proofs.Dotted
import ConfigTemplate.Proofs.Proper

namespace ConfigTemplate

namespace Toml

/-! ## (1) New keys -/

theorem update_absent {key : String} {es : Entries} (h : key ∉ es.map (·.1)) (f : Option Item → Option Item) :
    es.update key f = (f none).map fun i => es ++ [(key, i)] := by
  induction es with
  | nil => rfl
  | cons e es ih =>
    obtain ⟨k, i⟩ := e
    have hk : k ≠ key := fun e => h (by simp [e])
    have hes : key ∉ es.map (·.1) := fun hmem => h (List.mem_cons_of_mem k hmem)
    rw [Entries.update, if_neg hk, ih hes, Option.map_map]
    rfl

theorem update_last {key : String} {es : Entries} (h : key ∉ es.map (·.1)) (f : Option Item → Option Item) (i : Item) :
    Entries.update key f (es ++ [(key, i)]) = (f (some i)).map fun j => es ++ [(key, j)] := by
  induction es with
  | nil => simp [Entries.update]
  | cons e es ih =>
    obtain ⟨k, i'⟩ := e
    have hk : k ≠ key := fun e => h (by simp [e])
    have hes : key ∉ es.map (·.1) := fun hmem => h (List.mem_cons_of_mem k hmem)
    rw [List.cons_append, Entries.update, if_neg hk, ih hes, Option.map_map]
    rfl

theorem find?_absent {key : String} {es : Entries} (h : key ∉ es.map (·.1)) : es.find? key = none := by
  induction es with
  | nil => rfl
  | cons e es ih =>
    obtain ⟨k, i⟩ := e
    have hk : k ≠ key := fun e => h (by simp [e])
    rw [Entries.find?, if_neg hk, ih fun hmem => h (List.mem_cons_of_mem k hmem)]

/-- Keys that are all different leave the last one new. -/
theorem last_absent {es : Entries} {key : String} {i : Item} (h : ((es ++ [(key, i)]).map (·.1)).Nodup) :
    key ∉ es.map (·.1) := by
  rw [List.map_append] at h
  exact fun hmem => List.disjoint_of_nodup_append h hmem (by simp)

/-- The operation gives entries without the key a last one. -/
def Appends (f : Entries → Option Entries) (key : String) (i : Item) : Prop :=
  ∀ es : Entries, key ∉ es.map (·.1) → f es = some (es ++ [(key, i)])

theorem openTable_absent {bs : List Binding} {inner : Entries} (h : putAll bs [] = some inner) (key : String) :
    Appends (openTable bs key) key (.table .header inner) := by
  intro es hkey
  simp [openTable, find?_absent hkey, h]

theorem openRow_absent {bs : List Binding} {inner : Entries} (h : putAll bs [] = some inner) (key : String) :
    Appends (openRow bs key) key (.rows [inner]) := by
  intro es hkey
  simp [openRow, h, update_absent hkey]

/-- The bindings of some names. -/
def bindingsOf (leaves : List (String × Data)) : List Binding := leaves.map fun l => ([l.1], l.2)

def leafEntries (leaves : List (String × Data)) : Entries := leaves.map fun l => (l.1, .leaf l.2)

theorem putAll_leaves {leaves : List (String × Data)} {es : Entries}
    (h : (es.map (·.1) ++ leaves.map (·.1)).Nodup) : putAll (bindingsOf leaves) es = some (es ++ leafEntries leaves) := by
  induction leaves generalizing es with
  | nil => simp [bindingsOf, leafEntries, putAll]
  | cons l leaves ih =>
    obtain ⟨name, d⟩ := l
    have hname : name ∉ es.map (·.1) := fun hmem => (List.disjoint_of_nodup_append h) hmem (by simp)
    have hput : put d [name] es = some (es ++ [(name, .leaf d)]) := by simp [put, update_absent hname]
    have hnodup : ((es ++ [(name, Item.leaf d)]).map (·.1) ++ leaves.map (·.1)).Nodup := by simpa using h
    show (put d [name] es).bind (putAll (bindingsOf leaves)) = _
    rw [hput, Option.bind_some, ih hnodup]
    simp [leafEntries]

/-! ## (2) Names in order -/

/-- The names, with one more that comes last unless it is there. -/
def seen (names : List String) (name : String) : List String := if name ∈ names then names else names ++ [name]

/-- The names, with one that comes last. -/
def moved (names : List String) (name : String) : List String := names.erase name ++ [name]

theorem seen_of_mem {names : List String} {name : String} (h : name ∈ names) : seen names name = names := if_pos h

theorem seen_of_not_mem {names : List String} {name : String} (h : name ∉ names) : seen names name = names ++ [name] :=
  if_neg h

theorem seen_cons {names : List String} {k name : String} (h : k ≠ name) :
    seen (k :: names) name = k :: seen names name := by
  by_cases hmem : name ∈ names
  · rw [seen_of_mem hmem, seen_of_mem (List.mem_cons_of_mem k hmem)]
  · have hmem' : name ∉ k :: names := by simp [Ne.symm h, hmem]
    rw [seen_of_not_mem hmem, seen_of_not_mem hmem', List.cons_append]

theorem mem_seen {names : List String} {name k : String} : k ∈ seen names name ↔ k ∈ names ∨ k = name := by
  by_cases hmem : name ∈ names
  · rw [seen_of_mem hmem]
    refine ⟨Or.inl, fun h => ?_⟩
    rcases h with h | rfl
    · exact h
    · exact hmem
  · rw [seen_of_not_mem hmem, List.mem_append, List.mem_singleton]

theorem mem_moved {names : List String} {name k : String} : k ∈ moved names name ↔ k ∈ names ∨ k = name := by
  rw [moved, List.mem_append, List.mem_singleton]
  by_cases hk : k = name
  · simp [hk]
  · simp [hk, List.mem_erase_of_ne hk]

theorem nodup_snoc {names : List String} {name : String} (hn : names.Nodup) (h : name ∉ names) :
    (names ++ [name]).Nodup := by
  refine List.nodup_append.mpr ⟨hn, by simp, ?_⟩
  intro a ha b hb e
  obtain rfl : b = name := by simpa using hb
  exact h (e ▸ ha)

theorem nodup_seen {names : List String} (h : names.Nodup) (name : String) : (seen names name).Nodup := by
  by_cases hmem : name ∈ names
  · rwa [seen_of_mem hmem]
  · rw [seen_of_not_mem hmem]
    exact nodup_snoc h hmem

theorem nodup_moved {names : List String} (h : names.Nodup) (name : String) : (moved names name).Nodup :=
  nodup_snoc (h.erase name) h.not_mem_erase

/-- One entry for each name. -/
def tabulate (names : List String) (item : String → Item) : Entries := names.map fun name => (name, item name)

theorem keys_tabulate (names : List String) (item : String → Item) : (tabulate names item).map (·.1) = names := by
  simp [tabulate, Function.comp_def]

theorem tabulate_snoc (names : List String) (name : String) (item : String → Item) :
    tabulate (names ++ [name]) item = tabulate names item ++ [(name, item name)] := by
  simp [tabulate]

theorem tabulate_congr {names : List String} {item item' : String → Item} (h : ∀ name ∈ names, item name = item' name) :
    tabulate names item = tabulate names item' :=
  List.map_congr_left fun name hname => by rw [h name hname]

/-- Changing the entry of a name, which may be new. -/
theorem update_tabulate {names : List String} (hn : names.Nodup) {item item' : String → Item} {name : String}
    {f : Option Item → Option Item} (hold : name ∈ names → f (some (item name)) = some (item' name))
    (hnew : name ∉ names → f none = some (item' name)) (hother : ∀ k ∈ names, k ≠ name → item k = item' k) :
    (tabulate names item).update name f = some (tabulate (seen names name) item') := by
  induction names with
  | nil => simp [tabulate, Entries.update, seen, hnew]
  | cons k names ih =>
    obtain ⟨hk, hn⟩ := List.nodup_cons.mp hn
    by_cases hkn : k = name
    · subst hkn
      have hrest : tabulate names item = tabulate names item' :=
        tabulate_congr fun j hj => hother j (List.mem_cons_of_mem k hj) fun e => hk (e ▸ hj)
      rw [seen_of_mem List.mem_cons_self]
      show (if k = k then (f (some (item k))).map _ else _) = some ((k, item' k) :: tabulate names item')
      rw [if_pos rfl, hold List.mem_cons_self, ← hrest]
      rfl
    · have hmore := ih hn (fun h => hold (List.mem_cons_of_mem k h)) (fun h => hnew (by simp [Ne.symm hkn, h]))
        fun j hj => hother j (List.mem_cons_of_mem k hj)
      rw [seen_cons hkn]
      show (if k = name then _ else ((tabulate names item).update name f).map _) =
        some ((k, item' k) :: tabulate (seen names name) item')
      rw [if_neg hkn, hmore, hother k List.mem_cons_self hkn]
      rfl

theorem find?_tabulate {names : List String} {name : String} (h : name ∈ names) (item : String → Item) :
    (tabulate names item).find? name = some (item name) := by
  induction names with
  | nil => cases h
  | cons k names ih =>
    show (if k = name then some (item k) else (tabulate names item).find? name) = _
    by_cases hk : k = name
    · rw [if_pos hk, hk]
    · rw [if_neg hk]
      exact ih (List.mem_of_ne_of_mem (Ne.symm hk) h)

theorem erase_tabulate (names : List String) (name : String) (item : String → Item) :
    (tabulate names item).erase name = tabulate (names.erase name) item := by
  induction names with
  | nil => rfl
  | cons k names ih =>
    show (if k = name then tabulate names item else (k, item k) :: (tabulate names item).erase name) = _
    by_cases hk : k = name
    · rw [if_pos hk, hk, List.erase_cons_head]
    · rw [if_neg hk, List.erase_cons_tail (by simpa using hk), ih]
      rfl

/-- The header of a name, which may be known as a parent only. It moves to the end. -/
theorem openTable_tabulate {names : List String} (hn : names.Nodup) {item item' : String → Item} {name : String}
    {bs : List Binding} {known inner : Entries} (hput : putAll bs known = some inner)
    (hold : name ∈ names → item name = .table .parent known) (hnew : name ∉ names → known = [])
    (hlast : item' name = .table .header inner) (hother : ∀ k ∈ names, k ≠ name → item k = item' k) :
    openTable bs name (tabulate names item) = some (tabulate (moved names name) item') := by
  have hrest : tabulate (names.erase name) item = tabulate (names.erase name) item' := by
    refine tabulate_congr fun k hk => hother k (List.mem_of_mem_erase hk) fun e => ?_
    exact hn.not_mem_erase (e ▸ hk)
  rw [moved, tabulate_snoc, ← hrest, hlast]
  by_cases hname : name ∈ names
  · simp [openTable, find?_tabulate hname, hold hname, hput, erase_tabulate]
  · obtain rfl := hnew hname
    have hfind : (tabulate names item).find? name = none := find?_absent (by rwa [keys_tabulate])
    simp [openTable, hfind, hput, List.erase_of_not_mem hname]

end Toml

/-! ## (3) The tables of a list of modules -/

namespace ModuleKey

open Toml (seen moved)

/-- The organizations, in the order of their first mention. -/
def orgs (keys : List ModuleKey) : List String := keys.foldl (fun names key => seen names key.org) []

/-- The packages after one more module. The header of a package's root module puts the
    package last; any other module only mentions it. -/
def withPackage (names : List String) (key : ModuleKey) : List String :=
  match key.sub with
  | none => moved names key.package
  | some _ => seen names key.package

/-- The packages of an organization. -/
def packages (keys : List ModuleKey) (org : String) : List String := (keys.filter (·.org = org)).foldl withPackage []

theorem orgs_snoc (keys : List ModuleKey) (key : ModuleKey) : orgs (keys ++ [key]) = seen (orgs keys) key.org := by
  simp [orgs]

theorem packages_snoc (keys : List ModuleKey) (key : ModuleKey) :
    packages (keys ++ [key]) key.org = withPackage (packages keys key.org) key := by
  simp [packages]

theorem packages_snoc_other (keys : List ModuleKey) {key : ModuleKey} {org : String} (h : org ≠ key.org) :
    packages (keys ++ [key]) org = packages keys org := by
  simp [packages, h.symm]

theorem nodup_orgs (keys : List ModuleKey) : (orgs keys).Nodup := by
  induction keys using List.reverseRecOn with
  | nil => simp [orgs]
  | append_singleton keys key ih =>
    rw [orgs_snoc]
    exact Toml.nodup_seen ih key.org

theorem nodup_withPackage {names : List String} (h : names.Nodup) (key : ModuleKey) : (withPackage names key).Nodup := by
  unfold withPackage
  cases key.sub with
  | none => exact Toml.nodup_moved h key.package
  | some m => exact Toml.nodup_seen h key.package

theorem mem_withPackage {names : List String} {key : ModuleKey} {package : String} :
    package ∈ withPackage names key ↔ package ∈ names ∨ package = key.package := by
  unfold withPackage
  cases key.sub with
  | none => exact Toml.mem_moved
  | some m => exact Toml.mem_seen

theorem nodup_packages (keys : List ModuleKey) (org : String) : (packages keys org).Nodup := by
  unfold packages
  induction keys.filter (·.org = org) using List.reverseRecOn with
  | nil => simp
  | append_singleton keys key ih =>
    rw [List.foldl_append]
    exact nodup_withPackage ih key

theorem mem_orgs {keys : List ModuleKey} {org : String} : org ∈ orgs keys ↔ ∃ key ∈ keys, key.org = org := by
  induction keys using List.reverseRecOn with
  | nil => simp [orgs]
  | append_singleton keys key ih =>
    rw [orgs_snoc, Toml.mem_seen, ih]
    simp [or_and_right, exists_or, eq_comm]

theorem mem_packages {keys : List ModuleKey} {org package : String} :
    package ∈ packages keys org ↔ ∃ key ∈ keys, key.org = org ∧ key.package = package := by
  have hfold : ∀ l : List ModuleKey, package ∈ l.foldl withPackage [] ↔ ∃ key ∈ l, key.package = package := by
    intro l
    induction l using List.reverseRecOn with
    | nil => simp
    | append_singleton l key ih =>
      rw [List.foldl_append, List.foldl_cons, List.foldl_nil, mem_withPackage, ih]
      simp [or_and_right, exists_or, eq_comm]
  rw [packages, hfold]
  simp [and_assoc]

end ModuleKey

namespace Toml

open ModuleKey (orgs packages withPackage orgs_snoc packages_snoc packages_snoc_other nodup_orgs nodup_packages mem_orgs
  mem_packages)

/-- A module and what stands in its table. -/
abbrev Section := ModuleKey × Entries

/-- What a module adds to the table of its package. -/
def Section.entries (s : Section) : Entries :=
  match s.1.sub with
  | none => s.2
  | some m => [(m, .table .header s.2)]

def Section.In (org package : String) (s : Section) : Prop := s.1.org = org ∧ s.1.package = package

instance (org package : String) (s : Section) : Decidable (s.In org package) :=
  inferInstanceAs (Decidable (s.1.org = org ∧ s.1.package = package))

/-- The entries of a package. -/
def members (ss : List Section) (org package : String) : Entries :=
  (ss.filter (·.In org package)).flatMap Section.entries

/-- A package without a root module is known as the parent of its modules. -/
def origin (ss : List Section) (org package : String) : Origin :=
  if ∃ s ∈ ss, s.In org package ∧ s.1.sub = none then .header else .parent

def keysOf (ss : List Section) : List ModuleKey := ss.map (·.1)

def packageTables (ss : List Section) (org : String) : Entries :=
  tabulate (packages (keysOf ss) org) fun package => .table (origin ss org package) (members ss org package)

/-- The document of the modules so far. -/
def grown (ss : List Section) : Entries :=
  tabulate (orgs (keysOf ss)) fun org => .table .parent (packageTables ss org)

theorem keysOf_snoc (ss : List Section) (s : Section) : keysOf (ss ++ [s]) = keysOf ss ++ [s.1] := by simp [keysOf]

theorem members_snoc (ss : List Section) (s : Section) (org package : String) :
    members (ss ++ [s]) org package = members ss org package ++ if s.In org package then s.entries else [] := by
  by_cases h : s.In org package
  · simp [members, h]
  · simp [members, h]

theorem packageTables_nil {ss : List Section} {org : String} (h : org ∉ orgs (keysOf ss)) :
    packageTables ss org = [] := by
  have hnone : packages (keysOf ss) org = [] := by
    refine List.eq_nil_iff_forall_not_mem.mpr fun package hp => h ?_
    obtain ⟨key, hkey, ho, -⟩ := mem_packages.mp hp
    exact mem_orgs.mpr ⟨key, hkey, ho⟩
  rw [packageTables, hnone]
  rfl

theorem absent_package {ss : List Section} {org package : String} (h : package ∉ packages (keysOf ss) org) :
    members ss org package = [] ∧ origin ss org package = .parent := by
  have hnone : ∀ s ∈ ss, ¬ s.In org package := fun s hs hin =>
    h (mem_packages.mpr ⟨s.1, List.mem_map.mpr ⟨s, hs, rfl⟩, hin.1, hin.2⟩)
  refine ⟨?_, if_neg ?_⟩
  · rw [members, List.filter_eq_nil_iff.mpr fun s hs => by simpa using hnone s hs]
    rfl
  · intro hroot
    obtain ⟨s, hs, hin, -⟩ := hroot
    exact hnone s hs hin

/-- Reaching the table of an organization, which may be new. -/
theorem under_org {f : Entries → Option Entries} {rest : List String} {ss ss' : List Section} {org : String}
    (hf : under f rest (packageTables ss org) = some (packageTables ss' org))
    (horgs : orgs (keysOf ss') = seen (orgs (keysOf ss)) org)
    (hother : ∀ o, o ≠ org → packageTables ss o = packageTables ss' o) :
    under f (org :: rest) (grown ss) = some (grown ss') := by
  rw [grown, grown, horgs]
  refine update_tabulate (nodup_orgs _) (fun _ => ?_) (fun hnew => ?_) fun o _ ho => ?_
  · simp [hf]
  · rw [packageTables_nil hnew] at hf
    simp [hf]
  · rw [hother o ho]

/-- Reaching the table of a package, which may be new. -/
theorem under_package {f : Entries → Option Entries} {rest : List String} {ss ss' : List Section} {org package : String}
    (hf : under f rest (members ss org package) = some (members ss' org package))
    (hpackages : packages (keysOf ss') org = seen (packages (keysOf ss) org) package)
    (horigin : ∀ p, origin ss' org p = origin ss org p)
    (hother : ∀ p, p ≠ package → members ss org p = members ss' org p) :
    under f (package :: rest) (packageTables ss org) = some (packageTables ss' org) := by
  rw [packageTables, packageTables, hpackages]
  refine update_tabulate (nodup_packages _ _) (fun _ => ?_) (fun hnew => ?_) fun p _ hp => ?_
  · simp [hf, horigin]
  · obtain ⟨hmembers, hparent⟩ := absent_package hnew
    rw [hmembers] at hf
    simp [hf, horigin, hparent]
  · rw [hother p hp, horigin]

/-! ## (4) One more header -/

/-- No table of the document names a key twice. -/
structure Fits (ss : List Section) : Prop where
  keys : (keysOf ss).Nodup
  entries : ∀ s ∈ ss, (s.2.map (·.1)).Nodup
  members : ∀ org package, ((members ss org package).map (·.1)).Nodup

theorem origin_snoc (ss : List Section) (s : Section) (org package : String) :
    origin (ss ++ [s]) org package = if s.In org package ∧ s.1.sub = none then .header else origin ss org package := by
  by_cases h : s.In org package ∧ s.1.sub = none
  · rw [if_pos h]
    exact if_pos ⟨s, by simp, h⟩
  · rw [if_neg h]
    refine if_congr ?_ rfl rfl
    constructor
    · intro hroot
      obtain ⟨s', hs', hroot⟩ := hroot
      rcases List.mem_append.mp hs' with hs' | hs'
      · exact ⟨s', hs', hroot⟩
      · obtain rfl : s' = s := by simpa using hs'
        exact absurd hroot h
    · intro hroot
      obtain ⟨s', hs', hroot⟩ := hroot
      exact ⟨s', by simp [hs'], hroot⟩

theorem packageTables_snoc_other (ss : List Section) {s : Section} {org : String} (h : org ≠ s.1.org) :
    packageTables (ss ++ [s]) org = packageTables ss org := by
  have hin : ∀ package, ¬ s.In org package := fun package hin => h hin.1.symm
  rw [packageTables, packageTables, keysOf_snoc, packages_snoc_other _ h]
  refine tabulate_congr fun package _ => ?_
  rw [origin_snoc, members_snoc, if_neg fun hroot => hin package hroot.1, if_neg (hin package), List.append_nil]

/-- A module that is not its package's root gets a table in the package's. -/
theorem place_module {pre : List Section} {key : ModuleKey} {items : Entries} {m : String} (hm : key.sub = some m)
    (h : Fits (pre ++ [(key, items)])) {f : Entries → Option Entries} (hf : Appends f m (.table .header items)) :
    under f [key.org, key.package] (grown pre) = some (grown (pre ++ [(key, items)])) := by
  have hin : Section.In key.org key.package (key, items) := ⟨rfl, rfl⟩
  have hmembers : members (pre ++ [(key, items)]) key.org key.package =
      members pre key.org key.package ++ [(m, .table .header items)] := by
    rw [members_snoc, if_pos hin, Section.entries, hm]
  have habsent : m ∉ (members pre key.org key.package).map (·.1) :=
    last_absent (hmembers ▸ h.members key.org key.package)
  refine under_org (under_package ?_ ?_ (fun p => ?_) fun p hp => ?_) ?_ fun o ho => ?_
  · rw [under, hf _ habsent, hmembers]
  · rw [keysOf_snoc, packages_snoc, withPackage, hm]
  · rw [origin_snoc, if_neg]
    intro hroot
    rw [hm] at hroot
    cases hroot.2
  · rw [members_snoc, if_neg (fun hin => hp hin.2.symm), List.append_nil]
  · rw [keysOf_snoc, orgs_snoc]
  · rw [packageTables_snoc_other pre ho]

/-- The header of a package's root module comes before or after its other modules. -/
theorem place_root {pre : List Section} {key : ModuleKey} {leaves : List (String × Data)} (hroot : key.sub = none)
    (h : Fits (pre ++ [(key, leafEntries leaves)])) :
    under (openTable (bindingsOf leaves) key.package) [key.org] (grown pre) =
      some (grown (pre ++ [(key, leafEntries leaves)])) := by
  have hin : Section.In key.org key.package (key, leafEntries leaves) := ⟨rfl, rfl⟩
  have hmembers : members (pre ++ [(key, leafEntries leaves)]) key.org key.package =
      members pre key.org key.package ++ leafEntries leaves := by
    rw [members_snoc, if_pos hin, Section.entries, hroot]
  have hput : putAll (bindingsOf leaves) (members pre key.org key.package) =
      some (members pre key.org key.package ++ leafEntries leaves) := by
    have hnodup := h.members key.org key.package
    rw [hmembers] at hnodup
    exact putAll_leaves (by simpa [leafEntries, Function.comp_def] using hnodup)
  -- No other root module has its key, so the package is known as a parent if at all.
  have hparent : origin pre key.org key.package = .parent := by
    refine if_neg ?_
    intro hother
    obtain ⟨s, hs, hin, hsub⟩ := hother
    have hkey : s.1 = key := ModuleKey.names_inj (by simp [ModuleKey.names, hin.1, hin.2, hsub, hroot])
    have hkeys := h.keys
    rw [keysOf_snoc] at hkeys
    exact List.disjoint_of_nodup_append hkeys (List.mem_map.mpr ⟨s, hs, hkey⟩) (by simp)
  refine under_org ?_ ?_ fun o ho => ?_
  · rw [under, packageTables, packageTables, keysOf_snoc, packages_snoc, withPackage, hroot]
    refine openTable_tabulate (nodup_packages _ _) hput (fun _ => ?_) (fun hnew => ?_) ?_ fun p _ hp => ?_
    · rw [hparent]
    · exact (absent_package hnew).1
    · rw [origin_snoc, if_pos ⟨hin, hroot⟩, hmembers]
    · rw [origin_snoc, if_neg (fun hin => hp hin.1.2.symm), members_snoc, if_neg (fun hin => hp hin.2.symm),
        List.append_nil]
  · rw [keysOf_snoc, orgs_snoc]
  · rw [packageTables_snoc_other pre ho]

/-- The header of a module, with the bindings below it. -/
theorem openAt_names {pre : List Section} {key : ModuleKey} {leaves : List (String × Data)}
    (h : Fits (pre ++ [(key, leafEntries leaves)])) :
    openAt (openTable (bindingsOf leaves)) key.names (grown pre) =
      some (grown (pre ++ [(key, leafEntries leaves)])) := by
  cases hm : key.sub with
  | none =>
    have hnames : key.names = [key.org, key.package] := by simp [ModuleKey.names, hm]
    rw [hnames]
    exact place_root hm h
  | some m =>
    have hnames : key.names = [key.org, key.package, m] := by simp [ModuleKey.names, hm]
    have hput : putAll (bindingsOf leaves) [] = some (leafEntries leaves) := by
      have hnodup := h.entries (key, leafEntries leaves) (by simp)
      exact putAll_leaves (by simpa [leafEntries, Function.comp_def] using hnodup)
    rw [hnames]
    exact place_module hm h (openTable_absent hput m)

/-- One more entry in the table of the module that was placed last. -/
theorem under_names {pre : List Section} {key : ModuleKey} {items : Entries} {name : String} {i : Item}
    (h : Fits (pre ++ [(key, items ++ [(name, i)])])) {f : Entries → Option Entries} (hf : Appends f name i) :
    under f key.names (grown (pre ++ [(key, items)])) = some (grown (pre ++ [(key, items ++ [(name, i)])])) := by
  have hin : ∀ items : Entries, Section.In key.org key.package (key, items) := fun _ => ⟨rfl, rfl⟩
  have hreach : under f key.sub.toList (members (pre ++ [(key, items)]) key.org key.package) =
      some (members (pre ++ [(key, items ++ [(name, i)])]) key.org key.package) := by
    have hnodup := h.members key.org key.package
    rw [members_snoc, if_pos (hin _)] at hnodup ⊢
    rw [members_snoc, if_pos (hin _)]
    -- The entries of a root module stand in its package's table, behind those of the others.
    cases hm : key.sub with
    | none =>
      simp only [Section.entries, hm] at hnodup ⊢
      have habsent : name ∉ (members pre key.org key.package ++ items).map (·.1) := by
        rw [← List.append_assoc] at hnodup
        exact last_absent hnodup
      show f _ = _
      rw [hf _ habsent, List.append_assoc]
    | some m =>
      simp only [Section.entries, hm] at hnodup ⊢
      have habsent : m ∉ (members pre key.org key.package).map (·.1) := last_absent hnodup
      have hnew : name ∉ items.map (·.1) := last_absent (h.entries (key, items ++ [(name, i)]) (by simp))
      show Entries.update m _ _ = _
      rw [update_last habsent]
      simp [under, hf items hnew]
  have hkeys : keysOf (pre ++ [(key, items ++ [(name, i)])]) = keysOf (pre ++ [(key, items)]) := by simp [keysOf]
  have hmem : key ∈ keysOf (pre ++ [(key, items)]) := by simp [keysOf]
  have horigin : ∀ o p, origin (pre ++ [(key, items ++ [(name, i)])]) o p = origin (pre ++ [(key, items)]) o p := by
    intro o p
    rw [origin_snoc, origin_snoc]
    rfl
  refine under_org (under_package hreach ?_ (horigin key.org) fun p hp => ?_) ?_ fun o ho => ?_
  · rw [hkeys, seen_of_mem (mem_packages.mpr ⟨key, hmem, rfl, rfl⟩)]
  · rw [members_snoc, members_snoc, if_neg (fun hin => hp hin.2.symm), if_neg (fun hin => hp hin.2.symm)]
  · rw [hkeys, seen_of_mem (mem_orgs.mpr ⟨key, hmem, rfl⟩)]
  · rw [packageTables_snoc_other pre ho, packageTables_snoc_other pre ho]

end Toml

end ConfigTemplate
