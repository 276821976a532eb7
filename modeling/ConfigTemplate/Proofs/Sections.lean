/-
  ConfigTemplate.Proofs.Sections — documents with one section for each module.

  (1) `Part`, `Plot`: what a variable adds to its module, and all that a module holds.
      `tree`: the table that holds the plots, each at its organization and package.
  (2) `Plot.statements`: the section of a plot, its values before its tables.
      `buildSections_bindings`: a header takes the bindings up to the next one.
  (3) `buildSections_tables`: the tables of a section, one header at a time.
      `buildSections_plots`: section after section, from any document so far.
  (4) `fits_sections`: different names everywhere. `build_plots`: the document that the
      sections build is then the tree.
-/
import ConfigTemplate.Proofs.Tree

namespace ConfigTemplate

/-! ## (1) Plots -/

/-- A closed table of some members. -/
def tableOf (members : List (String × Data)) : Data := .table (members.map fun m => (some m.1, m.2)) true

/-- What a variable adds to its module: a value, a table, or an array with one row. -/
inductive Part where
  | value (d : Data)
  | table (members : List (String × Data))
  | row (members : List (String × Data))

namespace Part

def data : Part → Data
  | value d => d
  | table members => tableOf members
  | row members => .list [tableOf members] true

/-- The part has a header. -/
def Headed : Part → Prop
  | value _ => False
  | table _ | row _ => True

def members : Part → List (String × Data)
  | value _ => []
  | table members | row members => members

end Part

/-- A module and its parts by their names. -/
structure Plot where
  key : ModuleKey
  parts : List (String × Part)

def Plot.members (p : Plot) : List (String × Data) := p.parts.map fun e => (e.1, e.2.data)

/-- What a module adds to its package: its members if it is the root, else its table. -/
def Plot.added (p : Plot) : List (String × Data) :=
  match p.key.sub with
  | none => p.members
  | some m => [(m, tableOf p.members)]

def packageMembers (plots : List Plot) (org package : String) : List (String × Data) :=
  (plots.filter fun p => p.key.org = org ∧ p.key.package = package).flatMap Plot.added

/-- The table that holds the members of each plot at its organization, package and module. -/
def tree (plots : List Plot) : Data :=
  let keys := plots.map (·.key)
  tableOf ((ModuleKey.orgs keys).map fun org =>
    (org, tableOf ((ModuleKey.packages keys org).map fun package =>
      (package, tableOf (packageMembers plots org package)))))

namespace Toml

/-! ## (2) Sections -/

def stated (members : List (String × Data)) : List Statement := members.map fun m => .binding [m.1] m.2

end Toml

open Toml (Statement Item Section Entries stated leafEntries bindingsOf bindings buildSections openAt openTable openRow)

def Part.statements (path : List String) (name : String) : Part → List Statement
  | value d => [.binding [name] d]
  | table members => .table (path ++ [name]) :: stated members
  | row members => .row (path ++ [name]) :: stated members

def Part.item : Part → Item
  | value d => .leaf d
  | table members => .table .header (leafEntries members)
  | row members => .rows [leafEntries members]

def Plot.statements (p : Plot) : List Statement :=
  .table p.key.names :: p.parts.flatMap fun e => e.2.statements p.key.names e.1

def entriesOf (parts : List (String × Part)) : Entries := parts.map fun e => (e.1, e.2.item)

def Plot.section (p : Plot) : Section := (p.key, entriesOf p.parts)

namespace Toml

/-- The statements are none, or start with a header. -/
def StartHeaded (ss : List Statement) : Prop := (bindings ss).1 = []

theorem bindings_stated (members : List (String × Data)) {rest : List Statement} (h : StartHeaded rest) :
    (bindings (stated members ++ rest)).1 = bindingsOf members := by
  induction members with
  | nil => exact h
  | cons m members ih =>
    show ([m.1], m.2) :: (bindings (stated members ++ rest)).1 = ([m.1], m.2) :: bindingsOf members
    rw [ih]

theorem buildSections_stated (members : List (String × Data)) (rest : List Statement) (es : Entries) :
    buildSections (stated members ++ rest) es = buildSections rest es := by
  induction members with
  | nil => rfl
  | cons m members ih => exact ih

/-- A header takes the bindings up to the next one. -/
theorem buildSections_table (key : List String) (members : List (String × Data)) {rest : List Statement}
    (h : StartHeaded rest) (es : Entries) :
    buildSections (.table key :: (stated members ++ rest)) es =
      (openAt (openTable (bindingsOf members)) key es).bind (buildSections rest) := by
  rw [buildSections, bindings_stated members h]
  exact congrArg _ (funext fun es => buildSections_stated members rest es)

theorem buildSections_row (key : List String) (members : List (String × Data)) {rest : List Statement}
    (h : StartHeaded rest) (es : Entries) :
    buildSections (.row key :: (stated members ++ rest)) es =
      (openAt (openRow (bindingsOf members)) key es).bind (buildSections rest) := by
  rw [buildSections, bindings_stated members h]
  exact congrArg _ (funext fun es => buildSections_stated members rest es)

/-! ## (3) Headers below a module -/

theorem openAt_snoc (create : String → Entries → Option Entries) (path : List String) (name : String) (es : Entries) :
    openAt create (path ++ [name]) es = under (create name) path es := by
  simp [openAt]

/-- The table of a part is a new entry of the table above it. -/
theorem buildSections_part {p : Part} (hp : p.Headed) (hnames : (p.members.map (·.1)).Nodup) (path : List String)
    (name : String) {rest : List Statement} (hrest : StartHeaded rest) :
    ∃ f, Appends f name p.item ∧
      ∀ es, buildSections (p.statements path name ++ rest) es = (under f path es).bind (buildSections rest) := by
  have hput : putAll (bindingsOf p.members) [] = some (leafEntries p.members) := putAll_leaves (by simpa using hnames)
  cases p with
  | value d => exact hp.elim
  | table members =>
    refine ⟨openTable (bindingsOf members) name, openTable_absent hput name, fun es => ?_⟩
    rw [← openAt_snoc]
    exact buildSections_table _ members hrest es
  | row members =>
    refine ⟨openRow (bindingsOf members) name, openRow_absent hput name, fun es => ?_⟩
    rw [← openAt_snoc (openRow (bindingsOf members))]
    exact buildSections_row _ members hrest es

theorem startHeaded_part {p : Part} (hp : p.Headed) (path : List String) (name : String) (rest : List Statement) :
    StartHeaded (p.statements path name ++ rest) := by
  cases p with
  | value d => exact hp.elim
  | table members => rfl
  | row members => rfl

theorem startHeaded_parts {parts : List (String × Part)} (hparts : ∀ e ∈ parts, e.2.Headed) (path : List String)
    {rest : List Statement} (hrest : StartHeaded rest) :
    StartHeaded (parts.flatMap (fun e => e.2.statements path e.1) ++ rest) := by
  cases parts with
  | nil => exact hrest
  | cons e parts =>
    rw [List.flatMap_cons, List.append_assoc]
    exact startHeaded_part (hparts e (by simp)) path e.1 _

/-- A document with fewer modules, or a module with fewer entries, fits as well. -/
theorem Fits.left {ss rest : List Section} (h : Fits (ss ++ rest)) : Fits ss := by
  refine ⟨?_, fun s hs => h.entries s (by simp [hs]), fun org package => ?_⟩
  · have hkeys := h.keys
    rw [keysOf, List.map_append] at hkeys
    exact (List.nodup_append.mp hkeys).1
  · have hmembers := h.members org package
    rw [Toml.members, List.filter_append, List.flatMap_append, List.map_append] at hmembers
    exact (List.nodup_append.mp hmembers).1

theorem Fits.shorten {pre : List Section} {key : ModuleKey} {items more : Entries}
    (h : Fits (pre ++ [(key, items ++ more)])) : Fits (pre ++ [(key, items)]) := by
  refine ⟨by simpa [keysOf] using h.keys, fun s hs => ?_, fun org package => ?_⟩
  · rcases List.mem_append.mp hs with hs | hs
    · exact h.entries s (by simp [hs])
    · obtain rfl : s = (key, items) := by simpa using hs
      have hentries := h.entries (key, items ++ more) (by simp)
      rw [List.map_append] at hentries
      exact (List.nodup_append.mp hentries).1
  · have hmembers := h.members org package
    rw [members_snoc, List.map_append] at hmembers ⊢
    refine hmembers.sublist (List.Sublist.append_left ?_ _)
    by_cases hin : key.org = org ∧ key.package = package
    · have hsmall : Section.In org package (key, items) := hin
      have hlarge : Section.In org package (key, items ++ more) := hin
      rw [if_pos hsmall, if_pos hlarge]
      cases hm : key.sub with
      | none => simp [Section.entries, hm]
      | some m => simp [Section.entries, hm]
    · have hsmall : ¬ Section.In org package (key, items) := hin
      rw [if_neg hsmall]
      exact List.nil_sublist _

/-- The tables of a section, one header at a time. -/
theorem buildSections_parts {pre : List Section} {key : ModuleKey} {parts : List (String × Part)} {items : Entries}
    {rest : List Statement} (hparts : ∀ e ∈ parts, e.2.Headed) (hnames : ∀ e ∈ parts, (e.2.members.map (·.1)).Nodup)
    (hrest : StartHeaded rest) (h : Fits (pre ++ [(key, items ++ entriesOf parts)])) :
    buildSections (parts.flatMap (fun e => e.2.statements key.names e.1) ++ rest) (grown (pre ++ [(key, items)])) =
      buildSections rest (grown (pre ++ [(key, items ++ entriesOf parts)])) := by
  -- On the tables still to come, for any entries that the module has so far.
  induction parts generalizing items with
  | nil => simp [entriesOf]
  | cons e parts ih =>
    have hcut : items ++ entriesOf (e :: parts) = (items ++ [(e.1, e.2.item)]) ++ entriesOf parts := by simp [entriesOf]
    have hparts' : ∀ e' ∈ parts, e'.2.Headed := fun e' he' => hparts e' (List.mem_cons_of_mem e he')
    rw [hcut] at h
    obtain ⟨f, hf, hbuild⟩ := buildSections_part (hparts e (by simp)) (hnames e (by simp)) key.names e.1
      (startHeaded_parts hparts' key.names hrest)
    rw [List.flatMap_cons, List.append_assoc, hbuild, under_names h.shorten hf, Option.bind_some, hcut]
    exact ih hparts' (fun e' he' => hnames e' (List.mem_cons_of_mem e he')) h

end Toml

/-- The values of the plot come before its tables, and no table of it names a member twice. -/
structure Plot.Ordered (p : Plot) : Prop where
  values_first : p.parts.Pairwise fun a b => a.2.Headed → b.2.Headed
  members : ∀ e ∈ p.parts, (e.2.members.map (·.1)).Nodup

/-- Values up to the first table, and tables from there on. -/
theorem exists_values {parts : List (String × Part)} (h : parts.Pairwise fun a b => a.2.Headed → b.2.Headed) :
    ∃ (values : List (String × Data)) (tables : List (String × Part)),
      parts = values.map (fun m => (m.1, .value m.2)) ++ tables ∧ ∀ e ∈ tables, e.2.Headed := by
  induction parts with
  | nil => exact ⟨[], [], rfl, by simp⟩
  | cons e parts ih =>
    obtain ⟨name, part⟩ := e
    obtain ⟨hfirst, hparts⟩ := List.pairwise_cons.mp h
    cases part with
    | value d =>
      obtain ⟨values, tables, rfl, htables⟩ := ih hparts
      exact ⟨(name, d) :: values, tables, rfl, htables⟩
    | table members =>
      refine ⟨[], _, rfl, fun e he => ?_⟩
      rcases List.mem_cons.mp he with rfl | he
      · trivial
      · exact hfirst e he trivial
    | row members =>
      refine ⟨[], _, rfl, fun e he => ?_⟩
      rcases List.mem_cons.mp he with rfl | he
      · trivial
      · exact hfirst e he trivial

namespace Toml

theorem buildSections_plot {pre : List Section} {p : Plot} (hp : p.Ordered) {rest : List Statement}
    (hrest : StartHeaded rest) (h : Fits (pre ++ [p.section])) :
    buildSections (p.statements ++ rest) (grown pre) = buildSections rest (grown (pre ++ [p.section])) := by
  obtain ⟨values, tables, hparts, htables⟩ := exists_values hp.values_first
  have hnames : ∀ e ∈ tables, (e.2.members.map (·.1)).Nodup := fun e he => hp.members e (by simp [hparts, he])
  have hentries : entriesOf p.parts = leafEntries values ++ entriesOf tables := by
    simp [hparts, entriesOf, leafEntries, Part.item]
  have hstatements : p.statements ++ rest = .table p.key.names ::
      (stated values ++ (tables.flatMap (fun e => e.2.statements p.key.names e.1) ++ rest)) := by
    have hvalues : values.flatMap (fun m => [Statement.binding [m.1] m.2]) = stated values := List.map_eq_flatMap.symm
    simp [Plot.statements, hparts, Part.statements, List.flatMap_map, hvalues]
  rw [Plot.section, hentries] at h ⊢
  rw [hstatements, buildSections_table _ _ (startHeaded_parts htables _ hrest), openAt_names h.shorten, Option.bind_some]
  exact buildSections_parts htables hnames hrest h

theorem startHeaded_plots (plots : List Plot) : StartHeaded (plots.flatMap Plot.statements) := by
  cases plots with
  | nil => rfl
  | cons p plots => rfl

/-- Section after section, from the document of any modules before. -/
theorem buildSections_plots {pre : List Section} {plots : List Plot} (hplots : ∀ p ∈ plots, p.Ordered)
    (h : Fits (pre ++ plots.map Plot.section)) :
    buildSections (plots.flatMap Plot.statements) (grown pre) = some (grown (pre ++ plots.map Plot.section)) := by
  induction plots generalizing pre with
  | nil => simp [buildSections]
  | cons p plots ih =>
    have hcut : pre ++ (p :: plots).map Plot.section = (pre ++ [p.section]) ++ plots.map Plot.section := by simp
    rw [hcut] at h ⊢
    rw [List.flatMap_cons, buildSections_plot (hplots p (by simp)) (startHeaded_plots plots) h.left]
    exact ih (fun q hq => hplots q (List.mem_cons_of_mem p hq)) h

/-! ## (4) The tree -/

theorem data_tableOf (members : List (String × Data)) :
    Data.table (dataEntries (leafEntries members)) true = tableOf members := by
  simp [dataEntries_eq, leafEntries, tableOf, Item.data]

theorem data_item (p : Part) : p.item.data = p.data := by
  cases p with
  | value d => rfl
  | table members => exact data_tableOf members
  | row members =>
    rw [Part.item, Item.data, dataRows_eq, List.map_singleton, data_tableOf]
    rfl

theorem data_tabulate {names : List String} {item : String → Item} {data : String → Data}
    (h : ∀ name ∈ names, (item name).data = data name) :
    Data.table (dataEntries (tabulate names item)) true = tableOf (names.map fun name => (name, data name)) := by
  rw [dataEntries_eq, tabulate, tableOf, List.map_map, List.map_map]
  refine congrArg (Data.table · true) (List.map_congr_left fun name hname => ?_)
  simp [h name hname]

theorem data_entries (p : Plot) : p.section.entries.map (fun e => (e.1, e.2.data)) = p.added := by
  have hentries : (entriesOf p.parts).map (fun e => (e.1, e.2.data)) = p.members := by
    simp [entriesOf, Plot.members, data_item]
  unfold Section.entries Plot.added Plot.section
  cases p.key.sub with
  | none => exact hentries
  | some m =>
    have htable : (Item.table .header (entriesOf p.parts)).data = tableOf p.members := by
      rw [Item.data, dataEntries_eq, tableOf, ← hentries, List.map_map]
      rfl
    simp [htable]

theorem data_members (plots : List Plot) (org package : String) :
    Data.table (dataEntries (members (plots.map Plot.section) org package)) true =
      tableOf (packageMembers plots org package) := by
  have hadded : (members (plots.map Plot.section) org package).map (fun e => (e.1, e.2.data)) =
      packageMembers plots org package := by
    rw [members, packageMembers, List.filter_map, List.flatMap_map, List.map_flatMap]
    exact List.flatMap_congr fun p _ => data_entries p
  rw [dataEntries_eq, tableOf, ← hadded, List.map_map]
  rfl

theorem data_grown (plots : List Plot) :
    Data.table (dataEntries (grown (plots.map Plot.section))) true = tree plots := by
  have hkeys : keysOf (plots.map Plot.section) = plots.map (·.key) := by simp [keysOf, Plot.section, Function.comp_def]
  unfold grown tree
  rw [hkeys]
  refine data_tabulate fun org _ => ?_
  rw [Item.data, packageTables, hkeys]
  refine data_tabulate fun package _ => ?_
  rw [Item.data, data_members]

theorem keys_entries (p : Plot) :
    p.section.entries.map (·.1) = (match p.key.sub with
      | none => p.parts.map (·.1)
      | some m => [m]) := by
  unfold Section.entries Plot.section
  cases p.key.sub with
  | none => simp [entriesOf]
  | some m => rfl

/-- Two modules of a package add different names to it. -/
theorem disjoint_entries {p q : Plot} (ho : p.key.org = q.key.org) (hp : p.key.package = q.key.package)
    (hpq : p.key ≠ q.key) (hroot : p.key.sub = none → ∀ m ∈ q.key.sub, m ∉ p.parts.map (·.1))
    (hroot' : q.key.sub = none → ∀ m ∈ p.key.sub, m ∉ q.parts.map (·.1)) :
    List.Disjoint (p.section.entries.map (·.1)) (q.section.entries.map (·.1)) := by
  have hsub : p.key.sub ≠ q.key.sub := by
    intro e
    exact hpq (ModuleKey.names_inj (by rw [ModuleKey.names, ModuleKey.names, ho, hp, e]))
  rw [keys_entries, keys_entries]
  cases hm : p.key.sub with
  | none =>
    cases hn : q.key.sub with
    | none => exact absurd (hm.trans hn.symm) hsub
    | some n => exact List.disjoint_singleton.mpr (hroot hm n hn)
  | some m =>
    cases hn : q.key.sub with
    | none => exact List.singleton_disjoint.mpr (hroot' hn m hm)
    | some n =>
      refine List.disjoint_singleton.mpr fun hmem => hsub ?_
      rw [hm, hn, List.mem_singleton.mp hmem]

/-- Different modules, with different names in each, make a document that fits if no part
    of a root module is named like another module of its package. -/
theorem fits_sections {plots : List Plot} (hkeys : (plots.map (·.key)).Nodup)
    (hnames : ∀ p ∈ plots, (p.parts.map (·.1)).Nodup)
    (hroots : ∀ p ∈ plots, p.key.sub = none → ∀ q ∈ plots, q.key.org = p.key.org → q.key.package = p.key.package →
      ∀ m ∈ q.key.sub, m ∉ p.parts.map (·.1)) : Fits (plots.map Plot.section) := by
  refine ⟨by simpa [keysOf, Plot.section, Function.comp_def] using hkeys, fun s hs => ?_, fun org package => ?_⟩
  · obtain ⟨p, hp, rfl⟩ := List.mem_map.mp hs
    simpa [Plot.section, entriesOf, Function.comp_def] using hnames p hp
  · rw [members, List.filter_map, List.flatMap_map, List.map_flatMap, List.nodup_flatMap]
    have hmem : ∀ p ∈ plots.filter ((fun s => decide (Section.In org package s)) ∘ Plot.section),
        p ∈ plots ∧ p.key.org = org ∧ p.key.package = package := by
      intro p hp
      obtain ⟨hp, hin⟩ := List.mem_filter.mp hp
      exact ⟨hp, of_decide_eq_true hin⟩
    refine ⟨fun p hp => ?_, ?_⟩
    · rw [keys_entries]
      cases p.key.sub with
      | none => exact hnames p (hmem p hp).1
      | some m => simp
    · refine ((List.pairwise_map.mp hkeys).filter _).imp_of_mem fun {p q} hp hq hpq => ?_
      obtain ⟨hp, hpo, hpp⟩ := hmem p hp
      obtain ⟨hq, hqo, hqp⟩ := hmem q hq
      exact disjoint_entries (hpo.trans hqo.symm) (hpp.trans hqp.symm) hpq
        (fun h => hroots p hp h q hq (hqo.trans hpo.symm) (hqp.trans hpp.symm))
        (fun h => hroots q hq h p hp (hpo.trans hqo.symm) (hpp.trans hqp.symm))

/-- Sections that fit together are the document of the tree. -/
theorem build_plots {plots : List Plot} (hplots : ∀ p ∈ plots, p.Ordered) (h : Fits (plots.map Plot.section)) :
    (build (plots.flatMap Plot.statements)).map (fun es => Data.table (dataEntries es) true) = some (tree plots) := by
  have hbuild : buildSections (plots.flatMap Plot.statements) [] = some (grown (plots.map Plot.section)) :=
    @buildSections_plots [] plots hplots h
  rw [build, startHeaded_plots, putAll, Option.bind_some, hbuild]
  exact congrArg some (data_grown plots)

end Toml

end ConfigTemplate
