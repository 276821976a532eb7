/-
  ConfigTemplate.Proofs.Denotation — the table that a template denotes.

  (1) `Variable.part?`, `Group.plot`: what each required variable stands for, and all that
      a group does.
  (2) `reads_fields`, `reads_shape`, `reads_variable`: the lines of a variable are read as
      its part.
  (3) `commentOut_read`, `section_read`, `sections_read`: optional entries that are commented
      out line by line are read as nothing, and so sections as their required entries.
  (4) `template_denotes_its_tree`: a template whose headers come last in each module is a
      document, and denotes the table of its modules.
-/
import ConfigTemplate.Proofs.Reading
import ConfigTemplate.Proofs.Sections

namespace ConfigTemplate

open Toml (Statement Denotes Dotted Trail PlainLine Reads stated plainLine_append reads_nil reads_binding reads_table
  reads_row reads_comment reads_blank reads_flatMap)
open Text (unlines unlines_nil unlines_cons unlines_append)

/-! ## (1) Parts -/

/-- A scalar field with its example value; other fields are not shown. -/
def fieldValue? (f : String × Ty) : Option (String × Data) :=
  match f.2.core with
  | .scalar s => some (f.1, s.value)
  | _ => none

/-- What a shape stands for, unless it has no form. -/
def Shape.part? : Shape → Option Part
  | .scalar s => some (.value s.value)
  | .document d => some (.value d.value)
  | .array s => some (.value s.arrayValue)
  | .map s => some (.table [("key1", s.mapValues.1), ("key2", s.mapValues.2)])
  | .record fields => some (.table (fields.filterMap fieldValue?))
  | .rows fields => some (.row (fields.filterMap fieldValue?))
  | .none _ => Option.none

def Variable.part? (v : Variable) : Option (String × Part) :=
  match v.type.shape? with
  | .ok shape => shape.part?.map fun p => (v.name, p)
  | .error _ => none

/-- The module and its required variables that have a form. -/
def Group.plot (g : Group) : Plot := ⟨g.key, g.required.filterMap Variable.part?⟩

namespace Template

/-! ## (2) Variables -/

theorem trail_type {kind : String} (h : PlainLine kind) : Trail (" # type: " ++ kind) := by
  have hcut : " # type: " = " # " ++ "type: " := rfl
  rw [hcut, String.append_assoc]
  exact Or.inr ⟨"type: " ++ kind, plainLine_append.mpr ⟨by decide, h⟩, rfl⟩

theorem reads_entry {name literal kind : String} {d : Data} (h : BareName name) (hd : Denotes literal d)
    (hk : PlainLine kind) : Reads [entry name literal kind] [.binding [name] d] := by
  rw [entry, String.append_assoc]
  exact reads_binding h hd (trail_type hk)

/-- An entry without a comment. -/
theorem reads_untyped {name literal : String} {d : Data} (h : BareName name) (hd : Denotes literal d) :
    Reads [name ++ " = " ++ literal] [.binding [name] d] := by
  simpa using reads_binding h hd (Or.inl rfl)

theorem plainLine_scalar (s : Scalar) : PlainLine s.name := by cases s <;> decide

theorem reads_fields {fields : Fields} (h : ∀ f ∈ fields, BareName f.1) :
    Reads (fields.filterMap scalarField?) (stated (fields.filterMap fieldValue?)) := by
  induction fields with
  | nil => exact reads_nil
  | cons f fields ih =>
    obtain ⟨name, t⟩ := f
    have hmore := ih fun f hf => h f (List.mem_cons_of_mem _ hf)
    cases ht : t.core with
    | scalar s =>
      have hline : scalarField? (name, t) = some (entry name s.literal s.name) := by simp [scalarField?, ht]
      have hvalue : fieldValue? (name, t) = some (name, s.value) := by simp [fieldValue?, ht]
      rw [List.filterMap_cons_some hline, List.filterMap_cons_some hvalue]
      exact (reads_entry (h (name, t) (by simp)) s.literal_denotes (plainLine_scalar s)).append hmore
    | _ =>
      have hline : scalarField? (name, t) = none := by simp [scalarField?, ht]
      have hvalue : fieldValue? (name, t) = none := by simp [fieldValue?, ht]
      rwa [List.filterMap_cons_none hline, List.filterMap_cons_none hvalue]

/-- The dotted name of a variable joins the names of its module and its own. -/
theorem qualify_eq (key : ModuleKey) (name : String) :
    key.qualify name = String.intercalate "." (key.names ++ [name]) := by
  rw [ModuleKey.qualify, ModuleKey.canonical_eq, ModuleKey.names]
  cases key.sub with
  | none => simp [String.intercalate_cons_cons, String.append_assoc]
  | some m => simp [String.intercalate_cons_cons, String.append_assoc]

theorem bare_names {key : ModuleKey} (h : key.Bare) : ∀ name ∈ key.names, BareName name := by
  intro name hname
  rcases List.mem_cons.mp hname with rfl | hname
  · exact h.org
  rcases List.mem_cons.mp hname with rfl | hname
  · exact h.package
  · exact h.sub name (Option.mem_toList.mp hname)

theorem names_few (key : ModuleKey) : key.names.length ≤ 3 := by
  unfold ModuleKey.names
  cases key.sub with
  | none => simp
  | some m => simp

theorem dotted_names {key : ModuleKey} (h : key.Bare) : Dotted key.names := by
  refine ⟨by simp [ModuleKey.names], bare_names h, ?_⟩
  have hfew := names_few key
  unfold Toml.limit
  omega

theorem dotted_path {key : ModuleKey} (h : key.Bare) {name : String} (hn : BareName name) :
    Dotted (key.names ++ [name]) := by
  refine ⟨by simp, List.forall_mem_append.mpr ⟨bare_names h, by simpa using hn⟩, ?_⟩
  have hfew := names_few key
  rw [List.length_append, List.length_singleton]
  unfold Toml.limit
  omega

/-- The lines of a shape are read as the statements of its part. -/
theorem reads_shape {key : ModuleKey} {name : String} {shape : Shape} (hk : key.Bare) (hn : BareName name)
    (hf : ∀ fields, shape = .record fields ∨ shape = .rows fields → ∀ f ∈ fields, BareName f.1) :
    Reads ((header? (key.qualify name) shape).toList ++ entries name shape)
      (shape.part?.toList.flatMap (·.statements key.names name)) := by
  have hpath := dotted_path hk hn
  rw [qualify_eq]
  cases shape with
  | scalar s => exact reads_entry hn s.literal_denotes (plainLine_scalar s)
  | document d => exact reads_entry hn d.literal_denotes (by cases d <;> decide)
  | array s =>
    cases s with
    | string => exact reads_untyped hn Scalar.string.arrayLiteral_denotes
    | boolean | byte | int | float | decimal => exact reads_entry hn (Scalar.arrayLiteral_denotes _) (by decide)
  | map s =>
    have hfirst : Reads ["key1 = " ++ s.mapLiterals.1] [.binding ["key1"] s.mapValues.1] :=
      reads_untyped (show BareName "key1" by decide) s.mapLiterals_denote.1
    have hsecond : Reads ["key2 = " ++ s.mapLiterals.2] [.binding ["key2"] s.mapValues.2] :=
      reads_untyped (show BareName "key2" by decide) s.mapLiterals_denote.2
    have hheader := reads_table hpath (trail_type (plainLine_scalar s))
    have hcut : "] # type: " = "]" ++ " # type: " := rfl
    have hline : ∀ path, header? path (.map s) = some ("[" ++ path ++ "]" ++ (" # type: " ++ s.name)) := by
      intro path
      rw [header?, hcut]
      simp only [String.append_assoc]
    rw [hline]
    exact hheader.append (hfirst.append hsecond)
  | record fields =>
    have hheader := reads_table hpath (Or.inl rfl)
    simpa [header?, entries, Shape.part?, Part.statements] using
      hheader.append (reads_fields (hf fields (Or.inl rfl)))
  | rows fields =>
    have hheader := reads_row hpath
    simpa [header?, entries, Shape.part?, Part.statements] using
      hheader.append (reads_fields (hf fields (Or.inr rfl)))
  | none why => simpa [header?, entries, Shape.part?] using reads_nil

/-- The lines of a variable. -/
def linesOfVariable (key : ModuleKey) (v : Variable) : List String :=
  match v.type.shape? with
  | .ok shape => (header? (key.qualify v.name) shape).toList ++ entries v.name shape
  | .error _ => []

theorem reads_variable {key : ModuleKey} {v : Variable} (hk : key.Bare) (hn : BareName v.name)
    (hf : ∀ fields, v.type.Shows fields → ∀ f ∈ fields, BareName f.1) :
    Reads (linesOfVariable key v) (v.part?.toList.flatMap fun e => e.2.statements key.names e.1) := by
  unfold linesOfVariable Variable.part?
  cases hs : v.type.shape? with
  | error kind => exact reads_nil
  | ok shape =>
    have hshape := reads_shape hk hn fun fields e => hf fields (Ty.shows_of_shape? hs e)
    cases hp : shape.part? with
    | none => simpa [hp] using hshape
    | some p => simpa [hp] using hshape

theorem fragments_lines {key : ModuleKey} {vs : List Variable} {texts : List String}
    (h : (fragments key vs).result = .ok texts) : texts = vs.map fun v => unlines (linesOfVariable key v) := by
  induction vs generalizing texts with
  | nil => simpa [fragments, eq_comm] using h
  | cons v vs ih =>
    obtain ⟨first, more, hfirst, hmore, rfl⟩ := fragments_ok_cons.mp h
    obtain ⟨shape, hs, hshape⟩ := fragment_ok_iff.mp hfirst
    rw [ih hmore, ofShape_ok hshape, List.map_cons, linesOfVariable, hs]

theorem join_unlines (as : List α) (lines : α → List String) :
    String.join (as.map fun a => unlines (lines a)) = unlines (as.flatMap lines) := by
  induction as with
  | nil => simp [unlines_nil]
  | cons a as ih => rw [List.map_cons, String.join_cons, ih, List.flatMap_cons, unlines_append]

/-! ## (3) Sections -/

theorem reads_comments {ls : List String} (h : ∀ l ∈ ls, PlainLine l) : Reads (ls.map ("# " ++ ·)) [] := by
  induction ls with
  | nil => exact reads_nil
  | cons l ls ih => exact (reads_comment (h l (by simp))).append (ih fun m hm => h m (List.mem_cons_of_mem l hm))

/-- Plain lines that are commented out are read as nothing. -/
theorem commentLines_read {ls : List String} (h : ∀ l ∈ ls, PlainLine l) :
    ∃ ms, commentLines ls = unlines ms ∧ Reads ms [] := by
  cases ls with
  | nil => exact ⟨[], unlines_nil.symm, reads_nil⟩
  | cons first rest =>
    have hfirst : PlainLine (first ++ mark) := plainLine_append.mpr ⟨h first (by simp), by decide⟩
    refine ⟨("# " ++ (first ++ mark)) :: rest.map ("# " ++ ·), ?_, ?_⟩
    · simp only [commentLines, commentLine, unlines, List.map_cons, List.map_map, String.join_cons, Function.comp_def]
      rfl
    · exact (reads_comment hfirst).append (reads_comments fun l hl => h l (List.mem_cons_of_mem first hl))

/-- Whole texts of plain lines are commented out, one after the other. -/
theorem commentOut_read {texts : List String} (h : ∀ t ∈ texts, ∃ ls, t = unlines ls ∧ ∀ l ∈ ls, PlainLine l) :
    ∃ ms, String.join (texts.map (commentOut .commentEachLine)) = unlines ms ∧ Reads ms [] := by
  induction texts with
  | nil => exact ⟨[], unlines_nil.symm, reads_nil⟩
  | cons t texts ih =>
    obtain ⟨ls, rfl, hls⟩ := h t (by simp)
    obtain ⟨first, hfirst, hread⟩ := commentLines_read hls
    obtain ⟨more, hmore, hreads⟩ := ih fun t ht => h t (List.mem_cons_of_mem _ ht)
    refine ⟨first ++ more, ?_, hread.append hreads⟩
    rw [List.map_cons, String.join_cons, hmore, unlines_append, commentOut,
      Text.linesOf_unlines fun l hl => (hls l hl).oneLine.isLine, hfirst]

theorem optional_read {o : Options} {g : Group} {texts : List String}
    (ho : o.includeOptional = false ∨ o.style = .commentEachLine) (hb : g.Bare)
    (h : (optionalFragments o g).result = .ok texts) :
    ∃ ms, String.join (texts.map (commentOut o.style)) = unlines ms ∧ Reads ms [] := by
  unfold optionalFragments at h
  cases hi : o.includeOptional with
  | false =>
    obtain rfl : texts = [] := by simpa [hi, eq_comm] using h
    exact ⟨[], unlines_nil.symm, reads_nil⟩
  | true =>
    have hstyle : o.style = .commentEachLine := by simpa [hi] using ho
    obtain ⟨all, hall, rfl⟩ : ∃ all, (fragments g.key g.optional).result = .ok all ∧ all.filter (· != "") = texts := by
      simpa [hi] using h
    rw [hstyle]
    refine commentOut_read fun t ht => ?_
    rw [fragments_lines hall] at ht
    obtain ⟨v, hv, rfl⟩ := List.mem_map.mp (List.mem_filter.mp ht).1
    have hmem : v ∈ g.members := (List.mem_filter.mp hv).1
    exact ⟨_, rfl, (reads_variable hb.key (hb.names v hmem) (hb.fields v hmem)).plain⟩

theorem plot_statements (g : Group) : g.plot.statements =
    .table g.key.names :: g.required.flatMap fun v => v.part?.toList.flatMap fun e => e.2.statements g.key.names e.1 := by
  rw [Plot.statements, Group.plot, List.filterMap_eq_flatMap_toList, List.flatMap_assoc]

/-- A section is read as its header and its required entries. -/
theorem section_read {o : Options} {g : Group} {text : String}
    (ho : o.includeOptional = false ∨ o.style = .commentEachLine) (hb : g.Bare)
    (h : (moduleSection o g).result = .ok text) :
    ∃ ls, text = unlines (("[" ++ (g.key.canonical ++ "]")) :: ls) ∧
      Reads (("[" ++ (g.key.canonical ++ "]")) :: ls) g.plot.statements := by
  obtain ⟨required, optional, hreq, hopt, rfl⟩ := moduleSection_ok.mp h
  obtain ⟨ms, hms, hcomments⟩ := optional_read ho hb hopt
  have hheader : Reads ["[" ++ (g.key.canonical ++ "]")] [.table g.key.names] := by
    have hread := reads_table (dotted_names hb.key) (Or.inl rfl)
    rwa [← ModuleKey.canonical_eq, String.append_empty, String.append_assoc] at hread
  have hentries : Reads (g.required.flatMap (linesOfVariable g.key))
      (g.required.flatMap fun v => v.part?.toList.flatMap fun e => e.2.statements g.key.names e.1) := by
    refine reads_flatMap fun v hv => ?_
    have hmem : v ∈ g.members := (List.mem_filter.mp hv).1
    exact reads_variable hb.key (hb.names v hmem) (hb.fields v hmem)
  refine ⟨g.required.flatMap (linesOfVariable g.key) ++ (ms ++ [""]), ?_, ?_⟩
  · have hclose : "]\n" = "]" ++ "\n" := rfl
    rw [hms, fragments_lines hreq, join_unlines, unlines_cons, unlines_append, unlines_append, hclose]
    simp [unlines_cons, unlines_nil, String.append_assoc]
  · rw [plot_statements]
    simpa using hheader.append (hentries.append (hcomments.append reads_blank))

theorem sections_read {o : Options} {gs : List Group} {text : String}
    (ho : o.includeOptional = false ∨ o.style = .commentEachLine) (hb : ∀ g ∈ gs, g.Bare)
    (h : (sections o gs).result = .ok text) :
    ∃ ls, text = unlines ls ∧ Reads ls (gs.flatMap fun g => g.plot.statements) ∧
      (ls = [] ∨ ∃ l rest, ls = ("[" ++ l) :: rest) := by
  induction gs generalizing text with
  | nil =>
    have he : "" = text := by simpa [sections] using h
    exact ⟨[], by rw [← he, unlines_nil], reads_nil, Or.inl rfl⟩
  | cons g gs ih =>
    obtain ⟨first, more, hfirst, hmore, rfl⟩ := sections_ok_cons.mp h
    obtain ⟨ls, rfl, hls⟩ := section_read ho (hb g (by simp)) hfirst
    obtain ⟨ms, rfl, hms, -⟩ := ih (fun h hh => hb h (List.mem_cons_of_mem g hh)) hmore
    exact ⟨_, (unlines_append _ ms).symm, hls.append hms, Or.inr ⟨_, _, rfl⟩⟩

/-! ## (4) Templates -/

theorem part_eq {v : Variable} {name : String} {p : Part} (h : v.part? = some (name, p)) :
    name = v.name ∧ ∃ shape, v.type.shape? = .ok shape ∧ shape.part? = some p := by
  unfold Variable.part? at h
  cases hs : v.type.shape? with
  | error kind => simp [hs] at h
  | ok shape =>
    obtain ⟨hp, rfl⟩ : shape.part? = some p ∧ v.name = name := by simpa [hs] using h
    exact ⟨rfl, shape, rfl, hp⟩

/-- A part with a header is that of a type that opens a table, and a value that of one
    that takes a line. -/
theorem part_headed {v : Variable} {name : String} {p : Part} (h : v.part? = some (name, p)) :
    (p.Headed → v.type.OpensTable) ∧ (¬ v.type.Inline → p.Headed) := by
  obtain ⟨-, shape, hs, hp⟩ := part_eq h
  cases shape with
  | scalar s =>
    cases hp
    exact ⟨False.elim, fun hv => absurd (Ty.inline_of_shape? hs (Or.inl ⟨s, rfl⟩)) hv⟩
  | document d =>
    cases hp
    exact ⟨False.elim, fun hv => absurd (Ty.inline_of_shape? hs (Or.inr (Or.inl ⟨d, rfl⟩))) hv⟩
  | array s =>
    cases hp
    exact ⟨False.elim, fun hv => absurd (Ty.inline_of_shape? hs (Or.inr (Or.inr ⟨s, rfl⟩))) hv⟩
  | map s =>
    cases hp
    obtain ⟨value, hc, hv⟩ := Ty.shape?_map.mp hs
    exact ⟨fun _ => .map value s hc hv, fun _ => trivial⟩
  | record fields =>
    cases hp
    exact ⟨fun _ => .fields fields (Ty.shape?_fields.mp (Or.inl hs)), fun _ => trivial⟩
  | rows fields =>
    cases hp
    exact ⟨fun _ => .fields fields (Ty.shape?_fields.mp (Or.inr hs)), fun _ => trivial⟩
  | none why => cases hp

/-- What is picked from a list names some of it, in order. -/
theorem names_filterMap {f : α → Option (String × β)} {name : α → String} (h : ∀ a e, f a = some e → e.1 = name a)
    (as : List α) : ((as.filterMap f).map (·.1)).Sublist (as.map name) := by
  induction as with
  | nil => exact List.Sublist.refl _
  | cons a as ih =>
    cases ha : f a with
    | none =>
      rw [List.filterMap_cons_none ha, List.map_cons]
      exact ih.cons _
    | some e =>
      rw [List.filterMap_cons_some ha, List.map_cons, List.map_cons, h a e ha]
      exact ih.cons_cons _

/-- In the required variables of the group, names are different, and so are the names of
    the fields shown; no entry on one line comes after a table. -/
structure HeadersLast (g : Group) : Prop where
  names : (g.required.map (·.name)).Nodup
  fields : ∀ v ∈ g.required, ∀ fields, v.type.Shows fields → (fields.map (·.1)).Nodup
  order : g.required.Pairwise fun v w => v.type.OpensTable → ¬ w.type.Inline

/-- The fields that a template shows are some of the record's, in order. -/
theorem names_fields (fields : Fields) : ((fields.filterMap fieldValue?).map (·.1)).Sublist (fields.map (·.1)) := by
  refine names_filterMap (fun f e hf => ?_) fields
  unfold fieldValue? at hf
  split at hf
  · obtain rfl := Option.some.inj hf
    rfl
  · cases hf

theorem HeadersLast.ordered {g : Group} (h : HeadersLast g) : g.plot.Ordered := by
  refine ⟨?_, fun e he => ?_⟩
  · rw [Group.plot, List.pairwise_filterMap]
    exact h.order.imp fun hvw e he e' he' hh => (part_headed he').2 (hvw ((part_headed he).1 hh))
  · obtain ⟨v, hv, he⟩ := List.mem_filterMap.mp he
    obtain ⟨name, p⟩ := e
    obtain ⟨-, shape, hs, hp⟩ := part_eq he
    cases shape with
    | scalar s | document d | array s =>
      cases hp
      exact List.nodup_nil
    | map s =>
      cases hp
      show ["key1", "key2"].Nodup
      decide
    | record fields =>
      cases hp
      exact (h.fields v hv fields (Ty.shape?_fields.mp (Or.inl hs))).sublist (names_fields fields)
    | rows fields =>
      cases hp
      exact (h.fields v hv fields (Ty.shape?_fields.mp (Or.inr hs))).sublist (names_fields fields)
    | none why => cases hp

theorem fits_plots {gs : List Group} (hkeys : (gs.map (·.key)).Nodup) (hlast : ∀ g ∈ gs, HeadersLast g)
    (hroots : ∀ g ∈ gs, g.key.sub = none → ∀ h ∈ gs, h.key.org = g.key.org → h.key.package = g.key.package →
      ∀ v ∈ g.required, h.key.sub ≠ some v.name) : Toml.Fits ((gs.map Group.plot).map Plot.section) := by
  have hnames : ∀ g : Group, (g.plot.parts.map (·.1)).Sublist (g.required.map (·.name)) := fun g =>
    names_filterMap (fun v e he => (part_eq he).1) g.required
  refine Toml.fits_sections ?_ (fun p hp => ?_) fun p hp hsub q hq ho hpk m hm hmem => ?_
  · simpa [Group.plot, Function.comp_def] using hkeys
  · obtain ⟨g, hg, rfl⟩ := List.mem_map.mp hp
    exact (hlast g hg).names.sublist (hnames g)
  · obtain ⟨g, hg, rfl⟩ := List.mem_map.mp hp
    obtain ⟨h, hh, rfl⟩ := List.mem_map.mp hq
    obtain ⟨v, hv, hname⟩ := List.mem_map.mp ((hnames g).subset hmem)
    exact hroots g hg hsub h hh ho hpk v hv (hname ▸ hm)

/-- With optional entries left out or commented out line by line, a template with bare
    names is a document, and denotes the table that holds, at the organization, package
    and module of each group, the example value of each required variable that has a
    form. In each group headers come last, and no required variable of a root module is
    named like another module of its package. -/
theorem template_denotes_its_tree (o : Options) (gs : List Group) (d : String)
    (ho : o.includeOptional = false ∨ o.style = .commentEachLine) (hkeys : (gs.map (·.key)).Nodup)
    (hbare : ∀ g ∈ gs, g.Bare) (hlast : ∀ g ∈ gs, HeadersLast g)
    (hroots : ∀ g ∈ gs, g.key.sub = none → ∀ h ∈ gs, h.key.org = g.key.org → h.key.package = g.key.package →
      ∀ v ∈ g.required, h.key.sub ≠ some v.name)
    (hd : (document o gs).result = .ok d) : Toml.read d = some (tree (gs.map Group.plot)) := by
  obtain ⟨ls, rfl, hls, hstart⟩ := sections_read ho hbare (document_ok.mp hd)
  have hplots : ∀ p ∈ gs.map Group.plot, p.Ordered := by
    intro p hp
    obtain ⟨g, hg, rfl⟩ := List.mem_map.mp hp
    exact (hlast g hg).ordered
  have hbuild := Toml.build_plots hplots (fits_plots hkeys hlast hroots)
  rw [List.flatMap_map] at hbuild
  rw [Toml.read_unlines hls hstart]
  exact hbuild

def pool : Variable := ⟨"pool", .table (.record [("size", .scalar .byte)]), true⟩

def limits : Variable := ⟨"limits", .map (.scalar .int), true⟩

/-- A module with rows and an optional flag. -/
def database : Group :=
  ⟨⟨"acme", "web", some "db", Eq.refl false, Eq.refl false, by decide⟩, [⟨"debug", .scalar .boolean, false⟩, port, pool]⟩

/-- The root module of the same package, with a map. -/
def website : Group :=
  ⟨⟨"acme", "web", none, Eq.refl false, Eq.refl false, ModuleKey.sub_named_none _⟩, [⟨"title", .scalar .string, true⟩, limits]⟩

theorem database_plain : database.Bare ∧ HeadersLast database := by
  have hshown : ∀ v ∈ database.members, ∀ fields, v.type.Shows fields → fields = [("size", .scalar .byte)] := by
    intro v hv fields hs
    have hshape := Ty.shape?_fields.mpr hs
    have hv : v = ⟨"debug", .scalar .boolean, false⟩ ∨ v = port ∨ v = pool := by simpa [database] using hv
    rcases hv with rfl | rfl | rfl
    · simp [Ty.shape?] at hshape
    · simp [port, Ty.shape?] at hshape
    · simpa [pool, Ty.shape?, Ty.tableShape?, Ty.core, eq_comm] using hshape
  refine ⟨⟨⟨by decide, by decide, by decide⟩, by decide, fun v hv fields hs => ?_⟩,
    ⟨by decide, fun v hv fields hs => ?_, ?_⟩⟩
  · rw [hshown v hv fields hs]
    decide
  · rw [hshown v (List.mem_filter.mp hv).1 fields hs]
    decide
  · have hpool : ¬ pool.type.Inline := by
      intro h
      rcases h.shape? with ⟨_, hs⟩ | ⟨_, hs⟩ | ⟨_, hs⟩ <;> cases hs
    show [port, pool].Pairwise fun v w => v.type.OpensTable → ¬ w.type.Inline
    simp [hpool]

theorem website_plain : website.Bare ∧ HeadersLast website := by
  have hshown : ∀ v ∈ website.members, ∀ fields, ¬ v.type.Shows fields := by
    intro v hv fields hs
    have hshape := Ty.shape?_fields.mpr hs
    have hv : v = ⟨"title", .scalar .string, true⟩ ∨ v = limits := by simpa [website] using hv
    rcases hv with rfl | rfl
    · simp [Ty.shape?] at hshape
    · simp [limits, Ty.shape?, Ty.mapShape, Ty.core] at hshape
  refine ⟨⟨⟨by decide, by decide, by decide⟩, by decide, fun v hv fields hs => absurd hs (hshown v hv fields)⟩,
    ⟨by decide, fun v hv fields hs => absurd hs (hshown v (List.mem_filter.mp hv).1 fields), ?_⟩⟩
  have hlimits : ¬ limits.type.Inline := by
    intro h
    rcases h.shape? with ⟨_, hs⟩ | ⟨_, hs⟩ | ⟨_, hs⟩ <;> cases hs
  show [⟨"title", .scalar .string, true⟩, limits].Pairwise fun v w : Variable => v.type.OpensTable → ¬ w.type.Inline
  simp [hlimits]

def databaseThenWebsite : String :=
  "[acme.web.db]\nport = 12 # type: int\n[[acme.web.db.pool]]\nsize = 10 # type: byte\n" ++
  "# debug = true # type: boolean (optional)\n\n" ++
  "[acme.web]\ntitle = \"str1\" # type: string\n[acme.web.limits] # type: int\nkey1 = 1\nkey2 = 9090\n\n"

def databaseInWebsite : Data :=
  tableOf [("acme", tableOf [("web", tableOf [
    ("db", tableOf [("port", .number (.integer 12)), ("pool", .list [tableOf [("size", .number (.integer 10))]] true)]),
    ("title", .text (some "str1")),
    ("limits", tableOf [("key1", .number (.integer 1)), ("key2", .number (.integer 9090))])])])]

theorem database_in_website :
    (document ⟨.commentEachLine, true⟩ [database, website]).result = .ok databaseThenWebsite ∧
    tree ([database, website].map Group.plot) = databaseInWebsite ∧
    Toml.read databaseThenWebsite = some databaseInWebsite := by
  have hbare : ∀ g ∈ [database, website], g.Bare := by simp [database_plain.1, website_plain.1]
  have hlast : ∀ g ∈ [database, website], HeadersLast g := by simp [database_plain.2, website_plain.2]
  exact ⟨rfl, rfl, template_denotes_its_tree ⟨.commentEachLine, true⟩ [database, website] databaseThenWebsite
    (Or.inr rfl) (by decide) hbare hlast (by decide) rfl⟩

end Template

end ConfigTemplate
