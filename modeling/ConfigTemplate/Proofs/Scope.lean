/-
  ConfigTemplate.Proofs.Scope — the table that an entry of a template belongs to.

  (1) `headerAbove`: the last line before an entry that starts with a bracket.
  (2) Bare names (`BareName`, `Group.Bare`): they stay on one line and look like no
      header.
  (3) `headers_fragment`, `headers_fragments`: the headers in the fragments of a module.
  (4) `entry_under_last_header`: a required entry on one line stands under the last
      header opened before it in its own module. That is the module's own header
      exactly when no variable before it opens a table.
  (5) `entry_after_a_record_leaves_its_module`: so not every entry stands under its
      own module.
-/
import ConfigTemplate.Proofs.Layout
import ConfigTemplate.Proofs.Shape
import ConfigTemplate.Toml.Key

namespace ConfigTemplate

/-! ## (1) Headers above -/

namespace Text

/-- The line opens a table, or looks as if it did. -/
def opensTable (l : String) : Bool := l.toList.head? == some '['

def headersIn (s : String) : List String := (linesOf s).filter opensTable

/-- The header that stands last in a text. -/
def headerAbove (above : String) : Option String := (headersIn above).getLast?

theorem headersIn_append {s : String} (h : Whole s) (t : String) : headersIn (s ++ t) = headersIn s ++ headersIn t := by
  simp [headersIn, linesOf_append h]

theorem headersIn_unlines {ls : List String} (h : ∀ l ∈ ls, OneLine l) : headersIn (unlines ls) = ls.filter opensTable := by
  simp [headersIn, linesOf_unlines fun l hl => (h l hl).isLine]

end Text

/-! ## (2) Bare names -/

/-- The name can stand in a header or before an entry without quotes. -/
def BareName (name : String) : Prop := name ≠ "" ∧ ∀ c ∈ name.toList, Toml.isBare c = true

instance (name : String) : Decidable (BareName name) :=
  have := List.decidableBAll (fun c => Toml.isBare c = true) name.toList
  inferInstanceAs (Decidable (name ≠ "" ∧ ∀ c ∈ name.toList, Toml.isBare c = true))

structure ModuleKey.Bare (k : ModuleKey) : Prop where
  org : BareName k.org
  package : BareName k.package
  sub : ∀ m ∈ k.sub, BareName m

/-- The names that a group's section shows are bare. -/
structure Group.Bare (g : Group) : Prop where
  key : g.key.Bare
  names : ∀ v ∈ g.members, BareName v.name
  fields : ∀ v ∈ g.members, ∀ fields, v.type.Shows fields → ∀ f ∈ fields, BareName f.1

open Text (Whole whole_line OneLine oneLine_append opensTable headersIn headerAbove headersIn_append headersIn_unlines)

theorem BareName.oneLine {name : String} (h : BareName name) : OneLine name := by
  intro c hc
  have hb := h.2 c hc
  refine ⟨?_, ?_⟩
  · intro e
    exact absurd (e ▸ hb) (by decide)
  · intro e
    exact absurd (e ▸ hb) (by decide)

theorem BareName.not_opensTable {name : String} (h : BareName name) (rest : String) :
    opensTable (name ++ rest) = false := by
  unfold opensTable
  cases hn : name.toList with
  | nil => exact absurd (String.toList_eq_nil_iff.mp hn) h.1
  | cons c cs =>
    have hb := h.2 c (by simp [hn])
    have hc : c ≠ '[' := fun e => absurd (e ▸ hb) (by decide)
    simp [String.toList_append, hn, hc]

theorem ModuleKey.Bare.oneLine {k : ModuleKey} (h : k.Bare) : OneLine k.canonical := by
  have dot : OneLine "." := by decide
  unfold ModuleKey.canonical
  cases hs : k.sub with
  | none => simp [oneLine_append, h.org.oneLine, h.package.oneLine, dot]
  | some m => simp [oneLine_append, h.org.oneLine, h.package.oneLine, (h.sub m (by simp [hs])).oneLine, dot]

theorem ModuleKey.Bare.oneLine_qualify {k : ModuleKey} (h : k.Bare) {name : String} (hn : BareName name) :
    OneLine (k.qualify name) := by
  have dot : OneLine "." := by decide
  simp [ModuleKey.qualify, oneLine_append, h.oneLine, hn.oneLine, dot]

namespace Template

/-! ## (3) Headers of fragments -/

theorem opensTable_entry {name : String} (hn : BareName name) (value kind : String) :
    opensTable (entry name value kind) = false := by
  simpa [entry, String.append_assoc] using hn.not_opensTable (" = " ++ value ++ " # type: " ++ kind)

theorem oneLine_entry {name value kind : String} (hn : BareName name) (hv : OneLine value) (hk : OneLine kind) :
    OneLine (entry name value kind) := by
  have eq : OneLine " = " := by decide
  have type : OneLine " # type: " := by decide
  simp [entry, oneLine_append, hn.oneLine, hv, hk, eq, type]

/-- The line of a fragment under a header: on one line, and no header. -/
def IsEntry (l : String) : Prop := OneLine l ∧ opensTable l = false

theorem isEntry_entry {name value kind : String} (hn : BareName name) (hv : OneLine value) (hk : OneLine kind) :
    IsEntry (entry name value kind) := ⟨oneLine_entry hn hv hk, opensTable_entry hn value kind⟩

theorem isEntry_field {f : String × Ty} (hf : BareName f.1) {l : String} (h : scalarField? f = some l) : IsEntry l := by
  unfold scalarField? at h
  split at h
  · rename_i s _
    obtain rfl := Option.some.inj h
    exact isEntry_entry hf (by cases s <;> decide) (by cases s <;> decide)
  · cases h

theorem isEntry_array {name : String} (hn : BareName name) (s : Scalar) :
    ∃ line, arrayLine name s = line ++ "\n" ∧ entries name (.array s) = [line] ∧ IsEntry line := by
  cases s with
  | string =>
    refine ⟨name ++ " = " ++ Scalar.string.arrayLiteral, rfl, rfl, ?_, ?_⟩
    · have eq : OneLine " = " := by decide
      have hv : OneLine Scalar.string.arrayLiteral := by decide
      simp [oneLine_append, hn.oneLine, eq, hv]
    · simpa [String.append_assoc] using hn.not_opensTable (" = " ++ Scalar.string.arrayLiteral)
  | boolean | byte | int | float | decimal =>
    refine ⟨entry name _ _, ?_, rfl, isEntry_entry hn (by decide) (by decide)⟩
    simp [arrayLine, entry, String.append_assoc]

theorem isEntry_of_mem_entries {name : String} {shape : Shape} (hn : BareName name)
    (hf : ∀ fields, shape = .record fields ∨ shape = .rows fields → ∀ f ∈ fields, BareName f.1) :
    ∀ l ∈ entries name shape, IsEntry l := by
  intro l hl
  cases shape with
  | scalar s =>
    obtain rfl : l = _ := by simpa [entries] using hl
    exact isEntry_entry hn (by cases s <;> decide) (by cases s <;> decide)
  | document d =>
    obtain rfl : l = _ := by simpa [entries] using hl
    exact isEntry_entry hn (by cases d <;> decide) (by cases d <;> decide)
  | array s =>
    obtain ⟨line, -, he, hline⟩ := isEntry_array hn s
    obtain rfl : l = line := by simpa [he] using hl
    exact hline
  | map s =>
    have h : l = "key1 = " ++ s.mapLiterals.1 ∨ l = "key2 = " ++ s.mapLiterals.2 := by simpa [entries] using hl
    rcases h with rfl | rfl
    · cases s <;> exact ⟨by decide, by decide⟩
    · cases s <;> exact ⟨by decide, by decide⟩
  | record fields =>
    obtain ⟨f, hm, h⟩ := List.mem_filterMap.mp hl
    exact isEntry_field (hf fields (Or.inl rfl) f hm) h
  | rows fields =>
    obtain ⟨f, hm, h⟩ := List.mem_filterMap.mp hl
    exact isEntry_field (hf fields (Or.inr rfl) f hm) h
  | none why => simp [entries] at hl

theorem header?_line {path : String} {shape : Shape} (hp : OneLine path) {l : String} (h : header? path shape = some l) :
    OneLine l ∧ opensTable l = true := by
  have o1 : OneLine "[" := by decide
  have c1 : OneLine "]" := by decide
  have o2 : OneLine "[[" := by decide
  have c2 : OneLine "]]" := by decide
  have ct : OneLine "] # type: " := by decide
  cases shape with
  | map s =>
    obtain rfl := Option.some.inj h
    have hs : OneLine s.name := by cases s <;> decide
    exact ⟨by simp [oneLine_append, hp, o1, ct, hs], by simp [opensTable]⟩
  | record fields =>
    obtain rfl := Option.some.inj h
    exact ⟨by simp [oneLine_append, hp, o1, c1], by simp [opensTable]⟩
  | rows fields =>
    obtain rfl := Option.some.inj h
    exact ⟨by simp [oneLine_append, hp, o2, c2], by simp [opensTable]⟩
  | _ => cases h

/-- The header of the table that a variable opens, if it opens one. -/
def opened? (key : ModuleKey) (v : Variable) : Option String :=
  match v.type.shape? with
  | .ok shape => header? (key.qualify v.name) shape
  | .error _ => none

theorem headersIn_fragment {key : ModuleKey} {v : Variable} {text : String} (hk : key.Bare) (hn : BareName v.name)
    (hf : ∀ fields, v.type.Shows fields → ∀ f ∈ fields, BareName f.1) (h : (fragment key v).result = .ok text) :
    headersIn text = (opened? key v).toList := by
  obtain ⟨shape, hs, ht⟩ := fragment_ok_iff.mp h
  have he : ∀ l ∈ entries v.name shape, IsEntry l :=
    isEntry_of_mem_entries hn fun fields e => hf fields (Ty.shows_of_shape? hs e)
  have hh : ∀ l ∈ (header? (key.qualify v.name) shape).toList, OneLine l ∧ opensTable l = true := fun l hl =>
    header?_line (hk.oneLine_qualify hn) (by simpa using hl)
  rw [ofShape_ok ht, headersIn_unlines, List.filter_append]
  · rw [List.filter_eq_self.mpr fun l hl => (hh l hl).2, List.filter_eq_nil_iff.mpr fun l hl => by simp [(he l hl).2]]
    simp [opened?, hs]
  · intro l hl
    rcases List.mem_append.mp hl with hl | hl
    · exact (hh l hl).1
    · exact (he l hl).1

theorem headersIn_fragments {key : ModuleKey} {vs : List Variable} {texts : List String} (hk : key.Bare)
    (hn : ∀ v ∈ vs, BareName v.name)
    (hf : ∀ v ∈ vs, ∀ fields, v.type.Shows fields → ∀ f ∈ fields, BareName f.1)
    (h : (fragments key vs).result = .ok texts) : headersIn (String.join texts) = vs.filterMap (opened? key) := by
  induction vs generalizing texts with
  | nil =>
    have he : texts = [] := by simpa [fragments, eq_comm] using h
    simp [he, headersIn, Text.linesOf, Text.lines]
  | cons v rest ih =>
    obtain ⟨first, more, hv, hm, rfl⟩ := fragments_ok_cons.mp h
    have hhead := headersIn_fragment hk (hn v (by simp)) (hf v (by simp)) hv
    have htail := ih (fun w hw => hn w (by simp [hw])) (fun w hw => hf w (by simp [hw])) hm
    rw [String.join_cons, headersIn_append (whole_fragment hv), hhead, htail]
    cases ho : opened? key v <;> simp [ho]

/-! ## (4) Entries and the headers they stand under -/

def moduleHeader (key : ModuleKey) : String := "[" ++ key.canonical ++ "]"

/-- The header last opened in a module by the variables so far. -/
def lastHeader (key : ModuleKey) (earlier : List Variable) : String :=
  (earlier.filterMap (opened? key)).getLast?.getD (moduleHeader key)

theorem fragment_inline (key : ModuleKey) {v : Variable} (hn : BareName v.name) (hv : v.type.Inline) :
    ∃ line, (fragment key v).result = .ok (line ++ "\n") ∧ IsEntry line := by
  rcases hv.shape? with ⟨s, hs⟩ | ⟨d, hs⟩ | ⟨s, hs⟩
  · exact ⟨entry v.name s.literal s.name, fragment_ok_iff.mpr ⟨_, hs, rfl⟩,
      isEntry_entry hn (by cases s <;> decide) (by cases s <;> decide)⟩
  · exact ⟨entry v.name d.literal d.name, fragment_ok_iff.mpr ⟨_, hs, rfl⟩,
      isEntry_entry hn (by cases d <;> decide) (by cases d <;> decide)⟩
  · obtain ⟨line, hl, -, hline⟩ := isEntry_array hn s
    refine ⟨line, fragment_ok_iff.mpr ⟨_, hs, ?_⟩, hline⟩
    rw [← hl]
    rfl

theorem opened?_eq_none {key : ModuleKey} {v : Variable} : opened? key v = none ↔ ¬ v.type.OpensTable := by
  have hm := @Ty.shape?_map v.type
  have hf := @Ty.shape?_fields v.type
  constructor
  · intro h ht
    cases ht with
    | map value s hc hv =>
      have hs := hm.mpr ⟨value, hc, hv⟩
      simp [opened?, hs, header?] at h
    | fields fields ht =>
      rcases hf.mpr ht with hs | hs
      · simp [opened?, hs, header?] at h
      · simp [opened?, hs, header?] at h
  · intro h
    unfold opened?
    cases hs : v.type.shape? with
    | error kind => rfl
    | ok shape =>
      cases shape with
      | map s =>
        obtain ⟨value, hc, hv⟩ := hm.mp hs
        exact absurd (.map value s hc hv) h
      | record fields => exact absurd (.fields fields (hf.mp (Or.inl hs))) h
      | rows fields => exact absurd (.fields fields (hf.mp (Or.inr hs))) h
      | _ => rfl

/-- The header of a table in a module is not the module's own. -/
theorem opened?_ne_moduleHeader {key : ModuleKey} {v : Variable} {l : String} (h : opened? key v = some l) :
    l ≠ moduleHeader key := by
  have hlen : (moduleHeader key).length = key.canonical.length + 2 := by
    have o : "[".length = 1 := rfl
    have c : "]".length = 1 := rfl
    simp only [moduleHeader, String.length_append]
    omega
  have hl : key.canonical.length + 2 < l.length := by
    unfold opened? at h
    have o : "[".length = 1 := rfl
    have c : "]".length = 1 := rfl
    have o2 : "[[".length = 2 := rfl
    have c2 : "]]".length = 2 := rfl
    have ct : "] # type: ".length = 10 := rfl
    have dot : ".".length = 1 := rfl
    cases hs : v.type.shape? with
    | error kind => simp [hs] at h
    | ok shape =>
      rw [hs] at h
      cases shape with
      | map s | record fields | rows fields =>
        obtain rfl := Option.some.inj h
        simp only [ModuleKey.qualify, String.length_append]
        omega
      | _ => cases h
  intro e
  rw [e] at hl
  omega

theorem lastHeader_eq_moduleHeader {key : ModuleKey} {earlier : List Variable} :
    lastHeader key earlier = moduleHeader key ↔ ∀ w ∈ earlier, ¬ w.type.OpensTable := by
  have hnone : (∀ w ∈ earlier, ¬ w.type.OpensTable) ↔ earlier.filterMap (opened? key) = [] := by
    simp [List.filterMap_eq_nil_iff, opened?_eq_none]
  rw [hnone, lastHeader]
  cases hl : (earlier.filterMap (opened? key)).getLast? with
  | none => simpa using List.getLast?_eq_none_iff.mp hl
  | some l =>
    obtain ⟨w, -, hw⟩ := List.mem_filterMap.mp (List.mem_of_getLast? hl)
    have hne : earlier.filterMap (opened? key) ≠ [] := by
      intro e
      simp [e] at hl
    simp [opened?_ne_moduleHeader hw, hne]

theorem headerAbove_module {key : ModuleKey} (hk : key.Bare) {start texts : String} (hs : Whole start)
    {headers : List String} (ht : headersIn texts = headers) :
    headerAbove (start ++ moduleHeader key ++ "\n" ++ texts) = some (headers.getLast?.getD (moduleHeader key)) := by
  have o : OneLine "[" := by decide
  have c : OneLine "]" := by decide
  have hline : OneLine (moduleHeader key) := by simp [moduleHeader, oneLine_append, hk.oneLine, o, c]
  have hopens : opensTable (moduleHeader key) = true := by simp [moduleHeader, opensTable]
  have hhead : headersIn (moduleHeader key ++ "\n") = [moduleHeader key] := by
    simp [headersIn, Text.linesOf_line hline.isLine, hopens]
  unfold headerAbove
  rw [String.append_assoc, String.append_assoc, headersIn_append hs, ← String.append_assoc,
    headersIn_append (whole_line _), hhead, ht]
  simp [List.getLast?_cons]

/-- `above` is the text before the entry of the variable that `earlier` precede in `g`. -/
def TextBefore (o : Options) (before : List Group) (g : Group) (earlier : List Variable) (above : String) : Prop :=
  ∃ start texts, (document o before).result = .ok start ∧ (fragments g.key earlier).result = .ok texts ∧
    above = start ++ moduleHeader g.key ++ "\n" ++ String.join texts

/-- A required entry on one line stands under the header that the variables before it in
    its module opened last. That is the module's own header exactly when none of them
    opens a table. -/
theorem entry_under_last_header (o : Options) (before after : List Group) (g : Group) (earlier later : List Variable)
    (v : Variable) (d : String) (hb : g.Bare) (hr : g.required = earlier ++ v :: later) (hv : v.type.Inline)
    (hd : (document o (before ++ g :: after)).result = .ok d) :
    ∃ above line below,
      TextBefore o before g earlier above ∧ (fragment g.key v).result = .ok (line ++ "\n") ∧ IsEntry line ∧
      d = above ++ line ++ "\n" ++ below ∧ headerAbove above = some (lastHeader g.key earlier) ∧
      (headerAbove above = some (moduleHeader g.key) ↔ ∀ w ∈ earlier, ¬ w.type.OpensTable) := by
  have hmem : ∀ w ∈ earlier ++ v :: later, w ∈ g.members := fun w hw =>
    (List.mem_filter.mp (show w ∈ g.required by rw [hr]; exact hw)).1
  obtain ⟨start, more, hstart, hmore, rfl⟩ := sections_ok_append.mp (document_ok.mp hd)
  obtain ⟨text, rest, hsec, -, rfl⟩ := sections_ok_cons.mp hmore
  obtain ⟨required, optional, hreq, -, rfl⟩ := moduleSection_ok.mp hsec
  rw [hr] at hreq
  obtain ⟨texts, tail, htexts, htail, rfl⟩ := fragments_ok_append.mp hreq
  obtain ⟨own, others, hown, -, rfl⟩ := fragments_ok_cons.mp htail
  obtain ⟨line, hline, hentry⟩ := fragment_inline g.key (hb.names v (hmem v (by simp))) hv
  obtain rfl : own = line ++ "\n" := by simpa [hown] using hline
  have habove : headerAbove (start ++ moduleHeader g.key ++ "\n" ++ String.join texts) = some (lastHeader g.key earlier) :=
    headerAbove_module hb.key (whole_sections hstart)
      (headersIn_fragments hb.key (fun w hw => hb.names w (hmem w (by simp [hw])))
        (fun w hw => hb.fields w (hmem w (by simp [hw]))) htexts)
  refine ⟨_, line, String.join others ++ String.join (optional.map (commentOut o.style)) ++ "\n" ++ rest,
    ⟨start, texts, document_ok.mpr hstart, htexts, rfl⟩, hline, hentry, ?_, habove, ?_⟩
  · have close : "]\n" = "]" ++ "\n" := rfl
    rw [close]
    simp only [moduleHeader, String.join_append, String.join_cons, String.append_assoc]
  · rw [habove, Option.some.injEq, lastHeader_eq_moduleHeader]

/-! ## (5) An entry that leaves its module -/

def sampleKey : ModuleKey := ⟨"myorg", "pkg", none, Eq.refl false, Eq.refl false, ModuleKey.sub_named_none _⟩

def server : Variable := ⟨"server", .record [("host", .scalar .string)], true⟩

def port : Variable := ⟨"port", .scalar .int, true⟩

/-- A record, and a number after it. -/
def serverFirst : Group := ⟨sampleKey, [server, port]⟩

theorem bare_serverFirst : serverFirst.Bare := by
  refine ⟨⟨by decide, by decide, by decide⟩, by decide, ?_⟩
  intro v hv fields hs
  have hv : v = server ∨ v = port := by simpa [serverFirst] using hv
  rcases hv with rfl | rfl
  · cases hs with
    | record h => cases h; decide
    | array element h => cases h
    | table row h => cases h
  · cases hs with
    | record h => cases h
    | array element h => cases h
    | table row h => cases h

def serverThenPort : String :=
  "[myorg.pkg]\n[myorg.pkg.server]\nhost = \"str1\" # type: string\nport = 12 # type: int\n\n"

/-- The number after the record stands under the record's header. -/
theorem port_under_server :
    serverFirst.Bare ∧ Ty.Inline port.type ∧
    (document ⟨.commentEachLine, false⟩ [serverFirst]).result = .ok serverThenPort ∧
    ∃ above line below,
      TextBefore ⟨.commentEachLine, false⟩ [] serverFirst [server] above ∧
      (fragment sampleKey port).result = .ok (line ++ "\n") ∧ IsEntry line ∧
      serverThenPort = above ++ line ++ "\n" ++ below ∧ headerAbove above = some (lastHeader sampleKey [server]) ∧
      (headerAbove above = some (moduleHeader sampleKey) ↔ ∀ w ∈ [server], ¬ w.type.OpensTable) :=
  ⟨bare_serverFirst, .scalar .int rfl, rfl,
    entry_under_last_header ⟨.commentEachLine, false⟩ [] [] serverFirst [server] [] port serverThenPort
      bare_serverFirst rfl (.scalar .int rfl) rfl⟩

/-- Bare and distinct names do not keep every entry under its own module. -/
theorem entry_after_a_record_leaves_its_module :
    ¬ ∀ (o : Options) (before after : List Group) (g : Group) (earlier later : List Variable) (v : Variable) (d : String),
        o.includeOptional = false ∨ o.style = .commentEachLine →
        ((before ++ g :: after).map (·.key)).Nodup →
        (∀ h ∈ before ++ g :: after, h.Bare ∧ (h.members.map (·.name)).Nodup) →
        g.required = earlier ++ v :: later → v.type.Inline →
        (document o (before ++ g :: after)).result = .ok d →
        ∃ above, TextBefore o before g earlier above ∧ headerAbove above = some (moduleHeader g.key) := by
  intro h
  have hbare : ∀ g ∈ [serverFirst], g.Bare ∧ (g.members.map (·.name)).Nodup := by
    intro g hg
    obtain rfl : g = serverFirst := by simpa using hg
    exact ⟨bare_serverFirst, by decide⟩
  obtain ⟨above, ⟨start, texts, hstart, htexts, rfl⟩, habove⟩ :=
    h ⟨.commentEachLine, false⟩ [] [] serverFirst [server] [] port serverThenPort
      (Or.inl rfl) (by decide) hbare rfl (.scalar .int rfl) rfl
  obtain rfl := Except.ok.inj hstart
  obtain rfl := Except.ok.inj htexts
  exact absurd habove (by decide)

end Template

end ConfigTemplate
