/-
  ConfigTemplate.Proofs.Restored — what is commented out line by line can be restored.

  (1) `uncomment?`: the text under the comment signs, without the mark.
      `uncomment?_commentLines`: it is the text of the lines that were commented out.
  (2) `linesOf_commentOut`: an entry that is commented out keeps its lines, each behind a
      comment sign.
  (3) `unpaired_fragment`: an entry has no carriage return right before a line feed when
      the names in it have none.
  (4) `moduleSection_moved`: a section with a variable once optional and once required.
  (5) `comments_can_be_undone`: so the comment that stands for an optional entry gives back
      the entry of the required variable.
-/
import ConfigTemplate.Proofs.Dotted

namespace ConfigTemplate

namespace Template

open Log (Traced)
open Text (Whole linesOf linesOf_unlines IsLine isLine_of_mem_linesOf unlines unlines_nil unlines_cons
  unlines_linesOf Unpaired unpaired_append)

/-! ## (1) Under the comment signs -/

def uncommentLine? (l : String) : Option String := (l.toList.dropPrefix? "# ".toList).map String.ofList

def unmark? (l : String) : Option String := (l.toList.dropSuffix? mark.toList).map String.ofList

/-- The text of some lines under comment signs, the first of them with a mark at its end. -/
def uncomment? (text : String) : Option String := do
  match ← (linesOf text).mapM uncommentLine? with
  | [] => pure ""
  | first :: rest => do
    let unmarked ← unmark? first
    pure (unlines (unmarked :: rest))

theorem uncommentLine?_eq (l : String) : uncommentLine? ("# " ++ l) = some l := by
  have hdrop : ("# " ++ l).toList.dropPrefix? "# ".toList = some l.toList :=
    List.dropPrefix?_eq_some_iff.mpr ⟨"# ".toList, by simp, by simp⟩
  rw [uncommentLine?, hdrop, Option.map_some, String.ofList_toList]

theorem unmark?_eq (l : String) : unmark? (l ++ mark) = some l := by
  have hdrop : (l ++ mark).toList.dropSuffix? mark.toList = some l.toList :=
    List.dropSuffix?_eq_some_iff.mpr ⟨mark.toList, by simp, by simp⟩
  rw [unmark?, hdrop, Option.map_some, String.ofList_toList]

/-- Some lines with a mark at the end of the first. -/
def markFirst : List String → List String
  | [] => []
  | first :: rest => (first ++ mark) :: rest

theorem commentLines_eq (ls : List String) : commentLines ls = unlines ((markFirst ls).map ("# " ++ ·)) := by
  cases ls with
  | nil => simp [commentLines, markFirst, unlines_nil]
  | cons first rest =>
    rw [commentLines, markFirst, List.map_cons, unlines_cons, unlines, List.map_map]
    rfl

theorem mapM_uncommentLine? (ls : List String) : (ls.map ("# " ++ ·)).mapM uncommentLine? = some ls := by
  induction ls with
  | nil => rfl
  | cons l ls ih => rw [List.map_cons, List.mapM_cons, uncommentLine?_eq, ih]; rfl

/-! ## (2) The lines of a comment -/

theorem isLine_sign {l : String} (h : IsLine l) : IsLine ("# " ++ l) := by
  have hsign : "# ".toList = ['#', ' '] := rfl
  constructor
  · simpa [hsign] using h.no_feed
  · intro hlast
    cases hl : l.toList with
    | nil => simp [hsign, hl] at hlast
    | cons c rest => exact h.no_return (by simpa [hsign, hl] using hlast)

theorem isLine_mark {l : String} (h : IsLine l) : IsLine (l ++ mark) := by
  have hmark : mark.toList = [' ', '(', 'o', 'p', 't', 'i', 'o', 'n', 'a', 'l', ')'] := rfl
  constructor
  · simpa [hmark] using h.no_feed
  · simp [hmark]

theorem linesOf_commentLines {ls : List String} (h : ∀ l ∈ ls, IsLine l) :
    linesOf (commentLines ls) = (markFirst ls).map ("# " ++ ·) := by
  have hmarked : ∀ l ∈ markFirst ls, IsLine l := by
    intro l hl
    cases ls with
    | nil => simp [markFirst] at hl
    | cons first rest =>
      rcases List.mem_cons.mp hl with rfl | hl
      · exact isLine_mark (h first (by simp))
      · exact h l (by simp [hl])
  rw [commentLines_eq]
  refine linesOf_unlines fun l hl => ?_
  obtain ⟨m, hm, rfl⟩ := List.mem_map.mp hl
  exact isLine_sign (hmarked m hm)

theorem uncomment?_commentLines {ls : List String} (h : ∀ l ∈ ls, IsLine l) :
    uncomment? (commentLines ls) = some (unlines ls) := by
  rw [uncomment?, linesOf_commentLines h, mapM_uncommentLine?]
  cases ls with
  | nil => simp [markFirst, unlines_nil]
  | cons first rest => simp [markFirst, unmark?_eq]

theorem linesOf_commentOut {f : String} (hwhole : Whole f) (h : Unpaired f) :
    linesOf (commentOut .commentEachLine f) = (markFirst (linesOf f)).map ("# " ++ ·) :=
  linesOf_commentLines fun _ hl => isLine_of_mem_linesOf hwhole h hl

theorem uncomment?_commentOut {f : String} (hwhole : Whole f) (h : Unpaired f) :
    uncomment? (commentOut .commentEachLine f) = some f := by
  have hlines := uncomment?_commentLines fun _ hl => isLine_of_mem_linesOf hwhole h hl
  rwa [unlines_linesOf hwhole h] at hlines

theorem length_markFirst (ls : List String) : (markFirst ls).length = ls.length := by
  cases ls <;> simp [markFirst]

/-! ## (3) Entries without pairs -/

theorem unpaired_dotted {s t : String} (hs : Unpaired s) (ht : Unpaired t) : Unpaired (s ++ "." ++ t) := by
  have hdot : ".".toList = ['.'] := rfl
  simp [unpaired_append, hs, ht, hdot, show Unpaired "." by decide]

theorem unpaired_qualify {key : ModuleKey} {name : String} (hkey : ∀ n ∈ key.names, Unpaired n) (hname : Unpaired name) :
    Unpaired (key.qualify name) := by
  refine unpaired_dotted ?_ hname
  unfold ModuleKey.canonical
  unfold ModuleKey.names at hkey
  cases hsub : key.sub with
  | none => exact unpaired_dotted (hkey _ (by simp)) (hkey _ (by simp))
  | some m => exact unpaired_dotted (unpaired_dotted (hkey _ (by simp)) (hkey _ (by simp))) (hkey _ (by simp [hsub]))

/-- The line has no pair, nor does one arise when its line feed follows. -/
def Clean (l : String) : Prop := Unpaired l ∧ l.toList.getLast? ≠ some '\r'

instance (l : String) : Decidable (Clean l) :=
  inferInstanceAs (Decidable (Unpaired l ∧ l.toList.getLast? ≠ some '\r'))

theorem unpaired_unlines {ls : List String} (h : ∀ l ∈ ls, Clean l) : Unpaired (unlines ls) := by
  have hfeed : "\n".toList = ['\n'] := rfl
  induction ls with
  | nil => rw [unlines_nil]; decide
  | cons l ls ih =>
    have hrest := ih fun m hm => h m (by simp [hm])
    obtain ⟨hl, hlast⟩ := h l (by simp)
    simp [unlines_cons, unpaired_append, hl, hlast, hrest, hfeed, show Unpaired "\n" by decide]

theorem clean_tail {shape : Shape} {tail : String} (h : tail? shape = some tail) : Clean tail := by
  have hall : ∀ t ∈ tails, Clean t := by decide +kernel
  exact hall tail (mem_tails h)

theorem clean_named {name tail : String} {shape : Shape} (hname : Unpaired name) (h : tail? shape = some tail) :
    Clean (name ++ tail) := by
  obtain ⟨hpairs, hlast⟩ := clean_tail h
  have hhead := tail_head h
  have hnil : tail.toList ≠ [] := fun e => by simp [e] at hhead
  refine ⟨unpaired_append.mpr ⟨hname, hpairs, by simp [hhead]⟩, ?_⟩
  rwa [String.toList_append, List.getLast?_append_of_ne_nil _ hnil]

theorem clean_header {path header : String} {shape : Shape} (hpath : Unpaired path)
    (h : header? path shape = some header) : Clean header := by
  have around : ∀ opening closing : String, Clean opening → Clean closing → closing.toList.head? = some ']' →
      Clean (opening ++ path ++ closing) := by
    intro opening closing hopening hclosing hhead
    have hnil : closing.toList ≠ [] := fun e => by simp [e] at hhead
    refine ⟨?_, ?_⟩
    · simp [unpaired_append, hopening.1, hopening.2, hpath, hclosing.1, hhead]
    · rw [String.toList_append, List.getLast?_append_of_ne_nil _ hnil]
      exact hclosing.2
  cases shape with
  | map s =>
    obtain rfl := Option.some.inj h
    rw [String.append_assoc]
    cases s <;> exact around _ _ (by decide) (by decide) (by decide)
  | record fields | rows fields =>
    obtain rfl := Option.some.inj h
    exact around _ _ (by decide) (by decide) (by decide)
  | _ => cases h

theorem clean_entries {name : String} {shape : Shape} (hname : Unpaired name)
    (hfields : ∀ fields, shape = .record fields ∨ shape = .rows fields → ∀ f ∈ fields, Unpaired f.1) :
    ∀ l ∈ entries name shape, Clean l := by
  intro l hl
  have ofFields : ∀ fields : Fields, (∀ f ∈ fields, Unpaired f.1) → l ∈ fields.filterMap scalarField? → Clean l := by
    intro fields hnames hl
    obtain ⟨f, hf, hline⟩ := List.mem_filterMap.mp hl
    obtain ⟨s, tail, -, htail, rfl⟩ := scalarField?_eq_some hline
    exact clean_named (hnames f hf) htail
  cases htail : tail? shape with
  | some tail =>
    rw [entries_tail htail] at hl
    obtain rfl := List.mem_singleton.mp hl
    exact clean_named hname htail
  | none =>
    rcases table_or_nothing htail with ⟨s, rfl⟩ | ⟨fields, rfl⟩ | ⟨fields, rfl⟩ | ⟨why, rfl⟩
    · have hl : l = "key1 = " ++ s.mapLiterals.1 ∨ l = "key2 = " ++ s.mapLiterals.2 := by simpa [entries] using hl
      rcases hl with rfl | rfl
      · cases s <;> decide
      · cases s <;> decide
    · exact ofFields fields (hfields fields (Or.inl rfl)) hl
    · exact ofFields fields (hfields fields (Or.inr rfl)) hl
    · cases hl

/-- The names that stand in the entry of a variable have no pair in them. -/
structure UnpairedNames (key : ModuleKey) (v : Variable) : Prop where
  key : ∀ n ∈ key.names, Unpaired n
  name : Unpaired v.name
  fields : ∀ fields, v.type.Shows fields → ∀ f ∈ fields, Unpaired f.1

theorem unpaired_fragment {key : ModuleKey} {v : Variable} {text : String} (h : UnpairedNames key v)
    (htext : (fragment key v).result = .ok text) : Unpaired text := by
  obtain ⟨shape, hshape, hlines⟩ := fragment_ok_iff.mp htext
  rw [ofShape_ok hlines]
  refine unpaired_unlines fun l hl => ?_
  rcases List.mem_append.mp hl with hl | hl
  · exact clean_header (unpaired_qualify h.key h.name) (Option.mem_toList.mp hl)
  · exact clean_entries h.name (fun fields hfields => h.fields fields (Ty.shows_of_shape? hshape hfields)) l hl

/-! ## (4) Optional or required -/

/-- The style in which each line is a comment, with the optional entries shown. -/
def eachLine : Options := ⟨.commentEachLine, true⟩

/-- A group with the variable at some place in it. -/
def placed (key : ModuleKey) (before after : List Variable) (v : Variable) : Group := ⟨key, before ++ v :: after⟩

/-- What an optional variable writes at the bottom of its section, as a comment, stands among
    the required entries when the variable is required, and nothing else of the section changes. -/
theorem moduleSection_moved {key : ModuleKey} {before after : List Variable} {v : Variable} {text d : String}
    (htext : (fragment key v).result = .ok text) (hne : text ≠ "")
    (hd : (moduleSection eachLine (placed key before after { v with required := false })).result = .ok d) :
    ∃ above below front back : List String,
      d = moduleHeader key ++ "\n" ++ String.join (above ++ below) ++
        String.join ((front ++ text :: back).map (commentOut .commentEachLine)) ++ "\n" ∧
      (moduleSection eachLine (placed key before after { v with required := true })).result = .ok
        (moduleHeader key ++ "\n" ++ String.join (above ++ text :: below) ++
          String.join ((front ++ back).map (commentOut .commentEachLine)) ++ "\n") := by
  have hclose : "]\n" = "]" ++ "\n" := rfl
  have hfragment : ∀ required, (fragment key { v with required := required }).result = .ok text := fun _ => htext
  obtain ⟨required, optional, hrequired, hoptional, rfl⟩ := moduleSection_ok.mp hd
  simp only [placed, Group.required, List.filter_append, List.filter_cons, Bool.false_eq_true, if_false] at hrequired
  simp only [placed, optionalFragments, eachLine, Group.optional, List.filter_append, List.filter_cons, Bool.not_false,
    if_true, Traced.bind_ok, Traced.result_pure, Except.ok.injEq] at hoptional
  obtain ⟨above, below, habove, hbelow, rfl⟩ := fragments_ok_append.mp hrequired
  obtain ⟨all, hall, rfl⟩ := hoptional
  obtain ⟨front, others, hfront, hothers, rfl⟩ := fragments_ok_append.mp hall
  obtain ⟨first, back, hfirst, hback, rfl⟩ := fragments_ok_cons.mp hothers
  obtain rfl : text = first := Except.ok.inj ((hfragment false).symm.trans hfirst)
  refine ⟨above, below, front.filter (· != ""), back.filter (· != ""), ?_, moduleSection_ok.mpr ?_⟩
  · simp [placed, eachLine, moduleHeader, hclose, hne, String.append_assoc]
  · refine ⟨above ++ text :: below, (front ++ back).filter (· != ""), ?_, ?_, ?_⟩
    · simp only [placed, Group.required, List.filter_append, List.filter_cons, if_true]
      exact fragments_ok_append.mpr ⟨_, _, habove, fragments_ok_cons.mpr ⟨_, _, hfragment true, hbelow, rfl⟩, rfl⟩
    · simp only [placed, optionalFragments, eachLine, Group.optional, List.filter_append, List.filter_cons,
        Bool.not_true, Bool.false_eq_true, if_true, if_false, Traced.bind_ok, Traced.result_pure, Except.ok.injEq]
      exact ⟨front ++ back, fragments_ok_append.mpr ⟨_, _, hfront, hback, rfl⟩, by rw [List.filter_append]⟩
    · simp [placed, eachLine, moduleHeader, hclose, String.append_assoc]

/-! ## (5) Comments and what they stand for -/

/-- A text that ends with a line feed, with no carriage return right before one, has as many
    lines as what it becomes when it is commented out line by line; all of these are comments,
    and the text under them is the text again. The entry of a variable is such a text when the
    names in it are. So the comment that stands for an optional variable gives back the entry
    that stands in the section when the variable is required, everything else being the same. -/
theorem comments_can_be_undone :
    (∀ f body : String, f = body ++ "\n" → Unpaired f →
      (linesOf (commentOut .commentEachLine f)).length = (linesOf f).length ∧
      (∀ l ∈ linesOf (commentOut .commentEachLine f), ∃ rest, l = "# " ++ rest) ∧
      uncomment? (commentOut .commentEachLine f) = some f) ∧
    (∀ (key : ModuleKey) (v : Variable) (text : String), UnpairedNames key v →
      (fragment key v).result = .ok text → text ≠ "" →
      (∃ body, text = body ++ "\n") ∧ Unpaired text ∧
      uncomment? (commentOut .commentEachLine text) = some text ∧
      ∀ before after d,
        (moduleSection eachLine (placed key before after { v with required := false })).result = .ok d →
        ∃ above below front back : List String,
          d = moduleHeader key ++ "\n" ++ String.join (above ++ below) ++
            String.join ((front ++ text :: back).map (commentOut .commentEachLine)) ++ "\n" ∧
          (moduleSection eachLine (placed key before after { v with required := true })).result = .ok
            (moduleHeader key ++ "\n" ++ String.join (above ++ text :: below) ++
              String.join ((front ++ back).map (commentOut .commentEachLine)) ++ "\n")) := by
  constructor
  · intro f body hf hunpaired
    have hwhole : Whole f := Or.inr ⟨body, hf⟩
    have hlines := linesOf_commentOut hwhole hunpaired
    refine ⟨by rw [hlines, List.length_map, length_markFirst], fun l hl => ?_, uncomment?_commentOut hwhole hunpaired⟩
    rw [hlines] at hl
    obtain ⟨m, -, rfl⟩ := List.mem_map.mp hl
    exact ⟨m, rfl⟩
  · intro key v text hnames htext hne
    have hwhole : Whole text := whole_fragment htext
    have hunpaired := unpaired_fragment hnames htext
    refine ⟨hwhole.resolve_left hne, hunpaired, uncomment?_commentOut hwhole hunpaired, ?_⟩
    exact fun before after d hd => moduleSection_moved htext hne hd

/-- A record with line feeds and carriage returns in its names, each alone. -/
def breaks : Variable := ⟨"a\rb", .record [("x", .scalar .int), ("p\nq", .scalar .string)], false⟩

def breaksText : String := "[shop.store.db.a\rb]\nx = 12 # type: int\np\nq = \"str1\" # type: string\n"

def breaksCommented : String :=
  "# [shop.store.db.a\rb] (optional)\n# x = 12 # type: int\n# p\n# q = \"str1\" # type: string\n"

theorem breaks_restored :
    UnpairedNames shopKey breaks ∧ (fragment shopKey breaks).result = .ok breaksText ∧ breaksText ≠ "" ∧
    commentOut .commentEachLine breaksText = breaksCommented ∧ uncomment? breaksCommented = some breaksText := by
  have hnames : UnpairedNames shopKey breaks := by
    refine ⟨by decide, by decide, fun fields hshows => ?_⟩
    obtain rfl := hshows.unique (.record rfl)
    decide
  have htext : (fragment shopKey breaks).result = .ok breaksText := rfl
  have hne : breaksText ≠ "" := by decide
  have hcommented : commentOut .commentEachLine breaksText = breaksCommented := by rfl
  have hrestored := (comments_can_be_undone.2 shopKey breaks breaksText hnames htext hne).2.2.1
  exact ⟨hnames, htext, hne, hcommented, hcommented ▸ hrestored⟩

end Template

end ConfigTemplate
