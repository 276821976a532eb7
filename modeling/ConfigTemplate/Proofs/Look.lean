/-
  ConfigTemplate.Proofs.Look — the entry of a variable tells what its type looks like.

  (1) `Look`: all that a template shows of a type.
  (2) `no_header_behind_name`: the line of an entry is no header of a table, whatever names
      stand in the two. `split_unlines`: lines are read off their text.
  (3) `tail_apart`, `named_tail_inj`: what stands behind a name tells the kind, also when
      the name imitates it.
  (4) `look_of_shapeText`: two shapes with the same text have the same look.
  (5) `entry_tells_the_look`: so do two types with the same entry, under whatever name in
      whatever module, when no field's name has a line feed in it.
-/
import ConfigTemplate.Proofs.Dotted

namespace ConfigTemplate

/-! ## (1) Looks -/

/-- What a template shows of a type; of a record, its scalar fields in order. -/
inductive Look where
  | scalar (s : Scalar)
  | document (d : Document)
  | array (element : Scalar)
  | map (value : Scalar)
  | record (fields : List (String × Scalar))
  | rows (fields : List (String × Scalar))
  /-- Nothing is shown. -/
  | none
  deriving DecidableEq

def fieldKind? (f : String × Ty) : Option (String × Scalar) :=
  match f.2.core with
  | .scalar s => some (f.1, s)
  | _ => Option.none

def Shape.look : Shape → Look
  | .scalar s => .scalar s
  | .document d => .document d
  | .array s => .array s
  | .map s => .map s
  | .record fields => .record (fields.filterMap fieldKind?)
  | .rows fields => .rows (fields.filterMap fieldKind?)
  | .none _ => .none

/-- The look of a type, or the name of the kind that is not supported. -/
def Ty.look? (t : Ty) : Except String Look := t.shape?.map Shape.look

/-! ## (2) Words and lines -/

namespace Text

/-- Behind the same name, an entry goes on with a space, and a header that has opened with a
    bracket, and put a dot before the name, goes on otherwise. -/
theorem no_header_behind_name {tail opening : List Char} (htail : tail.head? = some ' ') (hapart : Apart '.' '[' tail)
    (hbracket : opening.head? = some '[') (hdot : opening.getLast? = some '.') (name rest : List Char) :
    name ++ tail ≠ opening ++ (name ++ rest) := by
  have hne : opening ≠ [] := fun e => by simp [e] at hbracket
  -- as long as the name starts like the header, take this start off both sides
  induction hn : name.length using Nat.strong_induction_on generalizing name rest with
  | _ n ih =>
    intro h
    rcases List.append_eq_append_iff.mp h with ⟨gap, hopening, hgap⟩ | ⟨less, hname, hless⟩
    · -- the header opens with the name and a gap; the gap starts the tail
      cases gap with
      | nil =>
        rw [List.append_nil] at hopening
        rw [List.nil_append, ← hopening] at hgap
        have hfirst : tail.head? = some '[' := by
          rw [hgap]
          cases opening with
          | nil => exact absurd rfl hne
          | cons c more => simpa using hbracket
        rw [hfirst] at htail
        exact absurd htail (by decide)
      | cons c gap =>
        obtain rfl : c = ' ' := by simpa [hgap] using htail
        have hlast : (' ' :: gap).getLast? = some '.' := by
          rw [hopening, List.getLast?_append_of_ne_nil _ (by simp)] at hdot
          exact hdot
        cases name with
        | nil => simp [hopening] at hbracket
        | cons d more =>
          obtain rfl : d = '[' := by simpa [hopening] using hbracket
          rw [hgap, apart_append] at hapart
          exact hapart.2.2 ⟨hlast, rfl⟩
    · have hshort : less.length < n := by
        have hpos : 0 < opening.length := List.length_pos_of_ne_nil hne
        have hlen : name.length = opening.length + less.length := by rw [hname, List.length_append]
        omega
      rw [hname, List.append_assoc] at hless
      exact ih less.length hshort less rest rfl hless.symm

theorem split_unlines {ls : List String} (h : ∀ l ∈ ls, '\n' ∉ l.toList) :
    split '\n' (unlines ls).toList = ls.map String.toList ++ [[]] := by
  induction ls with
  | nil => simp [unlines_nil, split]
  | cons l ls ih =>
    have hfeed : (unlines (l :: ls)).toList = l.toList ++ '\n' :: (unlines ls).toList := by
      have hline : "\n".toList = ['\n'] := rfl
      simp [unlines_cons, hline]
    rw [hfeed, split_append, split_undivided (h l (by simp)), ih fun m hm => h m (by simp [hm])]
    rfl

theorem unlines_inj {ls ms : List String} (hls : ∀ l ∈ ls, '\n' ∉ l.toList) (hms : ∀ l ∈ ms, '\n' ∉ l.toList)
    (h : unlines ls = unlines ms) : ls = ms := by
  have hparts : ls.map String.toList ++ [[]] = ms.map String.toList ++ [[]] := by
    rw [← split_unlines hls, ← split_unlines hms, h]
  exact List.map_injective_iff.mpr (fun a b hab => String.toList_inj.mp hab) (List.append_cancel_right hparts)

/-- One more bracket in front is not made up for behind, when what is behind has its line end
    at another place. -/
theorem no_second_bracket {path below below' : List Char}
    (h : (below.takeWhile (· != '\n')).length ≠ (below'.takeWhile (· != '\n')).length + 1) :
    path ++ below ≠ '[' :: (path ++ below') := by
  intro e
  have hline := congrArg (fun s => (s.takeWhile (· != '\n')).length) e
  have hbracket : ('[' != '\n') = true := by decide
  simp only [List.takeWhile_cons, hbracket, if_true, List.length_cons, List.takeWhile_append] at hline
  split at hline
  · simp only [List.length_append] at hline
    omega
  · omega

end Text

namespace Template

open Text (unlines unlines_nil unlines_cons unlines_inj Apart no_header_behind_name no_second_bracket)

/-! ## (3) Kinds behind names -/

theorem tail_apart {shape : Shape} {tail : String} (h : tail? shape = some tail) :
    Apart '.' '[' (tail ++ "\n").toList := by
  have hall : ∀ t ∈ tails, Apart '.' '[' (t ++ "\n").toList := by decide +kernel
  exact hall tail (mem_tails h)

theorem tail_no_feed {shape : Shape} {tail : String} (h : tail? shape = some tail) : '\n' ∉ tail.toList := by
  have hall : ∀ t ∈ tails, '\n' ∉ t.toList := by decide +kernel
  exact hall tail (mem_tails h)

/-- No tail is the end of another one. -/
theorem tails_differ : ∀ a ∈ lineShapes, ∀ b ∈ lineShapes,
    ((tail? a).getD "").toList <:+ ((tail? b).getD "").toList → a = b := by
  decide +kernel

theorem named_tail_inj {a b : Shape} {name name' tail tail' : String} (ha : tail? a = some tail)
    (hb : tail? b = some tail') (h : name ++ tail = name' ++ tail') : a = b ∧ name = name' := by
  have hlists : name.toList ++ tail.toList = name'.toList ++ tail'.toList := by
    rw [← String.toList_append, ← String.toList_append, h]
  have heq : a = b := by
    have hend : tail.toList <:+ name'.toList ++ tail'.toList := hlists ▸ List.suffix_append name.toList tail.toList
    rcases List.suffix_or_suffix_of_suffix hend (List.suffix_append name'.toList tail'.toList) with hend | hend
    · exact tails_differ a (mem_lineShapes ha) b (mem_lineShapes hb) (by simpa [ha, hb] using hend)
    · exact (tails_differ b (mem_lineShapes hb) a (mem_lineShapes ha) (by simpa [ha, hb] using hend)).symm
  subst heq
  obtain rfl : tail = tail' := Option.some.inj (ha.symm.trans hb)
  exact ⟨rfl, String.toList_inj.mp (List.append_cancel_right hlists)⟩

/-- The line of a scalar field. -/
def fieldEntry (f : String × Scalar) : String := entry f.1 f.2.literal f.2.name

theorem fieldEntry_eq (f : String × Scalar) :
    ∃ tail, tail? (.scalar f.2) = some tail ∧ fieldEntry f = f.1 ++ tail :=
  ⟨_, rfl, by simp only [fieldEntry, entry, String.append_assoc]⟩

theorem fieldEntry_inj : Function.Injective fieldEntry := by
  intro f g h
  obtain ⟨tail, htail, hf⟩ := fieldEntry_eq f
  obtain ⟨tail', htail', hg⟩ := fieldEntry_eq g
  obtain ⟨hkind, hname⟩ := named_tail_inj htail htail' (hf.symm.trans (h.trans hg))
  exact Prod.ext hname (by simpa using hkind)

theorem filterMap_fieldEntry (fields : Fields) :
    fields.filterMap scalarField? = (fields.filterMap fieldKind?).map fieldEntry := by
  rw [List.map_filterMap]
  refine List.filterMap_congr fun f _ => ?_
  unfold scalarField? fieldKind?
  cases f.2.core <;> rfl

/-- No field that a shape shows has a line feed in its name. -/
def FeedFree (shape : Shape) : Prop :=
  ∀ fields, shape = .record fields ∨ shape = .rows fields → ∀ f ∈ fields, '\n' ∉ f.1.toList

theorem fields_inj {fields fields' : Fields} (h : ∀ f ∈ fields, '\n' ∉ f.1.toList) (h' : ∀ f ∈ fields', '\n' ∉ f.1.toList)
    (htext : unlines (fields.filterMap scalarField?) = unlines (fields'.filterMap scalarField?)) :
    fields.filterMap fieldKind? = fields'.filterMap fieldKind? := by
  have hlines : ∀ own : Fields, (∀ f ∈ own, '\n' ∉ f.1.toList) → ∀ l ∈ own.filterMap scalarField?, '\n' ∉ l.toList := by
    intro own hnames l hl
    obtain ⟨f, hf, hline⟩ := List.mem_filterMap.mp hl
    obtain ⟨s, tail, -, htail, rfl⟩ := scalarField?_eq_some hline
    simp [hnames f hf, tail_no_feed htail]
  have hsame := unlines_inj (hlines fields h) (hlines fields' h') htext
  rw [filterMap_fieldEntry, filterMap_fieldEntry] at hsame
  exact List.map_injective_iff.mpr fieldEntry_inj hsame

/-! ## (4) Shapes from their texts -/

/-- The fragment of a variable with the shape. -/
def shapeText (key : ModuleKey) (name : String) (shape : Shape) : String :=
  unlines ((header? (key.qualify name) shape).toList ++ entries name shape)

variable {key : ModuleKey} {name : String}

theorem shapeText_line {shape : Shape} {tail : String} (h : tail? shape = some tail) :
    shapeText key name shape = name ++ (tail ++ "\n") := by
  have hheader : header? (key.qualify name) shape = none := by
    cases shape with
    | map s | record fields | rows fields => cases h
    | _ => rfl
  simp [shapeText, hheader, entries_tail h, unlines_cons, unlines_nil, String.append_assoc]

theorem shapeText_map (s : Scalar) :
    shapeText key name (.map s) =
      "[" ++ (key.qualify name ++ ("] # type: " ++ s.name ++ "\n" ++ unlines (entries name (.map s)))) := by
  simp [shapeText, header?, unlines_cons, String.append_assoc]

theorem shapeText_record (fields : Fields) :
    shapeText key name (.record fields) =
      "[" ++ (key.qualify name ++ ("]\n" ++ unlines (fields.filterMap scalarField?))) := by
  have hclose : "]\n" = "]" ++ "\n" := rfl
  simp [shapeText, header?, entries, unlines_cons, hclose, String.append_assoc]

theorem shapeText_rows (fields : Fields) :
    shapeText key name (.rows fields) =
      "[" ++ ("[" ++ (key.qualify name ++ ("]]\n" ++ unlines (fields.filterMap scalarField?)))) := by
  have hclose : "]]\n" = "]]" ++ "\n" := rfl
  have hopen : "[[" = "[" ++ "[" := rfl
  simp [shapeText, header?, entries, unlines_cons, hclose, String.append_assoc]
  rw [hopen, String.append_assoc]

theorem shapeText_none (why : Formless) : shapeText key name (.none why) = "" := by
  simp [shapeText, header?, entries, unlines_nil]

/-- The line of an entry is not the start of a table, whatever the name and the module are. -/
theorem line_ne_table {a b : Shape} {tail : String} (ha : tail? a = some tail) (opening rest : String)
    (hbracket : opening.toList.head? = some '[')
    (hb : shapeText key name b = opening ++ (key.canonical ++ ("." ++ (name ++ rest)))) :
    shapeText key name a ≠ shapeText key name b := by
  have hdot : ".".toList = ['.'] := rfl
  intro h
  rw [shapeText_line ha, hb, ← String.toList_inj] at h
  have htail : (tail ++ "\n").toList.head? = some ' ' := by simp [tail_head ha]
  have hopening : (opening.toList ++ (key.canonical.toList ++ ['.'])).head? = some '[' := by simp [hbracket]
  have hlast : (opening.toList ++ (key.canonical.toList ++ ['.'])).getLast? = some '.' := by simp
  exact no_header_behind_name htail (tail_apart ha) hopening hlast name.toList rest.toList (by simpa [hdot] using h)

/-- Only an entry on one line has the text of one. -/
theorem line_of_shapeText {a b : Shape} {tail : String} (ha : tail? a = some tail)
    (h : shapeText key name a = shapeText key name b) : ∃ tail', tail? b = some tail' := by
  have hqualify : key.qualify name = key.canonical ++ ("." ++ name) := by
    rw [ModuleKey.qualify, String.append_assoc]
  cases hline : tail? b with
  | some tail' => exact ⟨tail', rfl⟩
  | none =>
    rcases table_or_nothing hline with ⟨s, rfl⟩ | ⟨fields, rfl⟩ | ⟨fields, rfl⟩ | ⟨why, rfl⟩
    · refine absurd h (line_ne_table ha "[" ("] # type: " ++ s.name ++ "\n" ++ unlines (entries name (.map s))) rfl ?_)
      simp only [shapeText_map, hqualify, String.append_assoc]
    · refine absurd h (line_ne_table ha "[" ("]\n" ++ unlines (fields.filterMap scalarField?)) rfl ?_)
      simp only [shapeText_record, hqualify, String.append_assoc]
    · have hopen : "[[" = "[" ++ "[" := rfl
      refine absurd h (line_ne_table ha "[[" ("]]\n" ++ unlines (fields.filterMap scalarField?)) rfl ?_)
      simp only [shapeText_rows, hqualify, hopen, String.append_assoc]
    · rw [shapeText_line ha, shapeText_none] at h
      have hempty := congrArg String.toList h
      simp at hempty

theorem record_ne_rows (fields fields' : Fields) :
    shapeText key name (.record fields) ≠ shapeText key name (.rows fields') := by
  have hopen : "[".toList = ['['] := rfl
  rw [shapeText_record, shapeText_rows]
  intro h
  refine no_second_bracket ?_ (by simpa [hopen] using congrArg String.toList h)
  simp

theorem map_ne_rows (s : Scalar) (fields : Fields) : shapeText key name (.map s) ≠ shapeText key name (.rows fields) := by
  have hopen : "[".toList = ['['] := rfl
  rw [shapeText_map, shapeText_rows]
  intro h
  refine no_second_bracket ?_ (by simpa [hopen] using congrArg String.toList h)
  cases s <;> simp [Scalar.name]

theorem map_ne_record (s : Scalar) (fields : Fields) :
    shapeText key name (.map s) ≠ shapeText key name (.record fields) := by
  rw [shapeText_map, shapeText_record]
  intro h
  have hbelow := congrArg String.toList h
  simp at hbelow

theorem map_inj {s s' : Scalar} (h : shapeText key name (.map s) = shapeText key name (.map s')) : s = s' := by
  rw [shapeText_map, shapeText_map] at h
  have hbelow := congrArg String.toList h
  cases s <;> cases s' <;> first | rfl | simp [Scalar.name] at hbelow

theorem shapeText_eq_empty {shape : Shape} (h : shapeText key name shape = "") : ∃ why, shape = .none why := by
  cases hline : tail? shape with
  | some tail =>
    rw [shapeText_line hline] at h
    simp at h
  | none =>
    rcases table_or_nothing hline with ⟨s, rfl⟩ | ⟨fields, rfl⟩ | ⟨fields, rfl⟩ | hnone
    · simp [shapeText_map] at h
    · simp [shapeText_record] at h
    · simp [shapeText_rows] at h
    · exact hnone

theorem look_of_empty {shape : Shape} {why : Formless}
    (h : shapeText key name shape = shapeText key name (.none why)) : shape.look = .none := by
  obtain ⟨why', rfl⟩ := shapeText_eq_empty (h.trans (shapeText_none why))
  rfl

/-- Two shapes that take more than one line, or none, have the same look when they have the same text. -/
theorem look_of_table {a b : Shape} (ha : FeedFree a) (hb : FeedFree b) (hta : tail? a = none) (htb : tail? b = none)
    (h : shapeText key name a = shapeText key name b) : a.look = b.look := by
  rcases table_or_nothing hta with ⟨s, rfl⟩ | ⟨fields, rfl⟩ | ⟨fields, rfl⟩ | ⟨why, rfl⟩
  · rcases table_or_nothing htb with ⟨s', rfl⟩ | ⟨fields', rfl⟩ | ⟨fields', rfl⟩ | ⟨why', rfl⟩
    · rw [map_inj h]
    · exact absurd h (map_ne_record s fields')
    · exact absurd h (map_ne_rows s fields')
    · exact look_of_empty h
  · rcases table_or_nothing htb with ⟨s', rfl⟩ | ⟨fields', rfl⟩ | ⟨fields', rfl⟩ | ⟨why', rfl⟩
    · exact absurd h.symm (map_ne_record s' fields)
    · rw [shapeText_record, shapeText_record] at h
      have hlines : unlines (fields.filterMap scalarField?) = unlines (fields'.filterMap scalarField?) := by simpa using h
      exact congrArg Look.record (fields_inj (ha fields (Or.inl rfl)) (hb fields' (Or.inl rfl)) hlines)
    · exact absurd h (record_ne_rows fields fields')
    · exact look_of_empty h
  · rcases table_or_nothing htb with ⟨s', rfl⟩ | ⟨fields', rfl⟩ | ⟨fields', rfl⟩ | ⟨why', rfl⟩
    · exact absurd h.symm (map_ne_rows s' fields)
    · exact absurd h.symm (record_ne_rows fields' fields)
    · rw [shapeText_rows, shapeText_rows] at h
      have hlines : unlines (fields.filterMap scalarField?) = unlines (fields'.filterMap scalarField?) := by simpa using h
      exact congrArg Look.rows (fields_inj (ha fields (Or.inr rfl)) (hb fields' (Or.inr rfl)) hlines)
    · exact look_of_empty h
  · exact (look_of_empty h.symm).symm

theorem look_of_shapeText {a b : Shape} (ha : FeedFree a) (hb : FeedFree b)
    (h : shapeText key name a = shapeText key name b) : a.look = b.look := by
  cases hline : tail? a with
  | some tail =>
    obtain ⟨tail', hline'⟩ := line_of_shapeText hline h
    rw [shapeText_line hline, shapeText_line hline'] at h
    have htails : name ++ tail = name ++ tail' := by simpa using h
    rw [(named_tail_inj hline hline' htails).1]
  | none =>
    have hline' : tail? b = none := by
      cases hb' : tail? b with
      | none => rfl
      | some tail =>
        obtain ⟨tail', htail'⟩ := line_of_shapeText hb' h.symm
        rw [hline] at htail'
        cases htail'
    exact look_of_table ha hb hline hline' h

/-- The text shows no more than the look. -/
theorem shapeText_of_look {a b : Shape} (h : a.look = b.look) : shapeText key name a = shapeText key name b := by
  have hfields : ∀ {own other : Fields}, own.filterMap fieldKind? = other.filterMap fieldKind? →
      own.filterMap scalarField? = other.filterMap scalarField? := by
    intro own other hsame
    rw [filterMap_fieldEntry, filterMap_fieldEntry, hsame]
  cases a <;> cases b <;> simp only [Shape.look, reduceCtorEq, Look.scalar.injEq, Look.document.injEq,
    Look.array.injEq, Look.map.injEq, Look.record.injEq, Look.rows.injEq] at h
  case record.record => rw [shapeText_record, shapeText_record, hfields h]
  case rows.rows => rw [shapeText_rows, shapeText_rows, hfields h]
  case none.none => rw [shapeText_none, shapeText_none]
  all_goals rw [h]

/-! ## (5) Types from their entries -/

/-- Two types have the same entry under a name exactly when they look the same: the same
    scalar, the same document, arrays or maps of the same scalar, records or tables with the
    same scalar fields in order, or nothing to show. The names of the variable and of its
    module may be any, those of the fields any without a line feed. -/
theorem entry_tells_the_look (key : ModuleKey) (v w : Variable) (text text' : String) (hname : v.name = w.name)
    (hv : ∀ fields, v.type.Shows fields → ∀ f ∈ fields, '\n' ∉ f.1.toList)
    (hw : ∀ fields, w.type.Shows fields → ∀ f ∈ fields, '\n' ∉ f.1.toList)
    (hvtext : (fragment key v).result = .ok text) (hwtext : (fragment key w).result = .ok text') :
    ∃ look look', v.type.look? = .ok look ∧ w.type.look? = .ok look' ∧ (text = text' ↔ look = look') := by
  obtain ⟨a, ha, hatext⟩ := fragment_ok_iff.mp hvtext
  obtain ⟨b, hb, hbtext⟩ := fragment_ok_iff.mp hwtext
  have hfree : FeedFree a := fun fields hfields => hv fields (Ty.shows_of_shape? ha hfields)
  have hfree' : FeedFree b := fun fields hfields => hw fields (Ty.shows_of_shape? hb hfields)
  have hshown : text = shapeText key v.name a := ofShape_ok hatext
  have hshown' : text' = shapeText key v.name b := hname ▸ ofShape_ok hbtext
  refine ⟨a.look, b.look, by rw [Ty.look?, ha]; rfl, by rw [Ty.look?, hb]; rfl, ?_⟩
  rw [hshown, hshown']
  exact ⟨look_of_shapeText hfree hfree', shapeText_of_look⟩

/-- A table of records with names that imitate entries. -/
def ticketTable : Variable :=
  ⟨"id]] # ids = [", .table (.constrained (.record [("id = 12 # type: int", .scalar .int), ("", .scalar .string)])), true⟩

/-- An array of records with the same name and one more field. -/
def ticketArray : Variable :=
  ⟨"id]] # ids = [", .array (.record
    [("id = 12 # type: int", .constrained (.scalar .int)), ("notes", .xml), ("", .scalar .string)]), false⟩

def ticketText : String :=
  "[[shop.store.db.id]] # ids = []]\nid = 12 # type: int = 12 # type: int\n = \"str1\" # type: string\n"

theorem tickets_look_alike :
    ticketTable.name = ticketArray.name ∧
    (fragment shopKey ticketTable).result = .ok ticketText ∧ (fragment shopKey ticketArray).result = .ok ticketText ∧
    ∃ look look', ticketTable.type.look? = .ok look ∧ ticketArray.type.look? = .ok look' ∧
      (ticketText = ticketText ↔ look = look') := by
  have htable : ∀ fields, ticketTable.type.Shows fields → ∀ f ∈ fields, '\n' ∉ f.1.toList := by
    intro fields hshows
    obtain rfl := hshows.unique (.table _ rfl rfl)
    decide
  have harray : ∀ fields, ticketArray.type.Shows fields → ∀ f ∈ fields, '\n' ∉ f.1.toList := by
    intro fields hshows
    obtain rfl := hshows.unique (.array _ rfl rfl)
    decide
  exact ⟨rfl, rfl, rfl, entry_tells_the_look shopKey ticketTable ticketArray ticketText ticketText rfl htable harray rfl rfl⟩

end Template

end ConfigTemplate
