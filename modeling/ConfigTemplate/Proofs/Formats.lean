/-
  ConfigTemplate.Proofs.Formats — a manifest says the same in either format.

  (1) `Common`: the data that both formats have. `Shows`: a data tree of one of them shows
      it, with the members of its tables in any order.
  (2) `Regular`: no record and no type is written as a list, and no kind as a number.
  (3) `Agrees`: two readers make the same of the same data, as far as there is room.
      `agrees_record`, `agrees_list`: records and lists do if their fields and items do.
  (4) `agrees_type`: types do, by induction on the types around each other.
  (5) `formats_agree`: so do whole texts, as far as the reader of TOML goes. It rejects the
      others (`deep_array_in_one_format`).
-/
import ConfigTemplate.Proofs.Extent
import ConfigTemplate.Proofs.Rewriting
import ConfigTemplate.Proofs.RoundTrip
import ConfigTemplate.Proofs.Spelling

namespace ConfigTemplate.Manifest

open Data

/-! ## (1) What both formats can show -/

inductive Common where
  | bool (b : Bool)
  | integer (i : Int)
  | text (s : String)
  | list (items : List Common)
  | table (entries : List (String × Common))

namespace Common

mutual

/-- The greatest number of brackets around each other. -/
def depth : Common → Nat
  | list items => depthItems items + 1
  | table entries => depthEntries entries + 1
  | _ => 0

def depthItems : List Common → Nat
  | [] => 0
  | v :: rest => max v.depth (depthItems rest)

def depthEntries : List (String × Common) → Nat
  | [] => 0
  | (_, v) :: rest => max v.depth (depthEntries rest)

end

/-- The data tree is this data; a whole number may be told from its sign or not. -/
inductive Shows : Common → Data → Prop
  | bool (b : Bool) : Shows (bool b) (.bool b)
  | integer (i : Int) (n : Number) : n = .integer i ∨ (∃ k : Nat, i = k ∧ n = .natural k) →
      Shows (integer i) (.number n)
  | text (s : String) : Shows (text s) (.text (some s))
  | list (xs : List (Common × Data)) : (∀ x ∈ xs, Shows x.1 x.2) →
      Shows (list (xs.map (·.1))) (.list (xs.map (·.2)) true)
  | table (xs : List (String × Common × Data)) (members : List Member) : (∀ x ∈ xs, Shows x.2.1 x.2.2) →
      members.Perm (xs.map fun x => (some x.1, x.2.2)) →
      Shows (table (xs.map fun x => (x.1, x.2.1))) (.table members true)

end Common

section Shown

theorem depthEntries_eq (entries : List (String × Common)) :
    Common.depthEntries entries = Common.depthItems (entries.map (·.2)) := by
  induction entries with
  | nil => rfl
  | cons e rest ih => rw [Common.depthEntries, ih, List.map_cons, Common.depthItems]

/-- The values of a table, in the order in which a tree shows them. -/
theorem values_shown {xs : List (String × Common × Data)} {members : List Member}
    (h : members.Perm (xs.map fun x => (some x.1, x.2.2))) : (members.map (·.2)).Perm ((xs.map (·.2)).map (·.2)) := by
  have hvalues := h.map (·.2)
  rw [List.map_map] at hvalues ⊢
  exact hvalues

theorem entries_shown (xs : List (String × Common × Data)) :
    Common.depthEntries (xs.map fun x => (x.1, x.2.1)) = Common.depthItems ((xs.map (·.2)).map (·.1)) := by
  rw [depthEntries_eq, List.map_map, List.map_map]
  rfl

theorem depthItems_shown {xs : List (Common × Data)} (h : ∀ x ∈ xs, x.2.depth = x.1.depth) :
    Data.depthItems (xs.map (·.2)) = Common.depthItems (xs.map (·.1)) := by
  induction xs with
  | nil => rfl
  | cons x rest ih =>
    obtain ⟨hx, hrest⟩ := List.forall_mem_cons.mp h
    rw [List.map_cons, List.map_cons, Data.depthItems, Common.depthItems, hx, ih hrest]

theorem fitItems_shown {xs : List (Common × Data)} (h : ∀ x ∈ xs, ∀ room, x.2.fits room = room.holds x.1.depth)
    (room : Room) : fitItems room (xs.map (·.2)) = room.holds (Common.depthItems (xs.map (·.1))) := by
  induction xs with
  | nil => exact (holds_zero room).symm
  | cons x rest ih =>
    obtain ⟨hx, hrest⟩ := List.forall_mem_cons.mp h
    rw [List.map_cons, List.map_cons, fitItems, Common.depthItems, hx room, ih hrest, holds_max]

variable {v : Common} {d : Data}

theorem Common.Shows.depth (h : v.Shows d) : d.depth = v.depth := by
  induction h with
  | bool | integer | text => rfl
  | list xs _ ih => rw [Data.depth, Common.depth, depthItems_shown ih]
  | table xs members _ hperm ih =>
    rw [Data.depth, Common.depth, depthMembers_values, depthItems_perm (values_shown hperm), entries_shown,
      depthItems_shown (List.forall_mem_map.mpr ih)]

/-- Data that both formats have fits wherever there is room for its brackets. -/
theorem Common.Shows.fits (h : v.Shows d) (room : Room) : d.fits room = room.holds v.depth := by
  induction h generalizing room with
  | bool | text => simp [Data.fits, Common.depth, holds_zero]
  | integer i n hn =>
    rcases hn with rfl | ⟨k, -, rfl⟩
    · simp [Data.fits, Common.depth, holds_zero]
    · simp [Data.fits, Common.depth, holds_zero]
  | list xs _ ih =>
    simp only [Data.fits, Common.depth, holds_succ]
    cases room.enter with
    | none => rfl
    | some inner => simp only [fitItems_shown ih, Bool.and_true]
  | table xs members _ hperm ih =>
    simp only [Data.fits, Common.depth, holds_succ]
    cases room.enter with
    | none => rfl
    | some inner =>
      have hkeys : members.all (·.1.isSome) = true := by
        rw [hperm.all_eq, List.all_map]
        exact List.all_eq_true.mpr fun _ _ => rfl
      have hvalues : fitItems inner (members.map (·.2)) = fitItems inner ((xs.map (·.2)).map (·.2)) := by
        rw [fitItems_eq, fitItems_eq, (values_shown hperm).all_eq]
      simp only [fitMembers_values, hkeys, hvalues, fitItems_shown (List.forall_mem_map.mpr ih), entries_shown,
        Bool.and_true, Bool.true_and]

theorem Common.Shows.whole (h : v.Shows d) : d.whole = true := whole_of_fits d none (h.fits none)

/-- What a table gives to a name. -/
def valuesOf (entries : List (String × Common)) (key : String) : List Common :=
  (entries.filter (·.1 = key)).map (·.2)

theorem mem_of_valuesOf {entries : List (String × Common)} {key : String} (h : v ∈ valuesOf entries key) :
    (key, v) ∈ entries := by
  obtain ⟨e, he, rfl⟩ := List.mem_map.mp h
  obtain ⟨hmem, hkey⟩ := List.mem_filter.mp he
  obtain rfl : e.1 = key := by simpa using hkey
  exact hmem

theorem shows_list {vs : List Common} (h : (Common.list vs).Shows d) :
    ∃ ds, d = .list ds true ∧ List.Forall₂ Common.Shows vs ds := by
  cases h with
  | list xs hxs =>
    refine ⟨_, rfl, ?_⟩
    rw [List.forall₂_map_left_iff, List.forall₂_map_right_iff, List.forall₂_same]
    exact hxs

/-- The members of a tree that shows a table, whatever their order. -/
structure ShownBy (entries : List (String × Common)) (members : List Member) : Prop where
  values : ∀ key, ∃ ds, (given members key).Perm ds ∧ List.Forall₂ Common.Shows (valuesOf entries key) ds
  member : ∀ m ∈ members, ∃ key w, m.1 = some key ∧ (key, w) ∈ entries ∧ w.Shows m.2

theorem shows_table {entries : List (String × Common)} (h : (Common.table entries).Shows d) :
    ∃ members, d = .table members true ∧ ShownBy entries members := by
  cases h with
  | table xs members hxs hperm =>
    refine ⟨members, rfl, fun key => ⟨given (xs.map fun x => (some x.1, x.2.2)) key, given_perm hperm key, ?_⟩,
      fun m hm => ?_⟩
    · have hentries : valuesOf (xs.map fun x => (x.1, x.2.1)) key = (xs.filter (·.1 = key)).map (·.2.1) := by
        simp [valuesOf, List.filter_map, Function.comp_def]
      have hgiven : given (xs.map fun x => (some x.1, x.2.2)) key = (xs.filter (·.1 = key)).map (·.2.2) := by
        simp [given, List.filter_map, Function.comp_def]
      rw [hentries, hgiven, List.forall₂_map_left_iff, List.forall₂_map_right_iff, List.forall₂_same]
      exact fun x hx => hxs x (List.mem_of_mem_filter hx)
    · obtain ⟨x, hx, rfl⟩ := List.mem_map.mp (hperm.mem_iff.mp hm)
      exact ⟨x.1, x.2.1, rfl, List.mem_map.mpr ⟨x, hx, rfl⟩, hxs x hx⟩

section Members

variable {entries : List (String × Common)} {members members' : List Member}

namespace ShownBy

theorem none (h : ShownBy entries members) (key : String) : given members key = [] ↔ valuesOf entries key = [] := by
  obtain ⟨ds, hperm, hds⟩ := h.values key
  rw [← List.length_eq_zero_iff, hperm.length_eq, ← hds.length_eq, List.length_eq_zero_iff]

theorem one (h : ShownBy entries members) {key : String} (hd : given members key = [d]) :
    ∃ v, valuesOf entries key = [v] ∧ v.Shows d := by
  obtain ⟨ds, hperm, hds⟩ := h.values key
  obtain rfl := List.perm_singleton.mp (hd ▸ hperm).symm
  generalize valuesOf entries key = vs at hds
  cases hds with
  | cons hv hnil =>
    cases hnil
    exact ⟨_, rfl, hv⟩

theorem of_one (h : ShownBy entries members) {key : String} (hv : valuesOf entries key = [v]) :
    ∃ d, given members key = [d] ∧ v.Shows d := by
  obtain ⟨ds, hperm, hds⟩ := h.values key
  rw [hv] at hds
  cases hds with
  | cons hd hnil =>
    cases hnil
    exact ⟨_, List.perm_singleton.mp hperm, hd⟩

/-- The only value of a name that one tree shows is the only one that the other shows. -/
theorem same (h : ShownBy entries members) (h' : ShownBy entries members') {key : String} {P P' : Data → Prop}
    (hP : ∀ v d d', (key, v) ∈ entries → v.Shows d → v.Shows d' → (P d ↔ P' d')) :
    (∃ d, given members key = [d] ∧ P d) ↔ ∃ d', given members' key = [d'] ∧ P' d' := by
  constructor
  · intro hd
    obtain ⟨d, hd, hPd⟩ := hd
    obtain ⟨v, hv, hshows⟩ := h.one hd
    obtain ⟨d', hd', hshows'⟩ := h'.of_one hv
    exact ⟨d', hd', (hP v d d' (mem_of_valuesOf (hv ▸ List.mem_singleton_self v)) hshows hshows').mp hPd⟩
  · intro hd'
    obtain ⟨d', hd', hPd'⟩ := hd'
    obtain ⟨v, hv, hshows'⟩ := h'.one hd'
    obtain ⟨d, hd, hshows⟩ := h.of_one hv
    exact ⟨d, hd, (hP v d d' (mem_of_valuesOf (hv ▸ List.mem_singleton_self v)) hshows hshows').mpr hPd'⟩

theorem passable (h : ShownBy entries members) (names : List String) : Passable names members := by
  intro m hm
  obtain ⟨key, w, hkey, -, hw⟩ := h.member m hm
  exact ⟨key, hkey, fun _ => hw.whole⟩

theorem keepable (h : ShownBy entries members) {room : Room}
    (hroom : ∀ key v, (key, v) ∈ entries → room.holds v.depth = true) : Keepable room members := by
  intro m hm
  obtain ⟨key, w, hkey, hmem, hw⟩ := h.member m hm
  exact ⟨by simp [hkey], fun _ => (hw.fits room).trans (hroom key w hmem)⟩

end ShownBy

end Members

end Shown

/-! ## (2) Manifests without lists for records or types -/

/-- The second value stands at the second place when the first stands at the first. -/
inductive At : Place → Common → Place → Common → Prop
  | here (s : Place) (v : Common) : At s v s v
  | item {s s' : Place} {items : List Common} {v v' : Common} : v ∈ items → At s v s' v' →
      At (.list s) (.list items) s' v'
  | field {fields : List (String × Place)} {entries : List (String × Common)} {key : String} {s s' : Place}
      {v v' : Common} : (key, s) ∈ fields → (key, v) ∈ entries → At s v s' v' →
      At (.record fields) (.table entries) s' v'
  | part {k : Kind} {entries : List (String × Common)} {key : String} {s s' : Place} {v v' : Common} :
      ("kind", .text k.name) ∈ entries → (key, s) ∈ k.places → (key, v) ∈ entries → At s v s' v' →
      At .type (.table entries) s' v'

/-- No list stands for a record or a type, and no number for a kind. -/
def Place.Admits : Place → Common → Prop
  | record _, .list _ | type, .list _ => False
  | type, .table entries => ∀ i, ("kind", .integer i) ∉ entries
  | _, _ => True

def Regular (s : Place) (v : Common) : Prop := ∀ s' v', At s v s' v' → s'.Admits v'

theorem regular_other (v : Common) : Regular .other v := by
  intro s' v' h
  cases h
  exact trivial

theorem regular_list {s : Place} {items : List Common} (h : ∀ v ∈ items, Regular s v) :
    Regular (.list s) (.list items) := by
  intro s' v' hat
  cases hat with
  | here => exact trivial
  | item hv hat => exact h _ hv s' v' hat

theorem regular_record {fields : List (String × Place)} {entries : List (String × Common)}
    (h : ∀ key s v, (key, s) ∈ fields → (key, v) ∈ entries → Regular s v) :
    Regular (.record fields) (.table entries) := by
  intro s' v' hat
  cases hat with
  | here => exact trivial
  | field hs hv hat => exact h _ _ _ hs hv s' v' hat

theorem regular_type {entries : List (String × Common)} (hkind : ∀ i, ("kind", .integer i) ∉ entries)
    (h : ∀ k key s v, ("kind", .text (Kind.name k)) ∈ entries → (key, s) ∈ k.places → (key, v) ∈ entries →
      Regular s v) :
    Regular .type (.table entries) := by
  intro s' v' hat
  cases hat with
  | here => exact hkind
  | part hk hs hv hat => exact h _ _ _ _ hk hs hv s' v' hat

/-! ## (3) Readers that agree -/

theorem holds_mono {room : Room} {n m : Nat} (h : n ≤ m) (hroom : room.holds m = true) : room.holds n = true := by
  have hmax := holds_max room n m
  rw [Nat.max_eq_right h, hroom] at hmax
  simpa using hmax.symm

theorem enter_holds {room : Room} {n : Nat} (h : room.holds (n + 1) = true) :
    ∃ inner, room.enter = some inner ∧ inner.holds n = true := by
  rw [holds_succ] at h
  cases henter : room.enter with
  | none => simp [henter] at h
  | some inner => exact ⟨inner, rfl, by simpa [henter] using h⟩

section Readers

variable {α β : Type} {s : Place} {read read' : Room → Data → Except Problem α}

def Agrees (s : Place) (read read' : Room → Data → Except Problem α) : Prop :=
  ∀ v d d', Regular s v → v.Shows d → v.Shows d' →
    ∀ room room', room.holds v.depth = true → room'.holds v.depth = true →
      ∀ a, read room d = .ok a ↔ read' room' d' = .ok a

theorem Agrees.map (h : Agrees s read read') (f : α → β) :
    Agrees s (fun room d => (read room d).map f) fun room d => (read' room d).map f := by
  intro v d d' hv hd hd' room room' hroom hroom' b
  simp only [Except.map_eq_ok, h v d d' hv hd hd' room room' hroom hroom']

theorem readText_shows {v : Common} {d : Data} (h : v.Shows d) (r : Reading) (a : String) :
    readText r d = .ok a ↔ v = .text a := by
  cases h <;> simp [readText]

theorem readBool_shows {v : Common} {d : Data} (h : v.Shows d) (r : Reading) (a : Bool) :
    readBool r d = .ok a ↔ v = .bool a := by
  cases h <;> simp [readBool]

theorem readOption_shows {v : Common} {d : Data} (h : v.Shows d) (r : Reading) (a : Option String) :
    readOption r d = .ok a ↔ ∃ s, v = .text s ∧ some s = a := by
  cases h <;> simp [readOption, readText, Except.map]

theorem agrees_text (r r' : Reading) : Agrees s (fun _ d => readText r d) fun _ d => readText r' d := by
  intro v d d' _ hd hd' _ _ _ _ a
  rw [readText_shows hd, readText_shows hd']

theorem agrees_bool (r r' : Reading) : Agrees s (fun _ d => readBool r d) fun _ d => readBool r' d := by
  intro v d d' _ hd hd' _ _ _ _ a
  rw [readBool_shows hd, readBool_shows hd']

theorem agrees_option (r r' : Reading) : Agrees s (fun _ d => readOption r d) fun _ d => readOption r' d := by
  intro v d d' _ hd hd' _ _ _ _ a
  rw [readOption_shows hd, readOption_shows hd']

theorem readItems_agree {item item' : Data → Except Problem α} {vs : List Common} {ds ds' : List Data}
    (h : ∀ v ∈ vs, ∀ d d', v.Shows d → v.Shows d' → ∀ a, item d = .ok a ↔ item' d' = .ok a)
    (hds : List.Forall₂ Common.Shows vs ds) (hds' : List.Forall₂ Common.Shows vs ds') (as : List α) :
    readItems item ds = .ok as ↔ readItems item' ds' = .ok as := by
  induction hds generalizing ds' as with
  | nil =>
    cases hds'
    rfl
  | cons hd _ ih =>
    cases hds' with
    | cons hd' hrest' =>
      obtain ⟨hv, hvs⟩ := List.forall_mem_cons.mp h
      simp only [readItems, Except.bind_eq_ok, hv _ _ hd hd', ih hvs hrest']

theorem depth_le_items {v : Common} {items : List Common} (h : v ∈ items) : v.depth ≤ Common.depthItems items := by
  induction items with
  | nil => cases h
  | cons w rest ih =>
    rw [Common.depthItems]
    rcases List.mem_cons.mp h with rfl | h
    · exact Nat.le_max_left _ _
    · exact Nat.le_trans (ih h) (Nat.le_max_right _ _)

theorem depth_le_entries {key : String} {v : Common} {entries : List (String × Common)} (h : (key, v) ∈ entries) :
    v.depth ≤ Common.depthEntries entries := by
  rw [depthEntries_eq]
  exact depth_le_items (List.mem_map.mpr ⟨(key, v), h, rfl⟩)

/-- Lists agree if their items do. -/
theorem agrees_list (r r' : Reading) (h : Agrees s read read') :
    Agrees (.list s) (readList r · read) (readList r' · read') := by
  intro v d d' hv hd hd' room room' hroom hroom' as
  cases v with
  | list items =>
    obtain ⟨ds, rfl, hds⟩ := shows_list hd
    obtain ⟨ds', rfl, hds'⟩ := shows_list hd'
    obtain ⟨inner, henter, hinner⟩ := enter_holds hroom
    obtain ⟨inner', henter', hinner'⟩ := enter_holds hroom'
    have hitems := @readItems_agree _ (read inner) (read' inner') _ _ _ (fun v hmem d d' hd hd' =>
      h v d d' (fun s' v' hat => hv s' v' (.item hmem hat)) hd hd' inner inner'
        (holds_mono (depth_le_items hmem) hinner) (holds_mono (depth_le_items hmem) hinner')) hds hds'
    simp only [readList, Except.bind_eq_ok, inside_ok, henter, henter', Option.some.injEq, exists_eq_left', hitems]
  | table entries =>
    obtain ⟨_, rfl, -⟩ := shows_table hd
    obtain ⟨_, rfl, -⟩ := shows_table hd'
    simp [readList]
  | bool b | integer i | text t =>
    cases hd
    cases hd'
    simp [readList]

/-! ### Records -/

variable {entries : List (String × Common)} {members members' : List Member}

/-- The fields are called the same and agree on what stands at their places. -/
def FieldsAgree (places : List (String × Place)) (fs fs' : List (RecordField α)) : Prop :=
  List.Forall₂ (fun f f' => f.name = f'.name ∧ f.required = f'.required ∧
    ∃ p, (f.name, p) ∈ places ∧ Agrees p f.read f'.read) fs fs'

theorem FieldsAgree.assigned {places : List (String × Place)} {fs fs' : List (RecordField α)}
    (hfs : FieldsAgree places fs fs') (h : ShownBy entries members) (h' : ShownBy entries members')
    (hentries : ∀ key p v, (key, p) ∈ places → (key, v) ∈ entries → Regular p v) {room room' : Room}
    (hroom : ∀ key v, (key, v) ∈ entries → room.holds v.depth = true)
    (hroom' : ∀ key v, (key, v) ∈ entries → room'.holds v.depth = true) (a b : α) :
    Assigned room (given members) [] fs a b ↔ Assigned room' (given members') [] fs' a b := by
  refine assigned_congr (hfs.imp fun f f' hf set => ?_) a b
  obtain ⟨hname, hrequired, p, hp, hagrees⟩ := hf
  have hnone : given members f.name = [] ↔ given members' f.name = [] := by
    rw [h.none, h'.none]
  have hone : (∃ d, given members f.name = [d] ∧ f.read room d = .ok set) ↔
      ∃ d, given members' f.name = [d] ∧ f'.read room' d = .ok set :=
    h.same h' fun v d d' hv hd hd' =>
      hagrees v d d' (hentries _ p v hp hv) hd hd' room room' (hroom _ v hv) (hroom' _ v hv) set
  simp only [Sets, ← hname, ← hrequired, hnone, hone]

/-- Records agree if their fields do. -/
theorem agrees_record {c c' : Record α} (hc : c.fields.Pairwise RecordField.Apart)
    (hc' : c'.fields.Pairwise RecordField.Apart) (hstart : c.start = c'.start) {places : List (String × Place)}
    (h : FieldsAgree places c.fields c'.fields) (r r' : Reading) :
    Agrees (.record places) (c.read r) (c'.read r') := by
  intro v d d' hv hd hd' room room' hroom hroom' a
  cases v with
  | list items => exact (hv _ _ (.here _ _)).elim
  | table entries =>
    obtain ⟨members, rfl, hshown⟩ := shows_table hd
    obtain ⟨members', rfl, hshown'⟩ := shows_table hd'
    obtain ⟨inner, henter, hinner⟩ := enter_holds hroom
    obtain ⟨inner', henter', hinner'⟩ := enter_holds hroom'
    have hassigned := h.assigned hshown hshown'
      (fun key p w hp hw s' w' hat => hv s' w' (.field hp hw hat))
      (fun key w hw => holds_mono (depth_le_entries hw) hinner)
      (fun key w hw => holds_mono (depth_le_entries hw) hinner') c.start a
    simp only [Record.read_table hc, Record.read_table hc', henter, henter', Option.some.injEq, exists_eq_left',
      true_and, hshown.passable, hshown'.passable, ← hstart]
    exact hassigned
  | bool b | integer i | text t =>
    cases hd
    cases hd'
    simp [Record.read]

end Readers

/-! ## (4) Types -/

section Types

variable {r r' : Reading}

/-- A kind that is not a number is read from its name. -/
theorem readKind_shows {v : Common} {d : Data} (hd : v.Shows d) (hv : ∀ i, v ≠ .integer i) (numbered : Bool)
    (k : Kind) : readKind r numbered d = .ok k ↔ v = .text k.name := by
  cases hd with
  | text s =>
    have hname : Kind.ofName? s = some k ↔ s = k.name := by
      constructor
      · intro h
        have hname : k.name = s := by simpa using List.find?_some h
        exact hname.symm
      · rintro rfl
        cases k <;> rfl
    rw [Common.text.injEq, ← hname]
    cases h : Kind.ofName? s <;> simp [readKind, h]
  | integer i n => exact absurd rfl (hv i)
  | _ => simp [readKind]

theorem content_start (n : Nat) (r r' : Reading) (k : Kind) : (content n r k).start = (content n r' k).start := by
  cases k <;> rfl

section Parts

variable {nested nested' : Data → Except Problem TypeExpr}

theorem field_agrees (h : Agrees .type (fun _ d => nested d) fun _ d => nested' d) (r r' : Reading) :
    Agrees .typeField ((fieldRecord r nested).read r) ((fieldRecord r' nested').read r') :=
  agrees_record (field_apart r nested) (field_apart r' nested') rfl
    (.cons ⟨rfl, rfl, .other, .head _, (agrees_text _ _).map _⟩
      (.cons ⟨rfl, rfl, .type, .tail _ (.head _), h.map _⟩ .nil)) r r'

/-- The parts of a type agree if the types in it do. -/
theorem parts_agree (h : Agrees .type (fun _ d => nested d) fun _ d => nested' d) (r r' : Reading) :
    (k : Kind) → FieldsAgree k.places (parts r nested k).fields (parts r' nested' k).fields
  | .boolean | .byte | .int | .float | .decimal | .string | .xml | .json => .nil
  | .array | .map | .table | .constrained => .cons ⟨rfl, rfl, .type, .head _, h.map _⟩ .nil
  | .record => .cons ⟨rfl, rfl, .list .typeField, .head _, (agrees_list r r' (field_agrees h r r')).map _⟩ .nil
  | .other => .cons ⟨rfl, rfl, .other, .head _, (agrees_text _ _).map _⟩ .nil

end Parts

/-- Types agree, whatever types are around them. -/
theorem agrees_type (n : Nat) (numbered : Bool) (r r' : Reading) :
    Agrees .type (readTypeUpTo n numbered r) (readTypeUpTo n numbered r') := by
  induction n generalizing numbered r r' with
  | zero =>
    intro v d d' _ _ _ room room' _ _ e
    simp [readTypeUpTo]
  | succ n ih =>
    intro v d d' hv hd hd' room room' hroom hroom' e
    cases v with
    | list items => exact (hv _ _ (.here _ _)).elim
    | table entries =>
      obtain ⟨members, rfl, hshown⟩ := shows_table hd
      obtain ⟨members', rfl, hshown'⟩ := shows_table hd'
      obtain ⟨inner, henter, hinner⟩ := enter_holds hroom
      obtain ⟨inner', henter', hinner'⟩ := enter_holds hroom'
      have hkeep := hshown.keepable fun key w hw => holds_mono (depth_le_entries hw) hinner
      have hkeep' := hshown'.keepable fun key w hw => holds_mono (depth_le_entries hw) hinner'
      have hnumber : ∀ w, ("kind", w) ∈ entries → ∀ i, w ≠ .integer i := fun w hw i h =>
        hv _ _ (.here _ _) i (h ▸ hw)
      have hkind : ∀ k, (∃ t, given members "kind" = [t] ∧ readKind r numbered t = .ok k) ↔
          ∃ t, given members' "kind" = [t] ∧ readKind r' numbered t = .ok k := fun k =>
        hshown.same hshown' fun w t t' hw ht ht' => by
          rw [readKind_shows ht (hnumber w hw), readKind_shows ht' (hnumber w hw)]
      simp only [readTypeUpTo_table, henter, henter', Option.some.injEq, exists_and_left, exists_eq_left', hkeep,
        hkeep', true_and, hkind, ← content_start n r r']
      refine exists_congr fun k => and_congr_right fun hk => ?_
      obtain ⟨t, ht, hk⟩ := (hkind k).mpr hk
      obtain ⟨w, hw, hshows⟩ := hshown.one ht
      have hmem : ("kind", w) ∈ entries := mem_of_valuesOf (hw ▸ List.mem_singleton_self w)
      obtain rfl := (readKind_shows hshows (hnumber w hmem) numbered k).mp hk
      have hnested : Agrees .type (fun _ d => readTypeUpTo n true r.counting none d)
          fun _ d => readTypeUpTo n true r'.counting none d := fun v d d' hv hd hd' _ _ _ _ e =>
        ih true r.counting r'.counting v d d' hv hd hd' none none rfl rfl e
      exact (parts_agree hnested r.counting r'.counting k).assigned hshown hshown'
        (fun key p w hp hw s' w' hat => hv s' w' (.part hmem hp hw hat)) (fun _ _ _ => rfl) (fun _ _ _ => rfl) _ e
    | bool b | integer i | text t =>
      cases hd
      cases hd'
      simp [readTypeUpTo, readTagged]

end Types

/-! ## (5) Manifests -/

theorem agrees_readType (r r' : Reading) : Agrees .type (readType r) (readType r') := by
  intro v d d' hv hd hd' room room' hroom hroom' e
  rw [readType, readType, hd.depth, hd'.depth]
  exact agrees_type _ false r r' v d d' hv hd hd' room room' hroom hroom' e

theorem agrees_variable (r r' : Reading) :
    Agrees .variableEntry ((variableRecord r).read r) ((variableRecord r').read r') :=
  agrees_record (variable_apart r) (variable_apart r') rfl
    (.cons ⟨rfl, rfl, .other, .head _, (agrees_text r r').map _⟩
      (.cons ⟨rfl, rfl, .type, .tail _ (.head _), (agrees_readType r r').map _⟩
        (.cons ⟨rfl, rfl, .other, .tail _ (.tail _ (.head _)), (agrees_bool r r').map _⟩ .nil))) r r'

theorem agrees_module (r r' : Reading) : Agrees .moduleEntry ((moduleRecord r).read r) ((moduleRecord r').read r') :=
  agrees_record (module_apart r) (module_apart r') rfl
    (.cons ⟨rfl, rfl, .other, .head _, (agrees_text r r').map _⟩
      (.cons ⟨rfl, rfl, .other, .tail _ (.head _), (agrees_text r r').map _⟩
        (.cons ⟨rfl, rfl, .other, .tail _ (.tail _ (.head _)), (agrees_option r r').map _⟩
          (.cons ⟨rfl, rfl, .list .variableEntry, .tail _ (.tail _ (.tail _ (.head _))),
            (agrees_list r r' (agrees_variable r r')).map _⟩ .nil)))) r r'

theorem agrees_manifest (r r' : Reading) : Agrees .manifest ((record r).read r) ((record r').read r') :=
  agrees_record (manifest_apart r) (manifest_apart r') rfl
    (.cons ⟨rfl, rfl, .list .moduleEntry, .head _, (agrees_list r r' (agrees_module r r')).map _⟩ .nil) r r'

/-- Two texts of the same data, each of which its reader gets through. -/
theorem groups_agree {v : Common} (hv : Regular .manifest v) (hdepth : v.depth ≤ 127) {toml json : String}
    {d d' : Data} (htoml : Toml.read toml = some d) (hd : v.Shows d) (hjson : Json.read json = (d', true))
    (hd' : v.Shows d') (gs : List Group) : parseGroups .toml toml = .ok gs ↔ parseGroups .json json = .ok gs := by
  have hagree := agrees_manifest tomlReading jsonReading v d d' hv hd hd' none (some jsonRoom) rfl
    (by simp [Room.holds, jsonRoom, hdepth])
  have htexts : ∀ m, ofToml toml = .ok m ↔ ofJson json = .ok m := by
    intro m
    simp only [ofToml, ofJson, htoml, hjson, hagree, Except.bind_eq_ok, finish_ok, Except.pure_eq, Except.ok.injEq,
      exists_const, true_and, exists_eq_right]
  simp only [parseGroups, ofText, Except.bind_eq_ok, Except.mapError_eq_ok, htexts]

theorem no_groups_of_unread {toml : String} (h : Toml.read toml = none) (gs : List Group) :
    parseGroups .toml toml ≠ .ok gs := by
  simp [parseGroups, ofText, ofToml, h, Except.mapError]

/-- A TOML text and a JSON text of the same data have the same groups, or both have none. The data nest at most 127
    deep, as JSON allows. The reader of TOML has a limit of its own: it rejects a text with more than 79 brackets open
    in a value, or more than 79 parts in a key, whatever the other text gives. -/
theorem formats_agree {v : Common} (hv : Regular .manifest v) (hdepth : v.depth ≤ 127) {toml json : String}
    {d d' : Data} {extent : Toml.Extent} (htoml : Toml.measure toml = some (d, extent)) (hd : v.Shows d)
    (hjson : Json.read json = (d', true)) (hd' : v.Shows d') (gs : List Group) :
    parseGroups .toml toml = .ok gs ↔
      (extent.brackets ≤ 79 ∧ extent.parts ≤ 79) ∧ parseGroups .json json = .ok gs := by
  constructor
  · intro hgs
    cases hread : Toml.read toml with
    | none => exact absurd hgs (no_groups_of_unread hread gs)
    | some d₀ =>
      obtain ⟨extent₀, hmeasure, hlimit⟩ := Toml.read_eq_some.mp hread
      obtain ⟨rfl, rfl⟩ : d = d₀ ∧ extent = extent₀ := by simpa [htoml] using hmeasure
      exact ⟨hlimit, (groups_agree hv hdepth hread hd hjson hd' gs).mp hgs⟩
  · rintro ⟨hlimit, hgs⟩
    have hread : Toml.read toml = some d := Toml.read_eq_some.mpr ⟨extent, htoml, hlimit⟩
    exact (groups_agree hv hdepth hread hd hjson hd' gs).mpr hgs

/-- A manifest with one variable, an integer. -/
def oneInteger : Common :=
  .table [("modules", .list [.table [("org", .text "o"), ("package", .text "p"),
    ("variables", .list [.table [("name", .text "v"), ("type", .table [("kind", .text "int")])]])]])]

def oneIntegerToml : String :=
  "[[modules]]\npackage = 'p'\norg = 'o'\n[[modules.variables]]\nname = 'v'\ntype.kind = 'int'\n"

theorem measure_oneIntegerToml : Toml.measure oneIntegerToml = some (.table [(some "modules", .list [.table [
    (some "package", .text (some "p")), (some "org", .text (some "o")), (some "variables", .list [.table [
      (some "name", .text (some "v")), (some "type", .table [(some "kind", .text (some "int"))] true)] true] true)]
    true] true)] true, ⟨0, 2⟩) := by
  have hchars : oneIntegerToml.toList = [
      '[', '[', 'm', 'o', 'd', 'u', 'l', 'e', 's', ']', ']', '\n',
      'p', 'a', 'c', 'k', 'a', 'g', 'e', ' ', '=', ' ', '\'', 'p', '\'', '\n',
      'o', 'r', 'g', ' ', '=', ' ', '\'', 'o', '\'', '\n',
      '[', '[', 'm', 'o', 'd', 'u', 'l', 'e', 's', '.', 'v', 'a', 'r', 'i', 'a', 'b', 'l', 'e', 's', ']', ']', '\n',
      'n', 'a', 'm', 'e', ' ', '=', ' ', '\'', 'v', '\'', '\n',
      't', 'y', 'p', 'e', '.', 'k', 'i', 'n', 'd', ' ', '=', ' ', '\'', 'i', 'n', 't', '\'', '\n'] := by
    decide +kernel
  rw [Toml.measure, hchars]
  rfl

theorem regular_oneInteger : Regular .manifest oneInteger := by
  have htype : Regular .type (.table [("kind", .text "int")]) := by
    refine regular_type (by simp) fun k key s v hk hs _ => ?_
    cases k <;> simp [Kind.name, Kind.places] at hk hs
  have hvariable : Regular .variableEntry (.table [("name", .text "v"), ("type", .table [("kind", .text "int")])]) := by
    refine regular_record fun key s v hs hv => ?_
    simp only [List.mem_cons, Prod.mk.injEq, List.not_mem_nil, or_false] at hs hv
    rcases hv with ⟨rfl, rfl⟩ | ⟨rfl, rfl⟩
    · obtain rfl : s = .other := by simpa using hs
      exact regular_other _
    · obtain rfl : s = .type := by simpa using hs
      exact htype
  have hmodule : Regular .moduleEntry (.table [("org", .text "o"), ("package", .text "p"),
      ("variables", .list [.table [("name", .text "v"), ("type", .table [("kind", .text "int")])]])]) := by
    refine regular_record fun key s v hs hv => ?_
    simp only [List.mem_cons, Prod.mk.injEq, List.not_mem_nil, or_false] at hs hv
    rcases hv with ⟨rfl, rfl⟩ | ⟨rfl, rfl⟩ | ⟨rfl, rfl⟩
    · obtain rfl : s = .other := by simpa using hs
      exact regular_other _
    · obtain rfl : s = .other := by simpa using hs
      exact regular_other _
    · obtain rfl : s = .list .variableEntry := by simpa using hs
      exact regular_list (List.forall_mem_singleton.mpr hvariable)
  refine regular_record fun key s v hs hv => ?_
  obtain ⟨rfl, rfl⟩ : key = "modules" ∧ s = .list .moduleEntry := by simpa using hs
  obtain rfl : v = _ := by simpa using hv
  exact regular_list (List.forall_mem_singleton.mpr hmodule)

/-- The members of the module may come in any order. -/
theorem shows_oneInteger {members : List Member} (h : members.Perm [(some "org", .text (some "o")),
    (some "package", .text (some "p")), (some "variables", .list [.table [(some "name", .text (some "v")),
      (some "type", .table [(some "kind", .text (some "int"))] true)] true] true)]) :
    oneInteger.Shows (.table [(some "modules", .list [.table members true] true)] true) := by
  have htype : (Common.table [("kind", .text "int")]).Shows (.table [(some "kind", .text (some "int"))] true) :=
    .table [("kind", .text "int", .text (some "int"))] _ (by simp [Common.Shows.text]) (.refl _)
  have hvariable : (Common.table [("name", .text "v"), ("type", .table [("kind", .text "int")])]).Shows
      (.table [(some "name", .text (some "v")), (some "type", .table [(some "kind", .text (some "int"))] true)] true) :=
    .table [("name", .text "v", .text (some "v")), ("type", _, _)] _ (by simp [Common.Shows.text, htype]) (.refl _)
  have hvariables := Common.Shows.list [(_, _)] (List.forall_mem_singleton.mpr hvariable)
  have hmodule := Common.Shows.table [("org", .text "o", .text (some "o")), ("package", .text "p", .text (some "p")),
    ("variables", _, _)] members (by simpa [Common.Shows.text] using hvariables) h
  have hmodules := Common.Shows.list [(_, _)] (List.forall_mem_singleton.mpr hmodule)
  exact .table [("modules", _, _)] _ (List.forall_mem_singleton.mpr hmodules) (.refl _)

theorem one_integer_in_both_formats :
    Regular .manifest oneInteger ∧ oneInteger.depth ≤ 127 ∧
      parseGroups .json (manifestOf intType).compact = .ok [soleVariable (.scalar .int)] ∧
      parseGroups .toml oneIntegerToml = .ok [soleVariable (.scalar .int)] := by
  have hdepth : oneInteger.depth ≤ 127 := by decide
  refine ⟨regular_oneInteger, hdepth, groups_int, ?_⟩
  exact (formats_agree regular_oneInteger hdepth measure_oneIntegerToml (shows_oneInteger (.swap _ _ _))
    (read_manifestOf intType) (shows_oneInteger (.refl _)) _).mpr ⟨by decide, groups_int⟩

/-! Arrays in more brackets than the reader of TOML opens. -/

def nested : Nat → Common
  | 0 => .list []
  | n + 1 => .list [nested n]

def nestedPlain : Nat → Json.Plain
  | 0 => .list []
  | n + 1 => .list [nestedPlain n]

theorem shows_nested (n : Nat) : (nested n).Shows (Toml.nest n) := by
  induction n with
  | zero => exact .list [] (by simp)
  | succ n ih => exact .list [(nested n, Toml.nest n)] (List.forall_mem_singleton.mpr ih)

theorem depth_nested (n : Nat) : (nested n).depth = n + 1 := by
  induction n with
  | zero => rfl
  | succ n ih => simp [nested, Common.depth, Common.depthItems, ih]

theorem data_nestedPlain (n : Nat) : (nestedPlain n).data = Toml.nest n := by
  induction n with
  | zero => rfl
  | succ n ih => rw [nestedPlain, Json.Plain.data, Json.Plain.dataItems, ih, Json.Plain.dataItems, Toml.nest]

/-- A member that no manifest asks for is passed over, whatever it is. -/
theorem groups_of_unknown {d : Data} (h : d.whole = true) {json : String}
    (hjson : Json.read json = (.table [(some "x", d)] true, true)) : parseGroups .json json = .ok [] := by
  refine parseGroups_json.mpr ⟨⟨[]⟩, rfl, by rw [hjson], ?_⟩
  rw [hjson]
  simp [Record.read, inside, Room.enter, jsonRoom, Record.ofTable, Record.readMembers, record, skip, h, finish,
    Record.missing]

/-- Eighty brackets around each other, in a member that nothing reads: the text in JSON has no groups, and that in TOML is
    rejected. -/
theorem deep_array_in_one_format :
    ¬ ∀ (v : Common) (toml json : String) (d d' : Data) (extent : Toml.Extent),
      Regular .manifest v → v.depth ≤ 127 → Toml.measure toml = some (d, extent) → v.Shows d →
      Json.read json = (d', true) → v.Shows d' →
      ∀ gs, parseGroups .toml toml = .ok gs ↔ parseGroups .json json = .ok gs := by
  intro h
  have hregular : Regular .manifest (.table [("x", nested 79)]) := by
    refine regular_record fun key s v hs hv => ?_
    simp only [List.mem_singleton, Prod.mk.injEq] at hs hv
    exact absurd (hs.1.symm.trans hv.1) (by decide)
  have hdepth : (Common.table [("x", nested 79)]).depth ≤ 127 := by
    simp [Common.depth, Common.depthEntries, depth_nested]
  have hshows : (Common.table [("x", nested 79)]).Shows (.table [(some "x", Toml.nest 79)] true) :=
    .table [("x", nested 79, Toml.nest 79)] _ (List.forall_mem_singleton.mpr (shows_nested 79)) (.refl _)
  have hjson : Json.read (Json.Plain.table [("x", nestedPlain 79)]).compact =
      (.table [(some "x", Toml.nest 79)] true, true) := by
    rw [Json.Plain.read_compact, Json.Plain.data, Json.Plain.dataMembers, data_nestedPlain]
    rfl
  have hgroups := groups_of_unknown (shows_nested 79).whole hjson
  have hunread : Toml.read (Toml.deepToml 80) = none := by
    rw [Toml.read_eq_within, Toml.measure_deepToml]
    rfl
  exact no_groups_of_unread hunread [] ((h _ _ _ _ _ _ hregular hdepth (Toml.measure_deepToml 79) hshows hjson
    hshows []).mpr hgroups)

end ConfigTemplate.Manifest
