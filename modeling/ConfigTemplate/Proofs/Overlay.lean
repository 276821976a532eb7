/-
  ConfigTemplate.Proofs.Overlay — what a record without required fields is read as: its
  defaults, overlaid by the fields that its data gives.

  (1) `entries?`: the fields that a value gives, by name. `read_eq_assign`: whatever form
      the record is written in, it is read by assigning these in order.
  (2) `assign_get`: each field ends up with what is given for it, or stays as it was.
      `exists_assign`: all that it takes is that each given field can be read.
-/
import ConfigTemplate.Data.Record
import ConfigTemplate.Proofs.Proper
import ConfigTemplate.Proofs.Results

namespace ConfigTemplate.Data

/-! ## (1) Fields by name -/

/-- The fields that a value gives: the members of a table, or the items of a list under the names in their order. A
    moment gives none. -/
def entries? (names : List String) : Data → Option (List (String × Data))
  | table members _ => some (members.filterMap fun m => m.1.map fun key => (key, m.2))
  | list items _ => some (names.zip items)
  | moment => some []
  | _ => none

variable {α β : Type}

/-- The entries that the record has a field for. -/
def known (fields : List (RecordField α)) (entries : List (String × Data)) : List (RecordField α × Data) :=
  entries.filterMap fun e => (fields.find? (·.name == e.1)).map fun f => (f, e.2)

/-- Fields assigned one after the other. -/
def assign (room : Room) : List (RecordField α × Data) → α → Except Problem α
  | [], a => .ok a
  | (f, d) :: rest, a => do
    let set ← f.read room d
    assign room rest (set a)

theorem known_cons_none {fields : List (RecordField α)} {key : String} (h : fields.find? (·.name == key) = none)
    (d : Data) (rest : List (String × Data)) : known fields ((key, d) :: rest) = known fields rest := by
  simp [known, h]

theorem known_cons_some {fields : List (RecordField α)} {key : String} {f : RecordField α}
    (h : fields.find? (·.name == key) = some f) (d : Data) (rest : List (String × Data)) :
    known fields ((key, d) :: rest) = (f, d) :: known fields rest := by
  simp [known, h]

/-- Other members are passed over, and no field comes twice. -/
theorem readMembers_eq_assign (fields : List (RecordField α)) (room : Room) {entries : List (String × Data)}
    (hkeys : (entries.map (·.1)).Nodup) (hproper : ∀ e ∈ entries, e.2.Proper) (seen : List String)
    (hseen : ∀ key ∈ entries.map (·.1), key ∉ seen) (a : α) :
    (Record.readMembers fields room (entries.map fun e => (some e.1, e.2)) seen a).map (·.1) =
      assign room (known fields entries) a := by
  induction entries generalizing seen a with
  | nil => rfl
  | cons e rest ih =>
    obtain ⟨key, d⟩ := e
    obtain ⟨hkey, hrest⟩ := List.nodup_cons.mp hkeys
    have hproper' : ∀ e ∈ rest, e.2.Proper := fun e he => hproper e (List.mem_cons_of_mem _ he)
    rw [List.map_cons, Record.readMembers]
    cases hfind : fields.find? (·.name == key) with
    | none =>
      have hskip : skip d = .ok () := by rw [skip, (hproper (key, d) (by simp)).whole]; rfl
      rw [known_cons_none hfind, ← ih hrest hproper' seen fun k hk => hseen k (List.mem_cons_of_mem _ hk)]
      simp only [hskip, Except.ok_bind]
    | some f =>
      have hnew : seen.contains key = false := by simpa using hseen key (by simp)
      rw [known_cons_some hfind, assign]
      simp only [hnew, Bool.false_eq_true, if_false]
      cases f.read room d with
      | error p => rfl
      | ok set =>
        refine ih hrest hproper' (key :: seen) (fun k hk hmem => ?_) (set a)
        rcases List.mem_cons.mp hmem with rfl | hmem
        · exact hkey hk
        · exact hseen k (List.mem_cons_of_mem _ hk) hmem

theorem missing_none {fields : List (RecordField α)} (h : ∀ f ∈ fields, f.required = false) (seen : List String) :
    Record.missing fields seen = none := by
  rw [Record.missing, Option.map_eq_none_iff, List.find?_eq_none]
  intro f hf
  simp [h f hf]

theorem ofTable_eq_assign {c : Record α} (hreq : ∀ f ∈ c.fields, f.required = false) (room : Room)
    (entries : List (String × Data)) (hkeys : (entries.map (·.1)).Nodup) (hproper : ∀ e ∈ entries, e.2.Proper) :
    c.ofTable room (entries.map fun e => (some e.1, e.2)) true = assign room (known c.fields entries) c.start := by
  have hmembers := readMembers_eq_assign c.fields room hkeys hproper [] (by simp) c.start
  rw [← hmembers, Record.ofTable]
  cases Record.readMembers c.fields room (entries.map fun e => (some e.1, e.2)) [] c.start with
  | error p => rfl
  | ok r =>
    simp only [Except.ok_bind, finish, if_true, missing_none hreq]
    rfl

/-- The items of a list are the first fields, whatever stands behind the last one. -/
theorem readPositions_eq_assign (c : Record α) (room : Room) {fields : List (RecordField α)}
    (hreq : ∀ f ∈ fields, f.required = false) (items : List Data) (index : Nat) (a : α) :
    Record.readPositions c .ignored room true fields items index a = assign room (fields.zip items) a := by
  induction fields generalizing items index a with
  | nil => cases items <;> rfl
  | cons f fields ih =>
    have hrest : ∀ g ∈ fields, g.required = false := fun g hg => hreq g (List.mem_cons_of_mem _ hg)
    cases items with
    | nil =>
      rw [Record.readPositions, hreq f (by simp)]
      simp only [finish, if_true, Except.ok_bind, Bool.false_eq_true, if_false]
      rw [ih hrest, List.zip_nil_right, List.zip_nil_right]
    | cons d rest =>
      rw [Record.readPositions, List.zip_cons_cons, assign]
      cases f.read room d with
      | error p => rfl
      | ok set => exact ih hrest rest (index + 1) (set a)

theorem find?_name {fields : List (RecordField α)} (hnames : (fields.map (·.name)).Nodup) {f : RecordField α}
    (hf : f ∈ fields) : fields.find? (·.name == f.name) = some f := by
  induction fields with
  | nil => cases hf
  | cons g rest ih =>
    obtain ⟨hg, hrest⟩ := List.nodup_cons.mp hnames
    rcases List.mem_cons.mp hf with rfl | hf
    · simp
    · have hne : (g.name == f.name) = false := by
        rw [beq_eq_false_iff_ne]
        intro h
        exact hg (List.mem_map.mpr ⟨f, hf, h.symm⟩)
      rw [List.find?_cons, hne]
      exact ih hrest hf

theorem known_zip {all fields : List (RecordField α)} (hnames : (all.map (·.name)).Nodup)
    (hsub : ∀ f ∈ fields, f ∈ all) (items : List Data) :
    known all ((fields.map (·.name)).zip items) = fields.zip items := by
  induction fields generalizing items with
  | nil => rfl
  | cons f rest ih =>
    cases items with
    | nil => rfl
    | cons d items =>
      rw [List.map_cons, List.zip_cons_cons, known_cons_some (find?_name hnames (hsub f (by simp))),
        ih (fun g hg => hsub g (List.mem_cons_of_mem _ hg)), List.zip_cons_cons]

theorem entries?_table (names : List String) (entries : List (String × Data)) (closed : Bool) :
    entries? names (.table (entries.map fun e => (some e.1, e.2)) closed) = some entries := by
  rw [entries?, List.filterMap_map]
  exact congrArg some List.filterMap_some

theorem map_fst_zip_sublist (names : List String) (items : List Data) :
    ((names.zip items).map (·.1)).Sublist names := by
  induction names generalizing items with
  | nil => simp
  | cons name rest ih =>
    cases items with
    | nil => simp
    | cons d items => exact (ih items).cons_cons name

/-- No field is given twice. -/
theorem entries?_nodup {names : List String} (hnames : names.Nodup) {d : Data} (h : d.Proper)
    {entries : List (String × Data)} (he : d.entries? names = some entries) : (entries.map (·.1)).Nodup := by
  cases h with
  | null | bool | number | text => cases he
  | moment =>
    obtain rfl := Option.some.inj he
    simp
  | list _ =>
    obtain rfl := Option.some.inj he
    exact hnames.sublist (map_fst_zip_sublist names _)
  | table hkeys _ =>
    rw [entries?_table] at he
    obtain rfl := Option.some.inj he
    exact hkeys

theorem entries?_proper {names : List String} {d : Data} (h : d.Proper) {entries : List (String × Data)}
    (he : d.entries? names = some entries) : ∀ e ∈ entries, e.2.Proper := by
  cases h with
  | null | bool | number | text => cases he
  | moment =>
    obtain rfl := Option.some.inj he
    simp
  | list hitems =>
    obtain rfl := Option.some.inj he
    intro e hmem
    exact hitems e.2 (List.of_mem_zip hmem).2
  | table _ hproper =>
    rw [entries?_table] at he
    obtain rfl := Option.some.inj he
    exact hproper

/-- However a record is written, its fields are assigned in the order in which they are given. -/
theorem read_eq_assign {c : Record α} (hreq : ∀ f ∈ c.fields, f.required = false)
    (hnames : (c.fields.map (·.name)).Nodup) {r : Reading} (hr : r.surplus = .ignored) {d : Data} (h : d.Proper) (a : α) :
    c.read r none d = .ok a ↔
      ∃ entries, d.entries? (c.fields.map (·.name)) = some entries ∧ assign none (known c.fields entries) c.start = .ok a := by
  cases h with
  | null | bool | number | text => simp [Record.read, entries?]
  | moment =>
    have htable := ofTable_eq_assign hreq none [] (by simp) (by simp)
    simp [Record.read, entries?, ← htable]
  | list _ =>
    simp only [Record.read, inside, Room.enter, Except.ok_bind, Record.ofList, hr, readPositions_eq_assign c none hreq,
      entries?, Option.some.injEq, exists_eq_left', known_zip hnames fun _ hf => hf]
  | table hkeys hproper =>
    simp only [Record.read, inside, Room.enter, Except.ok_bind, ofTable_eq_assign hreq none _ hkeys hproper,
      entries?_table, Option.some.injEq, exists_eq_left']

/-- What the assigned fields state is what the record states. -/
theorem read_states {c : Record α} (hreq : ∀ f ∈ c.fields, f.required = false)
    (hnames : (c.fields.map (·.name)).Nodup) {r : Reading} (hr : r.surplus = .ignored)
    {P : List (String × Data) → Prop} {a : α}
    (hassign : ∀ entries, (entries.map (·.1)).Nodup → (∀ e ∈ entries, e.2.Proper) →
      (assign none (known c.fields entries) c.start = .ok a ↔ P entries)) {d : Data} (h : d.Proper) :
    c.read r none d = .ok a ↔ ∃ entries, d.entries? (c.fields.map (·.name)) = some entries ∧ P entries := by
  rw [read_eq_assign hreq hnames hr h]
  constructor
  · rintro ⟨entries, hentries, ha⟩
    have hp := (hassign entries (entries?_nodup hnames h hentries) (entries?_proper h hentries)).mp ha
    exact ⟨entries, hentries, hp⟩
  · rintro ⟨entries, hentries, hp⟩
    have ha := (hassign entries (entries?_nodup hnames h hentries) (entries?_proper h hentries)).mpr hp
    exact ⟨entries, hentries, ha⟩

/-! ## (2) What becomes of each field -/

/-- A field's value: the default, or what the given data reads as. -/
def Stated (reads : Data → β → Prop) (default : β) : Option Data → β → Prop
  | none, b => b = default
  | some d, b => reads d b

/-- The field leaves alone what `get` finds. -/
def RecordField.Spares (g : RecordField α) (room : Room) (get : α → β) : Prop :=
  ∀ d set, g.read room d = .ok set → ∀ a, get (set a) = get a

theorem RecordField.spares {γ : Type} {name : String} {required : Bool} {read : Room → Data → Except Problem β}
    {put : β → α → α} {get : α → γ} (h : ∀ b a, get (put b a) = get a) (room : Room) :
    RecordField.Spares ⟨name, required, fun room d => (read room d).map put⟩ room get := by
  intro d set hset a
  obtain ⟨b, -, rfl⟩ := Except.map_eq_ok.mp hset
  exact h b a

theorem Stated.congr {R R' : Data → β → Prop} {default b : β} {given : Option Data}
    (h : ∀ d, given = some d → (R d b ↔ R' d b)) : Stated R default given b ↔ Stated R' default given b := by
  cases given with
  | none => exact Iff.rfl
  | some d => exact h d rfl

/-- A field has only one value. -/
theorem Stated.unique {reads : Data → Except Problem β} {default b b' : β} {given : Option Data}
    (h : Stated (fun d v => reads d = .ok v) default given b)
    (h' : Stated (fun d v => reads d = .ok v) default given b') : b = b' := by
  cases given with
  | none => exact h.trans h'.symm
  | some d => exact Except.ok.inj (h.symm.trans h')

/-- What is stated for a field can be read. -/
theorem Stated.readable {reads : Data → Except Problem β} {default b : β} {given : Option Data}
    (h : Stated (fun d v => reads d = .ok v) default given b) (put : β → α → α) :
    ∀ d, given = some d → ∃ set, (reads d).map put = .ok set := by
  rintro d rfl
  exact ⟨put b, Except.map_eq_ok.mpr ⟨b, h, rfl⟩⟩

theorem lookup_proper {key : String} {entries : List (String × Data)} (h : ∀ e ∈ entries, e.2.Proper) {d : Data}
    (hd : entries.lookup key = some d) : d.Proper := by
  obtain ⟨before, after, rfl, -⟩ := List.lookup_eq_some_iff.mp hd
  exact h (key, d) (by simp)

theorem lookup_absent {key : String} {entries : List (String × Data)} (h : key ∉ entries.map (·.1)) :
    entries.lookup key = none := by
  rw [List.lookup_eq_none_iff]
  intro e he
  rw [bne_iff_ne]
  intro heq
  exact h (List.mem_map.mpr ⟨e, he, heq.symm⟩)

section Assign

variable {fields : List (RecordField α)} {room : Room} {entries : List (String × Data)}

/-- The entry of a field sets it; the other entries spare it. -/
theorem assign_get (name : String) (get : α → β) {required : Bool} {read : Room → Data → Except Problem β}
    {put : β → α → α}
    (hfind : fields.find? (·.name == name) = some ⟨name, required, fun room d => (read room d).map put⟩)
    (hget : ∀ b a, get (put b a) = b) (hspares : ∀ g ∈ fields, g.name ≠ name → g.Spares room get)
    (hkeys : (entries.map (·.1)).Nodup) {a b : α} (h : assign room (known fields entries) a = .ok b) :
    Stated (fun d v => read room d = .ok v) (get a) (entries.lookup name) (get b) := by
  induction entries generalizing a with
  | nil =>
    obtain rfl := Except.ok.inj h
    rfl
  | cons e rest ih =>
    obtain ⟨key, d⟩ := e
    obtain ⟨hkey, hrest⟩ := List.nodup_cons.mp hkeys
    rw [List.lookup_cons]
    by_cases hname : name = key
    · subst hname
      rw [known_cons_some hfind, assign] at h
      obtain ⟨set, hset, h⟩ := Except.bind_eq_ok.mp h
      obtain ⟨v, hv, rfl⟩ := Except.map_eq_ok.mp hset
      have hkept := ih hrest h
      rw [lookup_absent hkey, hget] at hkept
      have hkept : get b = v := hkept
      rw [beq_self_eq_true, hkept]
      exact hv
    · rw [beq_eq_false_iff_ne.mpr hname]
      cases hfind' : fields.find? (·.name == key) with
      | none =>
        rw [known_cons_none hfind'] at h
        exact ih hrest h
      | some g =>
        have hg : g.name = key := by simpa using List.find?_some hfind'
        have hother : g.name ≠ name := fun heq => hname (heq.symm.trans hg)
        rw [known_cons_some hfind', assign] at h
        obtain ⟨set, hset, h⟩ := Except.bind_eq_ok.mp h
        have hstated := ih hrest h
        rw [hspares g (List.mem_of_find?_eq_some hfind') hother d set hset a] at hstated
        exact hstated

/-- Fields are assigned if each of them can be read. -/
theorem exists_assign (hkeys : (entries.map (·.1)).Nodup)
    (h : ∀ f ∈ fields, ∀ d, entries.lookup f.name = some d → ∃ set, f.read room d = .ok set) (a : α) :
    ∃ b, assign room (known fields entries) a = .ok b := by
  induction entries generalizing a with
  | nil => exact ⟨a, rfl⟩
  | cons e rest ih =>
    obtain ⟨key, d⟩ := e
    obtain ⟨hkey, hrest⟩ := List.nodup_cons.mp hkeys
    have hfields : ∀ f ∈ fields, ∀ d, rest.lookup f.name = some d → ∃ set, f.read room d = .ok set := by
      intro f hf d' hd'
      have hne : (f.name == key) = false := by
        rw [beq_eq_false_iff_ne]
        rintro rfl
        rw [lookup_absent hkey] at hd'
        cases hd'
      refine h f hf d' ?_
      rw [List.lookup_cons, hne]
      exact hd'
    cases hfind : fields.find? (·.name == key) with
    | none =>
      rw [known_cons_none hfind]
      exact ih hrest hfields a
    | some f =>
      have hf : f.name = key := by simpa using List.find?_some hfind
      obtain ⟨set, hset⟩ := h f (List.mem_of_find?_eq_some hfind) d (by rw [hf, List.lookup_cons, beq_self_eq_true])
      rw [known_cons_some hfind, assign, hset]
      exact ih hrest hfields (set a)

/-- Assigning finds just what `P` says, if `P` says what each field reads as. -/
theorem assign_iff {P : α → Prop} (hkeys : (entries.map (·.1)).Nodup) {a b : α}
    (hgets : ∀ b, assign room (known fields entries) a = .ok b → P b)
    (hreadable : P b → ∀ f ∈ fields, ∀ d, entries.lookup f.name = some d → ∃ set, f.read room d = .ok set)
    (hunique : ∀ b', P b → P b' → b' = b) : assign room (known fields entries) a = .ok b ↔ P b := by
  constructor
  · intro h
    exact hgets b h
  · intro hb
    obtain ⟨b', hb'⟩ := exists_assign hkeys (hreadable hb) a
    obtain rfl := hunique b' hb (hgets b' hb')
    exact hb'

end Assign

end ConfigTemplate.Data
