/-
  ConfigTemplate.Proofs.Members — what a record is read from: which members count, in
  whatever order they come.

  (1) `given`: the values that the members of a table give to a name. `Passable`: the
      members without a field are passed over.
  (2) `Assigned`: every field, in declaration order, sets its value or is left out.
      `Apart`: two fields of a record do not interfere, so their members may swap.
  (3) `ofTable_ok`: a table is read as its members assign it.
  (4) `readPositions_ok`: a list with an item for every field is read as the table with
      a member for every field. `readPositions_congr`: one item for another.
  (5) `read_table`, `read_list`, `read_named`: both for whole records.
-/
import ConfigTemplate.Data.Record
import ConfigTemplate.Proofs.Results
import Mathlib.Data.List.Forall2

namespace ConfigTemplate.Data

/-! ## (1) Members -/

abbrev Member := Option String × Data

def given (members : List Member) (name : String) : List Data :=
  (members.filter (·.1 = some name)).map (·.2)

theorem given_cons_same (name : String) (d : Data) (rest : List Member) :
    given ((some name, d) :: rest) name = d :: given rest name := by
  simp [given]

theorem given_cons_other {key : Option String} {name : String} (h : key ≠ some name) (d : Data) (rest : List Member) :
    given ((key, d) :: rest) name = given rest name := by
  simp [given, h]

theorem given_append (before after : List Member) (name : String) :
    given (before ++ after) name = given before name ++ given after name := by
  simp [given]

theorem given_perm {members members' : List Member} (h : members.Perm members') (name : String) :
    (given members name).Perm (given members' name) := (h.filter _).map _

/-- A value that is the only one stays so in any order. -/
theorem given_only {members members' : List Member} (h : members.Perm members') (name : String) (d : Data) :
    given members name = [d] ↔ given members' name = [d] := by
  have hgiven := given_perm h name
  constructor
  · intro h'
    exact List.perm_singleton.mp (h' ▸ hgiven).symm
  · intro h'
    exact List.perm_singleton.mp (h' ▸ hgiven)

/-- The keys can be read, and what belongs to none of the names is data. -/
def Passable (names : List String) (members : List Member) : Prop :=
  ∀ m ∈ members, ∃ key, m.1 = some key ∧ (key ∉ names → m.2.whole = true)

theorem passable_nil (names : List String) : Passable names [] := fun _ hm => nomatch hm

theorem passable_cons (names : List String) (m : Member) (rest : List Member) :
    Passable names (m :: rest) ↔
      (∃ key, m.1 = some key ∧ (key ∉ names → m.2.whole = true)) ∧ Passable names rest := by
  simp [Passable]

theorem passable_perm {names : List String} {members members' : List Member} (h : members.Perm members') :
    Passable names members ↔ Passable names members' := by
  simp only [Passable, h.mem_iff]

theorem passable_middle (names : List String) (before after : List Member) (m : Member) :
    Passable names (before ++ m :: after) ↔
      (∃ key, m.1 = some key ∧ (key ∉ names → m.2.whole = true)) ∧ Passable names (before ++ after) := by
  rw [passable_perm List.perm_middle, passable_cons]

/-- The items as the members of a table. -/
def named (names : List String) (items : List Data) : List Member :=
  (names.zip items).map fun m => (some m.1, m.2)

theorem given_named {names : List String} {name : String} (h : name ∉ names) (items : List Data) :
    given (named names items) name = [] := by
  induction names generalizing items with
  | nil => rfl
  | cons first rest ih =>
    obtain ⟨hfirst, hrest⟩ := not_or.mp (mt List.mem_cons.mpr h)
    cases items with
    | nil => rfl
    | cons d items =>
      have hother := @given_cons_other (some first) name (by simpa using Ne.symm hfirst) d (named rest items)
      exact hother.trans (ih hrest items)

theorem passable_named (names : List String) (items : List Data) : Passable names (named names items) := by
  intro m hm
  obtain ⟨⟨name, d⟩, hname, rfl⟩ := List.mem_map.mp hm
  exact ⟨name, rfl, fun h => absurd (List.of_mem_zip hname).1 h⟩

/-! ## (2) Fields -/

variable {α : Type}

/-- Neither field's value gets in the way of the other's. -/
def RecordField.Apart (f g : RecordField α) : Prop :=
  f.name ≠ g.name ∧ ∀ room d set room' d' set', f.read room d = .ok set → g.read room' d' = .ok set' →
    ∀ a, set (set' a) = set' (set a)

/-- The field is set by its only value, or is left out; what was `seen` before has its value. -/
def Sets (room : Room) (values : String → List Data) (seen : List String) (f : RecordField α) (set : α → α) : Prop :=
  (values f.name = [] ∧ (f.required = true → f.name ∈ seen) ∧ set = id) ∨
    (f.name ∉ seen ∧ ∃ d, values f.name = [d] ∧ f.read room d = .ok set)

/-- The fields set one after the other make `b` of `a`. -/
def Assigned (room : Room) (values : String → List Data) (seen : List String) : List (RecordField α) → α → α → Prop
  | [], a, b => a = b
  | f :: fields, a, b => ∃ set, Sets room values seen f set ∧ Assigned room values seen fields (set a) b

theorem assigned_congr {room room' : Room} {values values' : String → List Data} {seen seen' : List String}
    {fields fields' : List (RecordField α)}
    (h : List.Forall₂ (fun f f' => ∀ set, Sets room values seen f set ↔ Sets room' values' seen' f' set) fields fields')
    (a b : α) : Assigned room values seen fields a b ↔ Assigned room' values' seen' fields' a b := by
  induction h generalizing a with
  | nil => rfl
  | cons hf _ ih => simp only [Assigned, hf, ih]

/-- The fields that look the same are assigned the same. -/
theorem assigned_same {room : Room} {values values' : String → List Data} {seen seen' : List String}
    {fields : List (RecordField α)}
    (h : ∀ f ∈ fields, ∀ set, Sets room values seen f set ↔ Sets room values' seen' f set) (a b : α) :
    Assigned room values seen fields a b ↔ Assigned room values' seen' fields a b :=
  assigned_congr (List.forall₂_same.mpr h) a b

theorem assigned_sets {room : Room} {values : String → List Data} {seen : List String} {fields : List (RecordField α)}
    {a b : α} (h : Assigned room values seen fields a b) {f : RecordField α} (hf : f ∈ fields) :
    ∃ set, Sets room values seen f set := by
  induction fields generalizing a with
  | nil => cases hf
  | cons g rest ih =>
    obtain ⟨set, hg, hrest⟩ := h
    rcases List.mem_cons.mp hf with rfl | hf
    · exact ⟨set, hg⟩
    · exact ih hrest hf

theorem sets_perm {members members' : List Member} (h : members.Perm members') (room : Room) (seen : List String)
    (f : RecordField α) (set : α → α) :
    Sets room (given members) seen f set ↔ Sets room (given members') seen f set := by
  have hnone : given members f.name = [] ↔ given members' f.name = [] := by
    rw [← List.length_eq_zero_iff, ← List.length_eq_zero_iff, (given_perm h f.name).length_eq]
  simp only [Sets, hnone, given_only h]

theorem assigned_perm {members members' : List Member} (h : members.Perm members') (room : Room) (seen : List String)
    (fields : List (RecordField α)) (a b : α) :
    Assigned room (given members) seen fields a b ↔ Assigned room (given members') seen fields a b :=
  assigned_same (fun f _ => sets_perm h room seen f) a b

/-- A value may stand for another that the field reads the same. -/
theorem sets_member {f : RecordField α} {key : Option String} {room : Room} {d d' : Data}
    (h : key = some f.name → ∀ set, f.read room d = .ok set ↔ f.read room d' = .ok set) (before after : List Member)
    (seen : List String) (set : α → α) :
    Sets room (given (before ++ (key, d) :: after)) seen f set ↔
      Sets room (given (before ++ (key, d') :: after)) seen f set := by
  by_cases hkey : key = some f.name
  · subst hkey
    simp only [Sets, given_append, given_cons_same, List.append_eq_singleton_iff, List.append_eq_nil_iff, reduceCtorEq,
      and_false, false_and, false_or, List.cons.injEq, or_false]
    refine and_congr_right fun _ => ?_
    constructor
    · intro h'
      obtain ⟨_, ⟨hbefore, rfl, hafter⟩, hset⟩ := h'
      exact ⟨d', ⟨hbefore, rfl, hafter⟩, (h rfl set).mp hset⟩
    · intro h'
      obtain ⟨_, ⟨hbefore, rfl, hafter⟩, hset⟩ := h'
      exact ⟨d, ⟨hbefore, rfl, hafter⟩, (h rfl set).mpr hset⟩
  · simp only [Sets, given_append, given_cons_other hkey]

/-- Fields without the name do not see its member. -/
theorem assigned_other {key : String} {fields : List (RecordField α)} (h : ∀ f ∈ fields, f.name ≠ key) (room : Room)
    (d : Data) (rest : List Member) (seen : List String) (a b : α) :
    Assigned room (given rest) (key :: seen) fields a b ↔
      Assigned room (given ((some key, d) :: rest)) seen fields a b := by
  refine assigned_same (fun f hf set => ?_) a b
  have hgiven : given ((some key, d) :: rest) f.name = given rest f.name :=
    given_cons_other (by simpa using (h f hf).symm) d rest
  simp only [Sets, hgiven, List.mem_cons, h f hf, false_or]

/-- The first member of a field may be read before all the others. -/
theorem assigned_first {fields : List (RecordField α)} (hfields : fields.Pairwise RecordField.Apart)
    {f : RecordField α} (hf : f ∈ fields) {room : Room} {d : Data} {set : α → α} (hset : f.read room d = .ok set)
    (rest : List Member) {seen : List String} (hseen : f.name ∉ seen) (a b : α) :
    Assigned room (given rest) (f.name :: seen) fields (set a) b ↔
      Assigned room (given ((some f.name, d) :: rest)) seen fields a b := by
  induction fields generalizing a with
  | nil => cases hf
  | cons g tail ih =>
    obtain ⟨hg, htail⟩ := List.pairwise_cons.mp hfields
    rcases List.mem_cons.mp hf with rfl | hf
    · -- the field's own turn: its value is the member's, and it has no other
      have hself : ∀ s, Sets room (given ((some f.name, d) :: rest)) seen f s ↔ given rest f.name = [] ∧ s = set := by
        intro s
        simp only [Sets, given_cons_same, hseen, not_false_eq_true, true_and, reduceCtorEq, false_and, false_or,
          List.cons.injEq]
        constructor
        · intro h
          obtain ⟨_, ⟨rfl, hrest⟩, h⟩ := h
          exact ⟨hrest, Except.ok.inj (h.symm.trans hset)⟩
        · intro h
          obtain ⟨hrest, rfl⟩ := h
          exact ⟨d, ⟨rfl, hrest⟩, hset⟩
      have hdone : ∀ s, Sets room (given rest) (f.name :: seen) f s ↔ given rest f.name = [] ∧ s = id := by
        simp [Sets]
      have hothers := assigned_other (fun g hm => (hg g hm).1.symm) room d rest seen (set a) b
      simp only [Assigned, hself, hdone, and_assoc, exists_and_left, exists_eq_left, id, hothers]
    · have hne : g.name ≠ f.name := (hg f hf).1
      have hgiven : given ((some f.name, d) :: rest) g.name = given rest g.name :=
        given_cons_other (by simpa using hne.symm) d rest
      have hsame : ∀ s, Sets room (given rest) (f.name :: seen) g s ↔
          Sets room (given ((some f.name, d) :: rest)) seen g s := by
        simp only [Sets, hgiven, List.mem_cons, hne, false_or, implies_true]
      have hswap : ∀ s, Sets room (given ((some f.name, d) :: rest)) seen g s → s (set a) = set (s a) := by
        intro s h
        rcases h with ⟨-, -, rfl⟩ | ⟨-, d', -, h⟩
        · rfl
        · exact (hg f hf).2 _ _ _ _ _ _ h hset a
      simp only [Assigned, hsame]
      refine exists_congr fun s => and_congr_right fun h => ?_
      rw [hswap s h]
      exact ih htail hf (s a)

/-! ## (3) Tables -/

theorem inside_ok {room inner : Room} : inside room = .ok inner ↔ room.enter = some inner := by
  unfold inside
  cases room.enter <;> simp

theorem skip_ok {d : Data} {u : Unit} : skip d = .ok u ↔ d.whole = true := by
  simp [skip]

theorem finish_ok {closed : Bool} {u : Unit} : finish closed = .ok u ↔ closed = true := by
  simp [finish]

namespace Record

theorem missing_none {fields : List (RecordField α)} {seen : List String} :
    missing fields seen = none ↔ ∀ f ∈ fields, f.required = true → f.name ∈ seen := by
  simp [missing, List.find?_eq_none]

theorem assigned_none {fields : List (RecordField α)} {room : Room} {seen : List String} {a b : α} :
    Assigned room (given []) seen fields a b ↔ missing fields seen = none ∧ a = b := by
  rw [missing_none]
  induction fields with
  | nil => simp [Assigned]
  | cons f rest ih =>
    have hf : ∀ s, Sets room (given []) seen f s ↔ (f.required = true → f.name ∈ seen) ∧ s = id := by
      simp [Sets, given]
    simp only [Assigned, hf, and_assoc, exists_and_left, exists_eq_left, id, ih, List.forall_mem_cons]

theorem readMembers_ok {fields : List (RecordField α)} (hfields : fields.Pairwise RecordField.Apart) (room : Room)
    (members : List Member) (seen : List String) (a b : α) :
    (∃ seen', readMembers fields room members seen a = .ok (b, seen') ∧ missing fields seen' = none) ↔
      Passable (fields.map (·.name)) members ∧ Assigned room (given members) seen fields a b := by
  induction members generalizing seen a with
  | nil => simp [readMembers, passable_nil, assigned_none, and_comm]
  | cons m rest ih =>
    obtain ⟨key, d⟩ := m
    rw [passable_cons]
    cases key with
    | none => simp [readMembers]
    | some key =>
      cases hfind : fields.find? (·.name == key) with
      | none =>
        have hother : ∀ f ∈ fields, f.name ≠ key := by simpa [List.find?_eq_none] using hfind
        have hunknown : key ∉ fields.map (·.name) := by simpa using hother
        have hsame : ∀ b, Assigned room (given ((some key, d) :: rest)) seen fields a b ↔
            Assigned room (given rest) seen fields a b := fun b => by
          refine assigned_same (fun f hf set => ?_) a b
          rw [Sets, Sets, given_cons_other (by simpa using (hother f hf).symm)]
        simp only [readMembers, hfind, Except.bind_eq_ok, skip_ok, exists_and_left, and_assoc, ih, hsame, exists_const,
          Option.some.injEq, exists_eq_left', hunknown, not_false_eq_true, forall_const]
      | some f =>
        have hf : f ∈ fields := List.mem_of_find?_eq_some hfind
        have hname : f.name = key := by simpa using List.find?_some hfind
        subst hname
        have hknown : f.name ∈ fields.map (·.name) := List.mem_map_of_mem hf
        simp only [readMembers, hfind, List.contains_iff_mem, Option.some.injEq, exists_eq_left', hknown,
          not_true_eq_false, false_implies, true_and]
        by_cases hseen : f.name ∈ seen
        · -- a second value
          have hnone : ¬ Assigned room (given ((some f.name, d) :: rest)) seen fields a b := by
            intro h
            obtain ⟨set, h⟩ := assigned_sets h hf
            simp [Sets, given_cons_same, hseen] at h
          simp [hseen, hnone]
        · simp only [hseen, if_false]
          cases hread : f.read room d with
          | error e =>
            have hnone : ¬ Assigned room (given ((some f.name, d) :: rest)) seen fields a b := by
              intro h
              obtain ⟨set, h⟩ := assigned_sets h hf
              simp [Sets, given_cons_same, hread] at h
            simp [hnone]
          | ok set =>
            have hfirst := assigned_first hfields hf hread rest hseen a b
            simp only [Except.ok_bind, ih, hfirst]

/-- A table is read as its members assign it, whatever their order. -/
theorem ofTable_ok {c : Record α} (hc : c.fields.Pairwise RecordField.Apart) (room : Room) (members : List Member)
    (closed : Bool) (a : α) :
    c.ofTable room members closed = .ok a ↔
      closed = true ∧ Passable (c.fields.map (·.name)) members ∧
        Assigned room (given members) [] c.fields c.start a := by
  rw [← readMembers_ok hc, ofTable]
  cases closed with
  | false => simp [finish]
  | true =>
    simp only [finish, if_true, Except.bind_eq_ok, Prod.exists, exists_const, true_and]
    constructor
    · intro h
      obtain ⟨b, seen, hread, h⟩ := h
      cases hmissing : missing c.fields seen with
      | some name => simp [hmissing] at h
      | none =>
        simp only [hmissing, Except.pure_eq, Except.ok.injEq] at h
        exact ⟨seen, h ▸ hread, hmissing⟩
    · intro h
      obtain ⟨seen, hread, hmissing⟩ := h
      exact ⟨a, seen, hread, by simp [hmissing]⟩

/-! ## (4) Lists -/

theorem readPositions_ok (c : Record α) (surplus : Surplus) (room : Room) (closed : Bool)
    {fields : List (RecordField α)} (hfields : fields.Pairwise RecordField.Apart) {items : List Data}
    (hlength : fields.length = items.length) (index : Nat) (a b : α) :
    readPositions c surplus room closed fields items index a = .ok b ↔
      closed = true ∧ Assigned room (given (named (fields.map (·.name)) items)) [] fields a b := by
  induction fields generalizing items index a with
  | nil =>
    cases items with
    | nil =>
      simp only [readPositions, Except.bind_eq_ok, finish_ok, exists_and_left, exists_const, Except.pure_eq,
        Except.ok.injEq, Assigned]
    | cons d items => simp at hlength
  | cons f rest ih =>
    cases items with
    | nil => simp at hlength
    | cons d items =>
      obtain ⟨hf, hrest⟩ := List.pairwise_cons.mp hfields
      have hlater : f.name ∉ rest.map (·.name) := by
        intro h
        obtain ⟨g, hg, hname⟩ := List.mem_map.mp h
        exact (hf g hg).1 hname.symm
      have hself : ∀ set, Sets room (given (named ((f :: rest).map (·.name)) (d :: items))) [] f set ↔
          f.read room d = .ok set := by
        intro set
        have hgiven : given (named ((f :: rest).map (·.name)) (d :: items)) f.name = [d] :=
          (given_cons_same f.name d _).trans (congrArg (d :: ·) (given_named hlater items))
        simp only [Sets, hgiven, reduceCtorEq, false_and, false_or, List.not_mem_nil, not_false_eq_true, true_and,
          List.cons.injEq, and_true, exists_eq_left']
      have hothers : ∀ a, Assigned room (given (named ((f :: rest).map (·.name)) (d :: items))) [] rest a b ↔
          Assigned room (given (named (rest.map (·.name)) items)) [] rest a b := by
        intro a
        refine assigned_same (fun g hg set => ?_) a b
        have hgiven : given (named ((f :: rest).map (·.name)) (d :: items)) g.name =
            given (named (rest.map (·.name)) items) g.name :=
          given_cons_other (by simpa using (hf g hg).1) d _
        rw [Sets, Sets, hgiven]
      simp only [readPositions, Except.bind_eq_ok, ih hrest (Nat.succ.inj hlength), Assigned, hself, hothers]
      constructor
      · intro h
        obtain ⟨set, hset, hclosed, h⟩ := h
        exact ⟨hclosed, set, hset, h⟩
      · intro h
        obtain ⟨hclosed, set, hset, h⟩ := h
        exact ⟨set, hset, hclosed, h⟩

/-- One item may stand for another that its field reads the same. -/
theorem readPositions_congr (c : Record α) (surplus : Surplus) (room : Room) (closed : Bool)
    {fields : List (RecordField α)} {before : List Data} {d d' : Data}
    (h : ∀ f, fields[before.length]? = some f → ∀ set, f.read room d = .ok set ↔ f.read room d' = .ok set)
    (after : List Data) (index : Nat) (a b : α) :
    readPositions c surplus room closed fields (before ++ d :: after) index a = .ok b ↔
      readPositions c surplus room closed fields (before ++ d' :: after) index a = .ok b := by
  induction before generalizing fields index a with
  | nil =>
    cases fields with
    | nil => cases surplus <;> simp [readPositions]
    | cons f rest => simp only [List.nil_append, readPositions, Except.bind_eq_ok, h f rfl]
  | cons first before ih =>
    cases fields with
    | nil => cases surplus <;> simp [readPositions]
    | cons f rest =>
      have hrest : ∀ g, rest[before.length]? = some g → ∀ set, g.read room d = .ok set ↔ g.read room d' = .ok set :=
        fun g hg => h g hg
      simp only [List.cons_append, readPositions, Except.bind_eq_ok, ih hrest]

/-! ## (5) Records -/

theorem read_table {c : Record α} (hc : c.fields.Pairwise RecordField.Apart) (r : Reading) (room : Room)
    (members : List Member) (closed : Bool) (a : α) :
    c.read r room (.table members closed) = .ok a ↔ ∃ inner, room.enter = some inner ∧ closed = true ∧
      Passable (c.fields.map (·.name)) members ∧ Assigned inner (given members) [] c.fields c.start a := by
  simp only [read, Except.bind_eq_ok, inside_ok, ofTable_ok hc]

theorem read_list {c : Record α} (r : Reading) (room : Room) (items : List Data) (closed : Bool) (a : α) :
    c.read r room (.list items closed) = .ok a ↔ ∃ inner, room.enter = some inner ∧
      readPositions c r.surplus inner closed c.fields items 0 c.start = .ok a := by
  simp only [read, Except.bind_eq_ok, inside_ok, ofList]

/-- An item for every field and a member for every field are the same record. -/
theorem read_named {c : Record α} (hc : c.fields.Pairwise RecordField.Apart) {items : List Data}
    (hlength : c.fields.length = items.length) (r : Reading) (room : Room) (closed : Bool) (a : α) :
    c.read r room (.table (named (c.fields.map (·.name)) items) closed) = .ok a ↔
      c.read r room (.list items closed) = .ok a := by
  simp only [read_table hc, read_list, readPositions_ok c _ _ _ hc hlength, passable_named, true_and]

end Record

end ConfigTemplate.Data
