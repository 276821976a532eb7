/-
  ConfigTemplate.Proofs.Rewriting — the data of a manifest put in another way.

  (1) `Step`: the members of an object change places; an object of a record or a type
      gets a member that nothing reads; a record or a type is written as a list of its
      fields instead of an object; or one of these is done to a value within. `kept`
      tells that the value belongs to a type, whose members are kept before they are
      read.
  (2) `Step.whole`, `Step.depth`, `Step.fits`: what a step leaves as it was.
  (3) `Respects`: a reader that makes nothing of a step. `respects_record`,
      `respects_list`: records and lists do if their fields and items do.
  (4) `respects_type`: types do, by induction on the types around each other.
  (5) `manifest_respects`: so do whole manifests.
-/
import ConfigTemplate.Proofs.Places
import ConfigTemplate.Proofs.Proper

namespace ConfigTemplate

namespace Data

/-- A string, a flag or nothing. -/
def isAtom : Data → Bool
  | null | bool _ | text _ => true
  | _ => false

/-- Neither a list nor a table. -/
def isLeaf : Data → Bool
  | list _ _ | table _ _ => false
  | _ => true

end Data

namespace Manifest

open Data

/-! ## (1) Steps -/

/-- The members of the object are kept until its tag is known. -/
def Place.keeps : Place → Bool
  | type => true
  | _ => false

/-- One change to a value at a place. `idle` says what may be put into an object. -/
inductive Step (idle : Bool → Data → Prop) : Bool → Place → Data → Data → Prop
  | order {kept : Bool} {s : Place} {members members' : List Member} {closed : Bool} :
      members.Perm members' → Step idle kept s (.table members closed) (.table members' closed)
  /-- A member that is no field of the record. -/
  | intoRecord {kept : Bool} {fields : List (String × Place)} {before after : List Member} {closed : Bool}
      {key : String} {v : Data} :
      key ∉ fields.map (·.1) → idle kept v →
      Step idle kept (.record fields) (.table (before ++ after) closed)
        (.table (before ++ (some key, v) :: after) closed)
  /-- A member that is neither the tag nor a part of the type. -/
  | intoType {kept : Bool} {before after : List Member} {closed : Bool} {key : String} {v : Data} :
      key ∉ (Place.type.fields (tagOf (before ++ after))).map (·.1) → idle true v →
      Step idle kept .type (.table (before ++ after) closed) (.table (before ++ (some key, v) :: after) closed)
  | recordForm {kept : Bool} {fields : List (String × Place)} {items : List Data} {closed : Bool} :
      fields.length = items.length →
      Step idle kept (.record fields) (.table (named (fields.map (·.1)) items) closed) (.list items closed)
  | typeForm {kept : Bool} {k : Kind} {items : List Data} {closed : Bool} :
      k.places.length = items.length →
      Step idle kept .type
        (.table ((some "kind", .text (some k.name)) :: named (k.places.map (·.1)) items) closed)
        (.list (.text (some k.name) :: items) closed)
  | member {kept : Bool} {s : Place} {before after : List Member} {key : Option String} {d d' : Data} {closed : Bool} :
      Step idle (kept || s.keeps) (s.memberPlace (before ++ (key, d) :: after) key) d d' →
      Step idle kept s (.table (before ++ (key, d) :: after) closed) (.table (before ++ (key, d') :: after) closed)
  | item {kept : Bool} {s : Place} {before after : List Data} {d d' : Data} {closed : Bool} :
      Step idle (kept || s.keeps) (s.itemPlace (before ++ d :: after) before.length) d d' →
      Step idle kept s (.list (before ++ d :: after) closed) (.list (before ++ d' :: after) closed)

/-- A string, a flag or nothing; among the members that are kept, a string that denotes characters. -/
def Idle (kept : Bool) (d : Data) : Prop := d.isAtom = true ∧ (kept = true → d ≠ .text none)

/-! ## (2) What a step leaves as it was -/

section Invariants

theorem wholeMembers_values (members : List Member) : wholeMembers members = wholeItems (members.map (·.2)) := by
  rw [wholeMembers_eq, wholeItems_eq, List.all_map]
  rfl

theorem depthMembers_values (members : List Member) : depthMembers members = depthItems (members.map (·.2)) := by
  induction members with
  | nil => rfl
  | cons m rest ih => simp [depthMembers, depthItems, ih]

theorem fitMembers_values (room : Room) (members : List Member) :
    fitMembers room members = (members.all (·.1.isSome) && fitItems room (members.map (·.2))) := by
  induction members with
  | nil => rfl
  | cons m rest ih =>
    simp only [fitMembers, ih, List.all_cons, List.map_cons, fitItems]
    ac_rfl

theorem fitItems_eq (room : Room) (items : List Data) : fitItems room items = items.all (fits room) := by
  induction items with
  | nil => rfl
  | cons d rest ih => simp [fitItems, ih]

theorem depthItems_append (items items' : List Data) :
    depthItems (items ++ items') = max (depthItems items) (depthItems items') := by
  induction items with
  | nil => simp [depthItems]
  | cons d rest ih => simp [depthItems, ih, Nat.max_assoc]

theorem depthItems_perm {items items' : List Data} (h : items.Perm items') : depthItems items = depthItems items' := by
  induction h with
  | nil => rfl
  | cons d _ ih => simp [depthItems, ih]
  | swap d d' rest => simp [depthItems, Nat.max_left_comm]
  | trans _ _ ih ih' => exact ih.trans ih'

theorem values_named {fields : List (String × Place)} {items : List Data} (h : fields.length = items.length) :
    (named (fields.map (·.1)) items).map (·.2) = items := by
  rw [named, List.map_map]
  exact List.map_snd_zip (by simp [h])

theorem all_named (names : List String) (items : List Data) : (named names items).all (·.1.isSome) = true := by
  simp [named]

variable {kept : Bool} {s : Place} {d d' : Data}

theorem Idle.whole (h : Idle kept d) : d.whole = true := by
  cases d <;> simp_all [Idle, isAtom, Data.whole]

theorem Idle.depth (h : Idle kept d) : d.depth = 0 := by
  cases d <;> simp_all [Idle, isAtom, Data.depth]

theorem Idle.fits (h : Idle true d) (room : Room) : d.fits room = true := by
  cases d with
  | text s => cases s <;> simp_all [Idle, Data.fits]
  | _ => simp_all [Idle, isAtom, Data.fits]

/-- Outside types nothing is kept that was not kept before. -/
theorem Step.unkept {outer : Place} (houter : outer.keeps = false) (h : Step Idle (kept || outer.keeps) s d d') :
    Step Idle kept s d d' := by
  rwa [houter, Bool.or_false] at h

theorem Step.leaf (h : Step Idle kept s d d') : d.isLeaf = false ∧ d'.isLeaf = false := by
  cases h <;> exact ⟨rfl, rfl⟩

theorem Step.whole (h : Step Idle kept s d d') : d.whole = d'.whole := by
  induction h with
  | order h => simp only [Data.whole, wholeMembers_values, wholeItems_eq, (h.map _).all_eq]
  | intoRecord _ hv | intoType _ hv =>
    simp [Data.whole, wholeMembers_values, wholeItems_eq, hv.whole]
  | recordForm h =>
    rw [Data.whole, Data.whole, wholeMembers_values, values_named h]
  | typeForm h =>
    rw [Data.whole, Data.whole, wholeMembers_values, List.map_cons, values_named h]
  | member _ ih => simp [Data.whole, wholeMembers_values, wholeItems_eq, ih]
  | item _ ih => simp [Data.whole, wholeItems_eq, ih]

theorem Step.depth (h : Step Idle kept s d d') : d.depth = d'.depth := by
  induction h with
  | order h => rw [Data.depth, Data.depth, depthMembers_values, depthMembers_values, depthItems_perm (h.map _)]
  | intoRecord _ hv | intoType _ hv =>
    simp [Data.depth, depthMembers_values, depthItems_append, depthItems, hv.depth]
  | recordForm h =>
    rw [Data.depth, Data.depth, depthMembers_values, values_named h]
  | typeForm h =>
    rw [Data.depth, Data.depth, depthMembers_values, List.map_cons, values_named h]
  | member _ ih => simp [Data.depth, depthMembers_values, depthItems_append, depthItems, ih]
  | item _ ih => simp [Data.depth, depthItems_append, depthItems, ih]

theorem Step.fits (h : Step Idle kept s d d') (hkept : (kept || s.keeps) = true) (room : Room) :
    d.fits room = d'.fits room := by
  induction h generalizing room with
  | order h =>
    cases hroom : room.enter with
    | none => simp [Data.fits, hroom]
    | some inner =>
      simp only [Data.fits, hroom, fitMembers_values, fitItems_eq, (h.map _).all_eq, h.all_eq]
  | intoRecord _ hv =>
    simp only [Place.keeps, Bool.or_false] at hkept
    subst hkept
    simp [Data.fits, fitMembers_values, fitItems_eq, hv.fits]
  | intoType _ hv => simp [Data.fits, fitMembers_values, fitItems_eq, hv.fits]
  | recordForm h =>
    simp only [Data.fits, fitMembers_values, all_named, values_named h, Bool.true_and]
  | typeForm h =>
    simp only [Data.fits, fitMembers_values, List.all_cons, List.map_cons, all_named, values_named h,
      Option.isSome_some, Bool.true_and]
  | member _ ih => simp [Data.fits, fitMembers_values, fitItems_eq, ih (by simp [hkept])]
  | item _ ih => simp [Data.fits, fitItems_eq, ih (by simp [hkept])]

end Invariants

/-! ## (3) Readers that make nothing of a step -/

section Readers

variable {α β : Type} {kept : Bool} {s : Place} {read : Room → Data → Except Problem α}

def Respects (kept : Bool) (s : Place) (read : Room → Data → Except Problem α) : Prop :=
  ∀ d d', Step Idle kept s d d' → ∀ room a, read room d = .ok a ↔ read room d' = .ok a

theorem Respects.map (h : Respects kept s read) (f : α → β) : Respects kept s fun room d => (read room d).map f := by
  intro d d' hstep room b
  simp only [Except.map_eq_ok, h d d' hstep room]

/-- No step makes a leaf of anything. -/
theorem respects_leaf (h : ∀ room d a, read room d = .ok a → d.isLeaf = true) : Respects kept s read := by
  intro d d' hstep room a
  obtain ⟨hd, hd'⟩ := hstep.leaf
  constructor
  · intro hread
    exact absurd (h room d a hread) (by simp [hd])
  · intro hread
    exact absurd (h room d' a hread) (by simp [hd'])

theorem respects_text (r : Reading) : Respects kept s fun _ d => readText r d :=
  respects_leaf fun _ d _ h => by cases d <;> simp_all [readText, isLeaf]

theorem respects_bool (r : Reading) : Respects kept s fun _ d => readBool r d :=
  respects_leaf fun _ d _ h => by cases d <;> simp_all [readBool, isLeaf]

theorem respects_option (r : Reading) : Respects kept s fun _ d => readOption r d :=
  respects_leaf fun _ d _ h => by cases d <;> simp_all [readOption, readText, Except.map, isLeaf]

theorem respects_list (r : Reading) (h : Respects kept s read) : Respects kept (.list s) (readList r · read) := by
  intro d d' hstep room as
  cases hstep with
  | order _ | member _ => simp [readList]
  | @item _ _ before after d d' closed hitem =>
    have hread : ∀ inner a, read inner d = .ok a ↔ read inner d' = .ok a := h d d' (hitem.unkept rfl)
    have hitems : ∀ inner as, readItems (read inner) (before ++ d :: after) = .ok as ↔
        readItems (read inner) (before ++ d' :: after) = .ok as := by
      intro inner as
      clear hitem
      induction before generalizing as with
      | nil => simp only [List.nil_append, readItems, Except.bind_eq_ok, hread]
      | cons first before ih => simp only [List.cons_append, readItems, Except.bind_eq_ok, ih]
    simp only [readList, Except.bind_eq_ok, hitems]

/-- The fields of a record stand where they are expected and make nothing of a step. -/
abbrev FieldsRespect (kept : Bool) (fs : List (RecordField α)) (places : List (String × Place)) : Prop :=
  List.Forall₂ (fun f p => f.name = p.1 ∧ Respects kept p.2 f.read) fs places

theorem FieldsRespect.names {fs : List (RecordField α)} {places : List (String × Place)}
    (h : FieldsRespect kept fs places) : fs.map (·.name) = places.map (·.1) := by
  induction h with
  | nil => rfl
  | cons hf _ ih => rw [List.map_cons, List.map_cons, ih, hf.1]

/-- A field makes nothing of a step at the place of its name. -/
theorem FieldsRespect.find {fs : List (RecordField α)} {places : List (String × Place)}
    (h : FieldsRespect kept fs places) (hfs : fs.Pairwise RecordField.Apart) {f : RecordField α} (hf : f ∈ fs) :
    Respects kept (((places.find? fun p => some p.1 = some f.name).map (·.2)).getD .other) f.read := by
  induction h with
  | nil => cases hf
  | @cons g p fs places hg _ ih =>
    obtain ⟨hapart, hfs⟩ := List.pairwise_cons.mp hfs
    rcases List.mem_cons.mp hf with rfl | hf
    · rw [List.find?_cons_of_pos (by simp [hg.1])]
      exact hg.2
    · rw [List.find?_cons_of_neg (by simpa [hg.1] using (hapart f hf).1)]
      exact ih hfs hf

theorem FieldsRespect.get {fs : List (RecordField α)} {places : List (String × Place)}
    (h : FieldsRespect kept fs places) {i : Nat} {f : RecordField α} (hf : fs[i]? = some f) :
    Respects kept ((places[i]?.map (·.2)).getD .other) f.read := by
  induction h generalizing i with
  | nil => simp at hf
  | @cons g p fs places hg _ ih =>
    cases i with
    | zero =>
      simp only [List.getElem?_cons_zero, Option.some.injEq] at hf
      exact hf ▸ hg.2
    | succ i => exact ih hf

/-- A record makes nothing of a step if its fields do not. -/
theorem respects_record {c : Record α} (hc : c.fields.Pairwise RecordField.Apart) {places : List (String × Place)}
    (h : FieldsRespect kept c.fields places) (r : Reading) : Respects kept (.record places) (c.read r) := by
  intro d d' hstep room a
  cases hstep with
  | order hperm => simp only [Record.read_table hc, passable_perm hperm, assigned_perm hperm]
  | @intoRecord _ _ before after closed key v hkey hv =>
    rw [← h.names] at hkey
    have hpass : Passable (c.fields.map (·.name)) (before ++ (some key, v) :: after) ↔
        Passable (c.fields.map (·.name)) (before ++ after) := by
      rw [passable_middle]
      exact and_iff_right ⟨key, rfl, fun _ => hv.whole⟩
    have hsame : ∀ inner, Assigned inner (given (before ++ (some key, v) :: after)) [] c.fields c.start a ↔
        Assigned inner (given (before ++ after)) [] c.fields c.start a := by
      refine fun inner => assigned_same (fun f hf set => ?_) c.start a
      have hne : some key ≠ some f.name := fun he => hkey (Option.some.inj he ▸ List.mem_map_of_mem hf)
      simp only [Sets, given_append, given_cons_other hne]
    simp only [Record.read_table hc, hpass, hsame]
  | @recordForm _ _ items closed hlength =>
    rw [← h.names]
    exact Record.read_named hc (h.length_eq.trans hlength) r room closed a
  | @member _ _ before after key d d' closed hmember =>
    have hpass : Passable (c.fields.map (·.name)) (before ++ (key, d) :: after) ↔
        Passable (c.fields.map (·.name)) (before ++ (key, d') :: after) := by
      rw [passable_middle, passable_middle, hmember.whole]
    have hsame : ∀ inner, Assigned inner (given (before ++ (key, d) :: after)) [] c.fields c.start a ↔
        Assigned inner (given (before ++ (key, d') :: after)) [] c.fields c.start a := by
      refine fun inner => assigned_same (fun f hf set => sets_member (fun hkey => ?_) before after [] set) c.start a
      subst hkey
      exact h.find hc hf d d' (hmember.unkept rfl) inner
    simp only [Record.read_table hc, hpass, hsame]
  | @item _ _ before after d d' closed hitem =>
    have hsame : ∀ inner, c.readPositions r.surplus inner closed c.fields (before ++ d :: after) 0 c.start = .ok a ↔
        c.readPositions r.surplus inner closed c.fields (before ++ d' :: after) 0 c.start = .ok a := by
      refine fun inner => Record.readPositions_congr c _ inner closed (fun f hf => ?_) after 0 c.start a
      exact h.get hf d d' (hitem.unkept rfl) inner
    simp only [Record.read_list, hsame]

end Readers

/-! ## (4) Types -/

section Types

variable {n : Nat} {kept numbered : Bool} {r : Reading} {k : Kind} {t : Data}

theorem readKind_tag (h : readKind r numbered t = .ok k) : Kind.ofTag? t = some k := by
  cases t with
  | text s =>
    cases s with
    | none => simp [readKind] at h
    | some s => cases hname : Kind.ofName? s <;> simp_all [readKind, Kind.ofTag?]
  | number m =>
    cases m with
    | natural m => cases numbered <;> cases hget : Kind.all[m]? <;> simp_all [readKind, Kind.ofTag?]
    | _ => simp [readKind] at h
  | _ => simp [readKind] at h

theorem readKind_leaf (h : readKind r numbered t = .ok k) : t.isLeaf = true := by
  cases t <;> simp_all [readKind, isLeaf]

theorem ofTag?_name (k : Kind) : Kind.ofTag? (.text (some k.name)) = some k := by
  cases k <;> rfl

/-- The names that count in a type with a tag are the tag's and those of its parts. -/
theorem fields_of_tag (h : readKind r numbered t = .ok k) :
    Place.type.fields (some t) = ("kind", .other) :: k.places := by
  simp [Place.fields, readKind_tag h]

section Parts

variable {nested : Data → Except Problem TypeExpr}

theorem field_respects (h : Respects kept .type fun _ d => nested d) (r : Reading) :
    Respects kept .typeField ((fieldRecord r nested).read r) :=
  respects_record (field_apart r nested)
    (.cons ⟨rfl, (respects_text r).map _⟩ (.cons ⟨rfl, h.map _⟩ .nil)) r

/-- The parts of a type make nothing of a step if the types in it do not. -/
theorem parts_respect (h : Respects kept .type fun _ d => nested d) (r : Reading) :
    (k : Kind) → FieldsRespect kept (parts r nested k).fields k.places
  | .boolean | .byte | .int | .float | .decimal | .string | .xml | .json => .nil
  | .array | .map | .table | .constrained => .cons ⟨rfl, h.map _⟩ .nil
  | .record => .cons ⟨rfl, (respects_list r (field_respects h r)).map _⟩ .nil
  | .other => .cons ⟨rfl, (respects_text r).map _⟩ .nil

end Parts

theorem type_order {members members' : List Member} (h : members.Perm members') (room : Room) (closed : Bool)
    (e : TypeExpr) :
    readTypeUpTo (n + 1) numbered r room (.table members closed) = .ok e ↔
      readTypeUpTo (n + 1) numbered r room (.table members' closed) = .ok e := by
  simp only [readTypeUpTo_table, keepable_perm h, given_only h, assigned_perm h]

/-- What is put into a type is neither its tag nor one of its parts. -/
theorem type_insert {before after : List Member} {key : String} {v : Data}
    (hkey : key ∉ (Place.type.fields (tagOf (before ++ after))).map (·.1)) (hv : Idle true v) (room : Room)
    (closed : Bool) (e : TypeExpr) :
    readTypeUpTo (n + 1) numbered r room (.table (before ++ after) closed) = .ok e ↔
      readTypeUpTo (n + 1) numbered r room (.table (before ++ (some key, v) :: after) closed) = .ok e := by
  have hkind : some key ≠ some "kind" := by
    intro h
    exact hkey (by simp [Place.fields, Option.some.inj h])
  have hkeep : ∀ inner, Keepable inner (before ++ (some key, v) :: after) ↔ Keepable inner (before ++ after) := by
    intro inner
    rw [keepable_middle]
    exact and_iff_right ⟨rfl, fun _ => hv.fits inner⟩
  have htag : given (before ++ (some key, v) :: after) "kind" = given (before ++ after) "kind" := by
    simp only [given_append, given_cons_other hkind]
  simp only [readTypeUpTo_table, hkeep, htag]
  refine exists_congr fun inner => exists_congr fun k => and_congr_right fun _ => and_congr_right fun _ =>
    and_congr_right fun _ => and_congr_right fun ht => ?_
  obtain ⟨t, ht, hk⟩ := ht
  rw [tagOf, ht, List.head?_cons, fields_of_tag hk, List.map_cons, ← content_names n r k] at hkey
  refine assigned_same (fun f hf set => ?_) _ e
  have hne : some key ≠ some f.name := by
    intro h
    exact hkey (List.mem_cons_of_mem _ (Option.some.inj h ▸ List.mem_map_of_mem hf))
  simp only [Sets, given_append, given_cons_other hne]

theorem keepable_named {fields : List (String × Place)} (hkind : "kind" ∉ fields.map (·.1)) {items : List Data}
    (hlength : fields.length = items.length) (room : Room) :
    Keepable room (named (fields.map (·.1)) items) ↔ ∀ d ∈ items, d.fits room = true := by
  have hother : ∀ m ∈ named (fields.map (·.1)) items, m.1.isSome = true ∧ m.1 ≠ some "kind" := by
    intro m hm
    obtain ⟨⟨name, d⟩, hname, rfl⟩ := List.mem_map.mp hm
    exact ⟨rfl, fun h => hkind (Option.some.inj h ▸ (List.of_mem_zip hname).1)⟩
  constructor
  · intro h d hd
    rw [← values_named hlength] at hd
    obtain ⟨m, hm, rfl⟩ := List.mem_map.mp hd
    exact (h m hm).2 (hother m hm).2
  · intro h m hm
    refine ⟨(hother m hm).1, fun _ => h m.2 ?_⟩
    rw [← values_named hlength]
    exact List.mem_map_of_mem hm

/-- A type is read the same from the list of its parts after its tag. -/
theorem type_form {items : List Data} (hlength : k.places.length = items.length) (room : Room) (closed : Bool)
    (e : TypeExpr) :
    readTypeUpTo (n + 1) numbered r room
        (.table ((some "kind", .text (some k.name)) :: named (k.places.map (·.1)) items) closed) = .ok e ↔
      readTypeUpTo (n + 1) numbered r room (.list (.text (some k.name) :: items) closed) = .ok e := by
  have hkind : "kind" ∉ k.places.map (·.1) := kind_not_part k
  have htag : given ((some "kind", .text (some k.name)) :: named (k.places.map (·.1)) items) "kind" =
      [.text (some k.name)] := by
    rw [given_cons_same, given_named hkind]
  have hkeep : ∀ inner,
      Keepable inner ((some "kind", .text (some k.name)) :: named (k.places.map (·.1)) items) ↔
        ∀ d ∈ items, d.fits inner = true := by
    intro inner
    rw [keepable_cons, keepable_named hkind hlength]
    exact and_iff_right ⟨rfl, fun h => absurd rfl h⟩
  have hparts : ∀ k', readKind r numbered (.text (some k.name)) = .ok k' →
      (Assigned none (given ((some "kind", .text (some k.name)) :: named (k.places.map (·.1)) items)) []
          (content n r k').fields (content n r k').start e ↔
        Record.readPositions (content n r k') .counted none true (content n r k').fields items 0
          (content n r k').start = .ok e) := by
    intro k' hk'
    obtain rfl : k = k' := Option.some.inj ((ofTag?_name k).symm.trans (readKind_tag hk'))
    have hcount : (content n r k).fields.length = items.length := by
      rw [← hlength, ← List.length_map (·.name), content_names, List.length_map]
    rw [Record.readPositions_ok _ _ _ _ (content_apart n r k) hcount, and_iff_right rfl, content_names]
    refine assigned_same (fun f hf set => ?_) _ e
    have hne : some "kind" ≠ some f.name := by
      intro h
      exact hkind (Option.some.inj h ▸ content_names n r k ▸ List.mem_map_of_mem hf)
    rw [Sets, Sets, given_cons_other hne]
  simp only [readTypeUpTo_table, readTypeUpTo_list, hkeep, htag, List.cons.injEq, and_true, exists_eq_left']
  refine exists_congr fun inner => exists_congr fun k' => and_congr_right fun _ => and_congr_right fun _ => ?_
  rw [and_left_comm]
  exact and_congr_right fun hk' => and_congr_right fun _ => hparts k' hk'

/-- A member of a type is its tag, which no step makes, or is kept and then read at its place. -/
theorem type_member (hcontent : ∀ k, FieldsRespect true (content n r k).fields k.places)
    {before after : List Member} {key : Option String} {d d' : Data}
    (h : Step Idle true (Place.type.memberPlace (before ++ (key, d) :: after) key) d d') (room : Room) (closed : Bool)
    (e : TypeExpr) :
    readTypeUpTo (n + 1) numbered r room (.table (before ++ (key, d) :: after) closed) = .ok e ↔
      readTypeUpTo (n + 1) numbered r room (.table (before ++ (key, d') :: after) closed) = .ok e := by
  simp only [readTypeUpTo_table]
  by_cases hkey : key = some "kind"
  · subst hkey
    have hnone : ∀ d k, d.isLeaf = false →
        ¬ ∃ t, given (before ++ (some "kind", d) :: after) "kind" = [t] ∧ readKind r numbered t = .ok k := by
      intro d k hd h
      obtain ⟨t, ht, hk⟩ := h
      have hmem : d ∈ given (before ++ (some "kind", d) :: after) "kind" := by simp [given_append, given_cons_same]
      rw [ht, List.mem_singleton] at hmem
      exact absurd (hmem ▸ readKind_leaf hk) (by simp [hd])
    simp only [hnone d _ h.leaf.1, hnone d' _ h.leaf.2, false_and, and_false]
  · have hkeep : ∀ inner, Keepable inner (before ++ (key, d) :: after) ↔
        Keepable inner (before ++ (key, d') :: after) := by
      intro inner
      rw [keepable_middle, keepable_middle, h.fits rfl inner]
    have htag : given (before ++ (key, d) :: after) "kind" = given (before ++ (key, d') :: after) "kind" := by
      simp only [given_append, given_cons_other hkey]
    simp only [hkeep, ← htag]
    refine exists_congr fun inner => exists_congr fun k => and_congr_right fun _ => and_congr_right fun _ =>
      and_congr_right fun _ => and_congr_right fun ht => ?_
    obtain ⟨t, ht, hk⟩ := ht
    refine assigned_same (fun f hf set => sets_member (fun hname => ?_) before after [] set) _ e
    rw [Place.memberPlace, tagOf, ht, List.head?_cons, fields_of_tag hk,
      List.find?_cons_of_neg (by simpa using Ne.symm hkey), hname] at h
    exact (hcontent k).find (content_apart n r k) hf d d' h none

theorem type_item (hcontent : ∀ k, FieldsRespect true (content n r k).fields k.places) {before after : List Data}
    {d d' : Data} (h : Step Idle true (Place.type.itemPlace (before ++ d :: after) before.length) d d') (room : Room)
    (closed : Bool) (e : TypeExpr) :
    readTypeUpTo (n + 1) numbered r room (.list (before ++ d :: after) closed) = .ok e ↔
      readTypeUpTo (n + 1) numbered r room (.list (before ++ d' :: after) closed) = .ok e := by
  cases before with
  | nil =>
    have hnone : ∀ d k, d.isLeaf = false → readKind r numbered d ≠ .ok k := by
      intro d k hd hk
      exact absurd (readKind_leaf hk) (by simp [hd])
    simp only [List.nil_append, readTypeUpTo_list, hnone d _ h.leaf.1, hnone d' _ h.leaf.2, false_and, and_false]
  | cons t before =>
    have hfit : ∀ inner, (∀ x ∈ before ++ d :: after, x.fits inner = true) ↔
        ∀ x ∈ before ++ d' :: after, x.fits inner = true := by
      simp only [List.forall_mem_append, List.forall_mem_cons, h.fits rfl, implies_true]
    simp only [List.cons_append, readTypeUpTo_list, hfit]
    refine exists_congr fun inner => exists_congr fun k => and_congr_right fun _ => and_congr_right fun _ =>
      and_congr_right fun hk => and_congr_right fun _ => ?_
    refine Record.readPositions_congr _ _ none true (fun f hf => ?_) after 0 _ e
    rw [Place.itemPlace_type, List.cons_append, List.head?_cons, fields_of_tag hk, List.length_cons,
      List.getElem?_cons_succ] at h
    exact (hcontent k).get hf d d' h none

/-- Types make nothing of a step, whatever types are around them. -/
theorem respects_type (n : Nat) (kept numbered : Bool) (r : Reading) :
    Respects kept .type (readTypeUpTo n numbered r) := by
  induction n generalizing kept numbered r with
  | zero =>
    intro d d' _ room e
    simp [readTypeUpTo]
  | succ n ih =>
    have hcontent : ∀ k, FieldsRespect true (content n r k).fields k.places :=
      parts_respect (fun d d' hstep _ e => ih true true r.counting d d' hstep none e) r.counting
    intro d d' hstep room e
    cases hstep with
    | order hperm => exact type_order hperm room _ e
    | intoType hkey hv => exact type_insert hkey hv room _ e
    | typeForm hlength => exact type_form hlength room _ e
    | member hmember => exact type_member hcontent (by simpa [Place.keeps] using hmember) room _ e
    | item hitem => exact type_item hcontent (by simpa [Place.keeps] using hitem) room _ e

end Types

/-! ## (5) Manifests -/

/-- A step leaves the depth of a type as it was, and so how many types may be around each other. -/
theorem readType_respects (kept : Bool) (r : Reading) : Respects kept .type (readType r) := by
  intro d d' hstep room e
  simp only [readType, hstep.depth]
  exact respects_type _ kept false r d d' hstep room e

theorem variable_respects (kept : Bool) (r : Reading) : Respects kept .variableEntry ((variableRecord r).read r) :=
  respects_record (variable_apart r)
    (.cons ⟨rfl, (respects_text r).map _⟩ (.cons ⟨rfl, (readType_respects kept r).map _⟩
      (.cons ⟨rfl, (respects_bool r).map _⟩ .nil))) r

theorem module_respects (kept : Bool) (r : Reading) : Respects kept .moduleEntry ((moduleRecord r).read r) :=
  respects_record (module_apart r)
    (.cons ⟨rfl, (respects_text r).map _⟩ (.cons ⟨rfl, (respects_text r).map _⟩
      (.cons ⟨rfl, (respects_option r).map _⟩
        (.cons ⟨rfl, (respects_list r (variable_respects kept r)).map _⟩ .nil)))) r

theorem manifest_respects (kept : Bool) (r : Reading) : Respects kept .manifest ((record r).read r) :=
  respects_record (manifest_apart r) (.cons ⟨rfl, (respects_list r (module_respects kept r)).map _⟩ .nil) r

end Manifest

end ConfigTemplate
