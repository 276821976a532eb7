/-
  ConfigTemplate.Proofs.Places — what may stand where in a manifest, and what a type is
  read from.

  (1) `Place`: the records, lists and types of a manifest. What else a type holds is told
      by its tag, a name or a number (`Kind.ofTag?`); `Place.fields` are the names that
      count at a place.
  (2) `variable_apart` and the like: the fields of no record interfere.
  (3) `readTypeUpTo_table`, `readTypeUpTo_list`: a type is read from its tag, wherever it
      stands among the members, and from its parts. The other members only have to fit.
-/
import ConfigTemplate.Manifest.Read
import ConfigTemplate.Proofs.Members

namespace ConfigTemplate.Manifest

open Data

/-! ## (1) Places -/

/-- What is expected of a value. -/
inductive Place where
  | record (fields : List (String × Place))
  | list (item : Place)
  | type
  | other

namespace Place

def variableEntry : Place := record [("name", other), ("type", type), ("required", other)]

def moduleEntry : Place :=
  record [("org", other), ("package", other), ("module", other), ("variables", list variableEntry)]

def manifest : Place := record [("modules", list moduleEntry)]

def typeField : Place := record [("name", other), ("type", type)]

end Place

namespace Kind

/-- The parts of a type of the kind. -/
def places : Kind → List (String × Place)
  | array => [("element", .type)]
  | map => [("value", .type)]
  | record => [("fields", .list .typeField)]
  | table => [("constraint", .type)]
  | constrained => [("effective", .type)]
  | other => [("name", .other)]
  | _ => []

/-- The kind that a tag names. -/
def ofTag? : Data → Option Kind
  | .text (some s) => ofName? s
  | .number (.natural n) => all[n]?
  | _ => none

end Kind

/-- The value that a table gives as its tag. -/
def tagOf (members : List Member) : Option Data := (given members "kind").head?

namespace Place

/-- The names that count in a record or in a type with a tag, in declaration order. -/
def fields : Place → Option Data → List (String × Place)
  | record fields, _ => fields
  | type, tag => ("kind", other) :: ((tag.bind Kind.ofTag?).map Kind.places).getD []
  | list _, _ | other, _ => []

/-- What is expected of a member's value. -/
def memberPlace (s : Place) (members : List Member) (key : Option String) : Place :=
  (((s.fields (tagOf members)).find? fun f => some f.1 = key).map (·.2)).getD other

/-- What is expected of the item at a position. -/
def itemPlace (s : Place) (items : List Data) (i : Nat) : Place :=
  match s with
  | list item => item
  | s => ((s.fields items.head?)[i]?.map (·.2)).getD other

end Place

theorem Place.itemPlace_type (items : List Data) (i : Nat) :
    Place.type.itemPlace items i = (((Place.type.fields items.head?)[i]?).map (·.2)).getD .other := rfl

/-! ## (2) Fields that do not interfere -/

/-- Two fields are apart if they set different parts of the record. -/
theorem apart_of_updates {α β γ : Type} {name name' : String} {required required' : Bool}
    {get : Room → Data → Except Problem β} {get' : Room → Data → Except Problem γ} {update : β → α → α}
    {update' : γ → α → α} (hname : name ≠ name') (h : ∀ x y a, update x (update' y a) = update' y (update x a)) :
    RecordField.Apart ⟨name, required, fun room d => (get room d).map update⟩
      ⟨name', required', fun room d => (get' room d).map update'⟩ := by
  refine ⟨hname, fun room d set room' d' set' hset hset' a => ?_⟩
  obtain ⟨x, -, rfl⟩ := Except.map_eq_ok.mp hset
  obtain ⟨y, -, rfl⟩ := Except.map_eq_ok.mp hset'
  exact h x y a

theorem variable_apart (r : Reading) : (variableRecord r).fields.Pairwise RecordField.Apart := by
  simp only [variableRecord, List.pairwise_cons, List.forall_mem_cons, List.not_mem_nil, false_implies, implies_true,
    List.Pairwise.nil, and_true]
  exact ⟨⟨apart_of_updates (by decide) fun _ _ _ => rfl, apart_of_updates (by decide) fun _ _ _ => rfl⟩,
    apart_of_updates (by decide) fun _ _ _ => rfl⟩

theorem module_apart (r : Reading) : (moduleRecord r).fields.Pairwise RecordField.Apart := by
  simp only [moduleRecord, List.pairwise_cons, List.forall_mem_cons, List.not_mem_nil, false_implies, implies_true,
    List.Pairwise.nil, and_true]
  exact ⟨⟨apart_of_updates (by decide) fun _ _ _ => rfl, apart_of_updates (by decide) fun _ _ _ => rfl,
      apart_of_updates (by decide) fun _ _ _ => rfl⟩,
    ⟨apart_of_updates (by decide) fun _ _ _ => rfl, apart_of_updates (by decide) fun _ _ _ => rfl⟩,
    apart_of_updates (by decide) fun _ _ _ => rfl⟩

theorem manifest_apart (r : Reading) : (record r).fields.Pairwise RecordField.Apart := List.pairwise_singleton _ _

theorem field_apart (r : Reading) (nested : Data → Except Problem TypeExpr) :
    (fieldRecord r nested).fields.Pairwise RecordField.Apart :=
  List.pairwise_pair.mpr (apart_of_updates (by decide) fun _ _ _ => rfl)

theorem parts_apart (r : Reading) (nested : Data → Except Problem TypeExpr) :
    (k : Kind) → (parts r nested k).fields.Pairwise RecordField.Apart
  | .boolean | .byte | .int | .float | .decimal | .string | .xml | .json => .nil
  | .array | .map | .record | .table | .constrained | .other => List.pairwise_singleton _ _

theorem parts_names (r : Reading) (nested : Data → Except Problem TypeExpr) (k : Kind) :
    (parts r nested k).fields.map (·.name) = k.places.map (·.1) := by
  cases k <;> rfl

theorem kind_not_part (k : Kind) : "kind" ∉ k.places.map (·.1) := by
  cases k <;> decide

/-! ## (3) Types -/

/-- The keys can be read, and there is room for all members but the tag. -/
def Keepable (room : Room) (members : List Member) : Prop :=
  ∀ m ∈ members, m.1.isSome = true ∧ (m.1 ≠ some "kind" → m.2.fits room = true)

theorem keepable_cons (room : Room) (m : Member) (rest : List Member) :
    Keepable room (m :: rest) ↔
      (m.1.isSome = true ∧ (m.1 ≠ some "kind" → m.2.fits room = true)) ∧ Keepable room rest := by
  simp [Keepable]

theorem keepable_perm {room : Room} {members members' : List Member} (h : members.Perm members') :
    Keepable room members ↔ Keepable room members' := by
  simp only [Keepable, h.mem_iff]

theorem keepable_middle (room : Room) (before after : List Member) (m : Member) :
    Keepable room (before ++ m :: after) ↔
      (m.1.isSome = true ∧ (m.1 ≠ some "kind" → m.2.fits room = true)) ∧ Keepable room (before ++ after) := by
  rw [keepable_perm List.perm_middle, keepable_cons]

theorem keepable_ok {room : Room} {d : Data} {u : Unit} : keepable room d = .ok u ↔ d.fits room = true := by
  simp [keepable]

theorem keepAll_ok {room : Room} {items : List Data} {u : Unit} :
    keepAll room items = .ok u ↔ ∀ d ∈ items, d.fits room = true := by
  induction items with
  | nil => simp [keepAll]
  | cons d rest ih => simp [keepAll, keepable_ok, ih]

def untagged (members : List Member) : List Member := members.filter (·.1 ≠ some "kind")

theorem untagged_tag (d : Data) (rest : List Member) : untagged ((some "kind", d) :: rest) = untagged rest := by
  simp [untagged]

theorem untagged_other {key : String} (h : key ≠ "kind") (d : Data) (rest : List Member) :
    untagged ((some key, d) :: rest) = (some key, d) :: untagged rest := by
  simp [untagged, h]

theorem given_untagged {name : String} (h : name ≠ "kind") (members : List Member) :
    given (untagged members) name = given members name := by
  have hfilter : ∀ m : Member, (decide (m.1 = some name) && decide (m.1 ≠ some "kind")) = decide (m.1 = some name) := by
    intro m
    by_cases hm : m.1 = some name
    · simp [hm, h]
    · simp [hm]
  simp only [given, untagged, List.filter_filter, hfilter]

variable {α : Type} {tag : Data → Except Problem α}

/-- A member that is not the tag has to fit, and is kept. -/
theorem readTagAmong_other {key : String} (hkey : key ≠ "kind") {room : Room} {d : Data} {rest : List Member}
    {before found : Option α} {others : List Member} :
    readTagAmong tag room ((some key, d) :: rest) before = .ok (found, others) ↔
      d.fits room = true ∧ ∃ kept, readTagAmong tag room rest before = .ok (found, kept) ∧
        (some key, d) :: kept = others := by
  simp only [readTagAmong, hkey, if_false, Except.bind_eq_ok, keepable_ok, Prod.exists, Except.pure_eq,
    Except.ok.injEq, Prod.mk.injEq]
  constructor
  · intro h
    obtain ⟨_, hfit, _, kept, h, rfl, hothers⟩ := h
    exact ⟨hfit, kept, h, hothers⟩
  · intro h
    obtain ⟨hfit, kept, h, hothers⟩ := h
    exact ⟨(), hfit, found, kept, h, rfl, hothers⟩

/-- Once the tag was found, it may not come again. -/
theorem readTagAmong_found {a : α} {room : Room} {members : List Member} {found : Option α} {others : List Member} :
    readTagAmong tag room members (some a) = .ok (found, others) ↔
      Keepable room members ∧ given members "kind" = [] ∧ found = some a ∧ others = untagged members := by
  induction members generalizing others with
  | nil =>
    simp only [readTagAmong, Except.ok.injEq, Prod.mk.injEq, Keepable, List.not_mem_nil, false_implies, implies_true,
      given, untagged, List.filter_nil, List.map_nil, true_and]
    exact and_congr eq_comm eq_comm
  | cons m rest ih =>
    obtain ⟨key, d⟩ := m
    rw [keepable_cons]
    cases key with
    | none => simp [readTagAmong]
    | some key =>
      by_cases hkey : key = "kind"
      · subst hkey
        simp [readTagAmong, given_cons_same]
      · have hother : some key ≠ some "kind" := by simpa using hkey
        rw [untagged_other hkey, given_cons_other hother, readTagAmong_other hkey]
        constructor
        · intro h
          obtain ⟨hfit, kept, h, rfl⟩ := h
          obtain ⟨hrest, hnone, rfl, rfl⟩ := ih.mp h
          exact ⟨⟨⟨rfl, fun _ => hfit⟩, hrest⟩, hnone, rfl, rfl⟩
        · intro h
          obtain ⟨⟨⟨-, hfit⟩, hrest⟩, hnone, rfl, rfl⟩ := h
          exact ⟨hfit hother, _, ih.mpr ⟨hrest, hnone, rfl, rfl⟩, rfl⟩

/-- The tag may stand anywhere among the members. -/
theorem readTagAmong_ok {a : α} {room : Room} {members others : List Member} :
    readTagAmong tag room members none = .ok (some a, others) ↔
      Keepable room members ∧ (∃ t, given members "kind" = [t] ∧ tag t = .ok a) ∧ others = untagged members := by
  induction members generalizing others with
  | nil => simp [readTagAmong, given]
  | cons m rest ih =>
    obtain ⟨key, d⟩ := m
    rw [keepable_cons]
    cases key with
    | none => simp [readTagAmong]
    | some key =>
      by_cases hkey : key = "kind"
      · subst hkey
        simp only [readTagAmong, if_true, Except.bind_eq_ok, readTagAmong_found, Option.some.injEq, given_cons_same,
          untagged_tag]
        constructor
        · intro h
          obtain ⟨_, ha, hrest, hnone, rfl, rfl⟩ := h
          exact ⟨⟨⟨rfl, fun h => absurd rfl h⟩, hrest⟩, ⟨d, by rw [hnone], ha⟩, rfl⟩
        · intro h
          obtain ⟨⟨-, hrest⟩, ⟨t, ht, ha⟩, rfl⟩ := h
          obtain ⟨rfl, hnone⟩ := List.cons.inj ht
          exact ⟨a, ha, hrest, hnone, rfl, rfl⟩
      · have hother : some key ≠ some "kind" := by simpa using hkey
        rw [untagged_other hkey, given_cons_other hother, readTagAmong_other hkey]
        constructor
        · intro h
          obtain ⟨hfit, kept, h, rfl⟩ := h
          obtain ⟨hrest, htag, rfl⟩ := ih.mp h
          exact ⟨⟨⟨rfl, fun _ => hfit⟩, hrest⟩, htag, rfl⟩
        · intro h
          obtain ⟨⟨⟨-, hfit⟩, hrest⟩, htag, rfl⟩ := h
          exact ⟨hfit hother, _, ih.mpr ⟨hrest, htag, rfl⟩, rfl⟩

theorem readTagged_table {r : Reading} {title : String} {room : Room} {members : List Member} {closed : Bool} {a : α}
    {content : Data} :
    readTagged r title tag room (.table members closed) = .ok (a, content) ↔
      ∃ inner, room.enter = some inner ∧ closed = true ∧ Keepable inner members ∧
        (∃ t, given members "kind" = [t] ∧ tag t = .ok a) ∧ content = .table (untagged members) true := by
  simp only [readTagged, Except.bind_eq_ok, inside_ok, Prod.exists, finish_ok]
  constructor
  · intro h
    obtain ⟨inner, hinner, found, others, htag, _, hclosed, h⟩ := h
    cases found with
    | none => simp at h
    | some b =>
      simp only [Except.pure_eq, Except.ok.injEq, Prod.mk.injEq] at h
      obtain ⟨rfl, rfl⟩ := h
      obtain ⟨hkeep, ht, rfl⟩ := readTagAmong_ok.mp htag
      exact ⟨inner, hinner, hclosed, hkeep, ht, rfl⟩
  · intro h
    obtain ⟨inner, hinner, hclosed, hkeep, ht, rfl⟩ := h
    exact ⟨inner, hinner, some a, untagged members, readTagAmong_ok.mpr ⟨hkeep, ht, rfl⟩, (), hclosed, rfl⟩

theorem readTagged_list {r : Reading} {title : String} {room : Room} {t : Data} {items : List Data} {closed : Bool}
    {a : α} {content : Data} :
    readTagged r title tag room (.list (t :: items) closed) = .ok (a, content) ↔
      ∃ inner, room.enter = some inner ∧ closed = true ∧ tag t = .ok a ∧ (∀ d ∈ items, d.fits inner = true) ∧
        content = .list items true := by
  simp only [readTagged, Except.bind_eq_ok, inside_ok, finish_ok, keepAll_ok, Except.pure_eq,
    Except.ok.injEq, Prod.mk.injEq]
  constructor
  · intro h
    obtain ⟨inner, hinner, _, ht, _, hfit, _, hclosed, rfl, rfl⟩ := h
    exact ⟨inner, hinner, hclosed, ht, hfit, rfl⟩
  · intro h
    obtain ⟨inner, hinner, hclosed, ht, hfit, rfl⟩ := h
    exact ⟨inner, hinner, a, ht, (), hfit, (), hclosed, rfl, rfl⟩

mutual

theorem whole_of_fits : (d : Data) → (room : Room) → d.fits room = true → d.whole = true
  | .broken, _, h => by simp [fits] at h
  | .null, _, _ | .bool _, _, _ | .number _, _, _ | .text _, _, _ | .moment, _, _ => rfl
  | .list items closed, room, h => by
    simp only [fits] at h
    cases hroom : room.enter with
    | none => simp [hroom] at h
    | some inner =>
      simp only [hroom, Bool.and_eq_true] at h
      simp [whole, wholeItems_of_fit items inner h.1, h.2]
  | .table members closed, room, h => by
    simp only [fits] at h
    cases hroom : room.enter with
    | none => simp [hroom] at h
    | some inner =>
      simp only [hroom, Bool.and_eq_true] at h
      simp [whole, wholeMembers_of_fit members inner h.1, h.2]

theorem wholeItems_of_fit : (items : List Data) → (room : Room) → fitItems room items = true → wholeItems items = true
  | [], _, _ => rfl
  | d :: rest, room, h => by
    simp only [fitItems, Bool.and_eq_true] at h
    simp [wholeItems, whole_of_fits d room h.1, wholeItems_of_fit rest room h.2]

theorem wholeMembers_of_fit : (members : List Member) → (room : Room) → fitMembers room members = true →
    wholeMembers members = true
  | [], _, _ => rfl
  | (_, d) :: rest, room, h => by
    simp only [fitMembers, Bool.and_eq_true] at h
    simp [wholeMembers, whole_of_fits d room h.1.2, wholeMembers_of_fit rest room h.2]

end

/-- What fits is data. -/
theorem passable_untagged {room : Room} {members : List Member} (h : Keepable room members) (names : List String) :
    Passable names (untagged members) := by
  intro m hm
  obtain ⟨hm, hkind⟩ := List.mem_filter.mp hm
  obtain ⟨hkey, hfit⟩ := h m hm
  obtain ⟨key, hkey⟩ := Option.isSome_iff_exists.mp hkey
  exact ⟨key, hkey, fun _ => whole_of_fits m.2 room (hfit (by simpa using hkind))⟩

/-- The parts of a type with less than `n` types around each other. -/
def content (n : Nat) (r : Reading) (k : Kind) : Record TypeExpr :=
  parts r.counting (readTypeUpTo n true r.counting none) k

theorem content_apart (n : Nat) (r : Reading) (k : Kind) : (content n r k).fields.Pairwise RecordField.Apart :=
  parts_apart _ _ k

theorem content_names (n : Nat) (r : Reading) (k : Kind) : (content n r k).fields.map (·.name) = k.places.map (·.1) :=
  parts_names _ _ k

theorem readTypeUpTo_table {n : Nat} {numbered : Bool} {r : Reading} {room : Room} {members : List Member}
    {closed : Bool} {e : TypeExpr} :
    readTypeUpTo (n + 1) numbered r room (.table members closed) = .ok e ↔
      ∃ inner k, room.enter = some inner ∧ closed = true ∧ Keepable inner members ∧
        (∃ t, given members "kind" = [t] ∧ readKind r numbered t = .ok k) ∧
        Assigned none (given members) [] (content n r k).fields (content n r k).start e := by
  have hread : ∀ k, (content n r k).read r.counting none (.table (untagged members) true) = .ok e ↔
      Passable ((content n r k).fields.map (·.name)) (untagged members) ∧
        Assigned none (given members) [] (content n r k).fields (content n r k).start e := by
    intro k
    have hgiven : ∀ f ∈ (content n r k).fields, given (untagged members) f.name = given members f.name := by
      intro f hf
      refine given_untagged (fun hname => kind_not_part k ?_) members
      rw [← hname, ← content_names n r k]
      exact List.mem_map_of_mem hf
    simp only [Record.read_table (content_apart n r k), Room.enter, Option.some.injEq, exists_eq_left', true_and]
    refine and_congr_right fun _ => assigned_same (fun f hf set => ?_) _ _
    rw [Sets, Sets, hgiven f hf]
  simp only [readTypeUpTo, Except.bind_eq_ok, Prod.exists, readTagged_table]
  constructor
  · intro h
    obtain ⟨k, _, ⟨inner, hinner, hclosed, hkeep, ht, rfl⟩, h⟩ := h
    exact ⟨inner, k, hinner, hclosed, hkeep, ht, ((hread k).mp h).2⟩
  · intro h
    obtain ⟨inner, k, hinner, hclosed, hkeep, ht, h⟩ := h
    exact ⟨k, _, ⟨inner, hinner, hclosed, hkeep, ht, rfl⟩, (hread k).mpr ⟨passable_untagged hkeep _, h⟩⟩

theorem readTypeUpTo_list {n : Nat} {numbered : Bool} {r : Reading} {room : Room} {t : Data} {items : List Data}
    {closed : Bool} {e : TypeExpr} :
    readTypeUpTo (n + 1) numbered r room (.list (t :: items) closed) = .ok e ↔
      ∃ inner k, room.enter = some inner ∧ closed = true ∧ readKind r numbered t = .ok k ∧
        (∀ d ∈ items, d.fits inner = true) ∧
        Record.readPositions (content n r k) .counted none true (content n r k).fields items 0 (content n r k).start =
          .ok e := by
  have hread : ∀ k, (content n r k).read r.counting none (.list items true) = .ok e ↔
      Record.readPositions (content n r k) .counted none true (content n r k).fields items 0 (content n r k).start =
        .ok e := by
    intro k
    simp only [Record.read_list, Room.enter, Option.some.injEq, exists_eq_left', Reading.counting]
  simp only [readTypeUpTo, Except.bind_eq_ok, Prod.exists, readTagged_list]
  constructor
  · intro h
    obtain ⟨k, _, ⟨inner, hinner, hclosed, ht, hfit, rfl⟩, h⟩ := h
    exact ⟨inner, k, hinner, hclosed, ht, hfit, (hread k).mp h⟩
  · intro h
    obtain ⟨inner, k, hinner, hclosed, ht, hfit, h⟩ := h
    exact ⟨k, _, ⟨inner, hinner, hclosed, ht, hfit, rfl⟩, (hread k).mpr h⟩

end ConfigTemplate.Manifest
