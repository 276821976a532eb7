/-
  ConfigTemplate.Proofs.RoundTrip — a written manifest reads as itself, as long as its
  brackets do not nest too deep.

  (1) `fits_data`: written data fits wherever there is room for its brackets.
      `ifFits` is what a reader answers that asks for nothing else.
  (2) `readTagged_kind`, `readTypeUpTo_plain`: a written type reads as itself. The
      induction goes through the types within types and the fields of records.
  (3) `variable_plain`, `module_plain`, `manifest_plain`: so do the entries around it.
  (4) `ofJson_json`: the same for whole texts, where the room is counted on the text.
-/
import ConfigTemplate.Manifest.Read
import ConfigTemplate.Proofs.Nesting
import ConfigTemplate.Proofs.Results
import ConfigTemplate.Proofs.Written

namespace ConfigTemplate

/-! ## (1) Room for written data -/

namespace Data

/-- There is room for `n` brackets around each other. -/
def Room.holds : Room → Nat → Bool
  | none, _ => true
  | some k, n => n ≤ k

theorem holds_zero (room : Room) : room.holds 0 = true := by
  cases room <;> simp [Room.holds]

theorem holds_max (room : Room) (n m : Nat) : room.holds (max n m) = (room.holds n && room.holds m) := by
  cases room with
  | none => rfl
  | some k => rw [Room.holds, Room.holds, Room.holds, ← Bool.decide_and, decide_eq_decide, Nat.max_le]

/-- One more bracket takes one more place. -/
theorem holds_succ (room : Room) (n : Nat) :
    room.holds (n + 1) = match room.enter with
      | none => false
      | some inner => inner.holds n := by
  cases room with
  | none => rfl
  | some k =>
    cases k with
    | zero => simp [Room.holds, Room.enter]
    | succ k => simp [Room.holds, Room.enter]

/-- The value if it fits; else the text is unreadable. -/
def ifFits (fit : Bool) (a : α) : Except Problem α := if fit then .ok a else .error .unreadable

@[simp] theorem ifFits_true (a : α) : ifFits true a = .ok a := rfl

@[simp] theorem ifFits_false (a : α) : ifFits false a = .error .unreadable := rfl

theorem ifFits_bind (fit : Bool) (a : α) (f : α → Except Problem β) :
    (ifFits fit a >>= f) = if fit then f a else .error .unreadable := by
  cases fit <;> rfl

theorem ifFits_map (fit : Bool) (a : α) (f : α → β) : (ifFits fit a).map f = ifFits fit (f a) := by
  cases fit <;> rfl

end Data

namespace Json.Plain

open Data (Room fits fitItems fitMembers depthItems depthMembers holds_zero holds_max holds_succ)

mutual

theorem fits_data : (v : Plain) → (room : Room) → fits room v.data = room.holds v.data.depth
  | null, room | bool _, room | text _, room => by simp [data, fits, Data.depth, holds_zero]
  | list items, room => by
    simp only [data, fits, Data.depth, holds_succ]
    cases room.enter with
    | none => rfl
    | some inner => simp [fits_dataItems items inner]
  | table members, room => by
    simp only [data, fits, Data.depth, holds_succ]
    cases room.enter with
    | none => rfl
    | some inner => simp [fits_dataMembers members inner]

theorem fits_dataItems : (items : List Plain) → (room : Room) →
    fitItems room (dataItems items) = room.holds (depthItems (dataItems items))
  | [], room => by simp [dataItems, fitItems, depthItems, holds_zero]
  | v :: rest, room => by simp [dataItems, fitItems, depthItems, holds_max, fits_data v room, fits_dataItems rest room]

theorem fits_dataMembers : (members : List (String × Plain)) → (room : Room) →
    fitMembers room (dataMembers members) = room.holds (depthMembers (dataMembers members))
  | [], room => by simp [dataMembers, fitMembers, depthMembers, holds_zero]
  | (key, v) :: rest, room => by
    simp [dataMembers, fitMembers, depthMembers, holds_max, fits_data v room, fits_dataMembers rest room]

end

end Json.Plain

namespace Manifest

open Data
open Json (Plain)
open Json.Plain (fits_data)

/-! ## (2) Types -/

theorem keepable_eq (room : Room) (d : Data) : keepable room d = ifFits (d.fits room) () := rfl

/-- The members after the tag are kept as they are, if they fit. -/
theorem readTagAmong_others (tag : Data → Except Problem Kind) (room : Room) (k : Kind) :
    (others : List (String × Plain)) → (∀ m ∈ others, m.1 ≠ "kind") →
      readTagAmong tag room (Plain.dataMembers others) (some k) =
        ifFits (fitMembers room (Plain.dataMembers others)) (some k, Plain.dataMembers others)
  | [], _ => rfl
  | (key, v) :: rest, h => by
    have hkey : key ≠ "kind" := h (key, v) (by simp)
    have hrest := readTagAmong_others tag room k rest fun m hm => h m (by simp [hm])
    simp only [Plain.dataMembers, readTagAmong, hkey, if_false, keepable_eq, hrest, ifFits_bind, fitMembers,
      Option.isSome_some, Bool.true_and]
    cases v.data.fits room with
    | false => rfl
    | true => cases fitMembers room (Plain.dataMembers rest) <;> rfl

theorem readKind_name (r : Reading) (numbered : Bool) (k : Kind) :
    readKind r numbered (.text (some k.name)) = .ok k := by
  cases k <;> rfl

/-- A type as it is written: its kind, then its parts. -/
def tagged (k : Kind) (parts : List (String × Plain)) : Plain := .table (("kind", .text k.name) :: parts)

theorem readTagged_kind (r : Reading) (title : String) (numbered : Bool) (room : Room) (k : Kind)
    (parts : List (String × Plain)) (h : ∀ m ∈ parts, m.1 ≠ "kind") :
    readTagged r title (readKind r numbered) room (tagged k parts).data =
      ifFits ((tagged k parts).data.fits room) (k, .table (Plain.dataMembers parts) true) := by
  simp only [tagged, Plain.data, Plain.dataMembers, readTagged, inside, fits, fitMembers, readTagAmong, readKind_name,
    if_true, finish]
  cases room.enter with
  | none => rfl
  | some inner =>
    have hothers := readTagAmong_others (readKind r numbered) inner k parts h
    cases hfit : fitMembers inner (Plain.dataMembers parts) with
    | false => simp [hothers, hfit]
    | true => simp [hothers, hfit]

/-! The parts of a type, once its kind is known. -/

/-- The next member of a table is a field that has not come yet. -/
theorem readMembers_known {α : Type} {fields : List (RecordField α)} {f : RecordField α} {key : String}
    (hf : fields.find? (·.name == key) = some f) {seen : List String} (hseen : key ∉ seen)
    (room : Room) (d : Data) (rest : List (Option String × Data)) (a : α) :
    Record.readMembers fields room ((some key, d) :: rest) seen a =
      (f.read room d >>= fun set => Record.readMembers fields room rest (key :: seen) (set a)) := by
  rw [Record.readMembers, hf]
  simp only [List.contains_iff_mem, hseen, if_false]

/-- A record fits when its members do, if no required field is left out. -/
theorem ofTable_fits {α : Type} {c : Record α} {room : Room} {members : List (Option String × Data)} {a : α}
    (fit : Bool) (seen : List String)
    (h : Record.readMembers c.fields room members [] c.start = ifFits fit (a, seen))
    (hseen : ∀ f ∈ c.fields, f.required → f.name ∈ seen) : c.ofTable room members true = ifFits fit a := by
  have hmissing : Record.missing c.fields seen = none := by
    simp only [Record.missing, Option.map_eq_none_iff, List.find?_eq_none]
    intro f hf
    cases hreq : f.required with
    | false => simp
    | true => simp [hseen f hf hreq]
  simp only [Record.ofTable, h, ifFits_bind, finish, if_true, Except.ok_bind, hmissing]
  rfl

theorem read_bare (r : Reading) (e : TypeExpr) : (bareRecord e).read r none (.table [] true) = .ok e := rfl

theorem read_part {nested : Data → Except Problem TypeExpr} {variant label : String} {make : TypeExpr → TypeExpr}
    {e : TypeExpr} {d : Data} (r : Reading) (h : nested d = .ok e) :
    (partRecord nested variant label make).read r none (.table [(some label, d)] true) = .ok (make e) := by
  have hlabel : (partRecord nested variant label make).fields.find? (·.name == label) =
      some ⟨label, true, fun _ d => (nested d).map fun e _ => make e⟩ := List.find?_cons_of_pos (by simp)
  simp only [Record.read, inside, Room.enter, Except.ok_bind]
  refine ofTable_fits true [label] ?_ ?_
  · rw [readMembers_known hlabel (by simp)]
    simp only [h, Except.map, Except.ok_bind, Record.readMembers, ifFits_true]
  · intro f hf _
    rw [List.mem_singleton.mp hf]
    exact List.mem_singleton.mpr rfl

theorem read_field {nested : Data → Except Problem TypeExpr} {e : TypeExpr} {d : Data} (r : Reading) (name : String)
    (h : nested d = .ok e) :
    (fieldRecord r nested).read r none (.table [(some "name", .text (some name)), (some "type", d)] true) =
      .ok (name, e) := by
  simp only [Record.read, inside, Room.enter, Except.ok_bind]
  refine ofTable_fits true ["type", "name"] ?_ ?_
  · rw [readMembers_known rfl (by simp)]
    simp only [readText, Except.map, Except.ok_bind]
    rw [readMembers_known rfl (by simp)]
    simp only [h, Except.map, Except.ok_bind, Record.readMembers, ifFits_true]
  · simp [fieldRecord]

theorem read_fields {items : List Data} {fields : List (String × TypeExpr)} (r : Reading)
    (nested : Data → Except Problem TypeExpr)
    (h : readItems ((fieldRecord r nested).read r none) items = .ok fields) :
    (parts r nested .record).read r none (.table [(some "fields", .list items true)] true) =
      .ok (.record fields) := by
  simp only [parts, Record.read, inside, Room.enter, Except.ok_bind]
  refine ofTable_fits true ["fields"] ?_ ?_
  · rw [readMembers_known rfl (by simp)]
    simp only [readList, inside, Room.enter, h, finish, if_true, Except.map, Except.ok_bind, Except.pure_eq,
      Record.readMembers, ifFits_true]
  · simp

theorem read_other (r : Reading) (nested : Data → Except Problem TypeExpr) (name : String) :
    (parts r nested .other).read r none (.table [(some "name", .text (some name))] true) = .ok (.other name) := by
  simp only [parts, Record.read, inside, Room.enter, Except.ok_bind]
  refine ofTable_fits true ["name"] ?_ ?_
  · rw [readMembers_known rfl (by simp)]
    simp only [readText, Except.map, Except.ok_bind, Record.readMembers, ifFits_true]
  · simp

/-- A written type reads as what its parts are read as. -/
theorem readTypeUpTo_tagged {n : Nat} {numbered : Bool} {r : Reading} {room : Room} {k : Kind}
    {ps : List (String × Plain)} {e : TypeExpr} (hkind : ∀ m ∈ ps, m.1 ≠ "kind")
    (h : (parts r.counting (readTypeUpTo n true r.counting none) k).read r.counting none
      (.table (Plain.dataMembers ps) true) = .ok e) :
    readTypeUpTo (n + 1) numbered r room (tagged k ps).data = ifFits ((tagged k ps).data.fits room) e := by
  rw [readTypeUpTo, readTagged_kind _ _ _ _ _ _ hkind, ifFits_bind]
  simp only [h]
  rfl

theorem fits_unbounded (v : Plain) : v.data.fits none = true := by
  rw [fits_data]
  rfl

mutual

theorem readTypeUpTo_plain : (e : TypeExpr) → (n : Nat) → (numbered : Bool) → (r : Reading) → (room : Room) →
    e.plain.data.depth ≤ n → readTypeUpTo n numbered r room e.plain.data = ifFits (e.plain.data.fits room) e
  | .boolean, n + 1, _, _, _, _ | .byte, n + 1, _, _, _, _ | .int, n + 1, _, _, _, _ | .float, n + 1, _, _, _, _
  | .decimal, n + 1, _, _, _, _ | .string, n + 1, _, _, _, _ | .xml, n + 1, _, _, _, _ | .json, n + 1, _, _, _, _ =>
    readTypeUpTo_tagged (by simp) (read_bare ..)
  | .array e, n + 1, _, r, _, h | .map e, n + 1, _, r, _, h | .table e, n + 1, _, r, _, h
  | .constrained e, n + 1, _, r, _, h =>
    readTypeUpTo_tagged (by simp) (read_part r.counting (readTypeUpTo_nested e n r (by
      simpa [TypeExpr.plain, TypeExpr.plainWith, Plain.data, Plain.dataMembers, depth, depthMembers] using h)))
  | .record fields, n + 1, _, r, _, h =>
    readTypeUpTo_tagged (by simp) (read_fields r.counting _ (readItems_plainFields fields n r (by
      simp [TypeExpr.plain, TypeExpr.plainWith, Plain.data, Plain.dataMembers, depth, depthMembers] at h
      omega)))
  | .other name, n + 1, _, r, _, _ => readTypeUpTo_tagged (by simp) (read_other r.counting _ name)
  | e, 0, _, _, _, h => by
    cases e <;> simp [TypeExpr.plain, TypeExpr.plainKind, TypeExpr.plainWith, Plain.data, depth] at h

/-- Within another type there is always room. -/
theorem readTypeUpTo_nested (e : TypeExpr) (n : Nat) (r : Reading) (h : e.plain.data.depth ≤ n) :
    readTypeUpTo n true r.counting none e.plain.data = .ok e := by
  rw [readTypeUpTo_plain e n true r.counting none h, fits_unbounded]
  rfl

theorem readItems_plainFields : (fields : List (String × TypeExpr)) → (n : Nat) → (r : Reading) →
    depthItems (Plain.dataItems (TypeExpr.plainFields fields)) ≤ n →
    readItems ((fieldRecord r.counting (readTypeUpTo n true r.counting none)).read r.counting none)
      (Plain.dataItems (TypeExpr.plainFields fields)) = .ok fields
  | [], _, _, _ => rfl
  | (name, e) :: rest, n, r, h => by
    simp only [TypeExpr.plainFields, Plain.dataItems, Plain.data, Plain.dataMembers, depthItems, depth,
      depthMembers] at h
    have hfield := read_field r.counting name (readTypeUpTo_nested e n r (by omega))
    have hrest := readItems_plainFields rest n r (by omega)
    simp only [TypeExpr.plainFields, Plain.dataItems, Plain.data, Plain.dataMembers, readItems, hfield, hrest,
      Except.ok_bind, Except.pure_eq]

end

/-- A type reads as itself wherever there is room for it. -/
theorem readType_plain (e : TypeExpr) (r : Reading) (room : Room) :
    readType r room e.plain.data = ifFits (e.plain.data.fits room) e :=
  readTypeUpTo_plain e _ false r room (Nat.le_succ _)

/-! ## (3) Entries -/

section Entries

variable {α : Type} {write : α → Plain} {item : Room → Data → Except Problem α}

theorem readItems_plain (h : ∀ room a, item room (write a).data = ifFits ((write a).data.fits room) a) (room : Room) :
    (as : List α) → readItems (item room) (Plain.dataItems (as.map write)) =
      ifFits (fitItems room (Plain.dataItems (as.map write))) as
  | [] => rfl
  | a :: rest => by
    simp only [List.map_cons, Plain.dataItems, readItems, h, readItems_plain h room rest, ifFits_bind, fitItems]
    cases (write a).data.fits room with
    | false => rfl
    | true => cases fitItems room (Plain.dataItems (rest.map write)) <;> rfl

/-- A list reads as its items are read. -/
theorem readList_plain (h : ∀ room a, item room (write a).data = ifFits ((write a).data.fits room) a) (r : Reading)
    (room : Room) (as : List α) :
    readList r room item (Plain.list (as.map write)).data = ifFits ((Plain.list (as.map write)).data.fits room) as := by
  simp only [Plain.data, readList, inside, fits]
  cases room.enter with
  | none => rfl
  | some inner =>
    simp only [Except.ok_bind, readItems_plain h, ifFits_bind, finish, if_true, Bool.and_true]
    rfl

end Entries

theorem variable_plain (r : Reading) (room : Room) (v : VariableEntry) :
    (variableRecord r).read r room v.plain.data = ifFits (v.plain.data.fits room) v := by
  simp only [VariableEntry.plain, Plain.data, Plain.dataMembers, Record.read, inside, fits, fitMembers]
  cases room.enter with
  | none => rfl
  | some inner =>
    refine ofTable_fits _ ["required", "type", "name"] ?_ ?_
    · rw [readMembers_known rfl (by simp)]
      simp only [readText, Except.map, Except.ok_bind]
      rw [readMembers_known rfl (by simp)]
      simp only [readType_plain, ifFits_map, ifFits_bind]
      rw [readMembers_known rfl (by simp)]
      simp [readBool, Except.map, Record.readMembers, ifFits]
    · simp [variableRecord]

/-- The last member of a module entry. -/
theorem readMembers_variables (r : Reading) (room : Room) {seen : List String} (hseen : "variables" ∉ seen)
    (e : ModuleEntry) (members : List VariableEntry) :
    Record.readMembers (moduleRecord r).fields room
        [(some "variables", (Plain.list (members.map (·.plain))).data)] seen e =
      ifFits ((Plain.list (members.map (·.plain))).data.fits room)
        ({ e with members := members }, "variables" :: seen) := by
  rw [readMembers_known rfl hseen]
  simp only [readList_plain (variable_plain r), ifFits_map, ifFits_bind, Record.readMembers]
  rfl

theorem readText_plain (r : Reading) (s : String) : readText r (Plain.text s).data = .ok s := rfl

theorem readOption_plain (r : Reading) (s : String) : readOption r (Plain.text s).data = .ok (some s) := rfl

theorem fits_text (room : Room) (s : String) : (Plain.text s).data.fits room = true := by
  simp [Plain.data, fits]

/-- The module's name is written only when the entry has one. -/
theorem module_plain (r : Reading) (room : Room) (e : ModuleEntry) :
    (moduleRecord r).read r room e.plain.data = ifFits (e.plain.data.fits room) e := by
  obtain ⟨org, package, module, members⟩ := e
  cases module with
  | none =>
    have hdata : ModuleEntry.plain ⟨org, package, none, members⟩ = .table [("org", .text org),
      ("package", .text package), ("variables", .list (members.map (·.plain)))] := rfl
    rw [hdata, Plain.data]
    simp only [Plain.dataMembers, Record.read, inside, fits, fitMembers]
    cases room.enter with
    | none => rfl
    | some inner =>
      refine ofTable_fits _ ["variables", "package", "org"] ?_ ?_
      · rw [readMembers_known rfl (by simp)]
        simp only [readText_plain, Except.map, Except.ok_bind]
        rw [readMembers_known rfl (by simp)]
        simp only [readText_plain, Except.map, Except.ok_bind]
        rw [readMembers_variables r inner (by simp)]
        simp [fits_text, moduleRecord]
      · simp [moduleRecord]
  | some m =>
    have hdata : ModuleEntry.plain ⟨org, package, some m, members⟩ = .table [("org", .text org),
      ("package", .text package), ("module", .text m), ("variables", .list (members.map (·.plain)))] := rfl
    rw [hdata, Plain.data]
    simp only [Plain.dataMembers, Record.read, inside, fits, fitMembers]
    cases room.enter with
    | none => rfl
    | some inner =>
      refine ofTable_fits _ ["variables", "module", "package", "org"] ?_ ?_
      · rw [readMembers_known rfl (by simp)]
        simp only [readText_plain, Except.map, Except.ok_bind]
        rw [readMembers_known rfl (by simp)]
        simp only [readText_plain, Except.map, Except.ok_bind]
        rw [readMembers_known rfl (by simp)]
        simp only [readOption_plain, Except.map, Except.ok_bind]
        rw [readMembers_variables r inner (by simp)]
        simp [fits_text]
      · simp [moduleRecord]

theorem manifest_plain (r : Reading) (room : Room) (m : Manifest) :
    (record r).read r room m.plain.data = ifFits (m.plain.data.fits room) m := by
  have hdata : m.plain = .table [("modules", .list (m.modules.map (·.plain)))] := rfl
  rw [hdata, Plain.data]
  simp only [Plain.dataMembers, Record.read, inside, fits, fitMembers]
  cases room.enter with
  | none => rfl
  | some inner =>
    refine ofTable_fits _ ["modules"] ?_ ?_
    · rw [readMembers_known rfl (by simp)]
      simp only [readList_plain (module_plain r), ifFits_map, ifFits_bind, Record.readMembers]
      simp [ifFits]
    · simp [record]

/-! ## (4) Whole texts -/

/-- A written manifest is read back if its brackets nest at most 127 deep; deeper ones make the text unreadable. -/
theorem ofJson_json (m : Manifest) :
    ofJson m.json = if Json.nesting m.json ≤ 127 then .ok m else .error .unreadable := by
  have hnesting : Json.nesting m.json = m.plain.data.depth := Plain.nesting_compact m.plain
  have hfits : m.plain.data.fits (some jsonRoom) = decide (Json.nesting m.json ≤ 127) := by
    rw [fits_data, hnesting]
    rfl
  have hread : Json.read m.json = (m.plain.data, true) := Plain.read_compact m.plain
  by_cases h : Json.nesting m.json ≤ 127
  · simp [ofJson, hread, manifest_plain, hfits, finish, h]
  · simp [ofJson, hread, manifest_plain, hfits, h]

end Manifest

end ConfigTemplate
