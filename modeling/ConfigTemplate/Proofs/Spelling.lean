/-
  ConfigTemplate.Proofs.Spelling — one manifest spelled in different JSON texts.

  (1) `Rewrites`: one text has a blank more than another, or its data is one step from
      the other's.
  (2) `rewritten_text_same_groups`: texts any number of such changes apart have the same groups.
      `type_put_otherwise` does this to a type.
  (3) `half_character_in_type_counts`: this is not so when a string without a meaning is put
      into a type, where it is kept until the kind is known.
-/
import ConfigTemplate.Manifest.Load
import ConfigTemplate.Proofs.Blanks
import ConfigTemplate.Proofs.Rewriting
import Mathlib.Logic.Relation

namespace ConfigTemplate.Manifest

open Data
open Json (Plain)

/-! ## (1) Texts -/

/-- One change to a JSON text; `idle` says what may be put into an object. -/
inductive Rewrites (idle : Bool → Data → Prop) : String → String → Prop
  | blank {a b : String} : Json.Respaced a.toList b.toList → Rewrites idle a b
  | data {a b : String} {d d' : Data} : Json.read a = (d, true) → Json.read b = (d', true) →
      Step idle false .manifest d d' → Rewrites idle a b

/-! ## (2) The same groups -/

theorem parseGroups_json {text : String} {gs : List Group} :
    parseGroups .json text = .ok gs ↔ ∃ m, m.grouped = .ok gs ∧ (Json.read text).2 = true ∧
      (record jsonReading).read jsonReading (some jsonRoom) (Json.read text).1 = .ok m := by
  simp only [parseGroups, ofText, ofJson, Except.bind_eq_ok, Except.mapError_eq_ok, Except.pure_eq, Except.ok.injEq,
    finish_ok]
  constructor
  · intro h
    obtain ⟨m, ⟨_, hread, _, hended, rfl⟩, hgroups⟩ := h
    exact ⟨_, hgroups, hended, hread⟩
  · intro h
    obtain ⟨m, hgroups, hended, hread⟩ := h
    exact ⟨m, ⟨m, hread, (), hended, rfl⟩, hgroups⟩

theorem Rewrites.groups {a b : String} (h : Rewrites Idle a b) (gs : List Group) :
    parseGroups .json a = .ok gs ↔ parseGroups .json b = .ok gs := by
  rw [parseGroups_json, parseGroups_json]
  cases h with
  | blank hblank => rw [Json.read_respaced hblank]
  | data ha hb hstep =>
    simp only [ha, hb, manifest_respects false jsonReading _ _ hstep]

/-- Any number of changes leaves the groups of a text as they were, and a text without
    groups without them. -/
theorem rewritten_text_same_groups {a b : String} (h : Relation.EqvGen (Rewrites Idle) a b) (gs : List Group) :
    parseGroups .json a = .ok gs ↔ parseGroups .json b = .ok gs := by
  induction h with
  | rel a b h => exact h.groups gs
  | refl a => rfl
  | symm a b _ ih => exact ih.symm
  | trans a b c _ _ ih ih' => exact ih.trans ih'

/-- A manifest with one variable, of the given type. -/
def manifestOf (type : Plain) : Plain :=
  .table [("modules", .list [.table [("org", .text "o"), ("package", .text "p"),
    ("variables", .list [.table [("name", .text "v"), ("type", type)]])]])]

/-- The same data around any type. -/
def around (type : Data) : Data :=
  .table [(some "modules", .list [.table [(some "org", .text (some "o")), (some "package", .text (some "p")),
    (some "variables", .list [.table [(some "name", .text (some "v")), (some "type", type)] true] true)] true]
    true)] true

theorem read_manifestOf (type : Plain) : Json.read (manifestOf type).compact = (around type.data, true) :=
  Plain.read_compact (manifestOf type)

/-- A change to the type of the variable. -/
theorem step_around {idle : Bool → Data → Prop} {d d' : Data} (h : Step idle false .type d d') :
    Step idle false .manifest (around d) (around d') :=
  @Step.member _ _ _ [] [] (some "modules") _ _ _ <|
  @Step.item _ _ _ [] [] _ _ _ <|
  @Step.member _ _ _ [(some "org", .text (some "o")), (some "package", .text (some "p"))] [] (some "variables") _ _ _ <|
  @Step.item _ _ _ [] [] _ _ _ <|
  @Step.member _ _ _ [(some "name", .text (some "v"))] [] (some "type") _ _ _ h

def soleVariable (type : Ty) : Group :=
  ⟨⟨"o", "p", none, Eq.refl false, Eq.refl false, ModuleKey.sub_named_none _⟩, [⟨"v", type, true⟩]⟩

def intType : Plain := .table [("kind", .text "int")]

theorem groups_manifestOf {type : Plain} {m : Manifest} {gs : List Group}
    (h : (record jsonReading).read jsonReading (some jsonRoom) (around type.data) = .ok m) (hm : m.grouped = .ok gs) :
    parseGroups .json (manifestOf type).compact = .ok gs := by
  refine parseGroups_json.mpr ⟨m, hm, ?_, ?_⟩
  · rw [read_manifestOf]
  · rw [read_manifestOf]
    exact h

theorem groups_int : parseGroups .json (manifestOf intType).compact = .ok [soleVariable (.scalar .int)] :=
  @groups_manifestOf intType ⟨[⟨"o", "p", none, [⟨"v", .int, true⟩]⟩]⟩ _ rfl rfl

/-- An array of integers. -/
def rows : Plain := .table [("kind", .text "array"), ("element", intType)]

/-- The same with its element as a list, its kind at the end and a member that nothing reads. -/
def rowsOtherwise : Plain := .table [("element", .list [.text "int"]), ("note", .null), ("kind", .text "array")]

theorem rows_otherwise :
    Relation.EqvGen (Rewrites Idle) (manifestOf rows).compact (manifestOf rowsOtherwise).compact := by
  have hread := read_manifestOf
  have hform : Rewrites Idle (manifestOf rows).compact
      (manifestOf (.table [("kind", .text "array"), ("element", .list [.text "int"])])).compact :=
    .data (hread _) (hread _) <| step_around <|
      @Step.member _ _ _ [(some "kind", .text (some "array"))] [] (some "element") _ _ _ <|
      @Step.typeForm _ _ .int [] _ rfl
  have horder : Rewrites Idle (manifestOf (.table [("kind", .text "array"), ("element", .list [.text "int"])])).compact
      (manifestOf (.table [("element", .list [.text "int"]), ("kind", .text "array")])).compact :=
    .data (hread _) (hread _) <| step_around <| .order (.swap _ _ [])
  have hnote : Rewrites Idle (manifestOf (.table [("element", .list [.text "int"]), ("kind", .text "array")])).compact
      (manifestOf rowsOtherwise).compact :=
    .data (hread _) (hread _) <| step_around <|
      @Step.intoType _ _ [(some "element", .list [.text (some "int")] true)] [(some "kind", .text (some "array"))] _
        "note" .null (by decide) ⟨rfl, by simp⟩
  exact .trans _ _ _ (.rel _ _ hform) (.trans _ _ _ (.rel _ _ horder) (.rel _ _ hnote))

theorem type_put_otherwise :
    Relation.EqvGen (Rewrites Idle) (manifestOf rows).compact (manifestOf rowsOtherwise).compact ∧
      parseGroups .json (manifestOf rows).compact = .ok [soleVariable (.array (.scalar .int))] ∧
      parseGroups .json (manifestOf rowsOtherwise).compact = .ok [soleVariable (.array (.scalar .int))] := by
  have hgroups : parseGroups .json (manifestOf rows).compact = .ok [soleVariable (.array (.scalar .int))] :=
    @groups_manifestOf rows ⟨[⟨"o", "p", none, [⟨"v", .array .int, true⟩]⟩]⟩ _ rfl rfl
  exact ⟨rows_otherwise, hgroups, (rewritten_text_same_groups rows_otherwise _).mp hgroups⟩

/-! ## (3) A string that denotes nothing -/

theorem proper_around {d : Data} (h : d.Proper) : (around d).Proper := by
  have hvariable := @Data.Proper.table [("name", .text (some "v")), ("type", d)] (by simp)
    (by simp [h, Data.Proper.text])
  have hmodule := @Data.Proper.table [("org", .text (some "o")), ("package", .text (some "p")),
    ("variables", .list [.table [(some "name", .text (some "v")), (some "type", d)] true] true)] (by simp)
    (by simpa [Data.Proper.text] using .list (List.forall_mem_singleton.mpr hvariable))
  exact @Data.Proper.table [("modules", _)] (by simp)
    (List.forall_mem_singleton.mpr (.list (List.forall_mem_singleton.mpr hmodule)))

/-- The type `int` with half of a character in a member that nothing reads. -/
def halfCharacter : String :=
  "\x7b\"modules\":[\x7b\"org\":\"o\",\"package\":\"p\",\"variables\":" ++
    "[\x7b\"name\":\"v\",\"type\":\x7b\"kind\":\"int\",\"x\":\"\\ud800\"\x7d\x7d]\x7d]\x7d"

open Json in
theorem read_halfCharacter : Json.read halfCharacter =
    (around (.table [(some "kind", .text (some "int")), (some "x", .text none)] true), true) := by
  have htokens : tokens halfCharacter.toList = [.openTable, .text (some "modules"), .colon, .openList, .openTable,
      .text (some "org"), .colon, .text (some "o"), .comma, .text (some "package"), .colon, .text (some "p"), .comma,
      .text (some "variables"), .colon, .openList, .openTable, .text (some "name"), .colon, .text (some "v"), .comma,
      .text (some "type"), .colon, .openTable, .text (some "kind"), .colon, .text (some "int"), .comma,
      .text (some "x"), .colon, .text none, .closeTable, .closeTable, .closeList, .closeTable, .closeList,
      .closeTable] := by
    decide +kernel
  rw [Json.read, htokens]
  rfl

/-- A string with half a character, put into a type where nothing reads it, makes the text
    unreadable. -/
theorem half_character_in_type_counts : ¬ ∀ a b : String,
    (Json.read a).1.Proper → (Json.read b).1.Proper → Json.nesting a ≤ 127 → Json.nesting b ≤ 127 →
    Relation.EqvGen (Rewrites fun _ d => d.isAtom = true) a b →
    ∀ gs, parseGroups .json a = .ok gs ↔ parseGroups .json b = .ok gs := by
  intro h
  have hread := read_manifestOf intType
  have hrewrites : Rewrites (fun _ d => d.isAtom = true) (manifestOf intType).compact halfCharacter :=
    .data hread read_halfCharacter <| step_around <|
      @Step.intoType _ _ [(some "kind", .text (some "int"))] [] _ "x" (.text none) (by decide) rfl
  have hint := @Data.Proper.table [("kind", .text (some "int"))] (by decide) (by simp [Data.Proper.text])
  have hodd := @Data.Proper.table [("kind", .text (some "int")), ("x", .text none)] (by decide)
    (by simp [Data.Proper.text])
  have hsame := h _ halfCharacter (by rw [hread]; exact proper_around hint)
    (by rw [read_halfCharacter]; exact proper_around hodd) (by decide +kernel) (by decide +kernel)
    (.rel _ _ hrewrites) [soleVariable (.scalar .int)]
  have hgroups := hsame.mp groups_int
  obtain ⟨m, -, -, hm⟩ := parseGroups_json.mp hgroups
  rw [read_halfCharacter] at hm
  cases hm

end ConfigTemplate.Manifest
