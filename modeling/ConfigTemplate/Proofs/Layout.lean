/-
  ConfigTemplate.Proofs.Layout — the text of a template, piece by piece.

  (1) `header?`, `entries`: the lines of a shape. A map, a record and rows of records
      open a table of their own, and their entries stand below its header.
      `ofShape_ok`: a fragment is these lines. `tail?`: what follows the name in an entry
      that takes one line, one of the `tails`. `table_or_nothing`: the other shapes.
  (2) `fragments_ok_append`: the fragments of two lists are those of one after the
      other.
  (3) `moduleSection_ok`: a section is its header, the required fragments, the
      commented ones and an empty line. `sections_ok_append`: the sections of two lists
      of groups. `whole_sections`: they end where a line does.
-/
import ConfigTemplate.Proofs.Lines
import ConfigTemplate.Proofs.Traced
import ConfigTemplate.Template

namespace ConfigTemplate.Template

open Log (Traced)
open Text (Whole whole_empty whole_line whole_append whole_unlines unlines unlines_nil unlines_cons unlines_append)

/-! ## (1) Fragments, line by line -/

/-- The header of the table that a shape opens, if it opens one. -/
def header? (path : String) : Shape → Option String
  | .map s => some ("[" ++ path ++ "] # type: " ++ s.name)
  | .record _ => some ("[" ++ path ++ "]")
  | .rows _ => some ("[[" ++ path ++ "]]")
  | _ => none

def entry (name value kind : String) : String := name ++ " = " ++ value ++ " # type: " ++ kind

def scalarField? (f : String × Ty) : Option String :=
  match f.2.core with
  | .scalar s => some (entry f.1 s.literal s.name)
  | _ => none

def entries (name : String) : Shape → List String
  | .scalar s => [entry name s.literal s.name]
  | .document d => [entry name d.literal d.name]
  | .array .string => [name ++ " = " ++ Scalar.string.arrayLiteral]
  | .array s => [entry name s.arrayLiteral (s.name ++ "[]")]
  | .map s => ["key1 = " ++ s.mapLiterals.1, "key2 = " ++ s.mapLiterals.2]
  | .record fields | .rows fields => fields.filterMap scalarField?
  | .none _ => []

def scalars : List Scalar := [.boolean, .byte, .int, .float, .decimal, .string]

/-- What stands behind the name in an entry that takes one line. -/
def tail? : Shape → Option String
  | .scalar s => some (" = " ++ s.literal ++ " # type: " ++ s.name)
  | .document d => some (" = " ++ d.literal ++ " # type: " ++ d.name)
  | .array .string => some (" = " ++ Scalar.string.arrayLiteral)
  | .array s => some (" = " ++ s.arrayLiteral ++ " # type: " ++ s.name ++ "[]")
  | _ => none

theorem entries_tail {name tail : String} {shape : Shape} (h : tail? shape = some tail) :
    entries name shape = [name ++ tail] := by
  cases shape with
  | scalar s | document d =>
    obtain rfl := Option.some.inj h
    simp only [entries, entry, String.append_assoc]
  | array s => cases s <;> obtain rfl := Option.some.inj h <;> simp only [entries, entry, String.append_assoc]
  | _ => cases h

theorem table_or_nothing {shape : Shape} (h : tail? shape = none) :
    (∃ s, shape = .map s) ∨ (∃ fields, shape = .record fields) ∨ (∃ fields, shape = .rows fields) ∨
      ∃ why, shape = .none why := by
  cases shape with
  | scalar s | document d => cases h
  | array s => cases s <;> cases h
  | _ => simp

/-- The shapes whose entries take one line. -/
def lineShapes : List Shape := scalars.map .scalar ++ [.document .xml, .document .json] ++ scalars.map .array

/-- All that can stand behind the name in such an entry. -/
def tails : List String := lineShapes.filterMap tail?

theorem mem_lineShapes {shape : Shape} {tail : String} (h : tail? shape = some tail) : shape ∈ lineShapes := by
  cases shape with
  | scalar s => cases s <;> decide
  | document d => cases d <;> decide
  | array s => cases s <;> decide
  | _ => cases h

theorem mem_tails {shape : Shape} {tail : String} (h : tail? shape = some tail) : tail ∈ tails :=
  List.mem_filterMap.mpr ⟨shape, mem_lineShapes h, h⟩

theorem tail_head {shape : Shape} {tail : String} (h : tail? shape = some tail) : tail.toList.head? = some ' ' := by
  have hall : ∀ t ∈ tails, t.toList.head? = some ' ' := by decide +kernel
  exact hall tail (mem_tails h)

theorem scalarField?_eq_some {f : String × Ty} {line : String} (h : scalarField? f = some line) :
    ∃ s tail, f.2.core = .scalar s ∧ tail? (.scalar s) = some tail ∧ line = f.1 ++ tail := by
  unfold scalarField? at h
  split at h
  · rename_i s hcore
    obtain rfl := Option.some.inj h
    exact ⟨s, _, hcore, rfl, by simp only [entry, String.append_assoc]⟩
  · cases h

theorem fieldLines_ok {owner : String} {fields : Fields} {text : String}
    (h : (fieldLines owner fields).result = .ok text) : text = unlines (fields.filterMap scalarField?) := by
  induction fields generalizing text with
  | nil =>
    have he : "" = text := by simpa [fieldLines] using h
    simp [← he, unlines_nil]
  | cons f rest ih =>
    obtain ⟨field, t⟩ := f
    simp only [fieldLines, Traced.bind_ok, Traced.result_pure, Except.ok.injEq] at h
    obtain ⟨line, hl, more, hm, rfl⟩ := h
    rw [ih hm, List.filterMap_cons]
    cases ht : t.core with
    | scalar s =>
      have he : scalarLine field s = line := by simpa [ht, fieldLine] using hl
      simp only [scalarField?, ht, unlines_cons, ← he, scalarLine, entry]
    | other kind => simp [ht, fieldLine] at hl
    | _ =>
      have he : "" = line := by simpa [ht, fieldLine] using hl
      simp [scalarField?, ht, ← he]

/-- A fragment is the header of its shape, if it has one, and the entries below it. -/
theorem ofShape_ok {key : ModuleKey} {name : String} {shape : Shape} {text : String}
    (h : (ofShape key name shape).result = .ok text) :
    text = unlines ((header? (key.qualify name) shape).toList ++ entries name shape) := by
  cases shape with
  | scalar s =>
    have he : scalarLine name s = text := by simpa [ofShape] using h
    simp [← he, header?, entries, unlines_cons, unlines_nil, scalarLine, entry]
  | document d =>
    have he : documentLine name d = text := by simpa [ofShape] using h
    simp [← he, header?, entries, unlines_cons, unlines_nil, documentLine, entry]
  | array s =>
    have he : arrayLine name s = text := by simpa [ofShape] using h
    cases s <;> simp [← he, header?, entries, unlines_cons, unlines_nil, arrayLine, entry, String.append_assoc]
  | map s =>
    have he : mapLines (key.qualify name) s = text := by simpa [ofShape] using h
    have h1 : "\nkey1 = " = "\n" ++ "key1 = " := rfl
    have h2 : "\nkey2 = " = "\n" ++ "key2 = " := rfl
    simp [← he, header?, entries, unlines_cons, unlines_nil, mapLines, String.append_assoc]
    rw [h1, h2]
    simp only [String.append_assoc]
  | record fields =>
    have h : ∃ lines, (fieldLines name fields).result = .ok lines ∧ "[" ++ key.qualify name ++ "]\n" ++ lines = text := by
      simpa [ofShape] using h
    obtain ⟨lines, hl, rfl⟩ := h
    simp [fieldLines_ok hl, header?, entries, unlines_cons, String.append_assoc]
  | rows fields =>
    have h : ∃ lines, (fieldLines name fields).result = .ok lines ∧ "[[" ++ key.qualify name ++ "]]\n" ++ lines = text := by
      simpa [ofShape] using h
    obtain ⟨lines, hl, rfl⟩ := h
    simp [fieldLines_ok hl, header?, entries, unlines_cons, String.append_assoc]
  | none why =>
    have he : "" = text := by simpa [ofShape] using h
    simp [← he, header?, entries, unlines_nil]

theorem fragment_ok_iff {key : ModuleKey} {v : Variable} {text : String} :
    (fragment key v).result = .ok text ↔
      ∃ shape, v.type.shape? = .ok shape ∧ (ofShape key v.name shape).result = .ok text := by
  unfold fragment
  cases v.type.shape? with
  | error kind => simp
  | ok shape => simp

theorem whole_fragment {key : ModuleKey} {v : Variable} {text : String}
    (h : (fragment key v).result = .ok text) : Whole text := by
  obtain ⟨shape, -, h⟩ := fragment_ok_iff.mp h
  rw [ofShape_ok h]
  exact whole_unlines _

/-! ## (2) Lists of fragments -/

theorem fragments_ok_cons {key : ModuleKey} {v : Variable} {rest : List Variable} {texts : List String} :
    (fragments key (v :: rest)).result = .ok texts ↔
      ∃ first more, (fragment key v).result = .ok first ∧ (fragments key rest).result = .ok more ∧
        texts = first :: more := by
  simp [fragments, @eq_comm _ texts]

theorem fragments_ok_append {key : ModuleKey} {vs ws : List Variable} {texts : List String} :
    (fragments key (vs ++ ws)).result = .ok texts ↔
      ∃ first more, (fragments key vs).result = .ok first ∧ (fragments key ws).result = .ok more ∧
        texts = first ++ more := by
  induction vs generalizing texts with
  | nil => simp [fragments]
  | cons v rest ih =>
    simp only [List.cons_append, fragments_ok_cons, ih]
    constructor
    · intro h
      obtain ⟨a, -, ha, ⟨b, c, hb, hc, rfl⟩, rfl⟩ := h
      exact ⟨a :: b, c, ⟨a, b, ha, hb, rfl⟩, hc, rfl⟩
    · intro h
      obtain ⟨-, c, ⟨a, b, ha, hb, rfl⟩, hc, rfl⟩ := h
      exact ⟨a, b ++ c, ha, ⟨b, c, hb, hc, rfl⟩, rfl⟩

/-! ## (3) Sections -/

theorem moduleSection_ok {o : Options} {g : Group} {text : String} :
    (moduleSection o g).result = .ok text ↔
      ∃ required optional, (fragments g.key g.required).result = .ok required ∧
        (optionalFragments o g).result = .ok optional ∧
        text = "[" ++ g.key.canonical ++ "]\n" ++ String.join required ++
          String.join (optional.map (commentOut o.style)) ++ "\n" := by
  simp [moduleSection, @eq_comm _ text]

theorem sections_ok_cons {o : Options} {g : Group} {rest : List Group} {text : String} :
    (sections o (g :: rest)).result = .ok text ↔
      ∃ first more, (moduleSection o g).result = .ok first ∧ (sections o rest).result = .ok more ∧
        text = first ++ more := by
  simp [sections, @eq_comm _ text]

theorem sections_ok_append {o : Options} {gs hs : List Group} {text : String} :
    (sections o (gs ++ hs)).result = .ok text ↔
      ∃ first more, (sections o gs).result = .ok first ∧ (sections o hs).result = .ok more ∧
        text = first ++ more := by
  induction gs generalizing text with
  | nil => simp [sections]
  | cons g rest ih =>
    simp only [List.cons_append, sections_ok_cons, ih]
    constructor
    · intro h
      obtain ⟨a, -, ha, ⟨b, c, hb, hc, rfl⟩, rfl⟩ := h
      exact ⟨a ++ b, c, ⟨a, b, ha, hb, rfl⟩, hc, by rw [String.append_assoc]⟩
    · intro h
      obtain ⟨-, c, ⟨a, b, ha, hb, rfl⟩, hc, rfl⟩ := h
      exact ⟨a, b ++ c, ha, ⟨b, c, hb, hc, rfl⟩, by rw [String.append_assoc]⟩

theorem document_ok {o : Options} {gs : List Group} {text : String} :
    (document o gs).result = .ok text ↔ (sections o gs).result = .ok text := by
  simp [document]

theorem whole_sections {o : Options} {gs : List Group} {text : String}
    (h : (sections o gs).result = .ok text) : Whole text := by
  induction gs generalizing text with
  | nil =>
    have he : "" = text := by simpa [sections] using h
    exact he ▸ whole_empty
  | cons g rest ih =>
    obtain ⟨first, more, hf, hm, rfl⟩ := sections_ok_cons.mp h
    obtain ⟨required, optional, -, -, rfl⟩ := moduleSection_ok.mp hf
    exact whole_append (whole_line _) (ih hm)

end ConfigTemplate.Template
