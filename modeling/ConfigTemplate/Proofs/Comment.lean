/-
  ConfigTemplate.Proofs.Comment — optional entries commented out line by line.

  (1) `Commented`: a text of whole lines that are all comments.
      `commented_commentLines`: what stands for an optional entry is one, whatever is
      in its names.
  (2) `moduleSection_commented`, `moduleSection_without`: a section with its optional
      entries commented out, and the same section without them.
  (3) `comments_are_all_that_optional_entries_add`: the two templates differ by comment
      lines only, section by section.
-/
import ConfigTemplate.Proofs.Layout
import Mathlib.Data.List.Forall2

namespace ConfigTemplate.Template

open Text (unlines unlines_nil unlines_cons unlines_append no_feed_of_mem_linesOf)

/-! ## (1) Comments -/

/-- The text is a row of lines that all start as a comment does. -/
def Commented (s : String) : Prop :=
  ∃ ls : List String, (∀ l ∈ ls, '\n' ∉ l.toList) ∧ s = unlines (ls.map ("# " ++ ·))

theorem commented_empty : Commented "" := ⟨[], by simp, by simp [unlines_nil]⟩

theorem commented_append {s t : String} (hs : Commented s) (ht : Commented t) : Commented (s ++ t) := by
  obtain ⟨ls, hl, rfl⟩ := hs
  obtain ⟨ms, hm, rfl⟩ := ht
  refine ⟨ls ++ ms, ?_, by simp [unlines_append]⟩
  intro l h
  rcases List.mem_append.mp h with h | h
  · exact hl l h
  · exact hm l h

theorem commented_join {texts : List String} (h : ∀ s ∈ texts, Commented s) : Commented (String.join texts) := by
  induction texts with
  | nil => exact commented_empty
  | cons s rest ih =>
    rw [String.join_cons]
    exact commented_append (h s (by simp)) (ih fun t ht => h t (by simp [ht]))

theorem commented_commentLine {l : String} (h : '\n' ∉ l.toList) : Commented (commentLine l) :=
  ⟨[l], by simpa using h, by simp [commentLine, unlines_cons, unlines_nil]⟩

theorem commented_commentLines {ls : List String} (h : ∀ l ∈ ls, '\n' ∉ l.toList) : Commented (commentLines ls) := by
  cases ls with
  | nil => exact commented_empty
  | cons first rest =>
    have hfirst : '\n' ∉ (first ++ mark).toList := by
      have hm : '\n' ∉ mark.toList := by decide
      simp [String.toList_append, h first (by simp), hm]
    refine commented_append (commented_commentLine hfirst) (commented_join ?_)
    intro s hs
    obtain ⟨l, hl, rfl⟩ := List.mem_map.mp hs
    exact commented_commentLine (h l (by simp [hl]))

theorem commented_commentOut (fragment : String) : Commented (commentOut .commentEachLine fragment) :=
  commented_commentLines fun _ h => no_feed_of_mem_linesOf h

/-! ## (2) Sections with and without optional entries -/

theorem moduleSection_without {style : Style} {g : Group} {text : String} :
    (moduleSection ⟨style, false⟩ g).result = .ok text ↔
      ∃ required, (fragments g.key g.required).result = .ok required ∧
        text = "[" ++ g.key.canonical ++ "]\n" ++ String.join required ++ "\n" := by
  simp [moduleSection_ok, optionalFragments]

/-- What a section says, and its comments. -/
structure Parts (g : Group) (parts : String × String) : Prop where
  said : ∃ required, (fragments g.key g.required).result = .ok required ∧
    parts.1 = "[" ++ g.key.canonical ++ "]\n" ++ String.join required
  commented : Commented parts.2

theorem moduleSection_commented {g : Group} {text : String}
    (h : (moduleSection ⟨.commentEachLine, true⟩ g).result = .ok text) :
    ∃ parts, Parts g parts ∧ text = parts.1 ++ parts.2 ++ "\n" := by
  obtain ⟨required, optional, hreq, -, rfl⟩ := moduleSection_ok.mp h
  refine ⟨(_, _), ⟨⟨required, hreq, rfl⟩, commented_join ?_⟩, rfl⟩
  intro s hs
  obtain ⟨f, -, rfl⟩ := List.mem_map.mp hs
  exact commented_commentOut f

/-! ## (3) Templates -/

theorem sections_commented {gs : List Group} {text : String}
    (h : (sections ⟨.commentEachLine, true⟩ gs).result = .ok text) :
    ∃ parts, List.Forall₂ Parts gs parts ∧ text = String.join (parts.map fun p => p.1 ++ p.2 ++ "\n") := by
  induction gs generalizing text with
  | nil =>
    have he : "" = text := by simpa [sections] using h
    exact ⟨[], .nil, by simp [← he]⟩
  | cons g rest ih =>
    obtain ⟨first, more, hf, hm, rfl⟩ := sections_ok_cons.mp h
    obtain ⟨p, hp, rfl⟩ := moduleSection_commented hf
    obtain ⟨ps, hps, rfl⟩ := ih hm
    exact ⟨p :: ps, .cons hp hps, by simp⟩

theorem sections_without {style : Style} {gs : List Group} {parts : List (String × String)}
    (h : List.Forall₂ Parts gs parts) :
    (sections ⟨style, false⟩ gs).result = .ok (String.join (parts.map fun p => p.1 ++ "\n")) := by
  induction h with
  | nil => simp [sections]
  | cons hp _ ih =>
    obtain ⟨required, hreq, hs⟩ := hp.said
    exact sections_ok_cons.mpr ⟨_, _, moduleSection_without.mpr ⟨required, hreq, by rw [← hs]⟩, ih, by simp⟩

/-- A template with its optional entries commented out line by line is the template
    without them, with comment lines at the end of each section. -/
theorem comments_are_all_that_optional_entries_add (gs : List Group) (d : String)
    (hd : (document ⟨.commentEachLine, true⟩ gs).result = .ok d) :
    ∃ parts : List (String × String), List.Forall₂ Parts gs parts ∧
      d = String.join (parts.map fun p => p.1 ++ p.2 ++ "\n") ∧
      ∀ style, (document ⟨style, false⟩ gs).result = .ok (String.join (parts.map fun p => p.1 ++ "\n")) := by
  obtain ⟨parts, hp, hd⟩ := sections_commented (document_ok.mp hd)
  exact ⟨parts, hp, hd, fun style => document_ok.mpr (sections_without hp)⟩

/-- An optional record whose names hold line breaks, after a required number. -/
def brokenNames : Group :=
  ⟨⟨"acme", "web", none, Eq.refl false, Eq.refl false, ModuleKey.sub_named_none _⟩,
    [⟨"a\r\nb", .record [("x\ny", .scalar .int)], false⟩, ⟨"port", .scalar .int, true⟩]⟩

def brokenNamesCommented : String :=
  "[acme.web]\nport = 12 # type: int\n# [acme.web.a (optional)\n# b]\n# x\n# y = 12 # type: int\n\n"

theorem broken_names_stay_in_comments :
    (document ⟨.commentEachLine, true⟩ [brokenNames]).result = .ok brokenNamesCommented ∧
    ∃ parts : List (String × String), List.Forall₂ Parts [brokenNames] parts ∧
      brokenNamesCommented = String.join (parts.map fun p => p.1 ++ p.2 ++ "\n") ∧
      ∀ style, (document ⟨style, false⟩ [brokenNames]).result = .ok (String.join (parts.map fun p => p.1 ++ "\n")) :=
  ⟨rfl, comments_are_all_that_optional_entries_add [brokenNames] brokenNamesCommented rfl⟩

end ConfigTemplate.Template
