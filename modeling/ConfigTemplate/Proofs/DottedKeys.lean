/-
  ConfigTemplate.Proofs.DottedKeys — module keys written with dots and read back.

  (1) `Parted`: a text as parts with dots between them. `parted_splitText`: every text has
      such parts, one more than it has dots.
  (2) `of?_succeeds`, `of?_error_first`: names make a key when none is blank, and the first
      blank one is reported.
  (3) `ofDotted?_parts`, `ofDotted?_other`: two or three parts are names of a key, and any
      other number of parts is refused.
  (4) `canonical_of_parts`: the dotted name of the key that is read.
  (5) `dotted_keys_read_back`: which keys are read back from their dotted names, and which
      texts are read.
-/
import ConfigTemplate.Proofs.Dotted

namespace ConfigTemplate

namespace Text

/-! ## (1) Parts between dots -/

/-- The text is these parts with dots between them, and no other dot is in it. -/
structure Parted (text : String) (parts : List String) : Prop where
  joined : text = String.intercalate "." parts
  undotted : ∀ p ∈ parts, '.' ∉ p.toList

theorem not_mem_of_mem_split {sep : Char} {s part : List Char} (h : part ∈ split sep s) : sep ∉ part := by
  induction s generalizing part with
  | nil =>
    obtain rfl : part = [] := by simpa [split] using h
    simp
  | cons c rest ih =>
    rw [split] at h
    by_cases hc : c = sep
    · rw [if_pos hc] at h
      rcases List.mem_cons.mp h with rfl | h
      · simp
      · exact ih h
    · rw [if_neg hc] at h
      cases hs : split sep rest with
      | nil => exact absurd hs (split_ne_nil sep rest)
      | cons first more =>
        rw [hs] at h
        rcases List.mem_cons.mp h with rfl | h
        · have hfirst : sep ∉ first := ih (by simp [hs])
          simp [hfirst, Ne.symm hc]
        · exact ih (by simp [hs, h])

theorem parted_splitText (text : String) : Parted text (splitText '.' text) := by
  constructor
  · have hparts : (splitText '.' text).map String.toList = split '.' text.toList := by
      simp [splitText, Function.comp_def]
    have hdot : ".".toList = ['.'] := rfl
    rw [← String.toList_inj, String.toList_intercalate, hparts, hdot, intercalate_split]
  · intro p hp
    obtain ⟨part, hpart, rfl⟩ := List.mem_map.mp hp
    rw [String.toList_ofList]
    exact not_mem_of_mem_split hpart

theorem length_split (sep : Char) (s : List Char) : (split sep s).length = s.count sep + 1 := by
  induction s with
  | nil => rfl
  | cons c rest ih =>
    rw [split]
    by_cases hc : c = sep
    · rw [if_pos hc, List.length_cons, ih, hc, List.count_cons_self]
    · rw [if_neg hc, List.count_cons_of_ne hc, ← ih]
      cases hs : split sep rest with
      | nil => exact absurd hs (split_ne_nil sep rest)
      | cons first more => rfl

theorem length_splitText (text : String) : (splitText '.' text).length = text.toList.count '.' + 1 := by
  rw [splitText, List.length_map, length_split]

end Text

namespace ModuleKey

open Text (splitText splitText_undivided allBlank Parted parted_splitText length_splitText)

/-! ## (2) Names of a key -/

theorem of?_succeeds {org package : String} {module : Option String} :
    (∃ key, of? org package module = .ok key) ↔ ∀ name ∈ org :: package :: module.toList, allBlank name = false := by
  simp only [List.forall_mem_cons]
  constructor
  · intro h
    obtain ⟨key, hkey⟩ := h
    obtain ⟨rfl, rfl, hmodule⟩ := of?_ok.mp hkey
    refine ⟨key.org_named, key.package_named, fun m hm => ?_⟩
    obtain rfl : module = some m := by simpa using hm
    obtain rfl : m = key.module := hmodule
    exact key.module_named
  · intro h
    obtain ⟨horg, hpackage, hmodule⟩ := h
    cases hkey : of? org package module with
    | ok key => exact ⟨key, rfl⟩
    | error p =>
      rcases of?_error.mp hkey with ⟨hblank, -⟩ | ⟨-, hblank, -⟩ | ⟨-, -, m, rfl, hblank, -⟩
      · exact absurd hblank (by simp [horg])
      · exact absurd hblank (by simp [hpackage])
      · exact absurd hblank (by simp [hmodule m (by simp)])

/-- What is said of each name when it is blank. -/
def nameProblems : List KeyProblem := [.blankOrg, .blankPackage, .blankModule]

/-- The first blank one of some names is to blame. -/
def FirstBlank (names : List String) (p : KeyProblem) : Prop :=
  FirstOf (fun e : String × KeyProblem => allBlank e.1 = true) (fun e => allBlank e.1 = true ∧ e.2 = p)
    (names.zip nameProblems)

theorem of?_error_first {org package : String} {module : Option String} {p : KeyProblem} :
    of? org package module = .error p ↔ FirstBlank (org :: package :: module.toList) p := by
  rw [of?_error, FirstBlank]
  cases module with
  | none => simp [nameProblems, firstOf_cons, firstOf_nil, @eq_comm _ p]
  | some m => simp [nameProblems, firstOf_cons, firstOf_nil, @eq_comm _ p, and_or_left]

/-! ## (3) Reading the parts -/

/-- The text has one dot or two. -/
def FewDots (text : String) : Prop := text.toList.count '.' = 1 ∨ text.toList.count '.' = 2

theorem fewDots_iff (text : String) :
    FewDots text ↔ ∃ (org package : String) (module : Option String),
      splitText '.' text = org :: package :: module.toList := by
  have hlength := length_splitText text
  unfold FewDots
  constructor
  · intro h
    match hparts : splitText '.' text, hlength with
    | [org, package], _ => exact ⟨org, package, none, rfl⟩
    | [org, package, module], _ => exact ⟨org, package, some module, rfl⟩
    | [], hlength => simp at hlength
    | [_], hlength => simp at hlength; omega
    | _ :: _ :: _ :: _ :: _, hlength => simp at hlength; omega
  · intro h
    obtain ⟨org, package, module, hparts⟩ := h
    rw [hparts] at hlength
    cases module with
    | none => simp at hlength; omega
    | some m => simp at hlength; omega

theorem ofDotted?_parts {text org package : String} {module : Option String}
    (h : splitText '.' text = org :: package :: module.toList) : ofDotted? text = of? org package module := by
  unfold ofDotted?
  rw [h]
  cases module with
  | none => rfl
  | some m => rfl

theorem ofDotted?_other {text : String} (h : ¬ FewDots text) : ofDotted? text = .error (.malformed text) := by
  rw [fewDots_iff] at h
  unfold ofDotted?
  split
  · rename_i org package hparts
    exact absurd ⟨org, package, none, hparts⟩ h
  · rename_i org package module hparts
    exact absurd ⟨org, package, some module, hparts⟩ h
  · rfl

theorem ofDotted?_ok {text : String} {k : ModuleKey} :
    ofDotted? text = .ok k ↔ ∃ module : Option String,
      splitText '.' text = k.org :: k.package :: module.toList ∧ module.getD k.package = k.module := by
  constructor
  · intro h
    by_cases hdots : FewDots text
    · obtain ⟨org, package, module, hparts⟩ := (fewDots_iff text).mp hdots
      rw [ofDotted?_parts hparts, of?_ok] at h
      obtain ⟨rfl, rfl, hmodule⟩ := h
      exact ⟨module, hparts, hmodule⟩
    · rw [ofDotted?_other hdots] at h
      cases h
  · intro h
    obtain ⟨module, hparts, hmodule⟩ := h
    rw [ofDotted?_parts hparts, of?_ok]
    exact ⟨rfl, rfl, hmodule⟩

/-! ## (4) Dotted names -/

theorem ofDotted?_canonical (k : ModuleKey) : ofDotted? k.canonical = .ok k ↔ ∀ name ∈ k.names, '.' ∉ name.toList := by
  constructor
  · intro h
    obtain ⟨module, hparts, hmodule⟩ := ofDotted?_ok.mp h
    have hundotted := (parted_splitText k.canonical).undotted
    rw [hparts] at hundotted
    intro name hname
    apply hundotted
    rw [names] at hname
    cases hsub : k.sub with
    | none =>
      rw [hsub] at hname
      simp only [Option.toList_none, List.mem_cons, List.not_mem_nil, or_false] at hname
      rcases hname with rfl | rfl
      · simp
      · simp
    | some m =>
      -- the key's module is not its package, so the text has a third part for it
      have hm : module = some m := by
        have hkey : k.module = m := by simp [ModuleKey.module, hsub]
        have hne : m ≠ k.package := (k.sub_named m hsub).2
        cases module with
        | none => exact absurd (hkey ▸ hmodule).symm hne
        | some n => exact congrArg some (hmodule.trans hkey)
      rwa [hsub, ← hm] at hname
  · intro h
    have hparts : splitText '.' k.canonical = k.names := by
      rw [splitText_canonical, dottedParts]
      exact (List.flatMap_congr fun name hname => splitText_undivided (h name hname)).trans (by simp)
    refine ofDotted?_ok.mpr ⟨k.sub, hparts, ?_⟩
    rfl

theorem canonical_of_parts {text : String} {k : ModuleKey} (h : ofDotted? text = .ok k) :
    (∀ org package, splitText '.' text = [org, package, package] → k.canonical = org ++ "." ++ package) ∧
    ((¬ ∃ org package, splitText '.' text = [org, package, package]) → k.canonical = text) := by
  obtain ⟨module, hparts, hmodule⟩ := ofDotted?_ok.mp h
  have htext := (parted_splitText text).joined
  rw [hparts] at htext ⊢
  cases hsub : k.sub with
  | none =>
    have hroot : k.module = k.package := by simp [ModuleKey.module, hsub]
    have hcanonical : k.canonical = k.org ++ "." ++ k.package := by simp [canonical, hsub]
    rw [hroot] at hmodule
    cases module with
    | none => exact ⟨fun org package h => by simp at h, fun _ => by rw [hcanonical, htext]; rfl⟩
    | some m =>
      obtain rfl : m = k.package := hmodule
      refine ⟨fun org package h => ?_, fun h => absurd ⟨k.org, k.package, rfl⟩ h⟩
      obtain ⟨rfl, rfl⟩ : k.org = org ∧ k.package = package := by simpa using h
      exact hcanonical
  | some m =>
    have hne : m ≠ k.package := (k.sub_named m hsub).2
    have hkey : k.module = m := by simp [ModuleKey.module, hsub]
    have hcanonical : k.canonical = k.org ++ "." ++ k.package ++ "." ++ m := by simp [canonical, hsub]
    rw [hkey] at hmodule
    cases module with
    | none => exact absurd hmodule.symm hne
    | some n =>
      obtain rfl : n = m := hmodule
      refine ⟨fun org package h => ?_, fun _ => by rw [hcanonical, htext]; simp [String.append_assoc]⟩
      obtain ⟨-, rfl, rfl⟩ : k.org = org ∧ k.package = package ∧ n = package := by simpa using h
      exact absurd rfl hne

/-! ## (5) Keys and texts -/

/-- A key is read back from its dotted name exactly when no dot is in its names; its names
    make it, and tell it from other keys. A text is read as a key exactly when it has one dot
    or two and no blank part. The dotted name of this key is the text, but for a third part
    that repeats the second. Other texts are refused for the number of their parts, or else
    for the first blank part. -/
theorem dotted_keys_read_back :
    (∀ k : ModuleKey, ofDotted? k.canonical = .ok k ↔ ∀ name ∈ k.names, '.' ∉ name.toList) ∧
    (∀ k : ModuleKey, named? k.org k.package k.module = .ok k) ∧
    (∀ k l : ModuleKey, k = l ↔ k.org = l.org ∧ k.package = l.package ∧ k.module = l.module) ∧
    (∀ text, Parted text (splitText '.' text) ∧
      ((∃ k, ofDotted? text = .ok k) ↔ FewDots text ∧ ∀ part ∈ splitText '.' text, allBlank part = false) ∧
      (∀ k, ofDotted? text = .ok k →
        (∀ org package, splitText '.' text = [org, package, package] → k.canonical = org ++ "." ++ package) ∧
        ((¬ ∃ org package, splitText '.' text = [org, package, package]) → k.canonical = text)) ∧
      ∀ p, ofDotted? text = .error p ↔
        (¬ FewDots text ∧ p = .malformed text) ∨ (FewDots text ∧ FirstBlank (splitText '.' text) p)) := by
  refine ⟨ofDotted?_canonical, fun k => ?_, fun k l => ?_, fun text => ?_⟩
  · have hkey : of? k.org k.package (some k.module) = .ok k := of?_ok.mpr ⟨rfl, rfl, rfl⟩
    exact hkey
  · constructor
    · intro h
      rw [h]
      exact ⟨rfl, rfl, rfl⟩
    · intro h
      exact eq_of_names h.1 h.2.1 h.2.2
  · refine ⟨parted_splitText text, ?_, fun k => canonical_of_parts, fun p => ?_⟩
    · by_cases hdots : FewDots text
      · obtain ⟨org, package, module, hparts⟩ := (fewDots_iff text).mp hdots
        simp only [ofDotted?_parts hparts, of?_succeeds, hparts, hdots, true_and]
      · simp [ofDotted?_other hdots, hdots]
    · by_cases hdots : FewDots text
      · obtain ⟨org, package, module, hparts⟩ := (fewDots_iff text).mp hdots
        simp only [ofDotted?_parts hparts, of?_error_first, hparts, hdots, not_true_eq_false, false_and, true_and,
          false_or]
      · simp [ofDotted?_other hdots, hdots, @eq_comm _ p]

def acmeWeb : ModuleKey := ⟨"acme", "web", none, Eq.refl false, Eq.refl false, sub_named_none _⟩

/-- A third part that repeats the second is not written again. -/
theorem repeated_part_dropped :
    ofDotted? "acme.web.web" = .ok acmeWeb ∧ splitText '.' "acme.web.web" = ["acme", "web", "web"] ∧
    acmeWeb.canonical = "acme" ++ "." ++ "web" := by
  have hread : ofDotted? "acme.web.web" = .ok acmeWeb := by rfl
  have hparts : splitText '.' "acme.web.web" = ["acme", "web", "web"] := by rfl
  have hrepeated := ((dotted_keys_read_back.2.2.2 "acme.web.web").2.2.1 acmeWeb hread).1
  exact ⟨hread, hparts, hrepeated "acme" "web" hparts⟩

end ModuleKey

end ConfigTemplate
