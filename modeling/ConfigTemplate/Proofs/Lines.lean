/-
  ConfigTemplate.Proofs.Lines — the lines of a text that is put together from pieces.

  (1) `Whole`: a text that ends where a line does; whole pieces make a whole text.
      `unlines`: a text from its lines.
  (2) `linesOf_append`: the lines of a whole text stay its lines when more follows.
  (3) `linesOf_unlines`: lines of one line each are read back. `no_feed_of_mem_linesOf`:
      no line has a line feed in it.
  (4) `Unpaired`: no carriage return stands right before a line feed. `unlines_linesOf`: a
      whole text is then put together again from its lines.
-/
import ConfigTemplate.Text.Lines
import Mathlib.Data.List.Chain

namespace ConfigTemplate.Text

/-! ## (1) Whole texts -/

/-- The text is empty or ends with a line feed. -/
def Whole (s : String) : Prop := s = "" ∨ ∃ t, s = t ++ "\n"

theorem whole_empty : Whole "" := Or.inl rfl

theorem whole_line (l : String) : Whole (l ++ "\n") := Or.inr ⟨l, rfl⟩

theorem whole_append {s t : String} (hs : Whole s) (ht : Whole t) : Whole (s ++ t) := by
  rcases ht with rfl | ⟨t, rfl⟩
  · simpa using hs
  · exact Or.inr ⟨s ++ t, by rw [String.append_assoc]⟩

/-- The lines, each with its line feed. -/
def unlines (ls : List String) : String := String.join (ls.map (· ++ "\n"))

theorem unlines_nil : unlines [] = "" := by simp [unlines]

theorem unlines_cons (l : String) (ls : List String) : unlines (l :: ls) = l ++ "\n" ++ unlines ls := by
  simp [unlines]

theorem unlines_append (ls ms : List String) : unlines (ls ++ ms) = unlines ls ++ unlines ms := by
  simp [unlines]

theorem whole_unlines (ls : List String) : Whole (unlines ls) := by
  induction ls with
  | nil => exact unlines_nil ▸ whole_empty
  | cons l ls ih => exact unlines_cons l ls ▸ whole_append (whole_line l) ih

/-! ## (2) Lines of a text and of what follows -/

/-- A character put in front of a text, in front of its first line. -/
def onFirst (c : Char) : List (List Char) → List (List Char)
  | [] => [[c]]
  | line :: more => (c :: line) :: more

theorem lines_cons {c : Char} {rest : List Char} (hc : c ≠ '\n') (hr : c = '\r' → rest.head? ≠ some '\n') :
    lines (c :: rest) = onFirst c (lines rest) := by
  rw [lines]
  · cases lines rest <;> rfl
  · exact hc
  · rintro more rfl rfl
    simp at hr

theorem lines_ne_nil {s : List Char} (h : s ≠ []) : lines s ≠ [] := by
  fun_cases lines s with
  | case1 => exact absurd rfl h
  | case2 | case3 | case4 | case5 => simp

theorem onFirst_append (c : Char) {lines : List (List Char)} (h : lines ≠ []) (more : List (List Char)) :
    onFirst c (lines ++ more) = onFirst c lines ++ more := by
  cases lines with
  | nil => exact absurd rfl h
  | cons line rest => rfl

theorem lines_append_feed (s t : List Char) : lines (s ++ '\n' :: t) = lines (s ++ ['\n']) ++ lines t := by
  induction s with
  | nil => simp [lines]
  | cons c rest ih =>
    by_cases hc : c = '\n'
    · simp [hc, lines, ih]
    cases rest with
    | nil =>
      by_cases hr : c = '\r'
      · simp [hr, lines]
      · simp [lines_cons hc (fun h => absurd h hr), lines, onFirst]
    | cons d more =>
      by_cases hr : c = '\r' ∧ d = '\n'
      · obtain ⟨rfl, rfl⟩ := hr
        simpa [lines] using ih
      · have hd : ∀ u, c = '\r' → (d :: u).head? ≠ some '\n' := fun u h e => hr ⟨h, by simpa using e⟩
        have hne : lines (d :: more ++ ['\n']) ≠ [] := lines_ne_nil (by simp)
        calc lines (c :: (d :: (more ++ '\n' :: t)))
            = onFirst c (lines (d :: more ++ '\n' :: t)) := lines_cons hc (hd _)
          _ = onFirst c (lines (d :: more ++ ['\n']) ++ lines t) := by rw [ih]
          _ = onFirst c (lines (d :: more ++ ['\n'])) ++ lines t := onFirst_append c hne (lines t)
          _ = lines (c :: (d :: (more ++ ['\n']))) ++ lines t := by rw [lines_cons hc (hd _)]; rfl

/-- The lines of a whole text stay its lines when more follows. -/
theorem linesOf_append {s : String} (h : Whole s) (t : String) : linesOf (s ++ t) = linesOf s ++ linesOf t := by
  rcases h with rfl | ⟨s, rfl⟩
  · simp [linesOf, lines]
  · have := lines_append_feed s.toList t.toList
    simp only [linesOf, String.toList_append, List.append_assoc] at this ⊢
    simpa using congrArg (List.map String.ofList) this

/-! ## (3) Single lines -/

/-- The text stands on one line. -/
def OneLine (l : String) : Prop := ∀ c ∈ l.toList, c ≠ '\n' ∧ c ≠ '\r'

instance (l : String) : Decidable (OneLine l) := List.decidableBAll (fun c => c ≠ '\n' ∧ c ≠ '\r') l.toList

theorem oneLine_append {l m : String} : OneLine (l ++ m) ↔ OneLine l ∧ OneLine m := by
  simp only [OneLine, String.toList_append, List.forall_mem_append]

/-- The text is read as one line when its line feed follows. -/
structure IsLine (l : String) : Prop where
  no_feed : '\n' ∉ l.toList
  no_return : l.toList.getLast? ≠ some '\r'

theorem OneLine.isLine {l : String} (h : OneLine l) : IsLine l :=
  ⟨fun hm => (h _ hm).1 rfl, fun hlast => (h _ (List.mem_of_getLast? hlast)).2 rfl⟩

theorem lines_feed {l : List Char} (hn : '\n' ∉ l) (hr : l.getLast? ≠ some '\r') : lines (l ++ ['\n']) = [l] := by
  induction l with
  | nil => rfl
  | cons c rest ih =>
    obtain ⟨hc, hrest⟩ : '\n' ≠ c ∧ '\n' ∉ rest := by simpa using hn
    cases rest with
    | nil =>
      have hc' : c ≠ '\r' := by simpa using hr
      rw [List.cons_append, lines_cons hc.symm (fun e => absurd e hc')]
      rfl
    | cons d more =>
      have hd : '\n' ≠ d := fun e => hrest (e ▸ List.mem_cons_self)
      rw [List.cons_append, lines_cons hc.symm (fun _ => by simpa using hd.symm), ih hrest (by simpa using hr)]
      rfl

theorem linesOf_line {l : String} (h : IsLine l) : linesOf (l ++ "\n") = [l] := by
  simp [linesOf, lines_feed h.no_feed h.no_return]

theorem linesOf_unlines {ls : List String} (h : ∀ l ∈ ls, IsLine l) : linesOf (unlines ls) = ls := by
  induction ls with
  | nil => simp [unlines_nil, linesOf, lines]
  | cons l ls ih =>
    rw [unlines_cons, linesOf_append (whole_line l), linesOf_line (h l (by simp)), ih fun m hm => h m (by simp [hm])]
    rfl

theorem no_feed_of_mem_lines {s line : List Char} (h : line ∈ lines s) : '\n' ∉ line := by
  fun_induction lines s generalizing line with
  | case1 => simp at h
  | case2 rest ih =>
    rcases List.mem_cons.mp h with rfl | h
    · simp
    · exact ih h
  | case3 rest ih =>
    rcases List.mem_cons.mp h with rfl | h
    · simp
    · exact ih h
  | case4 c rest hc hr hl ih =>
    obtain rfl : line = [c] := by simpa using h
    simpa [eq_comm] using hc
  | case5 c rest hc hr first more hl ih =>
    rcases List.mem_cons.mp h with rfl | h
    · have hf := ih (hl ▸ List.mem_cons_self)
      simpa [eq_comm] using ⟨hc, hf⟩
    · exact ih (by simp [hl, h])

theorem no_feed_of_mem_linesOf {s line : String} (h : line ∈ linesOf s) : '\n' ∉ line.toList := by
  obtain ⟨l, hl, rfl⟩ := List.mem_map.mp h
  rw [String.toList_ofList]
  exact no_feed_of_mem_lines hl

/-! ## (4) A text from its lines -/

/-- `b` nowhere stands right behind `a`. -/
def Apart (a b : Char) (s : List Char) : Prop := s.IsChain fun c d => ¬ (c = a ∧ d = b)

instance (a b : Char) (s : List Char) : Decidable (Apart a b s) :=
  inferInstanceAs (Decidable (s.IsChain fun c d => ¬ (c = a ∧ d = b)))

theorem apart_append {a b : Char} {s t : List Char} :
    Apart a b (s ++ t) ↔ Apart a b s ∧ Apart a b t ∧ ¬ (s.getLast? = some a ∧ t.head? = some b) := by
  unfold Apart
  rw [List.isChain_append]
  refine and_congr_right fun _ => and_congr_right fun _ => ?_
  cases s.getLast? <;> cases t.head? <;> simp

theorem apart_of_not_mem {a b : Char} {s : List Char} (h : b ∉ s) : Apart a b s := by
  induction s with
  | nil => exact List.isChain_nil
  | cons c rest ih =>
    obtain ⟨-, hrest⟩ : b ≠ c ∧ b ∉ rest := by simpa using h
    refine List.isChain_cons.mpr ⟨fun d hd hpair => hrest ?_, ih hrest⟩
    exact hpair.2 ▸ List.mem_of_mem_head? hd

/-- No carriage return stands right before a line feed. -/
def Unpaired (s : String) : Prop := Apart '\r' '\n' s.toList

instance (s : String) : Decidable (Unpaired s) := inferInstanceAs (Decidable (Apart '\r' '\n' s.toList))

theorem unpaired_append {s t : String} :
    Unpaired (s ++ t) ↔
      Unpaired s ∧ Unpaired t ∧ ¬ (s.toList.getLast? = some '\r' ∧ t.toList.head? = some '\n') := by
  unfold Unpaired
  rw [String.toList_append, apart_append]

theorem toList_unlines (ls : List String) : (unlines ls).toList = ls.flatMap fun l => l.toList ++ ['\n'] := by
  have hfeed : "\n".toList = ['\n'] := rfl
  induction ls with
  | nil => simp [unlines_nil]
  | cons l ls ih => simp [unlines_cons, ih, hfeed]

theorem flatMap_lines {s : List Char} (hwhole : s = [] ∨ s.getLast? = some '\n') (h : Apart '\r' '\n' s) :
    (lines s).flatMap (· ++ ['\n']) = s := by
  have tail : ∀ {c : Char} {rest : List Char}, c :: rest = [] ∨ (c :: rest).getLast? = some '\n' →
      rest = [] ∨ rest.getLast? = some '\n' := by
    intro c rest hwhole
    cases rest with
    | nil => exact Or.inl rfl
    | cons d more => exact Or.inr (by simpa using hwhole)
  fun_induction lines s with
  | case1 => rfl
  | case2 rest ih =>
    rw [List.flatMap_cons, ih (tail hwhole) (List.isChain_cons.mp h).2]
    rfl
  | case3 rest ih => exact absurd ⟨rfl, rfl⟩ ((List.isChain_cons.mp h).1 '\n' rfl)
  | case4 c rest hc hr hl ih =>
    -- nothing follows, so the text does not end with a line feed
    obtain rfl : rest = [] := by
      by_contra hne
      exact lines_ne_nil hne hl
    exact absurd (by simpa using hwhole) hc
  | case5 c rest hc hr line more hl ih =>
    have hrest := ih (tail hwhole) (List.isChain_cons.mp h).2
    rw [hl, List.flatMap_cons] at hrest
    rw [List.flatMap_cons, List.cons_append, List.cons_append, hrest]

/-- A whole text without pairs is made of its lines. -/
theorem unlines_linesOf {s : String} (hwhole : Whole s) (h : Unpaired s) : unlines (linesOf s) = s := by
  have hend : s.toList = [] ∨ s.toList.getLast? = some '\n' := by
    have hfeed : "\n".toList = ['\n'] := rfl
    rcases hwhole with rfl | ⟨t, rfl⟩
    · exact Or.inl rfl
    · exact Or.inr (by simp [hfeed])
  rw [← String.toList_inj, toList_unlines, linesOf, List.flatMap_map]
  simpa using flatMap_lines hend h

theorem isLine_of_mem_linesOf {s l : String} (hwhole : Whole s) (h : Unpaired s) (hl : l ∈ linesOf s) : IsLine l := by
  refine ⟨no_feed_of_mem_linesOf hl, fun hlast => ?_⟩
  obtain ⟨before, after, hls⟩ := List.append_of_mem hl
  have hs := unlines_linesOf hwhole h
  rw [hls, unlines_append, unlines_cons] at hs
  rw [← hs, unpaired_append, unpaired_append, unpaired_append] at h
  exact h.2.1.1.2.2 ⟨hlast, rfl⟩

end ConfigTemplate.Text
