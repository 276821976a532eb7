/-
  ConfigTemplate.Proofs.Reading — documents read line by line.

  (1) Plain lines, and what may follow on a line: nothing or a comment ends it
      (`lineEnd_trail`).
  (2) `scanKey_dotted`: bare names between dots are read as a key, up to a character that
      continues none.
  (3) `Reads`: the lines are plain, and a text that starts with them is read as their
      statements and those of the rest. `Reads.append`, `reads_flatMap`: pieces read one
      after the other. `reads_comment`, `reads_table`, `reads_row`, `reads_binding`: one line.
  (4) `read_unlines`: a whole document is built from its lines' statements.
-/
import ConfigTemplate.Proofs.Example
import ConfigTemplate.Proofs.Scope
import ConfigTemplate.Toml.Document

namespace ConfigTemplate

open Text (unlines unlines_nil unlines_cons unlines_append OneLine)

/-! ## (1) Plain lines -/

namespace Toml

theorem plainLine_append {l m : String} : PlainLine (l ++ m) ↔ PlainLine l ∧ PlainLine m := by
  simp only [PlainLine, String.toList_append, List.forall_mem_append]

theorem PlainLine.oneLine {l : String} (h : PlainLine l) : OneLine l := by
  intro c hc
  have hp := h c hc
  refine ⟨?_, ?_⟩
  · intro e
    exact absurd (e ▸ hp) (by decide)
  · intro e
    exact absurd (e ▸ hp) (by decide)

theorem isPlain_of_isBare {c : Char} (h : isBare c = true) : isPlain c = true := by
  have between : ∀ a b : Char, 0x20 ≤ a.toNat → b.toNat < 0x7F → a ≤ c ∧ c ≤ b → isPlain c = true := by
    intro a b ha hb hc
    have hac : a.toNat ≤ c.toNat := hc.1
    have hcb : c.toNat ≤ b.toNat := hc.2
    have hlow : 0x20 ≤ c.toNat := by omega
    have hhigh : c.toNat ≠ 0x7F := by omega
    simp [isPlain, hlow, hhigh]
  simp only [isBare, Text.isDigit, Bool.or_eq_true, Bool.and_eq_true, decide_eq_true_eq] at h
  rcases h with (((h | h) | h) | rfl) | rfl
  · exact between _ _ (by decide) (by decide) h
  · exact between _ _ (by decide) (by decide) h
  · exact between _ _ (by decide) (by decide) h
  · rfl
  · rfl

end Toml

theorem BareName.plainLine {name : String} (h : BareName name) : Toml.PlainLine name :=
  fun c hc => Toml.isPlain_of_isBare (h.2 c hc)

namespace Toml

/-- Nothing, or a comment after a blank. -/
def Trail (t : String) : Prop := t = "" ∨ ∃ s, PlainLine s ∧ t = " # " ++ s

theorem lineEnd_comment {s : String} (hs : PlainLine s) (rest : List Char) :
    lineEnd ('#' :: ' ' :: (s.toList ++ '\n' :: rest)) = some rest := by
  have hdrop : dropComment (skipSpaces ('#' :: ' ' :: (s.toList ++ '\n' :: rest))) = '\n' :: rest := by
    show (' ' :: (s.toList ++ '\n' :: rest)).dropWhile isPlain = '\n' :: rest
    rw [List.dropWhile_cons_of_pos (by rfl), List.dropWhile_append_of_pos hs]
    rfl
  rw [lineEnd, hdrop]
  rfl

theorem lineEnd_trail {t : String} (ht : Trail t) (rest : List Char) :
    lineEnd (t.toList ++ '\n' :: rest) = some rest := by
  rcases ht with rfl | ⟨s, hs, rfl⟩
  · rfl
  · have hcut : (" # " ++ s).toList ++ '\n' :: rest = ' ' :: '#' :: ' ' :: (s.toList ++ '\n' :: rest) := by
      simp [String.toList_append]
    rw [hcut, ← lineEnd_comment hs rest]
    rfl

theorem Trail.plainLine {t : String} (ht : Trail t) : PlainLine t := by
  rcases ht with rfl | ⟨s, hs, rfl⟩
  · decide
  · exact plainLine_append.mpr ⟨by decide, hs⟩

/-! ## (2) Keys -/

theorem isBare_ne {c d : Char} (hc : isBare c = true) (hd : isBare d = false) : c ≠ d := by
  intro e
  rw [e, hd] at hc
  cases hc

/-- A bare name starts with a character that starts nothing else. -/
theorem bareName_cons {name : String} (h : BareName name) : ∃ c cs, name.toList = c :: cs ∧ isBare c = true := by
  cases hn : name.toList with
  | nil => exact absurd (String.toList_eq_nil_iff.mp hn) h.1
  | cons c cs => exact ⟨c, cs, rfl, h.2 c (by simp [hn])⟩

theorem isBare_not_space {c : Char} (hc : isBare c = true) : isSpace c = false := by
  simp [isSpace, isBare_ne hc (d := ' ') rfl, isBare_ne hc (d := '\t') rfl]

/-- A bare name is a part of a key if a character follows that is in no bare name. -/
theorem scanPart_name {name : String} (h : BareName name) {c : Char} (hc : isBare c = false) (rest : List Char) :
    scanPart (name.toList ++ c :: rest) = some (name.toList, c :: rest) := by
  have htake : (name.toList ++ c :: rest).takeWhile isBare = name.toList := by
    rw [List.takeWhile_append_of_pos h.2]
    simp [hc]
  have hdrop : (name.toList ++ c :: rest).dropWhile isBare = c :: rest := by
    rw [List.dropWhile_append_of_pos h.2]
    simp [hc]
  obtain ⟨d, ds, hd, hbare⟩ := bareName_cons h
  have hcut : name.toList ++ c :: rest = d :: (ds ++ c :: rest) := by simp [hd]
  unfold scanPart
  split
  · rename_i e
    exact absurd (List.cons.inj (hcut ▸ e)).1 (isBare_ne hbare rfl)
  · rename_i e
    exact absurd (List.cons.inj (hcut ▸ e)).1 (isBare_ne hbare rfl)
  · rw [htake, hdrop, if_neg (by simp [hd])]

/-- Bare names between dots are a key, up to a character that continues none. -/
theorem scanKey_dotted {names : List String} (hne : names ≠ []) (hnames : ∀ name ∈ names, BareName name) {n : Nat}
    (hn : names.length ≤ n) {c : Char} (hc : isBare c = false) {rest : List Char}
    (hdot : ∀ more, skipSpaces (c :: rest) ≠ '.' :: more) :
    scanKeyUpTo n ((String.intercalate "." names).toList ++ c :: rest) = some (names, skipSpaces (c :: rest)) := by
  -- For every number of parts allowed: each part takes one.
  induction names generalizing n with
  | nil => exact absurd rfl hne
  | cons name names ih =>
    obtain ⟨n, rfl⟩ : ∃ k, n = k + 1 := ⟨n - 1, by simp at hn; omega⟩
    have hname := hnames name (by simp)
    obtain ⟨d, ds, hd, hbare⟩ := bareName_cons hname
    have hskip : ∀ more, skipSpaces (name.toList ++ more) = name.toList ++ more := by
      intro more
      rw [hd]
      exact skipSpaces_cons (isBare_not_space hbare) (ds ++ more)
    cases names with
    | nil =>
      rw [String.intercalate_singleton, scanKeyUpTo, hskip, scanPart_name hname hc]
      -- No dot follows, so the key ends here.
      simp only [Option.bind_eq_bind, Option.bind_some]
      rw [String.ofList_toList]
      rfl
    | cons next names =>
      have hcut : (String.intercalate "." (name :: next :: names)).toList ++ c :: rest =
          name.toList ++ '.' :: ((String.intercalate "." (next :: names)).toList ++ c :: rest) := by
        simp [String.intercalate_cons_cons, String.toList_append]
      have hmore := ih (by simp) (fun m hm => hnames m (List.mem_cons_of_mem name hm)) (by simpa using hn)
      rw [hcut, scanKeyUpTo, hskip, scanPart_name hname rfl]
      show (scanKeyUpTo n ((String.intercalate "." (next :: names)).toList ++ c :: rest)).bind _ = _
      rw [hmore, Option.bind_some, String.ofList_toList]
      rfl

/-! ## (3) Lines and their statements -/

/-- The lines are plain, and in front of any text they are read as the statements. -/
structure Reads (ls : List String) (ss : List Statement) : Prop where
  plain : ∀ l ∈ ls, PlainLine l
  read : ∀ n rest, statements (n + ls.length) ((unlines ls).toList ++ rest) = (statements n rest).map (ss ++ ·)

theorem reads_nil : Reads [] [] := by
  refine ⟨by simp, fun n rest => ?_⟩
  simp [unlines_nil]

theorem Reads.append {ls ms : List String} {ss ts : List Statement} (h : Reads ls ss) (h' : Reads ms ts) :
    Reads (ls ++ ms) (ss ++ ts) := by
  refine ⟨List.forall_mem_append.mpr ⟨h.plain, h'.plain⟩, fun n rest => ?_⟩
  have hfuel : n + (ls ++ ms).length = n + ms.length + ls.length := by simp; omega
  rw [hfuel, unlines_append, String.toList_append, List.append_assoc, h.read, h'.read, Option.map_map]
  simp [Function.comp_def]

theorem reads_flatMap {as : List α} {lines : α → List String} {stated : α → List Statement}
    (h : ∀ a ∈ as, Reads (lines a) (stated a)) : Reads (as.flatMap lines) (as.flatMap stated) := by
  induction as with
  | nil => exact reads_nil
  | cons a as ih =>
    rw [List.flatMap_cons, List.flatMap_cons]
    exact (h a (by simp)).append (ih fun b hb => h b (List.mem_cons_of_mem a hb))

/-- One line, by what is read when any number of lines is left. -/
theorem reads_line {l : String} {ss : List Statement} (hl : PlainLine l)
    (h : ∀ n rest, statements (n + 1) (l.toList ++ '\n' :: rest) = (statements n rest).map (ss ++ ·)) : Reads [l] ss := by
  refine ⟨by simpa using hl, fun n rest => ?_⟩
  rw [← h n rest, unlines_cons, unlines_nil]
  simp [String.toList_append]

theorem reads_blank : Reads [""] [] := by
  refine reads_line (by decide) fun n rest => ?_
  simp [statements, skipSpaces, isSpace]

theorem reads_comment {s : String} (hs : PlainLine s) : Reads ["# " ++ s] [] := by
  refine reads_line (plainLine_append.mpr ⟨by decide, hs⟩) fun n rest => ?_
  have hcut : ("# " ++ s).toList ++ '\n' :: rest = '#' :: ' ' :: (s.toList ++ '\n' :: rest) := by
    simp [String.toList_append]
  rw [hcut]
  show (lineEnd ('#' :: ' ' :: (s.toList ++ '\n' :: rest))).bind (statements n) = _
  rw [lineEnd_comment hs rest]
  simp

/-- The character starts a statement: a header or a bare name. -/
def Opens (c : Char) : Prop := c = '[' ∨ isBare c = true

theorem Opens.no_gap {c : Char} (h : Opens c) : isSpace c = false ∧ c ≠ '\n' ∧ c ≠ '#' := by
  rcases h with rfl | h
  · exact ⟨rfl, by decide, by decide⟩
  · exact ⟨isBare_not_space h, isBare_ne h rfl, isBare_ne h rfl⟩

/-- A line with one statement on it. -/
theorem statements_cons {n : Nat} {c : Char} {cs after rest : List Char} {s : Statement} (hc : Opens c)
    (hs : scanStatement (c :: cs) = some (s, after)) (he : lineEnd after = some rest) :
    statements (n + 1) (c :: cs) = (statements n rest).map (s :: ·) := by
  obtain ⟨hspace, hfeed, hhash⟩ := hc.no_gap
  rw [statements, skipSpaces_cons hspace]
  split
  · rename_i e
    cases e
  · rename_i e
    exact absurd (List.cons.inj e).1 hfeed
  · rename_i e
    exact absurd (List.cons.inj e).1 hhash
  · rw [hs]
    show (lineEnd after).bind _ = _
    rw [he]
    cases h : statements n rest with
    | none => simp [h]
    | some more => simp [h]

/-- The names of a key, each of them bare. -/
structure Dotted (names : List String) : Prop where
  nonempty : names ≠ []
  bare : ∀ name ∈ names, BareName name
  few : names.length ≤ limit

theorem plainLine_intercalate {names : List String} (h : ∀ name ∈ names, PlainLine name) :
    PlainLine (String.intercalate "." names) := by
  induction names with
  | nil => decide
  | cons name names ih =>
    have hname := h name (by simp)
    cases names with
    | nil => rwa [String.intercalate_singleton]
    | cons next names =>
      rw [String.intercalate_cons_cons, plainLine_append, plainLine_append]
      exact ⟨⟨hname, by decide⟩, ih fun m hm => h m (List.mem_cons_of_mem name hm)⟩

theorem Dotted.plainLine {names : List String} (h : Dotted names) : PlainLine (String.intercalate "." names) :=
  plainLine_intercalate fun name hname => (h.bare name hname).plainLine

theorem Dotted.cons {names : List String} (h : Dotted names) :
    ∃ c cs, (String.intercalate "." names).toList = c :: cs ∧ isBare c = true := by
  obtain ⟨hne, hbare, -⟩ := h
  cases names with
  | nil => exact absurd rfl hne
  | cons name names =>
    obtain ⟨c, cs, hc, hb⟩ := bareName_cons (hbare name (by simp))
    cases names with
    | nil => exact ⟨c, cs, by rw [String.intercalate_singleton, hc], hb⟩
    | cons next names =>
      exact ⟨c, _, by rw [String.intercalate_cons_cons, String.toList_append, String.toList_append, hc]; rfl, hb⟩

theorem Dotted.scanKey {names : List String} (h : Dotted names) {c : Char} (hc : isBare c = false) (rest : List Char)
    (hdot : ∀ more, skipSpaces (c :: rest) ≠ '.' :: more) :
    scanKey ((String.intercalate "." names).toList ++ c :: rest) = some (names, skipSpaces (c :: rest)) :=
  scanKey_dotted h.nonempty h.bare h.few hc hdot

theorem scanStatement_table {names : List String} (h : Dotted names) (rest : List Char) :
    scanStatement ('[' :: ((String.intercalate "." names).toList ++ ']' :: rest)) = some (.table names, rest) := by
  have hkey := h.scanKey (c := ']') rfl rest (by simp [skipSpaces, isSpace])
  obtain ⟨c, cs, hc, hb⟩ := h.cons
  unfold scanStatement
  split
  · rename_i e
    rw [hc] at e
    exact absurd (List.cons.inj (List.cons.inj e).2).1 (isBare_ne hb rfl)
  · rename_i e
    rw [← (List.cons.inj e).2, hkey]
    rfl
  · rename_i e
    exact absurd rfl (e _)

theorem scanStatement_row {names : List String} (h : Dotted names) (rest : List Char) :
    scanStatement ('[' :: '[' :: ((String.intercalate "." names).toList ++ ']' :: ']' :: rest)) =
      some (.row names, rest) := by
  have hkey := h.scanKey (c := ']') rfl (']' :: rest) (by simp [skipSpaces, isSpace])
  rw [scanStatement, hkey]
  rfl

theorem scanStatement_binding {name : String} (h : BareName name) {literal : String} {d : Data} (hd : Denotes literal d)
    {c : Char} (hc : c = ' ' ∨ c = '\n') (rest : List Char) :
    scanStatement (name.toList ++ ' ' :: '=' :: ' ' :: (literal.toList ++ c :: rest)) =
      some (.binding [name] d, c :: rest) := by
  obtain ⟨b, bs, hb, hbare⟩ := bareName_cons h
  have hname : Dotted [name] := ⟨by simp, by simpa using h, by simp [limit]⟩
  have hkey := hname.scanKey (c := ' ') rfl ('=' :: ' ' :: (literal.toList ++ c :: rest))
    (by simp [skipSpaces, isSpace])
  rw [String.intercalate_singleton] at hkey
  obtain ⟨n, hn⟩ : ∃ n, 2 * (' ' :: (literal.toList ++ c :: rest)).length + 2 = n + 6 :=
    ⟨2 * literal.toList.length + 2 * rest.length, by simp; omega⟩
  have hvalue := hd.read n c rest hc
  unfold scanStatement
  split
  · rename_i e
    rw [hb] at e
    exact absurd (List.cons.inj e).1 (isBare_ne hbare rfl)
  · rename_i e
    rw [hb] at e
    exact absurd (List.cons.inj e).1 (isBare_ne hbare rfl)
  · rw [hkey]
    show (value (2 * (' ' :: (literal.toList ++ c :: rest)).length + 2) limit
      (skipSpaces (literal.toList ++ c :: rest))).bind _ = _
    rw [hn, hd.starts, hvalue]
    rfl

theorem Trail.toList_eq {t : String} (ht : Trail t) (rest : List Char) :
    ∃ c cs, (c = ' ' ∨ c = '\n') ∧ t.toList ++ '\n' :: rest = c :: cs := by
  rcases ht with rfl | ⟨s, hs, rfl⟩
  · exact ⟨_, _, Or.inr rfl, rfl⟩
  · exact ⟨' ', '#' :: ' ' :: (s.toList ++ '\n' :: rest), Or.inl rfl, by simp [String.toList_append]⟩

theorem reads_table {names : List String} (h : Dotted names) {t : String} (ht : Trail t) :
    Reads ["[" ++ String.intercalate "." names ++ "]" ++ t] [.table names] := by
  refine reads_line ?_ fun n rest => ?_
  · simp only [plainLine_append]
    exact ⟨⟨⟨by decide, h.plainLine⟩, by decide⟩, ht.plainLine⟩
  · have hcut : ("[" ++ String.intercalate "." names ++ "]" ++ t).toList ++ '\n' :: rest =
        '[' :: ((String.intercalate "." names).toList ++ ']' :: (t.toList ++ '\n' :: rest)) := by
      simp [String.toList_append]
    rw [hcut]
    exact statements_cons (Or.inl rfl) (scanStatement_table h _) (lineEnd_trail ht rest)

theorem reads_row {names : List String} (h : Dotted names) :
    Reads ["[[" ++ String.intercalate "." names ++ "]]"] [.row names] := by
  refine reads_line ?_ fun n rest => ?_
  · simp only [plainLine_append]
    exact ⟨⟨by decide, h.plainLine⟩, by decide⟩
  · have hcut : ("[[" ++ String.intercalate "." names ++ "]]").toList ++ '\n' :: rest =
        '[' :: '[' :: ((String.intercalate "." names).toList ++ ']' :: ']' :: '\n' :: rest) := by
      simp [String.toList_append]
    rw [hcut]
    exact statements_cons (Or.inl rfl) (scanStatement_row h _) rfl

theorem reads_binding {name literal t : String} {d : Data} (h : BareName name) (hd : Denotes literal d) (ht : Trail t) :
    Reads [name ++ " = " ++ literal ++ t] [.binding [name] d] := by
  refine reads_line ?_ fun n rest => ?_
  · simp only [plainLine_append]
    exact ⟨⟨⟨h.plainLine, by decide⟩, hd.plain⟩, ht.plainLine⟩
  · obtain ⟨b, bs, hb, hbare⟩ := bareName_cons h
    obtain ⟨c, cs, hc, hcs⟩ := ht.toList_eq rest
    have hcut : (name ++ " = " ++ literal ++ t).toList ++ '\n' :: rest =
        name.toList ++ ' ' :: '=' :: ' ' :: (literal.toList ++ (t.toList ++ '\n' :: rest)) := by
      simp [String.toList_append]
    have hstatement := scanStatement_binding h hd hc cs
    rw [← hcs] at hstatement
    rw [hcut]
    rw [hb, List.cons_append] at hstatement ⊢
    exact statements_cons (Or.inr hbare) hstatement (lineEnd_trail ht rest)

/-! ## (4) Whole documents -/

theorem unify_eq_self {cs : List Char} (h : '\r' ∉ cs) : unify cs = cs := by
  fun_induction unify cs with
  | case1 => rfl
  | case2 rest ih => simp at h
  | case3 c rest hc ih => rw [ih fun hr => h (by simp [hr])]

theorem length_le_unlines (ls : List String) : ls.length ≤ (unlines ls).toList.length := by
  induction ls with
  | nil => simp
  | cons l ls ih =>
    rw [unlines_cons, String.toList_append, String.toList_append, List.length_append, List.length_append]
    have : "\n".toList.length = 1 := rfl
    simp only [List.length_cons]
    omega

theorem no_return_unlines {ls : List String} (h : ∀ l ∈ ls, PlainLine l) : '\r' ∉ (unlines ls).toList := by
  induction ls with
  | nil => simp [unlines_nil]
  | cons l ls ih =>
    have hl : '\r' ∉ l.toList := fun hr => ((h l (by simp)).oneLine _ hr).2 rfl
    rw [unlines_cons]
    simpa [String.toList_append, hl] using ih fun m hm => h m (List.mem_cons_of_mem l hm)

/-- A document is what its statements build. No mark of the byte order is in front of a
    bracket. -/
theorem read_unlines {ls : List String} {ss : List Statement} (h : Reads ls ss)
    (hstart : ls = [] ∨ ∃ l rest, ls = ("[" ++ l) :: rest) :
    read (unlines ls) = (build ss).map fun es => .table (dataEntries es) true := by
  have hmark : dropMark (unlines ls).toList = (unlines ls).toList := by
    rcases hstart with rfl | ⟨l, rest, rfl⟩
    · rw [unlines_nil]
      rfl
    · have hcut : (unlines (("[" ++ l) :: rest)).toList = '[' :: (l.toList ++ '\n' :: (unlines rest).toList) := by
        simp [unlines_cons, String.toList_append]
      rw [hcut]
      rfl
  have hlen := length_le_unlines ls
  obtain ⟨k, hk⟩ : ∃ k, (unlines ls).toList.length + 1 = k + 1 + ls.length :=
    ⟨(unlines ls).toList.length - ls.length, by omega⟩
  have hread := h.read (k + 1) []
  have hdone : statements (k + 1) [] = some [] := rfl
  rw [List.append_nil, hdone, Option.map_some, List.append_nil] at hread
  rw [read, hmark, unify_eq_self (no_return_unlines h.plain), hk, hread]
  cases hbuild : build ss with
  | none => simp [hbuild]
  | some es => simp [hbuild]

end Toml

end ConfigTemplate
