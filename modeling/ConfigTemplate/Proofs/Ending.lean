/-
  ConfigTemplate.Proofs.Ending — the end of a document: one more line feed changes
  nothing, and a carriage return that ends no line is in no document.

  (1) `steady_value`: values with brackets, for each number of calls. `value_covered`: the
      number does not matter where it covers the text.
  (2) `steady_statement`, `lineEnd_feed`: statements and the ends of their lines.
  (3) `statements_feed`, `statements_no_return`: whole documents.
-/
import ConfigTemplate.Proofs.Scanning

namespace ConfigTemplate.Toml

open Leftover (fed)

/-! ## (1) Values with brackets -/

theorem skipGap_feed (inComment : Bool) (cs : List Char) :
    skipGap inComment (cs ++ ['\n']) = if skipGap inComment cs = [] then [] else skipGap inComment cs ++ ['\n'] := by
  fun_induction skipGap inComment cs with
  | case1 => rfl
  | case2 inComment rest ih => simp [skipGap, ih]
  | case3 c rest hc hplain ih => simp [skipGap, hc, hplain, ih]
  | case4 c rest hc hplain => simp [skipGap, hc, hplain]
  | case5 inComment rest hcomment hc ih => simp [skipGap, hcomment, ih]
  | case6 inComment c rest hc hcomment hhash hspace ih => simp [skipGap, hc, hcomment, hhash, hspace, ih]
  | case7 inComment c rest hc hcomment hhash hspace => simp [skipGap, hc, hcomment, hhash, hspace]

theorem took_skipGap (inComment : Bool) (cs : List Char) : Took cs (skipGap inComment cs) := by
  fun_induction skipGap inComment cs with
  | case1 => exact Took.refl _
  | case2 inComment rest ih => exact ih.cons (by decide)
  | case3 c rest hc hplain ih => exact ih.cons (ne_return_of_pos isPlain_return hplain)
  | case4 c rest hc hplain => exact Took.refl _
  | case5 inComment rest hcomment hc ih => exact ih.cons (by decide)
  | case6 inComment c rest hc hcomment hhash hspace ih => exact ih.cons (isSpace_ne_return hspace)
  | case7 inComment c rest hc hcomment hhash hspace => exact Took.refl _

/-- Behind a gap, which takes the last line feed of a text with it. -/
theorem Steady.behindGap {τ : Type} [Leftover τ] {f : List Char → Option τ} (hf : Steady f) (hend : f [] = none) :
    Steady fun cs => f (skipGap false cs) := by
  intro cs
  constructor
  · intro t h
    exact (took_skipGap false cs).trans ((hf _).took t h)
  · simp only [fed, skipGap_feed]
    by_cases hgap : skipGap false cs = []
    · rw [if_pos hgap, hgap, hend]
      rfl
    · rw [if_neg hgap]
      exact (hf (skipGap false cs)).feed

/-- What follows the bracket that opens an array, in a value with the given room. -/
def scanArray (n : Nat) : Nat → List Char → Option (Data × List Char)
  | 0, _ => none
  | inner + 1, cs => (items n inner cs).map fun (ds, rest) => (.list ds true, rest)

/-- What follows the bracket that opens a table. -/
def scanTable (n : Nat) : Nat → List Char → Option (Data × List Char)
  | 0, _ => none
  | inner + 1, cs =>
    afterWord ['\x7d'] (fun rest => some (.table [] true, rest))
      (fun cs => (pairs n inner [] cs).map fun (es, rest) => (.table (dataEntries es) true, rest)) (skipSpaces cs)

/-- What follows an item and the gap behind it. -/
def afterItem (n room : Nat) (d : Data) : List Char → Option (List Data × List Char) :=
  afterWord [','] (fun rest => (items n room rest).map fun (ds, rest) => (d :: ds, rest))
    (afterWord [']'] (fun rest => some ([d], rest)) fun _ => none)

/-- What follows a binding and the blanks behind it. -/
def afterPair (n room : Nat) (es : Entries) : List Char → Option (Entries × List Char) :=
  afterWord [','] (pairs n room es) (afterWord ['\x7d'] (fun rest => some (es, rest)) fun _ => none)

theorem value_succ (n room : Nat) (cs : List Char) :
    value (n + 1) room cs =
      afterWord ['['] (scanArray n room) (afterWord ['\x7b'] (scanTable n room) scanScalar) cs := by
  cases cs with
  | nil => simp [value]
  | cons c rest =>
    by_cases hlist : c = '['
    · subst hlist
      cases room <;> simp [value, scanArray]
    by_cases htable : c = '\x7b'
    · subst htable
      cases room with
      | zero => simp [value, scanTable]
      | succ inner =>
        simp only [value, scanTable, afterWord_cons, Char.reduceEq, if_false, if_true]
        cases h : skipSpaces rest with
        | nil => simp
        | cons d more =>
          by_cases hd : d = '\x7d'
          · simp [hd]
          · simp [hd, Ne.symm hd]
    · unfold value
      simp [hlist, htable, Ne.symm hlist, Ne.symm htable]

theorem items_succ (n room : Nat) (cs : List Char) :
    items (n + 1) room cs = afterWord [']'] (fun rest => some ([], rest))
      (fun cs => (value n room cs).bind fun (d, rest) => afterItem n room d (skipGap false rest))
      (skipGap false cs) := by
  rw [items]
  split
  · rename_i rest h
    rw [h]
    simp
  · rename_i h
    rw [afterWord_other [']'] h]
    refine Option.bind_congr fun (d, rest) _ => ?_
    dsimp only
    split
    · rename_i rest' h'
      rw [h', afterItem]
      simp only [afterWord_cons, if_true]
      cases items n room rest' <;> rfl
    · rename_i rest' h'
      rw [h', afterItem]
      simp
    · rename_i hcomma hclose
      rw [afterItem, afterWord_other [','] hcomma, afterWord_other [']'] hclose]

theorem pairs_succ (n room : Nat) (es : Entries) (cs : List Char) :
    pairs (n + 1) room es cs = (scanKey cs).bind fun (key, rest) => (scanExact '=' rest).bind fun rest =>
      (value n room (skipSpaces rest)).bind fun (d, rest) => (put d key es).bind fun es =>
        afterPair n room es (skipSpaces rest) := by
  rw [pairs]
  refine Option.bind_congr fun (key, rest) _ => Option.bind_congr fun rest _ => Option.bind_congr fun (d, rest) _ =>
    Option.bind_congr fun es _ => ?_
  split
  · rename_i rest' h'
    rw [h', afterPair]
    simp
  · rename_i rest' h'
    rw [h', afterPair]
    simp
  · rename_i hcomma hclose
    rw [afterPair, afterWord_other [','] hcomma, afterWord_other ['\x7d'] hclose]

theorem value_nil (n room : Nat) : value n room [] = none := by cases n <;> rfl

/-- The induction is on the number of calls, for values, items and bindings together. -/
theorem steady_calls (n : Nat) :
    (∀ room, Steady (value n room)) ∧ (∀ room, Steady (items n room)) ∧ ∀ room es, Steady (pairs n room es) := by
  induction n with
  | zero => exact ⟨fun _ => steady_fail, fun _ => steady_fail, fun _ _ => steady_fail⟩
  | succ n ih =>
    obtain ⟨hvalue, hitems, hpairs⟩ := ih
    refine ⟨fun room => ?_, fun room => ?_, fun room es => ?_⟩
    · have harray : Steady (scanArray n room) := by
        cases room with
        | zero => exact steady_fail
        | succ inner => exact (hitems inner).map fun ds => Data.list ds true
      have htable : Steady (scanTable n room) := by
        cases room with
        | zero => exact steady_fail
        | succ inner =>
          exact ((steady_pure _).sign (by decide)
            ((hpairs inner []).map fun es => Data.table (dataEntries es) true)).behindSpaces
      exact (harray.sign (by decide) (htable.sign (by decide) steady_scalar)).congr (value_succ n room)
    · have hafter (d : Data) : Steady (afterItem n room d) :=
        ((hitems room).map (d :: ·)).sign (by decide) ((steady_pure [d]).sign (by decide) steady_fail)
      have hitem := (hvalue room).bind (steady_pair fun d => (hafter d).behindGap rfl)
      exact (((steady_pure []).sign (by decide) hitem).behindGap (by simp [value_nil])).congr (items_succ n room)
    · have hafter (es : Entries) : Steady (afterPair n room es) :=
        (hpairs room es).sign (by decide) ((steady_pure es).sign (by decide) steady_fail)
      have hpair (key : List String) := (hvalue room).behindSpaces.bind (steady_pair fun d =>
        steady_guarded (put d key es) fun es => (hafter es).behindSpaces)
      exact (steady_key.bind (steady_pair fun key => (steady_exact (by decide)).bind (hpair key))).congr
        (pairs_succ n room es)

theorem steady_value (n room : Nat) : Steady (value n room) := (steady_calls n).1 room

section Covered

/-! Two numbers of calls that both cover the text give the same. A bracket and what stands in it are two calls. -/

variable {n m room : Nat} {cs : List Char}

theorem value_congr (hitems : ∀ inner rest, rest.length < cs.length → items n inner rest = items m inner rest)
    (hpairs : ∀ inner rest, rest.length < cs.length → pairs n inner [] rest = pairs m inner [] rest) :
    value (n + 1) room cs = value (m + 1) room cs := by
  rw [value_succ, value_succ]
  refine afterWord_congr (fun rest hcs => ?_) (afterWord_congr (fun rest hcs => ?_) rfl)
  · cases room with
    | zero => rfl
    | succ inner => rw [scanArray, scanArray, hitems inner rest (by simp [hcs])]
  · cases room with
    | zero => rfl
    | succ inner =>
      have hlength := length_skipSpaces_le rest
      have hshort : (skipSpaces rest).length < cs.length := by
        rw [hcs, List.length_append]
        simp only [List.length_cons, List.length_nil]
        omega
      rw [scanTable, scanTable]
      refine afterWord_congr (fun _ _ => rfl) ?_
      dsimp only
      rw [hpairs inner (skipSpaces rest) hshort]

theorem items_congr (hvalue : ∀ rest, rest.length ≤ cs.length → value n room rest = value m room rest)
    (hitems : ∀ rest, rest.length < cs.length → items n room rest = items m room rest) :
    items (n + 1) room cs = items (m + 1) room cs := by
  have hgap := (took_skipGap false cs).length_le
  rw [items_succ, items_succ]
  refine afterWord_congr (fun _ _ => rfl) ?_
  dsimp only
  rw [hvalue _ hgap]
  refine Option.bind_congr fun (d, rest) hd => afterWord_congr (fun rest' hrest => ?_) rfl
  have hrest_le : rest.length ≤ (skipGap false cs).length := ((steady_value m room _).took _ hd).length_le
  have hgap_le := (took_skipGap false rest).length_le
  rw [hrest, List.length_append, List.length_singleton] at hgap_le
  rw [hitems rest' (by omega)]

theorem pairs_congr {es : Entries} (hvalue : ∀ rest, rest.length ≤ cs.length → value n room rest = value m room rest)
    (hpairs : ∀ es rest, rest.length < cs.length → pairs n room es rest = pairs m room es rest) :
    pairs (n + 1) room es cs = pairs (m + 1) room es cs := by
  rw [pairs_succ, pairs_succ]
  refine Option.bind_congr fun (key, rest₁) hkey => Option.bind_congr fun rest₂ hequal => ?_
  have h₁ : rest₁.length ≤ cs.length := ((steady_key _).took _ hkey).length_le
  have h₂ : rest₂.length ≤ rest₁.length := ((steady_exact (by decide) _).took _ hequal).length_le
  have h₃ := length_skipSpaces_le rest₂
  dsimp only
  rw [hvalue _ (by omega)]
  refine Option.bind_congr fun (d, rest) hd => Option.bind_congr fun es _ => afterWord_congr (fun rest' hrest => ?_) rfl
  have hrest_le : rest.length ≤ (skipSpaces rest₂).length := ((steady_value m room _).took _ hd).length_le
  have hspaces_le := length_skipSpaces_le rest
  rw [hrest, List.length_append, List.length_singleton] at hspaces_le
  exact hpairs es rest' (by omega)

end Covered

theorem calls_covered (n : Nat) :
    (∀ m room cs, 2 * cs.length + 2 ≤ n → 2 * cs.length + 2 ≤ m → value n room cs = value m room cs) ∧
    (∀ m room cs, 2 * cs.length + 3 ≤ n → 2 * cs.length + 3 ≤ m → items n room cs = items m room cs) ∧
    ∀ m room es cs, 2 * cs.length + 3 ≤ n → 2 * cs.length + 3 ≤ m → pairs n room es cs = pairs m room es cs := by
  induction n with
  | zero => exact ⟨fun _ _ _ h => by omega, fun _ _ _ h => by omega, fun _ _ _ _ h => by omega⟩
  | succ n ih =>
    obtain ⟨hvalue, hitems, hpairs⟩ := ih
    refine ⟨fun m room cs hn hm => ?_, fun m room cs hn hm => ?_, fun m room es cs hn hm => ?_⟩
    · obtain ⟨m, rfl⟩ : ∃ k, m = k + 1 := ⟨m - 1, by omega⟩
      exact value_congr (fun inner rest _ => hitems m inner rest (by omega) (by omega))
        fun inner rest _ => hpairs m inner [] rest (by omega) (by omega)
    · obtain ⟨m, rfl⟩ : ∃ k, m = k + 1 := ⟨m - 1, by omega⟩
      exact items_congr (fun rest _ => hvalue m room rest (by omega) (by omega))
        fun rest _ => hitems m room rest (by omega) (by omega)
    · obtain ⟨m, rfl⟩ : ∃ k, m = k + 1 := ⟨m - 1, by omega⟩
      exact pairs_congr (fun rest _ => hvalue m room rest (by omega) (by omega))
        fun es rest _ => hpairs m room es rest (by omega) (by omega)

theorem value_covered {n m : Nat} (room : Nat) {cs : List Char} (hn : 2 * cs.length + 2 ≤ n)
    (hm : 2 * cs.length + 2 ≤ m) : value n room cs = value m room cs := (calls_covered n).1 m room cs hn hm

/-! ## (2) Statements and line ends -/

/-- The value of a binding and the blanks in front of it. -/
def scanBound (cs : List Char) : Option (Data × List Char) := value (2 * cs.length + 2) limit (skipSpaces cs)

theorem steady_bound : Steady scanBound := by
  intro cs
  have hspaces := length_skipSpaces_le cs
  constructor
  · intro r h
    exact ((steady_spaces cs).took _ rfl).trans ((steady_value _ limit _).took r h)
  · -- the longer text is given two calls more, which the shorter does not use
    have hcover : value (2 * cs.length + 4) limit (skipSpaces cs) = value (2 * cs.length + 2) limit (skipSpaces cs) :=
      value_covered limit (by omega) (by omega)
    have hlength : 2 * (cs ++ ['\n']).length + 2 = 2 * cs.length + 4 := by
      simp
      omega
    have hfeed := (steady_value (2 * cs.length + 4) limit (skipSpaces cs)).feed
    rw [hcover] at hfeed
    simpa only [fed, scanBound, hlength, skipSpaces, dropWhile_feed (p := isSpace) rfl] using hfeed

theorem scanStatement_eq (cs : List Char) :
    scanStatement cs = afterWord ['[', '[']
      (fun rest => (scanKey rest).bind fun (key, rest) => (scanExact ']' rest).bind fun rest =>
        (scanExact ']' rest).bind fun rest => some (.row key, rest))
      (afterWord ['[']
        (fun rest => (scanKey rest).bind fun (key, rest) =>
          (scanExact ']' rest).bind fun rest => some (.table key, rest))
        fun cs => (scanKey cs).bind fun (key, rest) => (scanExact '=' rest).bind fun rest =>
          (scanBound rest).bind fun (d, rest) => some (.binding key d, rest)) cs := by
  unfold scanStatement
  split
  · rename_i rest
    change _ = afterWord _ _ _ (['[', '['] ++ rest)
    rw [afterWord_append]
    rfl
  · rename_i rest h
    rw [afterWord_other ['[', '['] (by simpa using h), afterWord_cons, if_pos rfl]
    rfl
  · rename_i h h'
    rw [afterWord_other ['[', '['] h, afterWord_other ['['] h']
    rfl

theorem steady_statement : Steady scanStatement := by
  have hclose : Steady (scanExact ']') := steady_exact (by decide)
  have hrow := steady_key.bind (steady_pair fun key => hclose.bind (hclose.bind (steady_pure (Statement.row key))))
  have htable := steady_key.bind (steady_pair fun key => hclose.bind (steady_pure (Statement.table key)))
  have hbinding := steady_key.bind (steady_pair fun key => (steady_exact (c := '=') (by decide)).bind
    (steady_bound.bind (steady_pair fun d => steady_pure (Statement.binding key d))))
  exact (hrow.word (by decide) (by decide) (htable.sign (by decide) hbinding)).congr scanStatement_eq

theorem dropComment_eq (cs : List Char) :
    some (dropComment cs) = afterWord ['#'] (fun rest => some (rest.dropWhile isPlain)) some cs := by
  unfold dropComment
  split
  · simp
  · rename_i h
    rw [afterWord_other ['#'] h]

/-- What is left of a line behind its blanks and its comment. -/
theorem steady_comment : Steady fun cs => some (dropComment (skipSpaces cs)) := by
  have hcomment : Steady fun cs : List Char => some (cs.dropWhile isPlain) := steady_dropWhile rfl rfl
  exact ((hcomment.sign (by decide) steady_self).congr dropComment_eq).behindSpaces

theorem lineEnd_feed (cs : List Char) :
    lineEnd (cs ++ ['\n']) =
      (lineEnd cs).map fun rest => if dropComment (skipSpaces cs) = [] then [] else rest ++ ['\n'] := by
  have hcomment : dropComment (skipSpaces (cs ++ ['\n'])) = dropComment (skipSpaces cs) ++ ['\n'] :=
    Option.some.inj (steady_comment cs).feed
  rw [lineEnd, lineEnd, hcomment]
  cases dropComment (skipSpaces cs) with
  | nil => rfl
  | cons c rest =>
    by_cases hc : c = '\n'
    · subst hc
      rfl
    · simp [hc]

theorem took_lineEnd {cs rest : List Char} (h : lineEnd cs = some rest) : Took cs rest := by
  refine ((steady_comment cs).took _ rfl).trans ?_
  rw [lineEnd] at h
  dsimp only [Leftover.text, id]
  split at h
  · rename_i hend
    rw [hend, Option.some.inj h]
    exact Took.refl _
  · rename_i hfeed
    rw [hfeed, Option.some.inj h]
    exact (Took.refl rest).cons (by decide)
  · cases h

theorem lineEnd_shorter {cs rest : List Char} (h : lineEnd cs = some rest) : rest = [] ∨ rest.length < cs.length := by
  have hcomment : (dropComment (skipSpaces cs)).length ≤ cs.length := ((steady_comment cs).took _ rfl).length_le
  rw [lineEnd] at h
  split at h
  · exact Or.inl (Option.some.inj h).symm
  · rename_i hfeed
    rw [hfeed, Option.some.inj h, List.length_cons] at hcomment
    exact Or.inr hcomment
  · cases h

/-! ## (3) Documents -/

/-- A statement, the end of its line, and the statements from the next line on. -/
def scanFrom (n : Nat) (cs : List Char) : Option (List Statement) :=
  (scanStatement cs).bind fun (s, rest) => ((lineEnd rest).bind (statements n)).map (s :: ·)

theorem statements_succ (n : Nat) (cs : List Char) :
    statements (n + 1) cs =
      match skipSpaces cs with
      | [] => some []
      | c :: rest =>
        if c = '\n' then statements n rest
        else if c = '#' then (lineEnd (c :: rest)).bind (statements n)
        else scanFrom n (c :: rest) := by
  rw [statements]
  cases skipSpaces cs with
  | nil => rfl
  | cons c rest =>
    by_cases hfeed : c = '\n'
    · simp [hfeed]
    by_cases hhash : c = '#'
    · simp [hhash]
    simp only [hfeed, hhash, if_false]
    split
    · simp_all
    · simp_all
    · simp_all
    · refine Option.bind_congr fun (s, rest) _ => ?_
      dsimp only
      cases lineEnd rest with
      | none => rfl
      | some rest =>
        simp only [Option.bind_eq_bind, Option.bind_some]
        cases statements n rest <;> rfl

section Feed

/-! The lines below are read alike by the induction hypothesis: each of them is shorter than the text, or nothing. -/

variable {n : Nat} (ih : ∀ cs : List Char, cs.length < n → statements (n + 1) (cs ++ ['\n']) = statements n cs)
include ih

theorem nextLine_feed {line : List Char} (hn : 0 < n) (hline : line.length ≤ n) :
    (lineEnd (line ++ ['\n'])).bind (statements (n + 1)) = (lineEnd line).bind (statements n) := by
  rw [lineEnd_feed]
  cases hend : lineEnd line with
  | none => rfl
  | some next =>
    rw [Option.map_some, Option.bind_some, Option.bind_some]
    split
    · rename_i hnone
      rw [lineEnd, hnone] at hend
      obtain rfl := Option.some.inj hend
      obtain ⟨k, rfl⟩ : ∃ k, n = k + 1 := ⟨n - 1, by omega⟩
      rfl
    · refine ih next ?_
      rcases lineEnd_shorter hend with rfl | hshort
      · exact hn
      · omega

theorem scanFrom_feed {cs : List Char} (hn : 0 < n) (hcs : cs.length ≤ n) :
    scanFrom (n + 1) (cs ++ ['\n']) = scanFrom n cs := by
  have hscan : scanStatement (cs ++ ['\n']) = (scanStatement cs).map fed := (steady_statement cs).feed
  rw [scanFrom, scanFrom, hscan]
  cases hs : scanStatement cs with
  | none => rfl
  | some r =>
    obtain ⟨s, after⟩ := r
    have hafter : after.length ≤ cs.length := ((steady_statement cs).took _ hs).length_le
    exact congrArg (Option.map (s :: ·)) (nextLine_feed ih hn (hafter.trans hcs))

end Feed

theorem statements_feed {n : Nat} {cs : List Char} (h : cs.length < n) :
    statements (n + 1) (cs ++ ['\n']) = statements n cs := by
  induction n generalizing cs with
  | zero => cases h
  | succ n ih =>
    have hspaces : skipSpaces (cs ++ ['\n']) = skipSpaces cs ++ ['\n'] := dropWhile_feed rfl cs
    have hlength := length_skipSpaces_le cs
    rw [statements_succ, statements_succ n, hspaces]
    cases hcs : skipSpaces cs with
    | nil => cases n <;> rfl
    | cons c rest =>
      rw [hcs, List.length_cons] at hlength
      have hline : (c :: rest).length ≤ n := by
        rw [List.length_cons]
        omega
      dsimp only [List.cons_append]
      split
      · exact ih (by omega)
      · split
        · exact nextLine_feed (fun _ => ih) (by omega) hline
        · exact scanFrom_feed (fun _ => ih) (by omega) hline

theorem statements_no_return {n : Nat} {cs : List Char} {ss : List Statement} (h : statements n cs = some ss) :
    '\r' ∉ cs := by
  induction n generalizing cs ss with
  | zero => cases h
  | succ n ih =>
    rw [statements_succ] at h
    have hspaces : Took cs (skipSpaces cs) := (steady_spaces cs).took _ rfl
    have hnext {line : List Char} {more : List Statement} (hmore : (lineEnd line).bind (statements n) = some more) :
        '\r' ∉ line := by
      obtain ⟨rest, hrest, hmore⟩ := Option.bind_eq_some_iff.mp hmore
      exact (took_lineEnd hrest).not_mem (ih hmore)
    refine hspaces.not_mem ?_
    cases hcs : skipSpaces cs with
    | nil => simp
    | cons c rest =>
      rw [hcs] at h
      dsimp only at h
      split at h
      · rename_i hfeed
        simpa [hfeed] using ih h
      · split at h
        · exact hnext h
        · obtain ⟨⟨s, after⟩, hs, hmore⟩ := Option.bind_eq_some_iff.mp h
          obtain ⟨more, hmore, -⟩ := Option.map_eq_some_iff.mp hmore
          exact ((steady_statement _).took _ hs).not_mem (hnext hmore)

end ConfigTemplate.Toml
