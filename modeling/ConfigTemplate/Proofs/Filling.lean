/-
  ConfigTemplate.Proofs.Filling — what becomes of a line when its placeholders are filled.

  (1) `fillWith`: all placeholders of a line filled at once, each with what stands for
      its name. `replaceAll_written`: replacing one placeholder everywhere fills that
      name and no other.
  (2) `fillWith_next`: the names of a line are filled one after the other. As long as a
      name stands only where it stood at first (`Undisturbed`), each step fills one more
      name of the line; `fillLine_undisturbed` goes through all of them.
  (3) `undisturbed_of_length_le_one`, `undisturbed_of_no_dollar`: so it is with a single
      placeholder, and with values that have no dollar signs.
  (4) `fillLine_twice`: two placeholders can disturb each other, whatever the line.
-/
import ConfigTemplate.Proofs.Placeholder
import Mathlib.Data.List.Infix

namespace ConfigTemplate.Settings

/-! ## (1) Filling at once -/

/-- Passes over `skip` characters first. -/
def fillFrom (value : List Char → List Char) : Nat → List Char → List Char
  | _, [] => []
  | skip + 1, _ :: rest => fillFrom value skip rest
  | 0, c :: rest =>
    match placeholder? (c :: rest) with
    | some name => value name ++ fillFrom value ((written name).length - 1) rest
    | none => c :: fillFrom value 0 rest

/-- A line with `value name` for every placeholder of the line; what is put in is not looked at again. -/
def fillWith (value : List Char → List Char) (line : List Char) : List Char := fillFrom value 0 line

theorem fillFrom_drop (value : List Char → List Char) (n : Nat) (s : List Char) :
    fillFrom value n s = fillWith value (s.drop n) := by
  induction n generalizing s with
  | zero => rfl
  | succ n ih =>
    cases s with
    | nil => rfl
    | cons c rest => exact ih rest

theorem fillWith_cons {c : Char} {rest : List Char} (h : placeholder? (c :: rest) = none)
    (value : List Char → List Char) : fillWith value (c :: rest) = c :: fillWith value rest := by
  simp only [fillWith, fillFrom, h]

theorem fillWith_written {name : List Char} (h : IsName name) (value : List Char → List Char) (after : List Char) :
    fillWith value (written name ++ after) = value name ++ fillWith value after := by
  have hp := placeholder?_written h after
  rw [written_eq] at hp ⊢
  simp only [List.cons_append] at hp ⊢
  rw [fillWith, fillFrom, hp]
  simp only [fillFrom_drop, written_eq]
  simp

/-- A line without placeholders has none before a character that parts. -/
theorem no_placeholder_before {c : Char} {before : List Char} (h : placeholders (c :: before) = []) {d : Char}
    (hd : Parts d) (rest : List Char) : placeholder? (c :: (before ++ d :: rest)) = none := by
  rw [← (placeholders_cons_eq_nil.mp h).1]
  exact placeholder?_append (List.cons_ne_nil c before) hd rest

theorem fillWith_free {line : List Char} (h : placeholders line = []) (value : List Char → List Char) :
    fillWith value line = line := by
  induction line with
  | nil => rfl
  | cons c rest ih =>
    obtain ⟨hc, hrest⟩ := placeholders_cons_eq_nil.mp h
    rw [fillWith_cons hc, ih hrest]

/-- What stands before a character that parts stays, if it has no placeholders. -/
theorem fillWith_parted {before : List Char} (hbefore : placeholders before = []) {d : Char} (hd : Parts d)
    (value : List Char → List Char) (rest : List Char) :
    fillWith value (before ++ d :: rest) = before ++ fillWith value (d :: rest) := by
  induction before with
  | nil => rfl
  | cons c before ih =>
    rw [List.cons_append, fillWith_cons (no_placeholder_before hbefore hd rest),
      ih (placeholders_cons_eq_nil.mp hbefore).2, List.cons_append]

theorem fillWith_first {before name : List Char} (hbefore : placeholders before = []) (hn : IsName name)
    (value : List Char → List Char) (after : List Char) :
    fillWith value (before ++ (written name ++ after)) = before ++ (value name ++ fillWith value after) := by
  rw [← fillWith_written hn]
  exact fillWith_parted hbefore parts_dollar value _

theorem fillWith_around {name : List Char} (hn : IsName name) (value : List Char → List Char)
    (before after : List Char) :
    fillWith value (before ++ (written name ++ after)) =
      fillWith value before ++ (value name ++ fillWith value after) := by
  induction before using line_induction with
  | free before h => rw [fillWith_first h hn, fillWith_free h]
  | step b m rest hb hm ih =>
    rw [List.append_assoc, List.append_assoc, fillWith_first hb hm, ih, fillWith_first hb hm]
    simp only [List.append_assoc]

theorem fillWith_congr {value value' : List Char → List Char} {line : List Char}
    (h : ∀ name ∈ placeholders line, value name = value' name) : fillWith value line = fillWith value' line := by
  induction line using line_induction with
  | free line hline => rw [fillWith_free hline, fillWith_free hline]
  | step before name after hbefore hn ih =>
    rw [placeholders_around hn, hbefore, List.nil_append] at h
    rw [fillWith_first hbefore hn, fillWith_first hbefore hn, h name (by simp),
      ih fun m hm => h m (List.mem_cons_of_mem _ hm)]

theorem fillWith_self (line : List Char) : fillWith written line = line := by
  induction line using line_induction with
  | free line h => exact fillWith_free h written
  | step before name after hbefore hn ih => rw [fillWith_first hbefore hn, ih]

/-- The value in place of one name; the others stay. -/
def only (name value : List Char) (m : List Char) : List Char := if m = name then value else written m

theorem fillWith_only_absent {name line : List Char} (h : name ∉ placeholders line) (value : List Char) :
    fillWith (only name value) line = line := by
  have hcongr : fillWith (only name value) line = fillWith written line := by
    refine fillWith_congr fun m hm => ?_
    have hne : m ≠ name := by
      rintro rfl
      exact h hm
    simp [only, hne]
  rw [hcongr, fillWith_self]

/-! The same, by replacing. -/

theorem replaceFrom_drop (word new : List Char) (n : Nat) (s : List Char) :
    Text.replaceFrom word new n s = Text.replaceAll word new (s.drop n) := by
  induction n generalizing s with
  | zero => rfl
  | succ n ih =>
    cases s with
    | nil => rfl
    | cons c rest => exact ih rest

/-- Elsewhere than at a placeholder of the name, nothing is replaced. -/
theorem replaceAll_cons {name : List Char} (hn : IsName name) {c : Char} {rest : List Char}
    (h : placeholder? (c :: rest) ≠ some name) (value : List Char) :
    Text.replaceAll (written name) value (c :: rest) = c :: Text.replaceAll (written name) value rest := by
  have hprefix : (written name).isPrefixOf (c :: rest) = false := by
    rw [Bool.eq_false_iff]
    intro hp
    obtain ⟨after, hafter⟩ := List.isPrefixOf_iff_prefix.mp hp
    exact h (placeholder?_iff.mpr ⟨after, hafter.symm, hn⟩)
  simp only [Text.replaceAll, Text.replaceFrom, hprefix]
  rfl

theorem replaceAll_no_dollar {name s : List Char} (hn : IsName name) (h : '$' ∉ s) (value rest : List Char) :
    Text.replaceAll (written name) value (s ++ rest) = s ++ Text.replaceAll (written name) value rest := by
  induction s with
  | nil => rfl
  | cons c s ih =>
    have hc : placeholder? (c :: (s ++ rest)) ≠ some name := by
      intro hname
      exact h (by simp [placeholder?_dollar hname])
    rw [List.cons_append, replaceAll_cons hn hc, ih fun hs => h (List.mem_cons_of_mem _ hs), List.cons_append]

theorem replaceAll_at {name m : List Char} (hn : IsName name) (hm : IsName m) (value after : List Char) :
    Text.replaceAll (written name) value (written m ++ after) =
      only name value m ++ Text.replaceAll (written name) value after := by
  by_cases hmn : m = name
  · subst hmn
    have hprefix : (written m).isPrefixOf (written m ++ after) = true := by simp
    rw [only, if_pos rfl]
    rw [written_eq, List.cons_append, ← written_eq] at hprefix ⊢
    rw [Text.replaceAll, Text.replaceFrom, if_pos hprefix, replaceFrom_drop]
    congr 2
    simp [written_eq]
  · have hother : placeholder? (written m ++ after) ≠ some name := by
      rw [placeholder?_written hm]
      simpa using hmn
    rw [only, if_neg hmn]
    rw [written_eq m, List.cons_append] at hother ⊢
    rw [replaceAll_cons hn hother, replaceAll_no_dollar hn hm.dollar_not_mem_tail]
    simp

/-- Replacing a placeholder everywhere fills its name, all at once. -/
theorem replaceAll_written {name : List Char} (hn : IsName name) (value line : List Char) :
    Text.replaceAll (written name) value line = fillWith (only name value) line := by
  induction line using line_induction with
  | free line h =>
    rw [fillWith_free h]
    induction line with
    | nil => rfl
    | cons c rest ih =>
      obtain ⟨hc, hrest⟩ := placeholders_cons_eq_nil.mp h
      rw [replaceAll_cons hn (by simp [hc]), ih hrest]
  | step before m after hbefore hm ih =>
    rw [fillWith_first hbefore hm, ← ih]
    induction before with
    | nil => exact replaceAll_at hn hm value after
    | cons c before ih' =>
      have hc : placeholder? (c :: (before ++ (written m ++ after))) = none :=
        no_placeholder_before hbefore parts_dollar _
      rw [List.cons_append, replaceAll_cons hn (by simp [hc]), ih' (placeholders_cons_eq_nil.mp hbefore).2]
      rfl

/-! ## (2) Name after name -/

/-- What stands for a name: its variable's value, or the placeholder itself if the variable is not set. -/
def valueOf (env : Environment) (name : List Char) : List Char :=
  match env.get? (String.ofList name) with
  | some value => value.toList
  | none => written name

/-- A line with all its placeholders filled at once; a comment stays as it is. -/
def atOnce (env : Environment) (line : List Char) : List Char :=
  if isComment line then line else fillWith (valueOf env) line

/-- The values of the names that had their turn. -/
def upTo (env : Environment) (done : List (List Char)) (m : List Char) : List Char :=
  if m ∈ done then valueOf env m else written m

/-- Whenever the turn of a name comes, its placeholder stands only where it stood at first: nowhere if the name had
    its turn before, and else as often as in the line itself. -/
def Undisturbed (env : Environment) (line : List Char) : Prop :=
  ∀ done name rest, wanted line = done ++ name :: rest →
    (placeholders (fillWith (upTo env done) line)).count name =
      if name ∈ done then 0 else (placeholders line).count name

/-- A name that is not filled stays wherever it was. -/
theorem count_le_count_fillWith {value : List Char → List Char} {name : List Char} (hopen : value name = written name)
    (line before : List Char) :
    (placeholders line).count name ≤ (placeholders (before ++ fillWith value line)).count name := by
  induction line using line_induction generalizing before with
  | free line h => simp [h]
  | step b m after hb hm ih =>
    rw [fillWith_first hb hm, placeholders_around hm, hb, List.nil_append]
    by_cases hmn : m = name
    · subst hmn
      rw [hopen, ← List.append_assoc, placeholders_around hm, List.count_append, List.count_cons_self,
        List.count_cons_self]
      have hafter := ih []
      rw [List.nil_append] at hafter
      omega
    · rw [List.count_cons_of_ne hmn]
      simpa using ih (before ++ (b ++ value m))

/-- If a name stands nowhere else than where it was, filling it once more is filling it at first. -/
theorem fillWith_fillWith {value : List Char → List Char} {name : List Char} (hopen : value name = written name)
    (new : List Char) (line before : List Char)
    (h : (placeholders (before ++ fillWith value line)).count name ≤ (placeholders line).count name) :
    fillWith (only name new) (before ++ fillWith value line) =
      before ++ fillWith (fun m => if m = name then new else value m) line := by
  induction line using line_induction generalizing before with
  | free line hline =>
    rw [fillWith_free hline] at h ⊢
    rw [fillWith_free hline]
    refine fillWith_only_absent ?_ new
    rw [hline, List.count_nil] at h
    exact List.count_eq_zero.mp (Nat.le_zero.mp h)
  | step b m after hb hm ih =>
    rw [placeholders_around hm, hb, List.nil_append] at h
    rw [fillWith_first hb hm] at h ⊢
    rw [fillWith_first hb hm]
    by_cases hmn : m = name
    · -- The occurrence that was there: all others are behind it.
      subst hmn
      rw [hopen, ← List.append_assoc, placeholders_around hm, List.count_append, List.count_cons_self,
        List.count_cons_self] at h
      have hafter := count_le_count_fillWith hopen after []
      rw [List.nil_append] at hafter
      have hbefore : m ∉ placeholders (before ++ b) := List.count_eq_zero.mp (by omega)
      rw [hopen, ← List.append_assoc, fillWith_around hm, fillWith_only_absent hbefore, only, if_pos rfl]
      have hrest := ih [] (by rw [List.nil_append]; omega)
      rw [List.nil_append, List.nil_append] at hrest
      rw [hrest]
      simp
    · rw [List.count_cons_of_ne hmn] at h
      have hrest := ih (before ++ (b ++ value m)) (by simpa using h)
      simp only [List.append_assoc] at hrest
      rw [hrest, if_neg hmn]

/-- Before the first name has its turn, a line is as it was. -/
theorem fillWith_upTo_nil (env : Environment) (line : List Char) : fillWith (upTo env []) line = line := by
  have hcongr : fillWith (upTo env []) line = fillWith written line :=
    fillWith_congr fun m _ => by simp [upTo]
  rw [hcongr, fillWith_self]

/-- One more name has had its turn. -/
theorem fillWith_next {env : Environment} {done : List (List Char)} {name line : List Char}
    (h : (placeholders (fillWith (upTo env done) line)).count name =
      if name ∈ done then 0 else (placeholders line).count name) :
    fillWith (only name (valueOf env name)) (fillWith (upTo env done) line) =
      fillWith (upTo env (done ++ [name])) line := by
  by_cases hdone : name ∈ done
  · rw [if_pos hdone] at h
    rw [fillWith_only_absent (List.count_eq_zero.mp h)]
    refine fillWith_congr fun m _ => ?_
    have hm : m ∈ done ++ [name] ↔ m ∈ done := by
      rw [List.mem_append, List.mem_singleton]
      refine ⟨fun hm => hm.elim id ?_, Or.inl⟩
      rintro rfl
      exact hdone
    simp only [upTo, hm]
  · rw [if_neg hdone] at h
    have hopen : upTo env done name = written name := by rw [upTo, if_neg hdone]
    have hstep := fillWith_fillWith hopen (valueOf env name) line [] (by rw [List.nil_append]; exact h.le)
    rw [List.nil_append, List.nil_append] at hstep
    rw [hstep]
    refine fillWith_congr fun m _ => ?_
    by_cases hm : m = name
    · subst hm
      simp [upTo]
    · simp [upTo, hm]

theorem fillNames_cons {env : Environment} {name : List Char} (hn : IsName name) (rest : List (List Char))
    (line : List Char) :
    fillNames env (name :: rest) line = fillNames env rest (fillWith (only name (valueOf env name)) line) := by
  rw [fillNames, valueOf]
  cases env.get? (String.ofList name) with
  | some value => simp only [replaceAll_written hn]
  | none =>
    have hself : fillWith (only name (written name)) line = line := by
      have hcongr : fillWith (only name (written name)) line = fillWith written line := by
        refine fillWith_congr fun m _ => ?_
        by_cases hm : m = name <;> simp [only, hm]
      rw [hcongr, fillWith_self]
    simp only [hself]

/-- The names that are left, one after the other. -/
theorem fillNames_undisturbed {env : Environment} {line : List Char} (hcount : Undisturbed env line)
    (done rest : List (List Char)) (hsplit : wanted line = done ++ rest) (hnames : ∀ name ∈ rest, IsName name) :
    fillNames env rest (fillWith (upTo env done) line) = fillWith (upTo env (done ++ rest)) line := by
  induction rest generalizing done with
  | nil => rw [fillNames, List.append_nil]
  | cons name rest ih =>
    have hnext := fillWith_next (hcount done name rest hsplit)
    have hrest := ih (done ++ [name]) (by simp [hsplit]) fun m hm => hnames m (List.mem_cons_of_mem _ hm)
    rw [fillNames_cons (hnames name (by simp)), hnext, hrest]
    simp

theorem fillLine_undisturbed {env : Environment} {line : List Char} (h : Undisturbed env line) :
    fillLine env line = atOnce env line := by
  rw [fillLine, atOnce]
  cases hcomment : isComment line with
  | true =>
    rw [wanted, hcomment]
    rfl
  | false =>
    have hwanted := wanted_line hcomment
    have hall := fillNames_undisturbed h [] (placeholders line) hwanted fun _ => isName_of_mem
    rw [fillWith_upTo_nil, List.nil_append] at hall
    rw [if_neg Bool.false_ne_true, hwanted, hall]
    exact fillWith_congr fun m hm => by rw [upTo, if_pos hm]

/-! ## (3) Undisturbed lines -/

/-- A single placeholder has its turn at first, where it stands. -/
theorem undisturbed_of_length_le_one {line : List Char} (h : (wanted line).length ≤ 1) (env : Environment) :
    Undisturbed env line := by
  intro done name rest hsplit
  rw [hsplit, List.length_append, List.length_cons] at h
  have hdone : done = [] := List.eq_nil_of_length_eq_zero (by omega)
  subst hdone
  rw [fillWith_upTo_nil]
  simp

/-- Every dollar sign of the line starts a placeholder. -/
def Tidy (line : List Char) : Prop :=
  ∀ before after, line = before ++ '$' :: after → ∃ name, placeholder? ('$' :: after) = some name

theorem tidy_iff {line : List Char} :
    Tidy line ↔ ∀ s ∈ line.tails, s.head? = some '$' → (placeholder? s).isSome := by
  constructor
  · intro h s hs hhead
    obtain ⟨before, rfl⟩ := (List.mem_tails _ _).mp hs
    obtain ⟨after, rfl⟩ := List.head?_eq_some_iff.mp hhead
    exact Option.isSome_iff_exists.mpr (h before after rfl)
  · rintro h before after rfl
    exact Option.isSome_iff_exists.mp (h _ ((List.mem_tails _ _).mpr (List.suffix_append _ _)) rfl)

instance (line : List Char) : Decidable (Tidy line) := decidable_of_iff' _ tidy_iff

/-- What stands before the first placeholder of a tidy line has no dollar sign, and what stands behind it is tidy. -/
theorem Tidy.around {before name after : List Char} (hbefore : placeholders before = [])
    (h : Tidy (before ++ (written name ++ after))) : '$' ∉ before ∧ Tidy after := by
  constructor
  · intro hmem
    obtain ⟨start, rest, rfl⟩ := List.append_of_mem hmem
    obtain ⟨m, hm⟩ := h start (rest ++ (written name ++ after)) (by simp)
    rw [placeholders_parted parts_dollar] at hbefore
    rw [written_eq, List.cons_append, no_placeholder_before (List.append_eq_nil_iff.mp hbefore).2 parts_dollar] at hm
    cases hm
  · rintro start rest rfl
    exact h (before ++ (written name ++ start)) rest (by simp)

/-- The placeholders that stay are those of the names that are left. -/
theorem placeholders_fillWith (value : List Char → List Char) (left : List Char → Bool) {line : List Char}
    (hline : Tidy line) (hleft : ∀ name ∈ placeholders line, left name = true → value name = written name)
    (hvalue : ∀ name ∈ placeholders line, left name = false → '$' ∉ value name) :
    placeholders (fillWith value line) = (placeholders line).filter left := by
  induction line using line_induction with
  | free line h => rw [fillWith_free h, h, List.filter_nil]
  | step before name after hbefore hn ih =>
    obtain ⟨hdollar, htidy⟩ := hline.around hbefore
    rw [placeholders_around hn, hbefore, List.nil_append] at hleft hvalue ⊢
    have hrest := ih htidy (fun m hm => hleft m (List.mem_cons_of_mem _ hm))
      fun m hm => hvalue m (List.mem_cons_of_mem _ hm)
    rw [fillWith_first hbefore hn, placeholders_no_dollar hdollar, List.filter_cons]
    cases hname : left name with
    | true => rw [hleft name (by simp) hname, placeholders_written hn, hrest, if_pos rfl]
    | false => rw [placeholders_no_dollar (hvalue name (by simp) hname), hrest, if_neg Bool.false_ne_true]

theorem undisturbed_of_no_dollar {env : Environment} {line : List Char} (hline : Tidy line)
    (hvalues : ∀ name ∈ wanted line, '$' ∉ valueOf env name) : Undisturbed env line := by
  intro done name rest hsplit
  have hmem : name ∈ wanted line := by simp [hsplit]
  rw [wanted_line (not_comment hmem)] at hvalues
  have hleft : ∀ m ∈ placeholders line, decide (m ∉ done) = true → upTo env done m = written m := by
    intro m _ hm
    rw [upTo, if_neg (by simpa using hm)]
  have hfilled : ∀ m ∈ placeholders line, decide (m ∉ done) = false → '$' ∉ upTo env done m := by
    intro m hmem hm
    rw [upTo, if_pos (by simpa using hm)]
    exact hvalues m hmem
  rw [placeholders_fillWith (upTo env done) (fun m => decide (m ∉ done)) hline hleft hfilled]
  by_cases hdone : name ∈ done
  · rw [if_pos hdone, List.count_eq_zero]
    simp [hdone]
  · rw [if_neg hdone, List.count_filter (by simpa using hdone)]

/-! ## (4) Two placeholders on a line

  Every variable has the value `x` and the second placeholder, so the first one is filled a second time. -/

theorem parts_x : Parts 'x' := ⟨rfl, by decide, by decide⟩

theorem valueOf_some {env : Environment} {name value : List Char}
    (h : env.get? (String.ofList name) = some (String.ofList value)) : valueOf env name = value := by
  rw [valueOf, h]
  simp

theorem fillWith_behind {before : List Char} (hbefore : placeholders before = []) (value : List Char → List Char)
    (rest : List Char) : fillWith value (before ++ 'x' :: rest) = before ++ 'x' :: fillWith value rest := by
  have hx : placeholder? ('x' :: rest) = none := by
    rw [Option.eq_none_iff_forall_ne_some]
    intro m hm
    exact absurd (placeholder?_dollar hm) (by decide)
  rw [fillWith_parted hbefore parts_x, fillWith_cons hx]

/-- Further names do not change what stands before an `x`. -/
theorem fillNames_behind {names : List (List Char)} (hnames : ∀ name ∈ names, IsName name) (env : Environment)
    {before : List Char} (hbefore : placeholders before = []) (rest : List Char) :
    ∃ rest', fillNames env names (before ++ 'x' :: rest) = before ++ 'x' :: rest' := by
  induction names generalizing rest with
  | nil => exact ⟨rest, rfl⟩
  | cons name names ih =>
    rw [fillNames_cons (hnames name (by simp)), fillWith_behind hbefore]
    exact ih (fun m hm => hnames m (List.mem_cons_of_mem _ hm)) _

/-- The first name brings the second placeholder in, and the turn of the second name fills it again. -/
theorem fillNames_twice {env : Environment} {first second : List Char} {rest : List (List Char)}
    (hnames : ∀ name ∈ first :: second :: rest, IsName name)
    (hvalue : ∀ name ∈ first :: second :: rest, valueOf env name = 'x' :: written second)
    {before : List Char} (hbefore : placeholders before = []) (after : List Char) :
    ∃ filled, fillNames env (first :: second :: rest) (before ++ (written first ++ after)) =
      before ++ 'x' :: 'x' :: filled := by
  have hfirst := hnames first (by simp)
  have hsecond := hnames second (by simp)
  rw [fillNames_cons hfirst, hvalue first (by simp), fillWith_first hbefore hfirst, only, if_pos rfl, List.cons_append,
    fillNames_cons hsecond, hvalue second (by simp), fillWith_behind hbefore, fillWith_written hsecond, only,
    if_pos rfl, List.cons_append]
  have hbefore' : placeholders (before ++ ['x']) = [] := by
    rw [placeholders_parted parts_x, hbefore]
    rfl
  have hrest : ∀ name ∈ rest, IsName name := fun m hm => hnames m (by simp [hm])
  obtain ⟨filled, hfilled⟩ := fillNames_behind hrest env hbefore' _
  rw [List.append_assoc, List.append_assoc, List.singleton_append, List.singleton_append] at hfilled
  exact ⟨filled, hfilled⟩

/-- A line with two placeholders is not filled at once if every variable points at the second one. -/
theorem fillLine_twice {env : Environment} {line first second : List Char} {rest : List (List Char)}
    (hline : wanted line = first :: second :: rest)
    (hvalue : ∀ name ∈ wanted line, valueOf env name = 'x' :: written second) :
    ∃ before filled filledAtOnce, fillLine env line = before ++ 'x' :: 'x' :: filled ∧
      atOnce env line = before ++ 'x' :: '$' :: filledAtOnce := by
  have hfirst : first ∈ wanted line := by simp [hline]
  have hcomment : isComment line = false := not_comment hfirst
  have hwanted := wanted_line hcomment
  have hname : ∀ name ∈ wanted line, IsName name := by
    rw [hwanted]
    exact fun _ => isName_of_mem
  rw [hline] at hvalue hname
  rcases first_placeholder line with hfree | ⟨before, name, after, rfl, hbefore, hn⟩
  · rw [hwanted, hfree] at hline
    cases hline
  · obtain rfl : name = first := by
      rw [hwanted, placeholders_around hn, hbefore] at hline
      exact (List.cons.inj hline).1
    obtain ⟨filled, hfilled⟩ := fillNames_twice hname hvalue hbefore after
    refine ⟨before, filled, '\x7b' :: (second ++ ['\x7d']) ++ fillWith (valueOf env) after, ?_, ?_⟩
    · rw [fillLine, hline, hfilled]
    · rw [atOnce, hcomment, fillWith_first hbefore hn, hvalue name (by simp), written_eq]
      rfl

end ConfigTemplate.Settings
