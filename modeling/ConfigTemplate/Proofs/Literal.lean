/-
  ConfigTemplate.Proofs.Literal — values of one line, as they are read back.

  (1) `Ends`: the characters that end a value. `Numeral`: decimal digits that do not start
      with a zero. `not_moment`: a row of digits before anything but a dash or a colon
      starts no date and no time of day.
  (2) `scanNumber_integer`, `scanNumber_fraction`: the numbers that numerals write.
  (3) `Literal`: a flag, a number or a text, as it is written and as it is read.
      `Literal.Plain.scanScalar`: what is written is read, whatever ends it.
  (4) `value_row`: an array of literals. `value_table`: a table in line is its pairs.
-/
import ConfigTemplate.Toml.Value

namespace ConfigTemplate.Toml

open Decimal (nearestDecimal)
open Text (isDigit digitValue natural)

/-! ## (1) Rows of digits -/

/-- The character ends a value: a blank, a line end, or what stands between items. -/
def Ends (c : Char) : Prop := c = ' ' ∨ c = '\n' ∨ c = ',' ∨ c = ']'

/-- Digits that write a number: at least one, and the first is not a zero. -/
structure Numeral (ds : List Char) : Prop where
  nonempty : ds ≠ []
  digits : ∀ c ∈ ds, isDigit c = true
  first : ds.head? ≠ some '0'

instance (ds : List Char) : Decidable (Numeral ds) :=
  have := List.decidableBAll (fun c => isDigit c = true) ds
  decidable_of_iff (ds ≠ [] ∧ (∀ c ∈ ds, isDigit c = true) ∧ ds.head? ≠ some '0')
    ⟨fun h => ⟨h.1, h.2.1, h.2.2⟩, fun h => ⟨h.nonempty, h.digits, h.first⟩⟩

/-- A digit is none of the other characters. -/
theorem digit_ne {c d : Char} (h : isDigit c = true) (hd : isDigit d = false) : c ≠ d := by
  intro e
  rw [e, hd] at h
  cases h

theorem Numeral.eq_cons {ds : List Char} (h : Numeral ds) : ∃ d rest, ds = d :: rest ∧ isDigit d = true ∧ d ≠ '0' := by
  cases ds with
  | nil => exact absurd rfl h.nonempty
  | cons d rest => exact ⟨d, rest, rfl, h.digits d (by simp), by simpa using h.first⟩

theorem Ends.not_digit {c : Char} (h : Ends c) : isDigit c = false := by
  rcases h with rfl | rfl | rfl | rfl <;> rfl

theorem Ends.ne {c : Char} (h : Ends c) : c ≠ '-' ∧ c ≠ ':' := by
  rcases h with rfl | rfl | rfl | rfl <;> decide

theorem digitIn_digit {c : Char} (h : isDigit c = true) : digitIn 10 c = some (digitValue c) := by
  have hrange : '0' ≤ c ∧ c ≤ '9' := by simpa [isDigit] using h
  have hlt : digitValue c < 10 := by
    have hle : c.toNat ≤ '9'.toNat := hrange.2
    have h0 : '0'.toNat = 48 := rfl
    have h9 : '9'.toNat = 57 := rfl
    unfold digitValue
    omega
  rw [digitIn, Text.hexValue, if_pos hrange]
  exact Option.filter_some_pos (decide_eq_true hlt)

theorem moreDigits_digits {ds : List Char} {c : Char} (hds : ∀ d ∈ ds, isDigit d = true) (hc : digitIn 10 c = none)
    (hu : c ≠ '_') (rest : List Char) : moreDigits 10 (ds ++ c :: rest) = some (ds.map digitValue, c :: rest) := by
  induction ds with
  | nil =>
    rw [List.nil_append, moreDigits, if_neg hu, hc]
    · rfl
    · intro d more e
      exact absurd e hu
  | cons d ds ih =>
    have hd := hds d (by simp)
    have hunder : d ≠ '_' := digit_ne hd rfl
    rw [List.cons_append, moreDigits, if_neg hunder, digitIn_digit hd, ih fun e he => hds e (by simp [he])]
    · rfl
    · intro e more h
      exact absurd h hunder

theorem scanDigits_digits {ds : List Char} {c : Char} (hne : ds ≠ []) (hds : ∀ d ∈ ds, isDigit d = true)
    (hc : digitIn 10 c = none) (hu : c ≠ '_') (rest : List Char) :
    scanDigits 10 (ds ++ c :: rest) = some (ds.map digitValue, c :: rest) := by
  cases ds with
  | nil => exact absurd rfl hne
  | cons d ds =>
    have hmore := moreDigits_digits (fun e he => hds e (List.mem_cons_of_mem d he)) hc hu rest
    simp [scanDigits, digitIn_digit (hds d (by simp)), hmore]

theorem valueOf_digits (ds : List Char) : valueOf 10 (ds.map digitValue) = natural ds := by
  rw [valueOf, List.foldl_map]
  rfl

/-- After exactly `n` digits of a row comes a digit or the end of the row. -/
theorem no_separator {ds : List Char} {c separator : Char} (hds : ∀ d ∈ ds, isDigit d = true)
    (hc : isDigit c = false) (hne : c ≠ separator) (hsep : isDigit separator = false) (n : Nat) (rest : List Char) :
    ((scanFixed n (ds ++ c :: rest)).bind fun (_, cs) => scanExact separator cs) = none := by
  unfold scanFixed
  split
  · rename_i h
    by_cases hn : n < ds.length
    · obtain ⟨d, hd⟩ : ∃ d, ds.drop n = d :: ds.drop (n + 1) := ⟨ds[n], List.drop_eq_getElem_cons hn⟩
      have hmem : d ∈ ds := List.mem_of_mem_drop (hd ▸ List.mem_cons_self)
      have hdsep : d ≠ separator := digit_ne (hds d hmem) hsep
      simp [List.drop_append_of_le_length (Nat.le_of_lt hn), hd, scanExact, hdsep]
    by_cases hn' : n = ds.length
    · subst hn'
      simp [scanExact, hne]
    · have hmem : c ∈ (ds ++ c :: rest).take n := by
        rw [List.take_append, List.mem_append]
        obtain ⟨k, hk⟩ : ∃ k, n - ds.length = k + 1 := ⟨n - ds.length - 1, by omega⟩
        exact Or.inr (by simp [hk])
      exact absurd rfl (digit_ne (List.all_eq_true.mp h.2 c hmem) hc)
  · rfl

theorem not_moment {ds : List Char} {c : Char} (hds : ∀ d ∈ ds, isDigit d = true) (hc : isDigit c = false)
    (hdash : c ≠ '-') (hcolon : c ≠ ':') (rest : List Char) : scanMoment (ds ++ c :: rest) = none := by
  have hdate : scanDate (ds ++ c :: rest) = none := by
    have h := no_separator hds hc hdash rfl 4 rest
    unfold scanDate
    cases hyear : scanFixed 4 (ds ++ c :: rest) with
    | none => rfl
    | some year =>
      obtain ⟨n, cs⟩ := year
      have hcs : scanExact '-' cs = none := by simpa [hyear] using h
      simp [hcs]
  have htime : scanTime (ds ++ c :: rest) = none := by
    have h := no_separator hds hc hcolon rfl 2 rest
    unfold scanTime scanClock
    cases hhour : scanFixed 2 (ds ++ c :: rest) with
    | none => rfl
    | some hour =>
      obtain ⟨n, cs⟩ := hour
      have hcs : scanExact ':' cs = none := by simpa [hhour] using h
      simp [hcs]
  rw [scanMoment, hdate, htime]

/-! ## (2) Numbers -/

/-- A number without a sign is a decimal if it does not start with a zero. -/
theorem scanNumber_decimal {d : Char} {cs : List Char} (hd : isDigit d = true) (h0 : d ≠ '0') :
    scanNumber (d :: cs) = scanDecimal false (d :: cs) := by
  have hsign : scanSign (d :: cs) = (false, d :: cs) := by
    unfold scanSign
    split
    · rename_i h
      exact absurd (List.cons.inj h).1 (digit_ne hd rfl)
    · rename_i h
      exact absurd (List.cons.inj h).1 (digit_ne hd rfl)
    · rfl
  unfold scanNumber
  split
  · rename_i h
    exact absurd (List.cons.inj h).1 h0
  · rename_i h
    exact absurd (List.cons.inj h).1 h0
  · rename_i h
    exact absurd (List.cons.inj h).1 h0
  · simp only [hsign]
    split
    · rename_i h
      exact absurd (List.cons.inj h).1 (digit_ne hd rfl)
    · rename_i h
      exact absurd (List.cons.inj h).1 (digit_ne hd rfl)
    · rfl

theorem Numeral.scanNumber {ds rest : List Char} (h : Numeral ds) :
    scanNumber (ds ++ rest) = scanDecimal false (ds ++ rest) := by
  obtain ⟨d, ds, rfl, hd, h0⟩ := h.eq_cons
  exact scanNumber_decimal hd h0

theorem Numeral.scanWhole {ds : List Char} {c : Char} (h : Numeral ds) (hc : digitIn 10 c = none) (hu : c ≠ '_')
    (rest : List Char) : scanWhole (ds ++ c :: rest) = some (ds.map digitValue, c :: rest) := by
  rw [← scanDigits_digits h.nonempty h.digits hc hu rest]
  obtain ⟨d, ds, rfl, -, h0⟩ := h.eq_cons
  unfold Toml.scanWhole
  split
  · rename_i e
    exact absurd (List.cons.inj e).1 h0
  · rfl

theorem Ends.scanExponent {c : Char} (h : Ends c) (rest : List Char) :
    scanExponent (c :: rest) = some (none, c :: rest) := by
  rcases h with rfl | rfl | rfl | rfl <;> rfl

theorem Ends.scanFraction {c : Char} (h : Ends c) (rest : List Char) :
    scanFraction (c :: rest) = some ([], c :: rest) := by
  rcases h with rfl | rfl | rfl | rfl <;> rfl

theorem Ends.no_digit {c : Char} (h : Ends c) : digitIn 10 c = none ∧ c ≠ '_' := by
  rcases h with rfl | rfl | rfl | rfl <;> exact ⟨rfl, by decide⟩

theorem scanNumber_integer {ds : List Char} {c : Char} (hds : Numeral ds) (hc : Ends c)
    (hn : natural ds < Nat.pow 2 63) (rest : List Char) :
    scanNumber (ds ++ c :: rest) = some (.integer (natural ds), c :: rest) := by
  have hwhole := hds.scanWhole hc.no_digit.1 hc.no_digit.2 rest
  simp [hds.scanNumber, scanDecimal, hwhole, hc.scanFraction, hc.scanExponent, valueOf_digits, integer, hn]

theorem scanNumber_fraction {ds fs : List Char} {c : Char} {x : Decimal.Binary} (hds : Numeral ds)
    (hne : fs ≠ []) (hfs : ∀ d ∈ fs, isDigit d = true) (hc : Ends c)
    (hx : nearestDecimal (natural (ds ++ fs)) (-fs.length) = some x) (rest : List Char) :
    scanNumber (ds ++ '.' :: (fs ++ c :: rest)) = some (.double (.finite false x), c :: rest) := by
  have hwhole := hds.scanWhole (c := '.') rfl (by decide) (fs ++ c :: rest)
  have hfraction : scanFraction ('.' :: (fs ++ c :: rest)) = some (fs.map digitValue, c :: rest) :=
    scanDigits_digits hne hfs hc.no_digit.1 hc.no_digit.2 rest
  have hvalue : valueOf 10 (ds.map digitValue ++ fs.map digitValue) = natural (ds ++ fs) := by
    rw [← List.map_append, valueOf_digits]
  simp [hds.scanNumber, scanDecimal, hwhole, hfraction, hc.scanExponent, hvalue, double, hne, hx]

/-! ## (3) Literals -/

/-- The double nearest to `n · 10 ^ e`. -/
def rounded (n : Nat) (e : Int) : Data :=
  .number (match nearestDecimal n e with
    | some x => .double (.finite false x)
    | none => .tooLarge)

/-- A value that is written without brackets. -/
inductive Literal where
  | flag (b : Bool)
  | integer (digits : List Char)
  | fraction (whole places : List Char)
  | text (s : List Char)

namespace Literal

def written : Literal → List Char
  | flag true => ['t', 'r', 'u', 'e']
  | flag false => ['f', 'a', 'l', 's', 'e']
  | integer digits => digits
  | fraction whole places => whole ++ '.' :: places
  | text s => '"' :: (s ++ ['"'])

def data : Literal → Data
  | flag b => .bool b
  | integer digits => .number (.integer (natural digits))
  | fraction whole places => rounded (natural (whole ++ places)) (-places.length)
  | text s => .text (some (String.ofList s))

/-- The literal can be read back: numbers are in range, and a text needs no escapes. -/
def Plain : Literal → Prop
  | flag _ => True
  | integer digits => Numeral digits ∧ natural digits < Nat.pow 2 63
  | fraction whole places => Numeral whole ∧ places ≠ [] ∧ (∀ c ∈ places, isDigit c = true) ∧
      (nearestDecimal (natural (whole ++ places)) (-places.length)).isSome = true
  | text s => s ≠ [] ∧ ∀ c ∈ s, isPlain c = true ∧ c ≠ '"' ∧ c ≠ '\\'

instance (l : Literal) : Decidable l.Plain :=
  match l with
  | flag _ => .isTrue trivial
  | integer digits => inferInstanceAs (Decidable (Numeral digits ∧ natural digits < Nat.pow 2 63))
  | fraction whole places =>
    have := List.decidableBAll (fun c => isDigit c = true) places
    inferInstanceAs (Decidable (Numeral whole ∧ places ≠ [] ∧ (∀ c ∈ places, isDigit c = true) ∧
      (nearestDecimal (natural (whole ++ places)) (-places.length)).isSome = true))
  | text s =>
    have := List.decidableBAll (fun c => isPlain c = true ∧ c ≠ '"' ∧ c ≠ '\\') s
    inferInstanceAs (Decidable (s ≠ [] ∧ ∀ c ∈ s, isPlain c = true ∧ c ≠ '"' ∧ c ≠ '\\'))

theorem scanEscaped_plain {s rest : List Char} (hs : ∀ c ∈ s, isPlain c = true ∧ c ≠ '"' ∧ c ≠ '\\') :
    scanEscaped false .plain (s ++ '"' :: rest) = some (s, rest) := by
  induction s with
  | nil => rfl
  | cons c s ih =>
    obtain ⟨hp, hq, hb⟩ := hs c (by simp)
    have hrest := ih fun d hd => hs d (by simp [hd])
    simp [scanEscaped, hp, hq, hb, hrest, add]

theorem scanText_plain {s rest : List Char} (hne : s ≠ []) (hs : ∀ c ∈ s, isPlain c = true ∧ c ≠ '"' ∧ c ≠ '\\') :
    scanText ('"' :: (s ++ '"' :: rest)) = some (s, rest) := by
  rw [← scanEscaped_plain hs]
  cases s with
  | nil => exact absurd rfl hne
  | cons c s =>
    unfold scanText
    split
    · rename_i h
      exact absurd (List.cons.inj (List.cons.inj h).2).1 (hs c (by simp)).2.1
    · rename_i h
      rw [(List.cons.inj h).2]
    · rename_i h
      exact absurd (List.cons.inj h).1 (by decide)
    · rename_i h
      exact absurd (List.cons.inj h).1 (by decide)
    · rename_i h _ _
      exact absurd rfl (h _)

theorem scanScalar_digit {d : Char} {cs after : List Char} {n : Number} (hd : isDigit d = true)
    (hmoment : scanMoment (d :: cs) = none) (hnumber : scanNumber (d :: cs) = some (n, after)) :
    scanScalar (d :: cs) = some (.number n, after) := by
  unfold scanScalar
  split
  · rename_i h
    exact absurd (List.cons.inj h).1 (digit_ne hd rfl)
  · rename_i h
    exact absurd (List.cons.inj h).1 (digit_ne hd rfl)
  · rename_i h
    obtain ⟨rfl, rfl⟩ := List.cons.inj h
    rw [if_neg (not_or.mpr ⟨digit_ne hd rfl, digit_ne hd rfl⟩), hmoment]
    simp [hnumber]
  · rename_i h
    cases h

/-- What is written is read, whatever ends it. -/
theorem Plain.scanScalar {l : Literal} (h : l.Plain) {c : Char} (hc : Ends c) (rest : List Char) :
    scanScalar (l.written ++ c :: rest) = some (l.data, c :: rest) := by
  cases l with
  | flag b => cases b <;> rfl
  | integer digits =>
    obtain ⟨hds, hn⟩ := h
    have hmoment := not_moment hds.digits hc.not_digit hc.ne.1 hc.ne.2 rest
    have hnumber := scanNumber_integer hds hc hn rest
    obtain ⟨d, ds, rfl, hd, -⟩ := hds.eq_cons
    exact scanScalar_digit hd hmoment hnumber
  | fraction whole places =>
    obtain ⟨hds, hne, hfs, hx⟩ := h
    obtain ⟨x, hx⟩ := Option.isSome_iff_exists.mp hx
    have hmoment := not_moment (c := '.') hds.digits rfl (by decide) (by decide) (places ++ c :: rest)
    have hnumber := scanNumber_fraction hds hne hfs hc hx rest
    have hdata : (fraction whole places).data = .number (.double (.finite false x)) := by
      simp only [data, rounded, hx]
    rw [hdata, written, List.append_assoc, List.cons_append]
    obtain ⟨d, ds, rfl, hd, -⟩ := hds.eq_cons
    exact scanScalar_digit hd hmoment hnumber
  | text s =>
    have hcut : (text s).written ++ c :: rest = '"' :: (s ++ '"' :: c :: rest) := by simp [written]
    rw [hcut, Toml.scanScalar, if_pos (Or.inl rfl), scanText_plain h.1 h.2]
    · rfl
    · simp
    · simp

end Literal

/-! ## (4) Rows of literals -/

/-- The character starts a value without brackets. -/
def Starts (c : Char) : Prop := isDigit c = true ∨ c = 't' ∨ c = 'f' ∨ c = '"'

instance (c : Char) : Decidable (Starts c) := inferInstanceAs (Decidable (_ ∨ _))

theorem Starts.ne {c d : Char} (hc : Starts c) (hd : ¬ Starts d) : c ≠ d := fun e => hd (e ▸ hc)

theorem Literal.Plain.starts {l : Literal} (h : l.Plain) : ∃ c cs, l.written = c :: cs ∧ Starts c := by
  cases l with
  | flag b => cases b <;> exact ⟨_, _, rfl, by decide⟩
  | integer digits =>
    obtain ⟨d, ds, rfl, hd, -⟩ := h.1.eq_cons
    exact ⟨d, ds, rfl, Or.inl hd⟩
  | fraction whole places =>
    obtain ⟨d, ds, rfl, hd, -⟩ := h.1.eq_cons
    exact ⟨d, _, rfl, Or.inl hd⟩
  | text s => exact ⟨'"', _, rfl, by decide⟩

theorem value_scalar (n room : Nat) {c : Char} (hc : Starts c) (cs : List Char) :
    value (n + 1) room (c :: cs) = scanScalar (c :: cs) := by
  unfold value
  split
  · rename_i h
    cases h
  · rename_i h
    exact absurd (List.cons.inj h).1 (hc.ne (by decide))
  · rename_i h
    exact absurd (List.cons.inj h).1 (hc.ne (by decide))
  · rfl

theorem value_literal (n room : Nat) {l : Literal} (h : l.Plain) {c : Char} (hc : Ends c) (rest : List Char) :
    value (n + 1) room (l.written ++ c :: rest) = some (l.data, c :: rest) := by
  rw [← h.scanScalar hc rest]
  obtain ⟨d, cs, hd, hs⟩ := h.starts
  rw [hd]
  exact value_scalar n room hs _

theorem skipGap_literal {l : Literal} (h : l.Plain) (rest : List Char) :
    skipGap false (l.written ++ rest) = l.written ++ rest := by
  obtain ⟨c, cs, hc, hs⟩ := h.starts
  have hfeed := hs.ne (d := '\n') (by decide)
  have hhash := hs.ne (d := '#') (by decide)
  have hspace := hs.ne (d := ' ') (by decide)
  have htab := hs.ne (d := '\t') (by decide)
  simp [hc, skipGap, isSpace, hfeed, hhash, hspace, htab]

/-- Literals with a comma and a blank between them. -/
def row : List Literal → List Char
  | [] => []
  | [l] => l.written
  | l :: m :: rest => l.written ++ ',' :: ' ' :: row (m :: rest)

theorem items_blank (n room : Nat) (cs : List Char) : items n room (' ' :: cs) = items n room cs := by
  cases n with
  | zero => rfl
  | succ n => simp [items, skipGap, isSpace]

/-- After a literal, its comma or bracket says whether more items follow. -/
theorem items_cons (n room : Nat) {l : Literal} (h : l.Plain) {c : Char} (hc : Ends c) (rest : List Char) :
    items (n + 2) room (l.written ++ c :: rest) =
      match skipGap false (c :: rest) with
      | ',' :: rest => (items (n + 1) room rest).bind fun (ds, after) => some (l.data :: ds, after)
      | ']' :: rest => some ([l.data], rest)
      | _ => none := by
  have hvalue := value_literal n room h hc rest
  obtain ⟨d, cs, hd, hs⟩ := h.starts
  rw [items, skipGap_literal h]
  split
  · rename_i e
    rw [hd] at e
    exact absurd (List.cons.inj e).1 (hs.ne (by decide))
  · rw [hvalue]
    rfl

theorem items_literals {ls : List Literal} (hls : ∀ l ∈ ls, l.Plain) (n room : Nat) (rest : List Char) :
    items (n + ls.length + 1) room (row ls ++ ']' :: rest) = some (ls.map (·.data), rest) := by
  induction ls with
  | nil => simp [row, items, skipGap, isSpace]
  | cons l ls ih =>
    have hl := hls l (by simp)
    have hfuel : n + (l :: ls).length + 1 = n + ls.length + 2 := by simp; omega
    cases ls with
    | nil => exact items_cons n room hl (Or.inr (Or.inr (Or.inr rfl))) rest
    | cons m ls =>
      have hmore := ih fun k hk => hls k (List.mem_cons_of_mem l hk)
      have hcut : row (l :: m :: ls) ++ ']' :: rest = l.written ++ ',' :: ' ' :: (row (m :: ls) ++ ']' :: rest) := by
        simp [row]
      rw [hfuel, hcut, items_cons _ room hl (Or.inr (Or.inr (Or.inl rfl)))]
      show (items (n + (m :: ls).length + 1) room (' ' :: _)).bind _ = _
      rw [items_blank, hmore]
      rfl

theorem value_row {ls : List Literal} (hls : ∀ l ∈ ls, l.Plain) (n room : Nat) (rest : List Char) :
    value (n + ls.length + 2) (room + 1) ('[' :: (row ls ++ ']' :: rest)) = some (.list (ls.map (·.data)) true, rest) := by
  rw [value, items_literals hls]
  rfl

theorem skipSpaces_cons {c : Char} (h : isSpace c = false) (cs : List Char) : skipSpaces (c :: cs) = c :: cs := by
  simp [skipSpaces, h]

theorem value_table (n room : Nat) {c : Char} (hc : c ≠ '\x7d') (hs : isSpace c = false) (cs : List Char) :
    value (n + 1) (room + 1) ('\x7b' :: c :: cs) =
      (pairs n room [] (c :: cs)).map fun (es, rest) => (.table (dataEntries es) true, rest) := by
  unfold value
  simp only [skipSpaces_cons hs]
  split
  · rename_i h
    cases h
  · rename_i h _
    exact absurd (List.cons.inj h).1 hc
  · rename_i h _
    obtain rfl := Nat.succ.inj h
    rfl

end ConfigTemplate.Toml
