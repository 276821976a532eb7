/-
  ConfigTemplate.Proofs.Scanning — the scanners of a document without brackets are steady:
  what they take has no carriage return, and one more line feed at the end of the text is left
  over.

  (1) `steady_moment`: dates and times of day.
  (2) `steady_number`: numbers.
  (3) `steady_text`: quoted texts. A line feed goes into a text on several lines, but does
      not close it.
  (4) `steady_key`, `steady_scalar`: keys, and values without brackets.
-/
import ConfigTemplate.Proofs.Steady
import ConfigTemplate.Toml.Document

namespace ConfigTemplate.Toml

open Text (isDigit hexValue)
open Leftover (fed)

/-! ## (1) Moments -/

theorem steady_fixed (n : Nat) : Steady (scanFixed n) := by
  intro cs
  constructor
  · intro r h
    unfold scanFixed at h
    split at h
    · rename_i hdigits
      obtain rfl := Option.some.inj h
      refine ⟨cs.take n, (List.take_append_drop n cs).symm, fun hmem => ?_⟩
      exact absurd (List.all_eq_true.mp hdigits.2 _ hmem) (by decide)
    · cases h
  · by_cases hn : n ≤ cs.length
    · simp only [fed, scanFixed, List.take_append_of_le_length hn, List.drop_append_of_le_length hn]
      split <;> rfl
    · -- there are too few characters, and with the line feed they are not all digits
      have hshort : ¬ (cs.take n).length = n := by
        rw [List.length_take]
        omega
      have hwhole : (cs ++ ['\n']).take n = cs ++ ['\n'] := List.take_of_length_le (by simp; omega)
      have hall : ¬ ((cs ++ ['\n']).all isDigit = true) := by
        have hfeed : isDigit '\n' = false := rfl
        simp [hfeed]
      simp only [fed, scanFixed, hwhole]
      rw [if_neg fun h => hall h.2, if_neg fun h => hshort h.1]
      rfl

theorem steady_date : Steady scanDate := by
  have hdash : Steady (scanExact '-') := steady_exact (by decide)
  have h := (steady_fixed 4).bind (steady_pair fun year => hdash.bind ((steady_fixed 2).bind (steady_pair fun month =>
    hdash.bind ((steady_fixed 2).bind (steady_pair fun day =>
      steady_self.check (1 ≤ month ∧ month ≤ 12 ∧ 1 ≤ day ∧ day ≤ daysIn year month))))))
  exact h

theorem steady_clock : Steady scanClock := by
  have hcolon : Steady (scanExact ':') := steady_exact (by decide)
  have h := (steady_fixed 2).bind (steady_pair fun hour => hcolon.bind ((steady_fixed 2).bind
    (steady_pair fun minute => steady_self.check (hour ≤ 23 ∧ minute ≤ 59))))
  exact h

/-- The digits of a fraction, at least one. -/
def dropDigits : List Char → Option (List Char)
  | [] => none
  | c :: rest => if isDigit c then some (rest.dropWhile isDigit) else none

theorem steady_dropDigits : Steady dropDigits
  | [] => steadyAt_fail rfl rfl
  | c :: rest => by
    have hmore : Steady fun cs : List Char => some (cs.dropWhile isDigit) := steady_dropWhile rfl rfl
    by_cases hc : isDigit c = true
    · refine (hmore rest).behind (ne_return_of_pos rfl hc) fun rest => ?_
      rw [dropDigits, if_pos hc]
    · exact steadyAt_refused (fun rest => by rw [dropDigits, if_neg hc]) rest

theorem dropFraction_eq (cs : List Char) :
    some (dropFraction cs) = (afterWord ['.'] dropDigits (fun _ => none) cs).elim (some cs) some := by
  match cs with
  | [] => rfl
  | [c] =>
    by_cases hc : c = '.'
    · subst hc
      rfl
    · simp [dropFraction, Ne.symm hc]
  | c :: d :: rest =>
    by_cases hc : c = '.'
    · subst hc
      by_cases hd : isDigit d = true
      · simp [dropFraction, dropDigits, hd]
      · simp [dropFraction, dropDigits, hd]
    · simp [dropFraction, hc, Ne.symm hc]

theorem steady_fraction : Steady fun cs => some (dropFraction cs) :=
  ((steady_dropDigits.sign (by decide) steady_fail).orElse steady_self steady_self).congr dropFraction_eq

theorem steady_time : Steady scanTime := by
  have hcolon : Steady (scanExact ':') := steady_exact (by decide)
  have h := steady_clock.bind (hcolon.bind ((steady_fixed 2).bind
    (steady_pair fun second => steady_fraction.check (second ≤ 60))))
  exact h

theorem scanOffset_eq (cs : List Char) :
    scanOffset cs = afterWord ['Z'] some (afterWord ['z'] some
      (afterWord ['+'] scanClock (afterWord ['-'] scanClock some))) cs := by
  cases cs with
  | nil => simp [scanOffset]
  | cons c rest =>
    simp only [scanOffset, afterWord_cons, ite_or, eq_comm (a := c)]

theorem steady_offset : Steady scanOffset :=
  (steady_self.sign (by decide) (steady_self.sign (by decide) (steady_clock.sign (by decide)
    (steady_clock.sign (by decide) steady_self)))).congr scanOffset_eq

/-- A time behind a sign that parts it from its date. -/
def timeAfterSign : List Char → Option (List Char) :=
  afterWord ['T'] scanTime (afterWord ['t'] scanTime (afterWord [' '] scanTime fun _ => none))

theorem steady_timeAfterSign : Steady timeAfterSign :=
  steady_time.sign (by decide) (steady_time.sign (by decide) (steady_time.sign (by decide) steady_fail))

theorem scanTimeOfDate_eq (cs : List Char) : scanTimeOfDate cs = (timeAfterSign cs).elim (some cs) scanOffset := by
  cases cs with
  | nil => simp [scanTimeOfDate, timeAfterSign]
  | cons c rest =>
    by_cases hc : c = 'T' ∨ c = 't' ∨ c = ' '
    · have htime : timeAfterSign (c :: rest) = scanTime rest := by
        rcases hc with rfl | rfl | rfl
        · simp [timeAfterSign]
        · simp [timeAfterSign]
        · simp [timeAfterSign]
      rw [scanTimeOfDate, if_pos hc, htime]
      cases scanTime rest <;> rfl
    · have hnone : timeAfterSign (c :: rest) = none := by
        simp only [not_or] at hc
        simp [timeAfterSign, Ne.symm hc.1, Ne.symm hc.2.1, Ne.symm hc.2.2]
      rw [scanTimeOfDate, if_neg hc, hnone]
      rfl

theorem steady_timeOfDate : Steady scanTimeOfDate :=
  (steady_timeAfterSign.orElse steady_offset steady_self).congr scanTimeOfDate_eq

theorem scanMoment_eq (cs : List Char) : scanMoment cs = (scanDate cs).elim (scanTime cs) scanTimeOfDate := by
  rw [scanMoment]
  cases scanDate cs <;> rfl

theorem steady_moment : Steady scanMoment :=
  (steady_date.orElse steady_timeOfDate steady_time).congr scanMoment_eq

/-! ## (2) Numbers -/

theorem hexValue_return : hexValue '\r' = none := by decide

theorem hexValue_feed : hexValue '\n' = none := by decide

theorem digitIn_return (base : Nat) : digitIn base '\r' = none := by
  rw [digitIn, hexValue_return]
  rfl

theorem digitIn_feed (base : Nat) : digitIn base '\n' = none := by
  rw [digitIn, hexValue_feed]
  rfl

theorem steady_moreDigits (base : Nat) : Steady (moreDigits base) := by
  intro cs
  induction cs using moreDigits.induct base with
  | case1 => exact ⟨(steady_pure [] []).took, by simp [fed, moreDigits, digitIn_feed]⟩
  | case2 c rest hd => exact steadyAt_fail (by simp [moreDigits, hd]) (by simp [fed, moreDigits, hd])
  | case3 c rest d hd ih =>
    have hpair : SteadyAt (fun cs => moreDigits base ('_' :: cs)) (c :: rest) :=
      (ih.map (d :: ·)).behind (ne_return_of_some (digitIn_return base) hd) fun rest => by simp only [moreDigits, hd]
    exact hpair.behind (by decide) fun _ => rfl
  | case4 rest hlast =>
    -- the underscore was the last character
    obtain rfl : rest = [] := by
      cases rest with
      | nil => rfl
      | cons d rest => exact absurd rfl (hlast d rest rfl)
    exact steadyAt_fail rfl (by simp [fed, moreDigits, digitIn_feed])
  | case5 c rest hpair hc hd =>
    have hstop (rest : List Char) : moreDigits base (c :: rest) = some ([], c :: rest) := by simp [moreDigits, hc, hd]
    exact ⟨fun r h => (steady_pure [] (c :: rest)).took r (hstop rest ▸ h), by
      rw [hstop rest]
      exact hstop (rest ++ ['\n'])⟩
  | case6 c rest hpair hc d hd ih =>
    exact (ih.map (d :: ·)).behind (ne_return_of_some (digitIn_return base) hd) fun rest => by simp [moreDigits, hc, hd]

theorem steady_digits (base : Nat) : Steady (scanDigits base)
  | [] => steadyAt_fail rfl (by simp [fed, scanDigits, digitIn_feed])
  | c :: rest => by
    cases hd : digitIn base c with
    | none => exact steadyAt_refused (fun rest => by simp [scanDigits, hd]) rest
    | some d =>
      have hreturn : c ≠ '\r' := ne_return_of_some (digitIn_return base) hd
      refine ((steady_moreDigits base rest).map (d :: ·)).behind hreturn fun rest => ?_
      rw [scanDigits, hd]
      cases moreDigits base rest <;> rfl

theorem scanWhole_eq (cs : List Char) :
    scanWhole cs = afterWord ['0'] (fun rest => some ([0], rest)) (scanDigits 10) cs := by
  unfold scanWhole
  split
  · simp
  · rename_i h
    exact (afterWord_other ['0'] h _ _).symm

theorem steady_whole : Steady scanWhole :=
  ((steady_pure [0]).sign (by decide) (steady_digits 10)).congr scanWhole_eq

theorem scanFraction_eq (cs : List Char) :
    scanFraction cs = afterWord ['.'] (scanDigits 10) (fun cs => some ([], cs)) cs := by
  unfold scanFraction
  split
  · simp
  · rename_i h
    rw [afterWord_other ['.'] h]

theorem steady_places : Steady scanFraction :=
  ((steady_digits 10).sign (by decide) (steady_pure [])).congr scanFraction_eq

theorem scanSign_eq (cs : List Char) :
    some (scanSign cs) =
      afterWord ['-'] (fun rest => some (true, rest))
        (afterWord ['+'] (fun rest => some (false, rest)) fun cs => some (false, cs)) cs := by
  unfold scanSign
  split
  · simp
  · simp
  · rename_i hminus hplus
    rw [afterWord_other ['-'] hminus, afterWord_other ['+'] hplus]

theorem steady_sign : Steady fun cs => some (scanSign cs) :=
  ((steady_pure true).sign (by decide) ((steady_pure false).sign (by decide) (steady_pure false))).congr scanSign_eq

/-- What follows the letter of an exponent. -/
def afterLetter (cs : List Char) : Option (Option Int × List Char) :=
  (scanDigits 10 (scanSign cs).2).map fun (ds, rest) =>
    (some (if (scanSign cs).1 then -(valueOf 10 ds : Int) else valueOf 10 ds), rest)

theorem steady_afterLetter : Steady afterLetter := by
  have h := steady_sign.bind (steady_pair fun negative => (steady_digits 10).map fun ds =>
    (some (if negative then -(valueOf 10 ds : Int) else valueOf 10 ds) : Option Int))
  exact h

theorem scanExponent_eq (cs : List Char) :
    scanExponent cs = afterWord ['e'] afterLetter (afterWord ['E'] afterLetter fun cs => some (none, cs)) cs := by
  cases cs with
  | nil => simp [scanExponent]
  | cons c rest =>
    have hletter : scanExponent (c :: rest) =
        if c = 'e' ∨ c = 'E' then afterLetter rest else some (none, c :: rest) := by
      rw [scanExponent, afterLetter]
      split
      · obtain ⟨negative, tail⟩ := scanSign rest
        dsimp only
        cases scanDigits 10 tail <;> rfl
      · rfl
    simp only [hletter, afterWord_cons, ite_or, eq_comm (a := c)]

theorem steady_exponent : Steady scanExponent :=
  (steady_afterLetter.sign (by decide) (steady_afterLetter.sign (by decide) (steady_pure none))).congr scanExponent_eq

/-- The number that the parts of a decimal make. -/
def numberOf (negative : Bool) (whole fraction : List Nat) (exponent : Option Int) : Option Number :=
  if fraction = [] ∧ exponent = none then integer negative (valueOf 10 whole)
  else double negative (valueOf 10 (whole ++ fraction)) (exponent.getD 0 - fraction.length)

theorem scanDecimal_eq (negative : Bool) (cs : List Char) :
    scanDecimal negative cs = (scanWhole cs).bind fun (whole, cs) => (scanFraction cs).bind fun (fraction, cs) =>
      (scanExponent cs).bind fun (exponent, cs) =>
        (numberOf negative whole fraction exponent).bind fun n => some (n, cs) := by
  rw [scanDecimal]
  refine Option.bind_congr fun (whole, cs) _ => Option.bind_congr fun (fraction, cs) _ =>
    Option.bind_congr fun (exponent, cs) _ => ?_
  dsimp only [numberOf]
  split <;> rfl

theorem steady_decimal (negative : Bool) : Steady (scanDecimal negative) :=
  (steady_whole.bind (steady_pair fun whole => steady_places.bind (steady_pair fun fraction =>
    steady_exponent.filterMap (numberOf negative whole fraction)))).congr (scanDecimal_eq negative)

theorem steady_based (base : Nat) : Steady (scanBased base) := by
  have h := (steady_digits base).filterMap fun ds => integer false (valueOf base ds)
  exact h

/-- A number behind its sign. -/
def scanSigned (negative : Bool) : List Char → Option (Number × List Char) :=
  afterWord ['i', 'n', 'f'] (fun rest => some (.double (.infinite negative), rest))
    (afterWord ['n', 'a', 'n'] (fun rest => some (.double .nan, rest)) (scanDecimal negative))

theorem steady_signed (negative : Bool) : Steady (scanSigned negative) :=
  (steady_pure _).word (by decide) (by decide) ((steady_pure _).word (by decide) (by decide) (steady_decimal negative))

theorem scanNumber_eq (cs : List Char) :
    scanNumber cs = afterWord ['0', 'x'] (scanBased 16) (afterWord ['0', 'o'] (scanBased 8)
      (afterWord ['0', 'b'] (scanBased 2) fun cs => scanSigned (scanSign cs).1 (scanSign cs).2)) cs := by
  unfold scanNumber
  split
  · rename_i rest
    exact (afterWord_append ['0', 'x'] rest _ _).symm
  · rename_i rest
    rw [afterWord_other ['0', 'x'] (by simp)]
    exact (afterWord_append ['0', 'o'] rest _ _).symm
  · rename_i rest
    rw [afterWord_other ['0', 'x'] (by simp), afterWord_other ['0', 'o'] (by simp)]
    exact (afterWord_append ['0', 'b'] rest _ _).symm
  · rename_i hx ho hb
    rw [afterWord_other ['0', 'x'] hx, afterWord_other ['0', 'o'] ho, afterWord_other ['0', 'b'] hb]
    obtain ⟨negative, tail⟩ := scanSign cs
    dsimp only [scanSigned]
    split
    · simp [afterWord]
    · simp [afterWord]
    · rename_i hinf hnan
      rw [afterWord_other ['i', 'n', 'f'] hinf, afterWord_other ['n', 'a', 'n'] hnan]

theorem steady_number : Steady scanNumber := by
  have hsigned := steady_sign.bind (steady_pair steady_signed)
  exact ((steady_based 16).word (by decide) (by decide) ((steady_based 8).word (by decide) (by decide)
    ((steady_based 2).word (by decide) (by decide) hsigned))).congr scanNumber_eq

/-! ## (3) Quoted texts -/

theorem isPlain_return : isPlain '\r' = false := rfl

theorem isPlain_feed : isPlain '\n' = false := rfl

theorem closing_eq (quote : Char) (cs : List Char) :
    some (closing quote cs) =
      afterWord [quote, quote] (fun rest => some ([quote, quote], rest))
        (afterWord [quote] (fun rest => some ([quote], rest)) fun cs => some ([], cs)) cs := by
  match cs with
  | [] => simp [closing, afterWord]
  | [a] =>
    by_cases ha : a = quote
    · simp [closing, afterWord, ha]
    · simp [closing, afterWord, ha, Ne.symm ha]
  | a :: b :: rest =>
    by_cases ha : a = quote
    · by_cases hb : b = quote
      · simp [closing, afterWord, ha, hb]
      · simp [closing, afterWord, ha, hb, Ne.symm hb]
    · simp [closing, afterWord, ha, Ne.symm ha]

theorem steady_closing {quote : Char} (h : quote ≠ '\n' ∧ quote ≠ '\r') : Steady fun cs => some (closing quote cs) :=
  ((steady_pure [quote, quote]).word (by simp [h.1.symm]) (by simp [h.2.symm])
    ((steady_pure [quote]).sign h (steady_pure []))).congr (closing_eq quote)

/-- The quotes that close a text on several lines, and what is read behind a quote that is not one of them. -/
theorem steadyAt_quotes (quote : Char) (h : quote ≠ '\n' ∧ quote ≠ '\r')
    {more : List Char → Option (List Char × List Char)} {rest : List Char} (hmore : SteadyAt more rest) :
    SteadyAt (afterWord [quote, quote] (fun rest => some (closing quote rest)) fun cs => add quote (more cs)) rest :=
  (hmore.map (quote :: ·)).word (by simp [h.1.symm]) (by simp [h.2.symm]) (steady_closing h)

theorem scanVerbatim_quote (rest : List Char) :
    scanVerbatim true ('\'' :: rest) =
      afterWord ['\'', '\''] (fun rest => some (closing '\'' rest))
        (fun cs => add '\'' (scanVerbatim true cs)) rest := by
  simp only [scanVerbatim.eq_def true ('\'' :: rest), if_pos]
  split
  · rename_i after
    exact (afterWord_append ['\'', '\''] after (fun rest => some (closing '\'' rest)) _).symm
  · rename_i h
    rw [afterWord_other ['\'', '\''] h]

theorem steady_verbatim (multi : Bool) : Steady (scanVerbatim multi) := by
  intro cs
  induction cs with
  | nil => exact steadyAt_fail rfl (by cases multi <;> rfl)
  | cons c rest ih =>
    by_cases hquote : c = '\''
    · subst hquote
      cases multi with
      | false => exact (steady_pure [] rest).behind (by decide) fun _ => rfl
      | true => exact (steadyAt_quotes '\'' (by decide) ih).behind (by decide) scanVerbatim_quote
    · by_cases hc : (isPlain c || (multi && decide (c = '\n'))) = true
      · have hreturn : c ≠ '\r' := by
          rintro rfl
          simp [isPlain_return] at hc
        exact (ih.map (c :: ·)).behind hreturn fun rest => by
          simp only [scanVerbatim.eq_def multi (c :: rest), if_neg hquote, if_pos hc]
          rfl
      · refine steadyAt_refused (fun rest => ?_) rest
        simp only [scanVerbatim.eq_def multi (c :: rest), if_neg hquote, if_neg hc]

theorem scanEscaped_feed (multi : Bool) (mode : Mode) : scanEscaped multi mode ['\n'] = none := by
  cases multi with
  | false => cases mode <;> simp [scanEscaped, escaped, isPlain_feed, hexValue_feed, isSpace]
  | true => cases mode <;> simp [scanEscaped, escaped, hexValue_feed, add]

/-- Between characters, be it right after a line end that was skipped or not. -/
theorem scanEscaped_between {multi : Bool} {mode : Mode} (h : mode = .plain ∨ mode = .afterBreak) (c : Char)
    (rest : List Char) :
    scanEscaped multi mode (c :: rest) =
      if mode = .afterBreak ∧ (c = '\n' ∨ isSpace c) then scanEscaped multi .afterBreak rest
      else if c = '\\' then scanEscaped multi .escape rest
      else if c = '"' then
        if multi then
          afterWord ['"', '"'] (fun rest => some (closing '"' rest))
            (fun cs => add '"' (scanEscaped multi .plain cs)) rest
        else some ([], rest)
      else if isPlain c || (multi && decide (c = '\n')) then add c (scanEscaped multi .plain rest)
      else none := by
  refine (scanEscaped.eq_def multi mode (c :: rest)).trans ?_
  rcases h with rfl | rfl
  all_goals
    refine if_congr Iff.rfl rfl (if_congr Iff.rfl rfl (if_congr Iff.rfl (if_congr Iff.rfl ?_ rfl) rfl))
    split
    · rename_i after
      exact (afterWord_append ['"', '"'] after (fun rest => some (closing '"' rest)) _).symm
    · rename_i h
      rw [afterWord_other ['"', '"'] h]

theorem isSpace_ne_return {c : Char} (h : isSpace c = true) : c ≠ '\r' := ne_return_of_pos rfl h

section Escaped

/-! The cases of the step below, by mode; the texts behind the character are read as they should be in every mode. -/

variable {multi : Bool} {rest : List Char} (ih : ∀ mode, SteadyAt (scanEscaped multi mode) rest) (c : Char)
include ih

theorem steadyAt_escape : SteadyAt (scanEscaped multi .escape) (c :: rest) := by
  by_cases hu : c = 'u'
  · exact (ih (.code 3 0)).behind (by simp [hu]) fun rest => by simp [scanEscaped, hu]
  by_cases hU : c = 'U'
  · exact (ih (.code 7 0)).behind (by simp [hU]) fun rest => by simp [scanEscaped, hU]
  cases he : escaped c with
  | some e =>
    exact ((ih .plain).map (e :: ·)).behind (ne_return_of_some (by decide) he) fun rest => by
      simp only [scanEscaped, if_neg hu, if_neg hU, he]
      rfl
  | none =>
    by_cases hfeed : (multi && decide (c = '\n')) = true
    · have hreturn : c ≠ '\r' := by
        rintro rfl
        simp at hfeed
      exact (ih .afterBreak).behind hreturn fun rest => by simp only [scanEscaped, hu, hU, he, hfeed, if_true, if_false]
    by_cases hspace : (multi && isSpace c) = true
    · have hreturn : c ≠ '\r' := by
        rintro rfl
        simp [isSpace] at hspace
      exact (ih .toBreak).behind hreturn fun rest => by
        simp only [scanEscaped, hu, hU, he, hfeed, hspace, Bool.false_eq_true, if_true, if_false]
    refine steadyAt_refused (fun rest => ?_) rest
    simp only [scanEscaped, hu, hU, he, hfeed, hspace, Bool.false_eq_true, if_false]

theorem steadyAt_code (digits value : Nat) : SteadyAt (scanEscaped multi (.code digits value)) (c :: rest) := by
  cases hd : Text.hexValue c with
  | none =>
    exact steadyAt_refused (fun rest => by simp [scanEscaped, hd]) rest
  | some d =>
    have hreturn : c ≠ '\r' := ne_return_of_some hexValue_return hd
    cases digits with
    | succ left =>
      exact (ih (.code left (value * 16 + d))).behind hreturn fun rest => by simp [scanEscaped, hd]
    | zero =>
      cases hp : codePoint (value * 16 + d) with
      | some p =>
        exact ((ih .plain).map (p :: ·)).behind hreturn fun rest => by
          simp only [scanEscaped, hd, hp]
          rfl
      | none =>
        exact steadyAt_refused (fun rest => by simp [scanEscaped, hd, hp]) rest

theorem steadyAt_toBreak : SteadyAt (scanEscaped multi .toBreak) (c :: rest) := by
  by_cases hfeed : c = '\n'
  · exact (ih .afterBreak).behind (by simp [hfeed]) fun rest => by simp [scanEscaped, hfeed]
  by_cases hspace : isSpace c = true
  · exact (ih .toBreak).behind (isSpace_ne_return hspace) fun rest => by simp [scanEscaped, hfeed, hspace]
  exact steadyAt_refused (fun rest => by simp [scanEscaped, hfeed, hspace]) rest

theorem steadyAt_between {mode : Mode} (h : mode = .plain ∨ mode = .afterBreak) :
    SteadyAt (scanEscaped multi mode) (c :: rest) := by
  by_cases hskip : mode = .afterBreak ∧ (c = '\n' ∨ isSpace c = true)
  · have hreturn : c ≠ '\r' := by
      rcases hskip.2 with rfl | hspace
      · decide
      · exact isSpace_ne_return hspace
    exact (ih .afterBreak).behind hreturn fun rest => by rw [scanEscaped_between h, if_pos hskip]
  by_cases hback : c = '\\'
  · exact (ih .escape).behind (by simp [hback]) fun rest => by
      rw [scanEscaped_between h, if_neg hskip, if_pos hback]
  by_cases hquote : c = '"'
  · cases multi with
    | false =>
      exact (steady_pure [] rest).behind (by simp [hquote]) fun rest => by
        rw [scanEscaped_between h, if_neg hskip, if_neg hback, if_pos hquote]
        rfl
    | true =>
      exact (steadyAt_quotes '"' (by decide) (ih .plain)).behind (by simp [hquote]) fun rest => by
        rw [scanEscaped_between h, if_neg hskip, if_neg hback, if_pos hquote, if_pos rfl]
  by_cases hc : (isPlain c || (multi && decide (c = '\n'))) = true
  · have hreturn : c ≠ '\r' := by
      rintro rfl
      simp [isPlain_return] at hc
    exact ((ih .plain).map (c :: ·)).behind hreturn fun rest => by
      rw [scanEscaped_between h, if_neg hskip, if_neg hback, if_neg hquote, if_pos hc]
      rfl
  refine steadyAt_refused (fun rest => ?_) rest
  rw [scanEscaped_between h, if_neg hskip, if_neg hback, if_neg hquote, if_neg hc]

end Escaped

theorem steady_escaped (multi : Bool) (mode : Mode) : Steady (scanEscaped multi mode) := by
  intro cs
  induction cs generalizing mode with
  | nil => exact steadyAt_fail (by cases mode <;> rfl) (scanEscaped_feed multi mode)
  | cons c rest ih =>
    cases mode with
    | plain => exact steadyAt_between ih c (.inl rfl)
    | escape => exact steadyAt_escape ih c
    | code digits value => exact steadyAt_code ih c digits value
    | toBreak => exact steadyAt_toBreak ih c
    | afterBreak => exact steadyAt_between ih c (.inr rfl)

/-- A line end right behind the quotes that open a text, as long as the text is not at its end. -/
theorem Steady.behindBreak {f : List Char → Option (List Char × List Char)} (hf : Steady f) (hend : f [] = none) :
    Steady fun cs => f (dropBreak cs)
  | [] => steadyAt_fail hend hend
  | c :: rest => by
    by_cases hc : c = '\n'
    · subst hc
      exact (hf rest).behind (by decide) fun _ => rfl
    · have hkeep (rest : List Char) : dropBreak (c :: rest) = c :: rest := by simp [dropBreak, hc]
      refine ⟨fun t h => (hf (c :: rest)).took t (by simpa only [hkeep] using h), ?_⟩
      simp only [hkeep]
      have := (hf (c :: rest)).feed
      simpa only [fed, List.cons_append, hkeep] using this

theorem scanText_eq (cs : List Char) :
    scanText cs = afterWord ['"', '"', '"'] (fun rest => scanEscaped true .plain (dropBreak rest))
      (afterWord ['"'] (scanEscaped false .plain)
        (afterWord ['\'', '\'', '\''] (fun rest => scanVerbatim true (dropBreak rest))
          (afterWord ['\''] (scanVerbatim false) fun _ => none))) cs := by
  unfold scanText
  split
  · simp [afterWord]
  · rename_i rest h
    rw [afterWord_other ['"', '"', '"'] (by simpa using h)]
    exact (afterWord_append ['"'] rest _ _).symm
  · simp [afterWord]
  · rename_i rest h
    rw [afterWord_other ['"', '"', '"'] (by simp), afterWord_other ['"'] (by simp),
      afterWord_other ['\'', '\'', '\''] (by simpa using h)]
    exact (afterWord_append ['\''] rest _ _).symm
  · rename_i h₁ h₂ h₃ h₄
    rw [afterWord_other ['"', '"', '"'] h₁, afterWord_other ['"'] h₂, afterWord_other ['\'', '\'', '\''] h₃,
      afterWord_other ['\''] h₄]

theorem steady_text : Steady scanText :=
  (((steady_escaped true .plain).behindBreak rfl).word (by decide) (by decide)
    ((steady_escaped false .plain).sign (by decide)
      (((steady_verbatim true).behindBreak rfl).word (by decide) (by decide)
        ((steady_verbatim false).sign (by decide) steady_fail)))).congr scanText_eq

/-! ## (4) Keys, and values without brackets -/

/-- A part without quotes. -/
def scanBarePart (cs : List Char) : Option (List Char × List Char) :=
  if cs.takeWhile isBare = [] then none else some (cs.takeWhile isBare, cs.dropWhile isBare)

theorem steady_barePart : Steady scanBarePart := by
  intro cs
  constructor
  · intro r h
    rw [scanBarePart] at h
    split at h
    · cases h
    · obtain rfl := Option.some.inj h
      exact took_dropWhile rfl cs
  · simp only [fed, scanBarePart, takeWhile_feed (p := isBare) rfl, dropWhile_feed (p := isBare) rfl]
    split <;> rfl

theorem scanPart_eq (cs : List Char) :
    scanPart cs =
      afterWord ['"'] (scanEscaped false .plain) (afterWord ['\''] (scanVerbatim false) scanBarePart) cs := by
  unfold scanPart
  split
  · simp
  · simp
  · rename_i h h'
    rw [afterWord_other ['"'] h, afterWord_other ['\''] h', scanBarePart]

theorem steady_part : Steady scanPart :=
  ((steady_escaped false .plain).sign (by decide) ((steady_verbatim false).sign (by decide) steady_barePart)).congr
    scanPart_eq

theorem scanKeyUpTo_succ (n : Nat) (cs : List Char) :
    scanKeyUpTo (n + 1) cs = (scanPart (skipSpaces cs)).bind fun (part, rest) =>
      afterWord ['.'] (fun rest => (scanKeyUpTo n rest).map fun (parts, rest) => (String.ofList part :: parts, rest))
        (fun rest => some ([String.ofList part], rest)) (skipSpaces rest) := by
  rw [scanKeyUpTo]
  refine Option.bind_congr fun (part, rest) _ => ?_
  dsimp only
  split
  · rename_i rest' h
    rw [h]
    simp only [afterWord_cons, if_true]
    cases scanKeyUpTo n rest' <;> rfl
  · rename_i h
    rw [afterWord_other ['.'] h]
    rfl

theorem steady_keyUpTo (n : Nat) : Steady (scanKeyUpTo n) := by
  induction n with
  | zero => exact steady_fail
  | succ n ih =>
    have hparts (part : List Char) := (ih.map (String.ofList part :: ·)).sign (c := '.') (by decide)
      (steady_pure [String.ofList part])
    exact (steady_part.behindSpaces.bind (steady_pair fun part => (hparts part).behindSpaces)).congr
      (scanKeyUpTo_succ n)

theorem steady_key : Steady scanKey := steady_keyUpTo limit

/-- A moment, or else a number. -/
def scanUnquoted (cs : List Char) : Option (Data × List Char) :=
  (scanMoment cs).elim ((scanNumber cs).map fun (n, rest) => (.number n, rest)) fun rest => some (.moment, rest)

theorem steady_unquoted : Steady scanUnquoted :=
  steady_moment.orElse (steady_pure Data.moment) (steady_number.map Data.number)

def isQuote (c : Char) : Bool := c = '"' || c = '\''

theorem scanScalar_eq (cs : List Char) :
    scanScalar cs = afterWord ['t', 'r', 'u', 'e'] (fun rest => some (.bool true, rest))
      (afterWord ['f', 'a', 'l', 's', 'e'] (fun rest => some (.bool false, rest))
        (onHead isQuote (fun cs => (scanText cs).map fun (s, rest) => (.text (some (String.ofList s)), rest))
          scanUnquoted)) cs := by
  unfold scanScalar
  split
  · simp [afterWord]
  · simp [afterWord]
  · rename_i c rest htrue hfalse
    rw [afterWord_other ['t', 'r', 'u', 'e'] (by simpa using htrue),
      afterWord_other ['f', 'a', 'l', 's', 'e'] (by simpa using hfalse), onHead]
    by_cases hc : c = '"' ∨ c = '\''
    · rw [if_pos hc, if_pos (by simpa [isQuote] using hc)]
    · rw [if_neg hc, if_neg (by simpa [isQuote] using hc), scanUnquoted]
      cases scanMoment (c :: rest) <;> rfl
  · rfl

theorem steady_scalar : Steady scanScalar := by
  have htext := steady_text.map fun s => Data.text (some (String.ofList s))
  exact ((steady_pure _).word (by decide) (by decide) ((steady_pure _).word (by decide) (by decide)
    (htext.onHead rfl steady_unquoted))).congr scanScalar_eq

end ConfigTemplate.Toml
