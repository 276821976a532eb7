/-
  ConfigTemplate.Proofs.Blanks — a blank between two tokens of a JSON text leaves no trace.

  (1) `spotAfter`, `isBreak`: a blank may be put outside quotes, next to a bracket, a
      comma, a colon, a quote or another blank, but not into a word. `Respaced`: one text
      has such a blank more than the other.
  (2) `scanText_closed`: a quoted text that ends in the part before the blank is read
      from that part.
  (3) `scanToken_word`: a word is read from its own characters, whatever break follows.
  (4) `tokens_respaced`: by induction on the part before the blank, one token or blank
      after the other.
-/
import ConfigTemplate.Json.Read
import ConfigTemplate.Proofs.Nesting
import ConfigTemplate.Proofs.Written

namespace ConfigTemplate.Json

open Text (isDigit hexNumber hexValue)

/-! ## (1) Where a blank may be put -/

def Spot.next : Spot → Char → Spot
  | .outside, c => if c = '"' then .quoted else .outside
  | .quoted, c => if c = '\\' then .escaped else if c = '"' then .outside else .quoted
  | .escaped, _ => .quoted

/-- Where a text that starts at a spot has got to. -/
def spotAfter (spot : Spot) (cs : List Char) : Spot := cs.foldl Spot.next spot

/-- A character at which a word ends. -/
def isBreak (c : Char) : Bool := isSpace c || ['[', ']', '\x7b', '\x7d', ',', ':', '"'].contains c

/-- The text is empty or starts with a break. -/
def Broken (cs : List Char) : Prop := ∀ c ∈ cs.head?, isBreak c = true

inductive Respaced : List Char → List Char → Prop
  | blank (before after : List Char) (c : Char) : isSpace c = true → spotAfter .outside before = .outside →
      (∀ b ∈ before.getLast?, isBreak b = true) ∨ Broken after →
      Respaced (before ++ after) (before ++ c :: after)

theorem spotAfter_cons (spot : Spot) (c : Char) (cs : List Char) :
    spotAfter spot (c :: cs) = spotAfter (spot.next c) cs := rfl

theorem spotAfter_unquoted {cs : List Char} (h : '"' ∉ cs) : spotAfter .outside cs = .outside := by
  induction cs with
  | nil => rfl
  | cons c rest ih =>
    obtain ⟨hc, hrest⟩ := not_or.mp (mt List.mem_cons.mpr h)
    rw [spotAfter_cons, Spot.next, if_neg (Ne.symm hc), ih hrest]

theorem spotAfter_append (spot : Spot) (cs more : List Char) :
    spotAfter spot (cs ++ more) = spotAfter (spotAfter spot cs) more := List.foldl_append

/-! ## (2) Quoted texts -/

theorem hexValue_digit {c : Char} {n : Nat} (h : hexValue c = some n) : c ≠ '"' ∧ c ≠ '\\' := by
  have hquote : hexValue '"' = none := by decide
  have hslash : hexValue '\\' = none := by decide
  constructor
  · rintro rfl
    simp [hquote] at h
  · rintro rfl
    simp [hslash] at h

theorem hexDigits {cs : List Char} {m n : Nat}
    (h : cs.foldlM (fun n c => (hexValue c).map (n * 16 + ·)) m = some n) : ∀ c ∈ cs, c ≠ '"' ∧ c ≠ '\\' := by
  induction cs generalizing m with
  | nil => simp
  | cons c rest ih =>
    obtain ⟨m', hm, hrest⟩ := Option.bind_eq_some_iff.mp h
    obtain ⟨v, hv, -⟩ := Option.map_eq_some_iff.mp hm
    exact List.forall_mem_cons.mpr ⟨hexValue_digit hv, ih hrest⟩

theorem hexNumber_quote {cs : List Char} (h : '"' ∈ cs) : hexNumber cs = none := by
  cases hn : hexNumber cs with
  | none => rfl
  | some n => exact absurd rfl (hexDigits hn '"' h).1

theorem spotAfter_hex {cs : List Char} {n : Nat} (h : hexNumber cs = some n) (rest : List Char) :
    spotAfter .quoted (cs ++ rest) = spotAfter .quoted rest := by
  have hdigits := hexDigits h
  clear h
  induction cs with
  | nil => rfl
  | cons c cs ih =>
    obtain ⟨⟨hquote, hslash⟩, hcs⟩ := List.forall_mem_cons.mp hdigits
    rw [List.cons_append, spotAfter_cons, Spot.next, if_neg hslash, if_neg hquote, ih hcs]

/-- Within quotes only a quote leads outside. -/
theorem mem_quote {cs : List Char} {spot : Spot} (hspot : spot ≠ .outside) (h : spotAfter spot cs = .outside) :
    '"' ∈ cs := by
  induction cs generalizing spot with
  | nil => exact absurd h hspot
  | cons c rest ih =>
    by_cases hc : c = '"'
    · exact hc ▸ List.mem_cons_self
    · refine List.mem_cons_of_mem _ (ih ?_ h)
      cases spot with
      | outside => exact absurd rfl hspot
      | quoted => by_cases hslash : c = '\\' <;> simp [Spot.next, hc, hslash]
      | escaped => simp [Spot.next]

theorem scanText_unit {x : List Char}
    (h : ∀ a b c d rest, x = a :: b :: c :: d :: rest → hexNumber [a, b, c, d] = none) :
    scanText ('\\' :: 'u' :: x) = none := by
  rcases x with _ | ⟨a, _ | ⟨b, _ | ⟨c, _ | ⟨d, rest⟩⟩⟩⟩
  · rfl
  · rfl
  · rfl
  · rfl
  · simp [scanText, h a b c d rest rfl]

/-- A quoted text that starts with `cs` ends in it or cannot be read, whatever comes after. -/
def Closes (cs : List Char) : Prop :=
  (∀ more, scanText (cs ++ more) = none) ∨
    ∃ ps rest, rest <:+ cs ∧ rest.length < cs.length ∧ spotAfter .outside rest = .outside ∧
      ∀ more, scanText (cs ++ more) = some (ps, rest ++ more)

theorem Closes.piece {cs : List Char} (h : Closes cs) (p : Piece) (front : List Char)
    (hread : ∀ more, scanText (front ++ cs ++ more) = withPiece p (scanText (cs ++ more))) : Closes (front ++ cs) := by
  rcases h with h | ⟨ps, rest, hsuffix, hlength, hspot, h⟩
  · exact Or.inl fun more => by rw [hread, h, withPiece, Option.map_none]
  · refine Or.inr ⟨p :: ps, rest, hsuffix.trans (List.suffix_append _ _), ?_, hspot, fun more => ?_⟩
    · rw [List.length_append]
      omega
    · rw [hread, h, withPiece, Option.map_some]

theorem scanText_closed (cs : List Char) (h : spotAfter .quoted cs = .outside) : Closes cs := by
  induction cs using scanText.induct with
  | case1 => cases h
  | case2 rest => exact Or.inr ⟨[], rest, List.suffix_cons _ _, by simp, h, fun more => by simp [scanText]⟩
  | case3 a b c d rest hhex => exact Or.inl fun more => by simp [scanText, hhex]
  | case4 a b c d rest n hhex ih =>
    have hrest : spotAfter .quoted rest = .outside := (spotAfter_hex hhex rest).symm.trans h
    refine (ih hrest).piece (.unit n) ['\\', 'u', a, b, c, d] fun more => ?_
    simp [scanText, hhex, withPiece]
  | case5 e rest hunit he =>
    refine Or.inl fun more => ?_
    by_cases hu : e = 'u'
    · -- fewer than four characters are left, and the quote among them is no digit
      subst hu
      refine scanText_unit fun a b c d tail htail => hexNumber_quote ?_
      have hquote : '"' ∈ rest := mem_quote (show Spot.quoted ≠ .outside by simp) h
      have hshort : rest.length < 4 := by
        rcases rest with _ | ⟨a, _ | ⟨b, _ | ⟨c, _ | ⟨d, rest⟩⟩⟩⟩
        · simp
        · simp
        · simp
        · simp
        · exact absurd rfl (hunit a b c d rest rfl)
      have hfront : rest <+: [a, b, c, d] :=
        List.prefix_of_prefix_length_le ⟨more, htail⟩ ⟨tail, rfl⟩ (by simp; omega)
      exact hfront.subset hquote
    · rw [List.cons_append, List.cons_append, scanText, he]
      simp [hu]
  | case6 e rest hunit c he ih =>
    exact (ih h).piece (.char c) ['\\', e] fun more => scanText_escape he (rest ++ more)
  | case7 c rest hquote _ hslash hc =>
    have hne : c ≠ '\\' := by
      rintro rfl
      cases rest with
      | nil => cases h
      | cons e rest => exact hslash e rest rfl rfl
    refine Or.inl fun more => ?_
    rw [List.cons_append, scanText, if_pos hc]
    · exact hquote
    · exact fun a b c' d rest' h => absurd h hne
    · exact fun e rest' h => absurd h hne
  | case8 c rest hquote _ _ hc ih =>
    obtain ⟨hne, hlow⟩ := not_or.mp hc
    have hrest : spotAfter .quoted rest = .outside := by
      rwa [spotAfter_cons, Spot.next, if_neg hne, if_neg hquote] at h
    exact (ih hrest).piece (.char c) [c] fun more => scanText_plain hquote hne (by omega) (rest ++ more)

/-! ## (3) Words -/

/-- A word has no break in it. -/
def Word (w : List Char) : Prop := ∀ c ∈ w, isBreak c = false

theorem word_iff (w : List Char) : Word w ↔ w.all (fun c => !isBreak c) = true := by
  simp [Word]

theorem isBreak_cases {c : Char} (h : isBreak c = true) :
    c ∈ [' ', '\t', '\n', '\r', '[', ']', '\x7b', '\x7d', ',', ':', '"'] := by
  simpa only [isBreak, isSpace, Bool.or_eq_true, decide_eq_true_eq, List.contains_iff_mem, List.mem_cons, or_assoc]
    using h

theorem isDigit_break {c : Char} (h : isBreak c = true) : isDigit c = false := by
  have hall : ∀ c ∈ [' ', '\t', '\n', '\r', '[', ']', '\x7b', '\x7d', ',', ':', '"'], isDigit c = false := by
    simp only [List.forall_mem_cons, List.not_mem_nil, false_implies, implies_true]
    decide
  exact hall c (isBreak_cases h)

theorem Broken.ne {c d : Char} {rest : List Char} (h : Broken (c :: rest)) (hd : isBreak d = false) : c ≠ d := by
  rintro rfl
  have := h c rfl
  simp [hd] at this

section Words

variable {α β : Type}

/-- A scanner that takes no more than its word, and takes the same whatever break follows. -/
structure Wordwise (scan : List Char → Option (α × List Char)) : Prop where
  apart : ∀ w tail, Word w → Broken tail → scan (w ++ tail) = (scan w).map fun (a, more) => (a, more ++ tail)
  suffix : ∀ w a more, scan w = some (a, more) → more <:+ w

theorem Wordwise.bind {f : List Char → Option (α × List Char)} {g : α → List Char → Option (β × List Char)}
    (hf : Wordwise f) (hg : ∀ a, Wordwise (g a)) : Wordwise fun cs => (f cs).bind fun (a, rest) => g a rest where
  apart := by
    intro w tail hw htail
    dsimp only
    rw [hf.apart w tail hw htail]
    cases h : f w with
    | none => rfl
    | some r =>
      obtain ⟨a, rest⟩ := r
      have hrest : Word rest := fun c hc => hw c ((hf.suffix w a rest h).subset hc)
      exact (hg a).apart rest tail hrest htail
  suffix := by
    intro w b more h
    obtain ⟨⟨a, rest⟩, hf', hg'⟩ := Option.bind_eq_some_iff.mp h
    exact ((hg a).suffix rest b more hg').trans (hf.suffix w a rest hf')

theorem Wordwise.pure (b : β) : Wordwise fun cs => some (b, cs) where
  apart _ _ _ _ := rfl
  suffix w _ more h := by
    obtain ⟨-, rfl⟩ := Prod.mk.inj (Option.some.inj h)
    exact List.suffix_refl _

theorem takeWhile_broken {tail : List Char} (h : Broken tail) (w : List Char) :
    (w ++ tail).takeWhile isDigit = w.takeWhile isDigit := by
  induction w with
  | nil =>
    cases tail with
    | nil => rfl
    | cons c rest => exact List.takeWhile_cons_of_neg (by simp [isDigit_break (h c rfl)])
  | cons c w ih => simp only [List.cons_append, List.takeWhile_cons, ih]

theorem dropWhile_broken {tail : List Char} (h : Broken tail) (w : List Char) :
    (w ++ tail).dropWhile isDigit = w.dropWhile isDigit ++ tail := by
  induction w with
  | nil =>
    cases tail with
    | nil => rfl
    | cons c rest => exact List.dropWhile_cons_of_neg (by simp [isDigit_break (h c rfl)])
  | cons c w ih =>
    simp only [List.cons_append, List.dropWhile_cons, ih]
    split <;> rfl

theorem wordwise_whole : Wordwise scanWhole where
  apart := by
    intro w tail _ htail
    simp only [scanWhole, takeWhile_broken htail, dropWhile_broken htail]
    split <;> rfl
  suffix := by
    intro w ds more h
    simp only [scanWhole] at h
    split at h
    · cases h
    · cases h
    · obtain ⟨-, rfl⟩ := Prod.mk.inj (Option.some.inj h)
      exact List.dropWhile_suffix _

theorem wordwise_fraction : Wordwise scanFraction where
  apart := by
    intro w tail _ htail
    rcases w with _ | ⟨c, w⟩
    · rcases tail with _ | ⟨c, rest⟩
      · rfl
      · have hpoint : c ≠ '.' := htail.ne (by decide)
        simp [scanFraction, hpoint]
    · by_cases hpoint : c = '.'
      · subst hpoint
        simp only [List.cons_append, scanFraction, takeWhile_broken htail, dropWhile_broken htail]
        split <;> rfl
      · simp [scanFraction, hpoint]
  suffix := by
    intro w ds more h
    unfold scanFraction at h
    split at h
    · dsimp only at h
      split at h
      · cases h
      · obtain ⟨-, rfl⟩ := Prod.mk.inj (Option.some.inj h)
        exact (List.dropWhile_suffix _).trans (List.suffix_cons _ _)
    · obtain ⟨-, rfl⟩ := Prod.mk.inj (Option.some.inj h)
      exact List.suffix_refl _

theorem scanSign_broken {tail : List Char} (h : Broken tail) (w : List Char) :
    scanSign (w ++ tail) = ((scanSign w).1, (scanSign w).2 ++ tail) := by
  rcases w with _ | ⟨c, w⟩
  · rcases tail with _ | ⟨c, rest⟩
    · rfl
    · have hminus : c ≠ '-' := h.ne (by decide)
      have hplus : c ≠ '+' := h.ne (by decide)
      simp [scanSign, hminus, hplus]
  · by_cases hminus : c = '-'
    · subst hminus
      rfl
    · by_cases hplus : c = '+'
      · subst hplus
        rfl
      · simp [scanSign, hminus, hplus]

theorem scanSign_suffix (w : List Char) : (scanSign w).2 <:+ w := by
  unfold scanSign
  split
  · exact List.suffix_cons _ _
  · exact List.suffix_cons _ _
  · exact List.suffix_refl _

theorem wordwise_exponent : Wordwise scanExponent where
  apart := by
    intro w tail _ htail
    rcases w with _ | ⟨c, w⟩
    · rcases tail with _ | ⟨c, rest⟩
      · rfl
      · have hsmall : c ≠ 'e' := htail.ne (by decide)
        have hlarge : c ≠ 'E' := htail.ne (by decide)
        simp [scanExponent, hsmall, hlarge]
    · by_cases he : c = 'e' ∨ c = 'E'
      · simp only [List.cons_append, scanExponent, he, if_true, scanSign_broken htail, takeWhile_broken htail,
          dropWhile_broken htail]
        split <;> rfl
      · simp [scanExponent, he]
  suffix := by
    intro w e more h
    rcases w with _ | ⟨c, w⟩
    · obtain ⟨-, rfl⟩ := Prod.mk.inj (Option.some.inj h)
      exact List.suffix_refl _
    · by_cases he : c = 'e' ∨ c = 'E'
      · simp only [scanExponent, he, if_true] at h
        split at h
        · cases h
        · obtain ⟨-, rfl⟩ := Prod.mk.inj (Option.some.inj h)
          exact ((List.dropWhile_suffix _).trans (scanSign_suffix w)).trans (List.suffix_cons _ _)
      · simp only [scanExponent, he, if_false] at h
        obtain ⟨-, rfl⟩ := Prod.mk.inj (Option.some.inj h)
        exact List.suffix_refl _

/-- A minus, if any. -/
def minus (cs : List Char) : Bool × List Char :=
  match cs with
  | '-' :: rest => (true, rest)
  | _ => (false, cs)

theorem wordwise_minus : Wordwise fun cs => some (minus cs) where
  apart := by
    intro w tail _ htail
    rcases w with _ | ⟨c, w⟩
    · rcases tail with _ | ⟨c, rest⟩
      · rfl
      · have hminus : c ≠ '-' := htail.ne (by decide)
        simp [minus, hminus]
    · by_cases hminus : c = '-'
      · subst hminus
        rfl
      · simp [minus, hminus]
  suffix := by
    intro w b more h
    have hmore : (minus w).2 = more := congrArg Prod.snd (Option.some.inj h)
    rw [← hmore]
    unfold minus
    split
    · exact List.suffix_cons _ _
    · exact List.suffix_refl _

theorem scanLiteral_eq (cs : List Char) : scanLiteral cs = (scanWhole (minus cs).2).bind fun (whole, cs') =>
    (scanFraction cs').bind fun (fraction, cs') => (scanExponent cs').bind fun (exponent, cs') =>
      some (⟨(minus cs).1, whole, fraction, exponent⟩, cs') := rfl

theorem wordwise_literal : Wordwise scanLiteral := by
  have h := wordwise_minus.bind fun negative => wordwise_whole.bind fun whole => wordwise_fraction.bind fun fraction =>
    wordwise_exponent.bind fun exponent => Wordwise.pure (Literal.mk negative whole fraction exponent)
  exact h

theorem scanWhole_shorter {cs ds more : List Char} (h : scanWhole cs = some (ds, more)) : more.length < cs.length := by
  have hcs : (cs.takeWhile isDigit).length + (cs.dropWhile isDigit).length = cs.length := by
    rw [← List.length_append, List.takeWhile_append_dropWhile]
  unfold scanWhole at h
  split at h
  · cases h
  · cases h
  · rename_i hnone _
    obtain ⟨-, rfl⟩ := Prod.mk.inj (Option.some.inj h)
    have hpos : 0 < (cs.takeWhile isDigit).length := List.length_pos_iff.mpr fun h => hnone h
    omega

/-- A literal has a digit at least. -/
theorem scanLiteral_shorter {cs more : List Char} {l : Literal} (h : scanLiteral cs = some (l, more)) :
    more.length < cs.length := by
  rw [scanLiteral_eq] at h
  obtain ⟨⟨whole, rest⟩, hwhole, h⟩ := Option.bind_eq_some_iff.mp h
  obtain ⟨⟨fraction, rest'⟩, hfraction, h⟩ := Option.bind_eq_some_iff.mp h
  obtain ⟨⟨exponent, rest''⟩, hexponent, h⟩ := Option.bind_eq_some_iff.mp h
  obtain ⟨-, rfl⟩ := Prod.mk.inj (Option.some.inj h)
  have hminus := (wordwise_minus.suffix cs (minus cs).1 (minus cs).2 rfl).length_le
  have hshort := scanWhole_shorter hwhole
  have hfraction := (wordwise_fraction.suffix _ _ _ hfraction).length_le
  have hexponent := (wordwise_exponent.suffix _ _ _ hexponent).length_le
  omega

theorem Word.head {c d : Char} {w : List Char} (h : Word (c :: w)) (hd : isBreak d = true) : c ≠ d := by
  rintro rfl
  have := h c (by simp)
  simp [hd] at this

def keywords : List (List Char × Token) :=
  [("null".toList, .null), ("true".toList, .bool true), ("false".toList, .bool false)]

theorem word_keyword : ∀ k ∈ keywords, Word k.1 := by
  simp only [word_iff]
  decide

theorem scanToken_keyword (rest : List Char) : ∀ k ∈ keywords, scanToken (k.1 ++ rest) = some (k.2, rest) := by
  simp only [keywords, List.forall_mem_cons, List.not_mem_nil, false_implies, implies_true, and_true]
  exact ⟨rfl, rfl, rfl⟩

/-- Whatever does not start with a sign, a quote or a keyword is a number if it is a token. -/
theorem scanToken_literal {c : Char} {cs : List Char} (hc : isBreak c = false)
    (hkeyword : ∀ k ∈ keywords, ¬ k.1 <+: c :: cs) :
    scanToken (c :: cs) = (scanLiteral (c :: cs)).map fun (l, more) => (.number l.number, more) := by
  have hnone : ∀ d rest, c :: cs = d :: rest → isBreak d = false := by
    intro d rest h
    exact (List.cons.inj h).1 ▸ hc
  simp only [keywords, List.forall_mem_cons, List.not_mem_nil, false_implies, implies_true, and_true] at hkeyword
  obtain ⟨hnull, htrue, hfalse⟩ := hkeyword
  unfold scanToken
  split
  case h_7 rest h => exact absurd ⟨rest, h.symm⟩ hnull
  case h_8 rest h => exact absurd ⟨rest, h.symm⟩ htrue
  case h_9 rest h => exact absurd ⟨rest, h.symm⟩ hfalse
  case h_11 => rfl
  all_goals
    rename_i h
    exact absurd (hnone _ _ h) (by decide)

/-- A keyword at the start of a word and a break is one at the start of the word. -/
theorem keyword_word {keyword w tail : List Char} (hkeyword : Word keyword) (htail : Broken tail)
    (h : keyword <+: w ++ tail) : keyword <+: w := by
  obtain ⟨rest, h⟩ := h
  rcases List.append_eq_append_iff.mp h with ⟨more, rfl, -⟩ | ⟨extra, rfl, rfl⟩
  · exact ⟨more, rfl⟩
  · rcases extra with _ | ⟨c, extra⟩
    · exact ⟨[], by simp⟩
    · have hc := htail c rfl
      simp [hkeyword c (by simp)] at hc

/-- The token at the start of a word is the same whatever break follows the word. -/
theorem scanToken_word {w tail : List Char} (hw : Word w) (hne : w ≠ []) (htail : Broken tail) :
    scanToken (w ++ tail) = (scanToken w).map fun (t, more) => (t, more ++ tail) := by
  by_cases hkeyword : ∃ k ∈ keywords, k.1 <+: w
  · obtain ⟨k, hk, more, rfl⟩ := hkeyword
    rw [List.append_assoc, scanToken_keyword _ k hk, scanToken_keyword _ k hk, Option.map_some]
  · obtain ⟨c, rest, rfl⟩ := List.exists_cons_of_ne_nil hne
    have hc : isBreak c = false := hw c (by simp)
    have hnone : ∀ k ∈ keywords, ¬ k.1 <+: c :: rest := fun k hk h => hkeyword ⟨k, hk, h⟩
    have hnone' : ∀ k ∈ keywords, ¬ k.1 <+: c :: (rest ++ tail) := fun k hk h =>
      hnone k hk (keyword_word (word_keyword k hk) htail h)
    rw [List.cons_append, scanToken_literal hc hnone', scanToken_literal hc hnone, ← List.cons_append,
      wordwise_literal.apart _ tail hw htail]
    cases scanLiteral (c :: rest) <;> rfl

theorem scanToken_shorter {w more : List Char} {t : Token} (hw : Word w) (hne : w ≠ [])
    (h : scanToken w = some (t, more)) : more <:+ w ∧ more.length < w.length := by
  by_cases hkeyword : ∃ k ∈ keywords, k.1 <+: w
  · obtain ⟨k, hk, rest, rfl⟩ := hkeyword
    rw [scanToken_keyword _ k hk] at h
    obtain ⟨-, rfl⟩ := Prod.mk.inj (Option.some.inj h)
    have hlong : ∀ k ∈ keywords, 0 < k.1.length := by decide
    have := hlong k hk
    exact ⟨List.suffix_append _ _, by rw [List.length_append]; omega⟩
  · obtain ⟨c, rest, rfl⟩ := List.exists_cons_of_ne_nil hne
    rw [scanToken_literal (hw c (by simp)) fun k hk h => hkeyword ⟨k, hk, h⟩] at h
    obtain ⟨⟨l, rest'⟩, hliteral, h⟩ := Option.map_eq_some_iff.mp h
    obtain ⟨-, rfl⟩ := Prod.mk.inj h
    exact ⟨wordwise_literal.suffix _ _ _ hliteral, scanLiteral_shorter hliteral⟩

end Words

/-! ## (4) Tokens -/

theorem scanToken_sign {c : Char} (h : isBreak c = true) (hspace : isSpace c = false) (hquote : c ≠ '"') :
    ∃ t, ∀ rest, scanToken (c :: rest) = some (t, rest) := by
  have hc := isBreak_cases h
  simp only [List.mem_cons, List.not_mem_nil, or_false] at hc
  rcases hc with rfl | rfl | rfl | rfl | rfl | rfl | rfl | rfl | rfl | rfl | rfl
  · simp [isSpace] at hspace
  · simp [isSpace] at hspace
  · simp [isSpace] at hspace
  · simp [isSpace] at hspace
  · exact ⟨_, fun _ => rfl⟩
  · exact ⟨_, fun _ => rfl⟩
  · exact ⟨_, fun _ => rfl⟩
  · exact ⟨_, fun _ => rfl⟩
  · exact ⟨_, fun _ => rfl⟩
  · exact ⟨_, fun _ => rfl⟩
  · exact absurd rfl hquote

/-- The first token of the part before a blank is read from that part. -/
def Within (before more : List Char) (read : Option (Token × List Char)) : Prop :=
  scanToken (before ++ more) = read.map fun (t, rest) => (t, rest ++ more)

/-- What a first token leaves of the part before a blank. -/
def Leaves (before : List Char) (read : Option (Token × List Char)) : Prop :=
  ∀ t rest, read = some (t, rest) →
    rest <:+ before ∧ rest.length < before.length ∧ spotAfter .outside rest = .outside

theorem within_quoted {cs : List Char} (h : spotAfter .quoted cs = .outside) :
    ∃ read, Leaves ('"' :: cs) read ∧ ∀ more, Within ('"' :: cs) more read := by
  rcases scanText_closed cs h with h | ⟨ps, rest, hsuffix, hlength, hspot, h⟩
  · refine ⟨none, by simp [Leaves], fun more => ?_⟩
    rw [Within, List.cons_append, scanToken, h]
    rfl
  · refine ⟨some (.text ((joinUnits ps).map String.ofList), rest), fun t rest' h => ?_, fun more => ?_⟩
    · obtain ⟨-, rfl⟩ := Prod.mk.inj (Option.some.inj h)
      exact ⟨hsuffix.trans (List.suffix_cons _ _), by rw [List.length_cons]; omega, hspot⟩
    · rw [Within, List.cons_append, scanToken, h]
      rfl

/-- A text starts with a word, which may be empty. -/
theorem exists_word (cs : List Char) : ∃ w tail, cs = w ++ tail ∧ Word w ∧ Broken tail := by
  induction cs with
  | nil => exact ⟨[], [], rfl, by simp [Word], by simp [Broken]⟩
  | cons c cs ih =>
    cases hc : isBreak c with
    | true => exact ⟨[], c :: cs, rfl, by simp [Word], by simpa [Broken] using hc⟩
    | false =>
      obtain ⟨w, tail, rfl, hw, htail⟩ := ih
      exact ⟨c :: w, tail, rfl, List.forall_mem_cons.mpr ⟨hc, hw⟩, htail⟩

theorem Word.unquoted {w : List Char} (h : Word w) : '"' ∉ w := by
  intro hq
  exact absurd (h '"' hq) (by decide)

theorem within_word {w tail : List Char} (hw : Word w) (hne : w ≠ []) (htail : Broken tail)
    (hspot : spotAfter .outside (w ++ tail) = .outside) :
    ∃ read, Leaves (w ++ tail) read ∧
      ∀ more, (∀ b ∈ (w ++ tail).getLast?, isBreak b = true) ∨ Broken more → Within (w ++ tail) more read := by
  rw [spotAfter_append, spotAfter_unquoted hw.unquoted] at hspot
  refine ⟨(scanToken w).map fun (t, rest) => (t, rest ++ tail), fun t rest h => ?_, fun more hmore => ?_⟩
  · obtain ⟨⟨t, rest⟩, hscan, h⟩ := Option.map_eq_some_iff.mp h
    obtain ⟨-, rfl⟩ := Prod.mk.inj h
    obtain ⟨hsuffix, hlength⟩ := scanToken_shorter hw hne hscan
    have hrest : Word rest := fun c hc => hw c (hsuffix.subset hc)
    refine ⟨(List.suffix_append_inj_of_length_eq rfl).mpr ⟨hsuffix, rfl⟩, ?_, ?_⟩
    · rw [List.length_append, List.length_append]
      omega
    · rw [spotAfter_append, spotAfter_unquoted hrest.unquoted, hspot]
  · -- the break after the word is in the part before the blank, or right behind it
    have hbroken : Broken (tail ++ more) := by
      rcases tail with _ | ⟨d, tail⟩
      · rcases hmore with hlast | hmore
        · have hmem := List.getLast_mem hne
          have := hlast (w.getLast hne) (by simp [List.getLast?_eq_some_getLast hne])
          simp [hw _ hmem] at this
        · exact hmore
      · exact htail
    rw [Within, List.append_assoc, scanToken_word hw hne hbroken, Option.map_map]
    congr 1
    funext r
    simp

theorem within_first (before : List Char) (hne : before ≠ []) (hspace : ∀ b ∈ before.head?, isSpace b = false)
    (hspot : spotAfter .outside before = .outside) :
    ∃ read, Leaves before read ∧
      ∀ more, (∀ b ∈ before.getLast?, isBreak b = true) ∨ Broken more → Within before more read := by
  obtain ⟨c, cs, rfl⟩ := List.exists_cons_of_ne_nil hne
  by_cases hquote : c = '"'
  · subst hquote
    obtain ⟨read, hleaves, hwithin⟩ := within_quoted hspot
    exact ⟨read, hleaves, fun more _ => hwithin more⟩
  · cases hc : isBreak c with
    | false =>
      obtain ⟨w, tail, hparts, hw, htail⟩ := exists_word cs
      have hcs : c :: cs = c :: w ++ tail := by rw [hparts, List.cons_append]
      rw [hcs] at hspot ⊢
      exact within_word (List.forall_mem_cons.mpr ⟨hc, hw⟩) (by simp) htail hspot
    | true =>
      obtain ⟨t, ht⟩ := scanToken_sign hc (hspace c rfl) hquote
      refine ⟨some (t, cs), fun t' rest h => ?_, fun more _ => ht (cs ++ more)⟩
      obtain ⟨-, rfl⟩ := Prod.mk.inj (Option.some.inj h)
      rw [spotAfter_cons, Spot.next, if_neg hquote] at hspot
      exact ⟨List.suffix_cons _ _, by simp, hspot⟩

/-- What ends in a break, or is followed by one, does so from any character on. -/
theorem last_suffix {before rest after : List Char} (hsuffix : rest <:+ before)
    (h : (∀ b ∈ before.getLast?, isBreak b = true) ∨ Broken after) :
    (∀ b ∈ rest.getLast?, isBreak b = true) ∨ Broken after := by
  refine h.imp_left fun h x hx => h x ?_
  obtain ⟨front, rfl⟩ := hsuffix
  simp [List.getLast?_append, Option.mem_def.mp hx]

theorem tokensUpTo_blank (n : Nat) (before after : List Char) {c : Char} (hc : isSpace c = true)
    (hspot : spotAfter .outside before = .outside)
    (hbreak : (∀ b ∈ before.getLast?, isBreak b = true) ∨ Broken after) (hn : (before ++ after).length ≤ n) :
    tokensUpTo (n + 1) (before ++ c :: after) = tokensUpTo n (before ++ after) := by
  have hgap : Broken (c :: after) := by
    intro d hd
    obtain rfl : c = d := by simpa using hd
    simp [isBreak, hc]
  induction n generalizing before with
  | zero =>
    obtain ⟨rfl, rfl⟩ := List.append_eq_nil_iff.mp (List.length_eq_zero_iff.mp (Nat.le_zero.mp hn))
    simp [tokensUpTo, hc]
  | succ n ih =>
    rcases before with _ | ⟨b, bs⟩
    · simp [tokensUpTo, hc]
    · simp only [List.cons_append, List.length_cons, Nat.add_le_add_iff_right] at hn
      cases hb : isSpace b with
      | true =>
        have hquote : b ≠ '"' := by
          rintro rfl
          simp [isSpace] at hb
        rw [spotAfter_cons, Spot.next, if_neg hquote] at hspot
        simp only [List.cons_append, tokensUpTo, hb, if_true]
        exact ih bs hspot (last_suffix (List.suffix_cons b bs) hbreak) hn
      | false =>
        obtain ⟨read, hleaves, hwithin⟩ := within_first (b :: bs) (by simp) (by simpa using hb) hspot
        have hlong := hwithin (c :: after) (Or.inr hgap)
        have hshort := hwithin after hbreak
        rw [Within, List.cons_append] at hlong hshort
        simp only [List.cons_append, tokensUpTo, hb, hlong, hshort]
        cases read with
        | none => rfl
        | some r =>
          obtain ⟨t, rest⟩ := r
          obtain ⟨hsuffix, hlength, hrest⟩ := hleaves t rest rfl
          simp only [List.length_cons, List.length_append] at hlength hn
          have := ih rest hrest (last_suffix hsuffix hbreak) (by rw [List.length_append]; omega)
          simpa using this

theorem tokens_respaced {cs cs' : List Char} (h : Respaced cs cs') : tokens cs' = tokens cs := by
  obtain ⟨before, after, c, hc, hspot, hbreak⟩ := h
  have hlength : (before ++ c :: after).length = (before ++ after).length + 1 := by simp; omega
  rw [tokens, tokens, hlength]
  exact tokensUpTo_blank _ before after hc hspot hbreak (Nat.le_refl _)

theorem read_respaced {a b : String} (h : Respaced a.toList b.toList) : read b = read a := by
  rw [read, read, tokens_respaced h]

end ConfigTemplate.Json
