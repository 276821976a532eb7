/-
  ConfigTemplate.Proofs.Written — a written JSON text reads as the data that it was
  written from.

  (1) `scanText_written`: the inside of a quoted text gives back its characters, in
      whatever way each of them was escaped.
  (2) `Plain.tokens`, `scans_write`: the tokens of a written text.
  (3) `value_tokens`: the grammar reads them as the tree of the data.
  (4) `read_compact`: the two together, for a whole text.
-/
import ConfigTemplate.Json.Read
import ConfigTemplate.Json.Write
import Mathlib.Tactic.SplitIfs

namespace ConfigTemplate.Json

open Text (hexNumber)

/-! ## (1) Quoted texts -/

/-- The piece stands for the character. Only control characters are written as units. -/
def Piece.Shows (p : Piece) (c : Char) : Prop := p = .char c ∨ (p = .unit c.toNat ∧ c.toNat < 0x20)

/-- A unit below the surrogates does not wait for a partner. -/
theorem joinUnits_shows {p : Piece} {c : Char} (h : p.Shows c) (ps : List Piece) :
    joinUnits (p :: ps) = (joinUnits ps).map (c :: ·) := by
  rcases h with rfl | ⟨rfl, hc⟩
  · rw [joinUnits]
  · have hhigh : isHigh c.toNat = false := by simp [isHigh]; omega
    have hlow : isLow c.toNat = false := by simp [isLow]; omega
    cases ps with
    | nil => simp [joinUnits, hhigh, hlow]
    | cons q qs =>
      cases q with
      | char d => simp [joinUnits, hhigh, hlow]
      | unit m => simp [joinUnits, hhigh, hlow]

theorem hexNumber_control : ∀ n < 0x20, hexNumber ['0', '0', hexDigit (n / 16), hexDigit n] = some n := by decide

/-- What is read of a text after its first piece. -/
def withPiece (p : Piece) (read : Option (List Piece × List Char)) : Option (List Piece × List Char) :=
  read.map fun (ps, more) => (p :: ps, more)

theorem scanText_escape {e c : Char} (h : escaped e = some c) (rest : List Char) :
    scanText ('\\' :: e :: rest) = withPiece (.char c) (scanText rest) := by
  have he : e ≠ 'u' := by
    rintro rfl
    simp [escaped] at h
  rw [scanText, h]
  · rfl
  · simp [he]

theorem scanText_control (n : Nat) (h : n < 0x20) (rest : List Char) :
    scanText ('\\' :: 'u' :: '0' :: '0' :: hexDigit (n / 16) :: hexDigit n :: rest) =
      withPiece (.unit n) (scanText rest) := by
  rw [scanText, hexNumber_control n h]
  rfl

theorem scanText_plain {c : Char} (hq : c ≠ '"') (hb : c ≠ '\\') (hc : 0x20 ≤ c.toNat) (rest : List Char) :
    scanText (c :: rest) = withPiece (.char c) (scanText rest) := by
  rw [scanText]
  · rw [if_neg (by simp [hb]; omega)]
    rfl
  · simp [hq]
  · simp [hb]
  · simp [hb]

theorem scanText_writeChar (c : Char) :
    ∃ p, Piece.Shows p c ∧ ∀ rest, scanText (writeChar c ++ rest) = withPiece p (scanText rest) := by
  have short : ∀ e d : Char, escaped e = some d → d = c →
      ∃ p, Piece.Shows p c ∧ ∀ rest, scanText (['\\', e] ++ rest) = withPiece p (scanText rest) := by
    rintro e d he rfl
    exact ⟨.char d, Or.inl rfl, scanText_escape he⟩
  have named : ∀ n : Nat, c.toNat = n → Char.ofNat n = c := by
    rintro n rfl
    exact Char.ofNat_toNat c
  unfold writeChar
  split_ifs with hquote hslash hb ht hn hf hr hctl
  · exact short '"' '"' rfl hquote.symm
  · exact short '\\' '\\' rfl hslash.symm
  · exact short 'b' (Char.ofNat 8) rfl (named 8 hb)
  · exact short 't' '\t' rfl ht.symm
  · exact short 'n' '\n' rfl hn.symm
  · exact short 'f' (Char.ofNat 12) rfl (named 12 hf)
  · exact short 'r' '\r' rfl hr.symm
  · exact ⟨.unit c.toNat, Or.inr ⟨rfl, hctl⟩, scanText_control c.toNat hctl⟩
  · exact ⟨.char c, Or.inl rfl, scanText_plain hquote hslash (by omega)⟩

theorem scanText_written (cs rest : List Char) :
    ∃ ps, scanText (cs.flatMap writeChar ++ '"' :: rest) = some (ps, rest) ∧ joinUnits ps = some cs := by
  induction cs with
  | nil => exact ⟨[], by simp [scanText], rfl⟩
  | cons c cs ih =>
    obtain ⟨ps, hscan, hjoin⟩ := ih
    obtain ⟨p, hp, hc⟩ := scanText_writeChar c
    refine ⟨p :: ps, ?_, ?_⟩
    · rw [List.flatMap_cons, List.append_assoc, hc, hscan]
      rfl
    · rw [joinUnits_shows hp, hjoin]
      rfl

/-! ## (2) The tokens of a written text -/

namespace Plain

mutual

def tokens : Plain → List Token
  | null => [.null]
  | bool b => [.bool b]
  | text s => [.text (some s)]
  | list items => .openList :: itemTokens items ++ [.closeList]
  | table members => .openTable :: memberTokens members ++ [.closeTable]

def itemTokens : List Plain → List Token
  | [] => []
  | [v] => tokens v
  | v :: rest => tokens v ++ .comma :: itemTokens rest

def memberTokens : List (String × Plain) → List Token
  | [] => []
  | [(key, v)] => .text (some key) :: .colon :: tokens v
  | (key, v) :: rest => .text (some key) :: .colon :: tokens v ++ .comma :: memberTokens rest

end

end Plain

/-- The text `cs` starts with the tokens `ts`, and `rest` is what follows them. -/
def Scans (cs : List Char) (ts : List Token) (rest : List Char) : Prop :=
  ∀ n, cs.length ≤ n → ∃ k, rest.length ≤ k ∧ tokensUpTo n cs = ts ++ tokensUpTo k rest

namespace Scans

theorem refl (cs : List Char) : Scans cs [] cs := fun n h => ⟨n, h, rfl⟩

theorem trans {cs mid rest : List Char} {ts us : List Token} (h : Scans cs ts mid) (h' : Scans mid us rest) :
    Scans cs (ts ++ us) rest := by
  intro n hn
  obtain ⟨k, hk, ht⟩ := h n hn
  obtain ⟨j, hj, hu⟩ := h' k hk
  exact ⟨j, hj, by rw [ht, hu, List.append_assoc]⟩

theorem token {c : Char} {cs rest : List Char} {t : Token} (hc : isSpace c = false)
    (ht : scanToken (c :: cs) = some (t, rest)) (hlen : rest.length ≤ cs.length) : Scans (c :: cs) [t] rest := by
  intro n hn
  obtain ⟨n, rfl⟩ : ∃ m, n = m + 1 := ⟨n - 1, by simp only [List.length_cons] at hn; omega⟩
  refine ⟨n, by simp only [List.length_cons] at hn; omega, ?_⟩
  simp [tokensUpTo, hc, ht]

theorem text (s : String) (rest : List Char) : Scans (writeText s ++ rest) [.text (some s)] rest := by
  obtain ⟨ps, hscan, hjoin⟩ := scanText_written s.toList rest
  have hbody : writeText s ++ rest = '"' :: (s.toList.flatMap writeChar ++ '"' :: rest) := by simp [writeText]
  rw [hbody]
  refine token rfl ?_ (by simp; omega)
  rw [scanToken, hscan]
  simp [hjoin]

/-- The tokens of a text with nothing after them. -/
theorem tokens_eq {cs : List Char} {ts : List Token} (h : Scans cs ts []) : tokens cs = ts := by
  obtain ⟨k, -, ht⟩ := h cs.length (Nat.le_refl _)
  cases k with
  | zero => simpa [tokens, tokensUpTo] using ht
  | succ k => simpa [tokens, tokensUpTo] using ht

end Scans

namespace Plain

mutual

theorem scans_write : (v : Plain) → (rest : List Char) → Scans (v.write ++ rest) v.tokens rest
  | null, rest | bool true, rest | bool false, rest => .token rfl rfl (by simp; omega)
  | text s, rest => .text s rest
  | list items, rest => by
    have hopen : Scans ('[' :: (writeItems items ++ ']' :: rest)) [.openList] (writeItems items ++ ']' :: rest) :=
      .token rfl rfl (Nat.le_refl _)
    have hclose : Scans (']' :: rest) [.closeList] rest := .token rfl rfl (Nat.le_refl _)
    simpa [write, tokens] using (hopen.trans (scans_writeItems items (']' :: rest))).trans hclose
  | table members, rest => by
    have hopen : Scans ('\x7b' :: (writeMembers members ++ '\x7d' :: rest)) [.openTable]
        (writeMembers members ++ '\x7d' :: rest) := .token rfl rfl (Nat.le_refl _)
    have hclose : Scans ('\x7d' :: rest) [.closeTable] rest := .token rfl rfl (Nat.le_refl _)
    simpa [write, tokens] using (hopen.trans (scans_writeMembers members ('\x7d' :: rest))).trans hclose

theorem scans_writeItems : (items : List Plain) → (rest : List Char) →
    Scans (writeItems items ++ rest) (itemTokens items) rest
  | [], rest => .refl rest
  | [v], rest => scans_write v rest
  | v :: w :: more, rest => by
    have hcomma : Scans (',' :: (writeItems (w :: more) ++ rest)) [.comma] (writeItems (w :: more) ++ rest) :=
      .token rfl rfl (Nat.le_refl _)
    simpa [writeItems, itemTokens] using
      ((scans_write v _).trans hcomma).trans (scans_writeItems (w :: more) rest)

theorem scans_writeMembers : (members : List (String × Plain)) → (rest : List Char) →
    Scans (writeMembers members ++ rest) (memberTokens members) rest
  | [], rest => .refl rest
  | [(key, v)], rest => by
    have hcolon : Scans (':' :: (v.write ++ rest)) [.colon] (v.write ++ rest) := .token rfl rfl (Nat.le_refl _)
    simpa [writeMembers, memberTokens] using ((Scans.text key _).trans hcolon).trans (scans_write v rest)
  | (key, v) :: next :: more, rest => by
    have hcolon : ∀ cs, Scans (':' :: (v.write ++ cs)) [.colon] (v.write ++ cs) := fun _ => .token rfl rfl (Nat.le_refl _)
    have hcomma : Scans (',' :: (writeMembers (next :: more) ++ rest)) [.comma] (writeMembers (next :: more) ++ rest) :=
      .token rfl rfl (Nat.le_refl _)
    simpa [writeMembers, memberTokens] using
      ((((Scans.text key _).trans (hcolon _)).trans (scans_write v _)).trans hcomma).trans
        (scans_writeMembers (next :: more) rest)

end

theorem tokens_write (v : Plain) : Json.tokens v.write = v.tokens := by
  have h := scans_write v []
  rw [List.append_nil] at h
  exact h.tokens_eq

/-! ## (3) The tree of the tokens -/

theorem tokens_ne_nil (v : Plain) : 0 < v.tokens.length := by
  cases v <;> simp [tokens]

/-- No value starts with the end of a list. -/
theorem tokens_head (v : Plain) (more rest : List Token) : v.tokens ++ more ≠ .closeList :: rest := by
  cases v <;> simp [tokens]

theorem itemTokens_head (v : Plain) (more : List Plain) (ts rest : List Token) :
    itemTokens (v :: more) ++ ts ≠ .closeList :: rest := by
  cases more with
  | nil => exact tokens_head v ts rest
  | cons w more =>
    have hmore : itemTokens (v :: w :: more) = v.tokens ++ .comma :: itemTokens (w :: more) := by simp [itemTokens]
    rw [hmore, List.append_assoc]
    exact tokens_head v _ rest

theorem memberTokens_head (member : String × Plain) (more : List (String × Plain)) (ts rest : List Token) :
    memberTokens (member :: more) ++ ts ≠ .closeTable :: rest := by
  cases more <;> simp [memberTokens]

theorem value_openList {n : Nat} {ts rest : List Token} {ds : List Data} (hne : ∀ r, ts ≠ .closeList :: r)
    (h : items n ts = (ds, true, rest)) : value (n + 1) (.openList :: ts) = (.list ds true, rest) := by
  rw [value]
  · rw [h]
  · exact hne

theorem value_openTable {n : Nat} {ts rest : List Token} {ms : List (Option String × Data)}
    (hne : ∀ r, ts ≠ .closeTable :: r) (h : members n ts = (ms, true, rest)) :
    value (n + 1) (.openTable :: ts) = (.table ms true, rest) := by
  rw [value]
  · rw [h]
  · exact hne

mutual

/-- A value needs at most two calls below each other for each of its tokens. -/
theorem value_tokens : (v : Plain) → (n : Nat) → (rest : List Token) → 2 * v.tokens.length ≤ n →
    value n (v.tokens ++ rest) = (v.data, rest)
  | v, 0, _, h => by
    have := tokens_ne_nil v
    omega
  | null, n + 1, rest, _ | bool b, n + 1, rest, _ | text s, n + 1, rest, _ => rfl
  | list [], n + 1, rest, _ | table [], n + 1, rest, _ => rfl
  | list (v :: more), n + 1, rest, h => by
    have hitems := items_tokens v more n rest (by simp [tokens] at h; omega)
    simpa [tokens, data] using value_openList (itemTokens_head v more _) hitems
  | table (member :: more), n + 1, rest, h => by
    have hmembers := members_tokens member more n rest (by simp [tokens] at h; omega)
    simpa [tokens, data] using value_openTable (memberTokens_head member more _) hmembers

theorem items_tokens : (v : Plain) → (more : List Plain) → (n : Nat) → (rest : List Token) →
    2 * (itemTokens (v :: more)).length + 1 ≤ n →
    items n (itemTokens (v :: more) ++ .closeList :: rest) = (dataItems (v :: more), true, rest)
  | v, [], n + 1, rest, h => by
    have hv := value_tokens v n (.closeList :: rest) (by simp [itemTokens] at h; omega)
    simp [itemTokens, items, hv, dataItems]
  | v, w :: more, n + 1, rest, h => by
    have hv := value_tokens v n (.comma :: (itemTokens (w :: more) ++ .closeList :: rest))
      (by simp [itemTokens] at h; omega)
    have hmore := items_tokens w more n rest (by simp [itemTokens] at h ⊢; omega)
    simp [itemTokens, items, hv, hmore, dataItems]

theorem members_tokens : (member : String × Plain) → (more : List (String × Plain)) → (n : Nat) → (rest : List Token) →
    2 * (memberTokens (member :: more)).length + 1 ≤ n →
    members n (memberTokens (member :: more) ++ .closeTable :: rest) = (dataMembers (member :: more), true, rest)
  | (key, v), [], n + 1, rest, h => by
    have hv := value_tokens v n (.closeTable :: rest) (by simp [memberTokens] at h; omega)
    simp [memberTokens, members, hv, dataMembers]
  | (key, v), next :: more, n + 1, rest, h => by
    have hv := value_tokens v n (.comma :: (memberTokens (next :: more) ++ .closeTable :: rest))
      (by simp [memberTokens] at h; omega)
    have hmore := members_tokens next more n rest (by simp [memberTokens] at h ⊢; omega)
    simp [memberTokens, members, hv, hmore, dataMembers]

end

/-! ## (4) Whole texts -/

/-- A compact text is read to its end, as the data it was written from. -/
theorem read_compact (v : Plain) : read v.compact = (v.data, true) := by
  have hv := value_tokens v (2 * v.tokens.length + 2) [] (by omega)
  rw [List.append_nil] at hv
  simp [read, compact, tokens_write, hv]

end Plain

end ConfigTemplate.Json
