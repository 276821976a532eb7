/-
  ConfigTemplate.Proofs.Steady — steps over a text, and the end of the text.

  (1) `Took`: what is left when a part without carriage returns is taken off a text.
  (2) `Steady`: what a step takes has no carriage return, and one more line feed at the end of
      the text is left over. Steps in a row, a step in place of one that failed and a step
      behind a check are steady if their parts are.
  (3) `afterWord`: the word in front decides which step is taken. It is steady, as a line feed
      makes no word of a part of one.
-/
import ConfigTemplate.Toml.Moment
import ConfigTemplate.Toml.Line
import Mathlib.Data.List.TakeWhile

namespace ConfigTemplate.Toml

/-! ## (1) Parts of a text -/

/-- `rest` is what is left of `cs` when a part without carriage returns is taken off. -/
def Took (cs rest : List Char) : Prop := ∃ part, cs = part ++ rest ∧ '\r' ∉ part

theorem Took.refl (cs : List Char) : Took cs cs := ⟨[], rfl, by simp⟩

theorem Took.trans {cs mid rest : List Char} (h : Took cs mid) (h' : Took mid rest) : Took cs rest := by
  obtain ⟨first, rfl, hfirst⟩ := h
  obtain ⟨second, rfl, hsecond⟩ := h'
  exact ⟨first ++ second, by simp, by simp [hfirst, hsecond]⟩

theorem Took.cons {c : Char} (hc : c ≠ '\r') {cs rest : List Char} (h : Took cs rest) : Took (c :: cs) rest := by
  obtain ⟨part, rfl, hpart⟩ := h
  exact ⟨c :: part, rfl, by simp [hpart, hc.symm]⟩

theorem ne_return_of_pos {p : Char → Bool} (hp : p '\r' = false) {c : Char} (h : p c = true) : c ≠ '\r' := by
  rintro rfl
  simp [hp] at h

theorem ne_return_of_some {f : Char → Option α} (hf : f '\r' = none) {c : Char} {a : α} (h : f c = some a) :
    c ≠ '\r' := by
  rintro rfl
  simp [hf] at h

theorem took_dropWhile {p : Char → Bool} (hp : p '\r' = false) (cs : List Char) : Took cs (cs.dropWhile p) := by
  refine ⟨cs.takeWhile p, by simp, fun hmem => ?_⟩
  rw [List.mem_takeWhile_imp hmem] at hp
  cases hp

theorem Took.length_le {cs rest : List Char} (h : Took cs rest) : rest.length ≤ cs.length := by
  obtain ⟨part, rfl, -⟩ := h
  simp

theorem Took.not_mem {cs rest : List Char} (h : Took cs rest) (hrest : '\r' ∉ rest) : '\r' ∉ cs := by
  obtain ⟨part, rfl, hpart⟩ := h
  simp [hpart, hrest]

/-! ## (2) Steady steps -/

/-- What a step over a text leaves, be it the text alone or a value with it. -/
class Leftover (σ : Type) where
  text : σ → List Char
  /-- The same with one more line feed at the very end. -/
  fed : σ → σ

instance : Leftover (List Char) := ⟨id, (· ++ ['\n'])⟩

instance {α : Type} : Leftover (α × List Char) := ⟨(·.2), fun r => (r.1, r.2 ++ ['\n'])⟩

open Leftover (text fed)

section Steps

variable {α β σ τ υ : Type} [Leftover σ] [Leftover τ] [Leftover υ]

structure SteadyAt (step : σ → Option τ) (s : σ) : Prop where
  took : ∀ t, step s = some t → Took (text s) (text t)
  feed : step (fed s) = (step s).map fed

/-- What the step takes has no carriage return, and one more line feed at the end of a text makes no other difference
    than that it is left over. -/
def Steady (step : σ → Option τ) : Prop := ∀ s, SteadyAt step s

theorem SteadyAt.congr {f g : σ → Option τ} {s : σ} (hf : SteadyAt f s) (h : ∀ s, g s = f s) : SteadyAt g s where
  took t hg := hf.took t ((h s).symm.trans hg)
  feed := by rw [h, h, hf.feed]

theorem Steady.congr {f g : σ → Option τ} (hf : Steady f) (h : ∀ s, g s = f s) : Steady g := fun s => (hf s).congr h

theorem SteadyAt.bind {f : σ → Option τ} {g : τ → Option υ} {s : σ} (hf : SteadyAt f s) (hg : Steady g) :
    SteadyAt (fun s => (f s).bind g) s where
  took := by
    intro u h
    obtain ⟨t, ht, hu⟩ := Option.bind_eq_some_iff.mp h
    exact (hf.took t ht).trans ((hg t).took u hu)
  feed := by
    rw [hf.feed]
    cases f s with
    | none => rfl
    | some t => exact (hg t).feed

theorem Steady.bind {f : σ → Option τ} {g : τ → Option υ} (hf : Steady f) (hg : Steady g) :
    Steady fun s => (f s).bind g := fun s => (hf s).bind hg

/-- A step that depends on the value read before. -/
theorem steady_pair {g : α → List Char → Option τ} (h : ∀ a, Steady (g a)) :
    Steady fun r : α × List Char => g r.1 r.2 := fun r => ⟨(h r.1 r.2).took, (h r.1 r.2).feed⟩

theorem steady_self : Steady fun cs : List Char => some cs := fun cs =>
  ⟨fun _ h => Option.some.inj h ▸ Took.refl cs, rfl⟩

theorem steady_pure (a : α) : Steady fun cs : List Char => some (a, cs) := fun cs =>
  ⟨fun _ h => Option.some.inj h ▸ Took.refl cs, rfl⟩

/-- A step that fails, also with a line feed more. -/
theorem steadyAt_fail {f : σ → Option τ} {s : σ} (h : f s = none) (h' : f (fed s) = none) : SteadyAt f s where
  took _ ht := by simp [h] at ht
  feed := by rw [h, h']; rfl

theorem steady_fail : Steady fun _ : σ => (none : Option τ) := fun _ => steadyAt_fail rfl rfl

/-- A step behind a value that may be refused. -/
theorem steady_guarded (o : Option α) {g : α → List Char → Option τ} (h : ∀ a, Steady (g a)) :
    Steady fun cs => o.bind fun a => g a cs := by
  cases o with
  | none => exact steady_fail
  | some a => exact h a

/-- The value may be refused for what was read. -/
theorem Steady.filterMap {f : σ → Option (α × List Char)} (hf : Steady f) (g : α → Option β) :
    Steady fun s => (f s).bind fun (a, rest) => (g a).bind fun b => some (b, rest) :=
  hf.bind (steady_pair fun a => steady_guarded (g a) steady_pure)

theorem SteadyAt.map {f : σ → Option (α × List Char)} {s : σ} (hf : SteadyAt f s) (g : α → β) :
    SteadyAt (fun s => (f s).map fun (a, rest) => (g a, rest)) s := by
  refine (hf.bind (steady_pair fun a => steady_pure (g a))).congr fun s => ?_
  cases f s <;> rfl

theorem Steady.map {f : σ → Option (α × List Char)} (hf : Steady f) (g : α → β) :
    Steady fun s => (f s).map fun (a, rest) => (g a, rest) := fun s => (hf s).map g

/-- A check of what was read before. -/
theorem Steady.check {f : σ → Option τ} (hf : Steady f) (p : Prop) [Decidable p] :
    Steady fun s => if p then f s else none := by
  split
  · exact hf
  · exact steady_fail

/-- Another step in place of one that fails. -/
theorem Steady.orElse {f : σ → Option τ} {g : τ → Option υ} {k : σ → Option υ} (hf : Steady f) (hg : Steady g)
    (hk : Steady k) : Steady fun s => (f s).elim (k s) g := by
  intro s
  constructor
  · intro u h
    cases hs : f s with
    | some t =>
      rw [hs] at h
      exact ((hf s).took t hs).trans ((hg t).took u h)
    | none =>
      rw [hs] at h
      exact (hk s).took u h
  · rw [(hf s).feed]
    cases f s with
    | some t => exact (hg t).feed
    | none => exact (hk s).feed

/-- A step that takes one character and goes on as another. -/
theorem SteadyAt.behind {f g : List Char → Option τ} {rest : List Char} (hg : SteadyAt g rest) {c : Char}
    (hc : c ≠ '\r') (h : ∀ rest, f (c :: rest) = g rest) : SteadyAt f (c :: rest) where
  took t ht := (hg.took t ((h rest).symm.trans ht)).cons hc
  feed := by
    rw [h, ← hg.feed]
    exact h (rest ++ ['\n'])

/-- A step that no text with the character in front passes. -/
theorem steadyAt_refused {f : List Char → Option τ} {c : Char} (h : ∀ rest, f (c :: rest) = none) (rest : List Char) :
    SteadyAt f (c :: rest) := steadyAt_fail (h rest) (h (rest ++ ['\n']))

/-! Characters of one class are taken up to the first that is none, and a line feed ends them. -/

theorem dropWhile_feed {p : Char → Bool} (hp : p '\n' = false) (cs : List Char) :
    (cs ++ ['\n']).dropWhile p = cs.dropWhile p ++ ['\n'] := by
  induction cs with
  | nil => simp [hp]
  | cons c rest ih =>
    rw [List.cons_append, List.dropWhile_cons, List.dropWhile_cons, ih]
    split <;> rfl

theorem takeWhile_feed {p : Char → Bool} (hp : p '\n' = false) (cs : List Char) :
    (cs ++ ['\n']).takeWhile p = cs.takeWhile p := by
  induction cs with
  | nil => simp [hp]
  | cons c rest ih => rw [List.cons_append, List.takeWhile_cons, List.takeWhile_cons, ih]

theorem steady_dropWhile {p : Char → Bool} (hfeed : p '\n' = false) (hreturn : p '\r' = false) :
    Steady fun cs : List Char => some (cs.dropWhile p) := fun cs =>
  ⟨fun _ h => Option.some.inj h ▸ took_dropWhile hreturn cs, congrArg some (dropWhile_feed hfeed cs)⟩

theorem steady_spaces : Steady fun cs => some (skipSpaces cs) := steady_dropWhile rfl rfl

theorem length_skipSpaces_le (cs : List Char) : (skipSpaces cs).length ≤ cs.length :=
  ((steady_spaces cs).took _ rfl).length_le

theorem Steady.behindSpaces {f : List Char → Option τ} (hf : Steady f) : Steady fun cs => f (skipSpaces cs) :=
  steady_spaces.bind hf

/-! ## (3) Words in front -/

/-- The step `f` behind a word, and the step `g` on a text that does not start with the word. -/
def afterWord (w : List Char) (f g : List Char → Option β) (cs : List Char) : Option β :=
  if w <+: cs then f (cs.drop w.length) else g cs

theorem afterWord_append (w rest : List Char) (f g : List Char → Option β) : afterWord w f g (w ++ rest) = f rest := by
  simp [afterWord]

theorem afterWord_other (w : List Char) {cs : List Char} (h : ∀ rest, cs ≠ w ++ rest) (f g : List Char → Option β) :
    afterWord w f g cs = g cs := by
  rw [afterWord, if_neg]
  rintro ⟨rest, rfl⟩
  exact h rest rfl

theorem afterWord_congr {w cs : List Char} {f f' g g' : List Char → Option β}
    (hf : ∀ rest, cs = w ++ rest → f rest = f' rest) (hg : g cs = g' cs) :
    afterWord w f g cs = afterWord w f' g' cs := by
  by_cases hw : w <+: cs
  · obtain ⟨rest, rfl⟩ := hw
    rw [afterWord_append, afterWord_append, hf rest rfl]
  · rw [afterWord, afterWord, if_neg hw, if_neg hw, hg]

@[simp] theorem afterWord_nil (c : Char) (f g : List Char → Option β) : afterWord [c] f g [] = g [] := by
  simp [afterWord]

@[simp] theorem afterWord_cons (c d : Char) (rest : List Char) (f g : List Char → Option β) :
    afterWord [c] f g (d :: rest) = if c = d then f rest else g (d :: rest) := by
  simp [afterWord]

theorem SteadyAt.word {w : List Char} (hfeed : '\n' ∉ w) (hreturn : '\r' ∉ w) {f g : List Char → Option τ}
    {cs : List Char} (hf : ∀ rest, SteadyAt f rest) (hg : SteadyAt g cs) : SteadyAt (afterWord w f g) cs := by
  by_cases hw : w <+: cs
  · obtain ⟨rest, rfl⟩ := hw
    have hcut : fed (w ++ rest) = w ++ fed rest := List.append_assoc w rest ['\n']
    refine ⟨fun t h => ?_, ?_⟩
    · rw [afterWord_append] at h
      exact Took.trans ⟨w, rfl, hreturn⟩ ((hf rest).took t h)
    · rw [hcut, afterWord_append, afterWord_append, (hf rest).feed]
  · -- the line feed is no part of the word
    have hw' : ¬ w <+: fed cs := by
      intro h
      rcases List.prefix_concat_iff.mp h with rfl | h
      · simp at hfeed
      · exact hw h
    refine ⟨fun t h => ?_, ?_⟩
    · rw [afterWord, if_neg hw] at h
      exact hg.took t h
    · rw [afterWord, if_neg hw', afterWord, if_neg hw, hg.feed]

theorem Steady.word {w : List Char} (hfeed : '\n' ∉ w) (hreturn : '\r' ∉ w) {f g : List Char → Option τ}
    (hf : Steady f) (hg : Steady g) : Steady (afterWord w f g) := fun cs => (hg cs).word hfeed hreturn hf

/-- The same for a single character. -/
theorem Steady.sign {c : Char} (hc : c ≠ '\n' ∧ c ≠ '\r') {f g : List Char → Option τ} (hf : Steady f)
    (hg : Steady g) : Steady (afterWord [c] f g) :=
  hf.word (by simpa using hc.1.symm) (by simpa using hc.2.symm) hg

/-- The step `f` on a text that starts with a character of the class, and the step `g` on any other. -/
def onHead (p : Char → Bool) (f g : List Char → Option β) (cs : List Char) : Option β :=
  if cs.head?.any p then f cs else g cs

theorem Steady.onHead {p : Char → Bool} (hp : p '\n' = false) {f g : List Char → Option τ}
    (hf : Steady f) (hg : Steady g) : Steady (onHead p f g) := by
  intro cs
  have hhead : (fed cs).head?.any p = cs.head?.any p := by
    cases cs with
    | nil => simpa [fed] using hp
    | cons c rest => rfl
  by_cases h : cs.head?.any p = true
  · constructor
    · intro t ht
      rw [Toml.onHead, if_pos h] at ht
      exact (hf cs).took t ht
    · rw [Toml.onHead, Toml.onHead, hhead, if_pos h, if_pos h, (hf cs).feed]
  · constructor
    · intro t ht
      rw [Toml.onHead, if_neg h] at ht
      exact (hg cs).took t ht
    · rw [Toml.onHead, Toml.onHead, hhead, if_neg h, if_neg h, (hg cs).feed]

theorem scanExact_eq (c : Char) (cs : List Char) : scanExact c cs = afterWord [c] some (fun _ => none) cs := by
  cases cs with
  | nil => simp [scanExact]
  | cons d rest => simp [scanExact, eq_comm]

theorem steady_exact {c : Char} (hc : c ≠ '\n' ∧ c ≠ '\r') : Steady (scanExact c) :=
  (steady_self.sign hc steady_fail).congr (scanExact_eq c)

end Steps

end ConfigTemplate.Toml
