/-
  ConfigTemplate.Proofs.First — the first bad member of a list: the first bad field of a
  record, the first bad variable of a group, the first bad entry of a manifest.

  (1) `FirstOf`, with what it says of a list by its head and of two lists in a row.
  (2) `firstOf_self`, `exists_firstOf`: there is a first bad member as soon as there is a
      bad one.
  (3) `throughFirst`: a list cut behind its first bad member.
  (4) `eraseDups_ordered`: each member once, in the order in which the members come up.
-/
import Mathlib.Data.List.Basic
import Mathlib.Data.List.Induction

namespace ConfigTemplate

/-- Some element has `Q`, and none before it has `P`. -/
def FirstOf {α : Type} (P Q : α → Prop) (l : List α) : Prop :=
  ∃ before a after, l = before ++ a :: after ∧ (∀ b ∈ before, ¬ P b) ∧ Q a

section

variable {α β : Type} {P Q : α → Prop}

theorem firstOf_nil : ¬ FirstOf P Q [] := by
  intro h
  obtain ⟨before, a, after, h, -⟩ := h
  simp at h

theorem firstOf_cons (a : α) (rest : List α) : FirstOf P Q (a :: rest) ↔ Q a ∨ (¬ P a ∧ FirstOf P Q rest) := by
  constructor
  · intro h
    obtain ⟨before, b, after, h, hb, hq⟩ := h
    cases before with
    | nil =>
      obtain ⟨rfl, -⟩ : a = b ∧ rest = after := by simpa using h
      exact Or.inl hq
    | cons c before =>
      obtain ⟨rfl, rfl⟩ : a = c ∧ rest = before ++ b :: after := by simpa using h
      exact Or.inr ⟨hb a (by simp), before, b, after, rfl, fun d hd => hb d (by simp [hd]), hq⟩
  · intro h
    rcases h with hq | ⟨ha, before, b, after, rfl, hb, hq⟩
    · exact ⟨[], a, rest, rfl, by simp, hq⟩
    · refine ⟨a :: before, b, after, rfl, fun d hd => ?_, hq⟩
      rcases List.mem_cons.mp hd with rfl | hd
      · exact ha
      · exact hb d hd

theorem firstOf_append (l m : List α) :
    FirstOf P Q (l ++ m) ↔ FirstOf P Q l ∨ ((∀ a ∈ l, ¬ P a) ∧ FirstOf P Q m) := by
  induction l with
  | nil => simp [firstOf_nil]
  | cons a rest ih =>
    simp only [List.cons_append, firstOf_cons, ih, List.forall_mem_cons, and_or_left, or_assoc, and_assoc]

theorem firstOf_self (l : List α) : FirstOf P P l ↔ ∃ a ∈ l, P a := by
  induction l with
  | nil => simp [firstOf_nil]
  | cons a rest ih =>
    simp only [firstOf_cons, ih, List.mem_cons, exists_eq_or_imp]
    by_cases ha : P a
    · simp [ha]
    · simp [ha]

/-- When `P` says that there is something to report, a first report means that one has `P`. -/
theorem exists_firstOf {R : β → α → Prop} (hP : ∀ a, P a ↔ ∃ u, R u a) (l : List α) :
    (∃ u, FirstOf P (R u) l) ↔ ∃ a ∈ l, P a := by
  induction l with
  | nil => simp [firstOf_nil]
  | cons a rest ih =>
    simp only [firstOf_cons, exists_or, exists_and_left, ih, ← hP]
    by_cases ha : P a
    · simp [ha]
    · simp [ha]

end

/-- The members up to the first that has `P`, and that one. -/
def throughFirst {α : Type} (P : α → Prop) [DecidablePred P] (l : List α) : List α :=
  l.takeWhile (fun a => ¬ P a) ++ (l.find? fun a => P a).toList

section

variable {α : Type} {P : α → Prop} [DecidablePred P]

theorem throughFirst_cons_of_pos {a : α} (h : P a) (rest : List α) : throughFirst P (a :: rest) = [a] := by
  simp [throughFirst, h]

theorem throughFirst_cons_of_neg {a : α} (h : ¬ P a) (rest : List α) :
    throughFirst P (a :: rest) = a :: throughFirst P rest := by
  simp [throughFirst, h]

theorem throughFirst_append_of_pos {l : List α} (h : ∃ a ∈ l, P a) (m : List α) :
    throughFirst P (l ++ m) = throughFirst P l := by
  induction l with
  | nil => simp at h
  | cons a rest ih =>
    by_cases ha : P a
    · rw [List.cons_append, throughFirst_cons_of_pos ha, throughFirst_cons_of_pos ha]
    · have hrest : ∃ b ∈ rest, P b := by simpa [ha] using h
      rw [List.cons_append, throughFirst_cons_of_neg ha, throughFirst_cons_of_neg ha, ih hrest]

theorem throughFirst_append_of_neg {l : List α} (h : ∀ a ∈ l, ¬ P a) (m : List α) :
    throughFirst P (l ++ m) = l ++ throughFirst P m := by
  induction l with
  | nil => rfl
  | cons a rest ih =>
    rw [List.cons_append, throughFirst_cons_of_neg (h a (by simp)), ih fun b hb => h b (by simp [hb]), List.cons_append]

end

/-- The members that `p` keeps, each once, stand in the order in which they come up in the whole list. -/
theorem eraseDups_ordered {α : Type} [BEq α] [LawfulBEq α] (p : α → Bool) (l : List α) :
    (l.filter p).eraseDups.Pairwise fun a b => l.idxOf a < l.idxOf b := by
  induction l using List.reverseRecOn with
  | nil => simp
  | append_singleton l a ih =>
    have hplace : ∀ b ∈ (l.filter p).eraseDups, (l ++ [a]).idxOf b = l.idxOf b := fun b hb =>
      List.idxOf_append_of_mem (List.mem_filter.mp (List.mem_eraseDups.mp hb)).1
    have hold : (l.filter p).eraseDups.Pairwise fun b c => (l ++ [a]).idxOf b < (l ++ [a]).idxOf c := by
      refine ih.imp_of_mem fun {b c} hb hc h => ?_
      rwa [hplace b hb, hplace c hc]
    rw [List.filter_append, List.eraseDups_append]
    by_cases ha : p a = true ∧ a ∉ l
    · -- one more member, behind all others
      obtain ⟨hp, hnew⟩ := ha
      have hlast : (List.removeAll [a] (l.filter p)).eraseDups = [a] := by
        simp [List.removeAll, hnew, List.eraseDups_cons]
      rw [List.filter_singleton, hp, cond_true, hlast, List.pairwise_append]
      refine ⟨hold, List.pairwise_singleton _ _, fun b hb c hc => ?_⟩
      obtain rfl := List.mem_singleton.mp hc
      rw [hplace b hb, List.idxOf_append_of_notMem hnew, List.idxOf_cons_self, Nat.add_zero]
      exact List.idxOf_lt_length_of_mem (List.mem_filter.mp (List.mem_eraseDups.mp hb)).1
    · have hnone : List.removeAll ([a].filter p) (l.filter p) = [] := by
        rw [List.removeAll, List.filter_eq_nil_iff]
        intro b hb
        obtain ⟨hb, hp⟩ := List.mem_filter.mp hb
        obtain rfl := List.mem_singleton.mp hb
        simpa [hp] using ha
      rw [hnone, List.eraseDups_nil, List.append_nil]
      exact hold

end ConfigTemplate
