/-
  ConfigTemplate.Proofs.Growth — what making directories and opening a file for writing
  does to a file tree: nothing that is there is lost.

  (1) `node?_set`: what is found after a place was given a new node.
  (2) `Grown`: the tree has all that it had, as it was, and perhaps some more. It is
      reflexive and transitive, and giving a vacant place a node is one case.
  (3) `find_vacant`: the place that a path leads to, if nothing is there, is vacant.
  (4) `makeDirs_grown`, `openEnd_grown`: what is new is a directory, or an empty file.
-/
import ConfigTemplate.FileTree
import ConfigTemplate.Proofs.Results
import Mathlib.Tactic.SplitIfs

namespace ConfigTemplate.FileTree

/-! ## (1) A new node -/

theorem lookup_replaced (nodes : List (Place × Node)) (place : Place) (n : Node) (q : Place) :
    (nodes.map fun entry => if entry.1 = place then (place, n) else entry).lookup q =
      if q = place then (nodes.lookup place).map fun _ => n else nodes.lookup q := by
  induction nodes with
  | nil => simp
  | cons entry rest ih =>
    obtain ⟨p, m⟩ := entry
    rw [List.map_cons]
    by_cases hp : p = place
    · subst hp
      by_cases hq : q = p
      · simp [hq]
      · simp [hq, ih, List.lookup_cons, beq_false_of_ne hq]
    · by_cases hq : q = p
      · simp [hp, hq]
      · have hq' : (place == p) = false := beq_false_of_ne (Ne.symm hp)
        simp [hp, ih, List.lookup_cons, beq_false_of_ne hq, hq']

theorem node?_set (t : FileTree) (place : Place) (n : Node) (q : Place) :
    (t.set place n).node? q = if q = [] then some .dir else if q = place then some n else t.node? q := by
  by_cases hq : q = []
  · simp [node?, hq]
  · rw [node?, if_neg hq, if_neg hq, node?, if_neg hq, set]
    cases hplace : t.nodes.lookup place with
    | some m => simp [lookup_replaced, hplace]
    | none =>
      by_cases he : q = place
      · subst he
        simp [List.lookup_append, hplace]
      · simp [List.lookup_append, List.lookup_cons, beq_false_of_ne he, he]

@[simp] theorem home_set (t : FileTree) (place : Place) (n : Node) : (t.set place n).home = t.home := by
  unfold set
  split <;> rfl

/-! ## (2) Trees that only grew -/

/-- The tree `t'` has all that `t` has, as it is there; what it has besides is `new`. -/
structure Grown (new : Node → Prop) (t t' : FileTree) : Prop where
  home : t'.home = t.home
  kept : ∀ place n, t.node? place = some n → t'.node? place = some n
  added : ∀ place n, t.node? place = none → t'.node? place = some n → new n

namespace Grown

variable {new new' : Node → Prop} {t t' t'' : FileTree}

theorem refl (t : FileTree) : Grown new t t := by
  refine ⟨rfl, fun _ _ h => h, fun place n hnone hsome => ?_⟩
  rw [hnone] at hsome
  cases hsome

theorem trans (h : Grown new t t') (h' : Grown new t' t'') : Grown new t t'' := by
  refine ⟨h'.home.trans h.home, fun place n hn => h'.kept place n (h.kept place n hn), fun place n hnone hn => ?_⟩
  cases hmid : t'.node? place with
  | none => exact h'.added place n hmid hn
  | some m =>
    have hm := h.added place m hnone hmid
    rw [h'.kept place m hmid] at hn
    exact Option.some.inj hn ▸ hm

theorem mono (hnew : ∀ n, new n → new' n) (h : Grown new t t') : Grown new' t t' :=
  ⟨h.home, h.kept, fun place n hnone hn => hnew n (h.added place n hnone hn)⟩

theorem set {place : Place} {n : Node} (hvacant : t.node? place = none) (hn : new n) : Grown new t (t.set place n) := by
  refine ⟨home_set t place n, fun q m hm => ?_, fun q m hnone hm => ?_⟩
  · rw [node?_set]
    by_cases hq : q = []
    · simpa [hq, node?] using hm
    · have hne : q ≠ place := by
        intro he
        rw [he, hvacant] at hm
        cases hm
      rw [if_neg hq, if_neg hne, hm]
  · rw [node?_set] at hm
    split_ifs at hm with hq he
    · rw [hq] at hnone
      simp [node?] at hnone
    · exact Option.some.inj hm ▸ hn
    · rw [hnone] at hm
      cases hm

end Grown

/-! ## (3) Vacant places -/

theorem walk_vacant {t : FileTree} {names : List String} {here place : Place}
    (h : t.walk names here = .ok (.vacant place)) : t.node? place = none := by
  induction names generalizing here with
  | nil => cases h
  | cons name rest ih =>
    rw [walk] at h
    split at h
    · exact ih h
    split at h
    · exact ih h
    split at h
    · cases h
    split at h
    · exact ih h
    · split at h <;> cases h
    · rename_i hnode
      split at h
      · cases h
        exact hnode
      · cases h

theorem find_vacant {t : FileTree} {path : String} {place : Place} (h : t.find path = .ok (.vacant place)) :
    t.node? place = none := by
  unfold find at h
  split_ifs at h
  · exact walk_vacant h
  · exact walk_vacant h

/-! ## (4) Directories and files that are made -/

theorem makeDir_grown {t t' : FileTree} {path : String} (h : t.makeDir path = .ok t') : Grown (· = .dir) t t' := by
  obtain ⟨found, hfound, h⟩ := Except.bind_eq_ok.mp h
  cases found with
  | dir place => cases h
  | file place bytes slash => cases h
  | vacant place =>
    cases h
    exact .set (find_vacant hfound) rfl

theorem ensureDir_grown {t t' : FileTree} {path : String} (h : t.ensureDir path = .ok t') : Grown (· = .dir) t t' := by
  unfold ensureDir at h
  split at h
  · split_ifs at h
    cases h
    exact .refl t
  · exact makeDir_grown h

/-- Directories that were made before a failure are kept, and nothing else is new. -/
theorem makeUp_grown (paths : List String) (t : FileTree) : Grown (· = .dir) t (t.makeUp paths).1 := by
  induction paths with
  | nil => exact .refl t
  | cons path above ih =>
    rw [makeUp]
    split
    · rename_i made hmade
      exact ensureDir_grown hmade
    · split
      · rename_i t' e hup
        rw [hup] at ih
        exact ih
      · rename_i t' hup
        rw [hup] at ih
        split
        · rename_i made hmade
          exact ih.trans (ensureDir_grown hmade)
        · exact ih
    · exact .refl t

theorem makeDirs_grown (t : FileTree) (path : String) : Grown (· = .dir) t (t.makeDirs path).1 := makeUp_grown _ t

theorem openEnd_grown {t t' : FileTree} {path : String} {place : Place} (h : t.openEnd path = .ok (place, t')) :
    Grown (· = .file .empty) t t' := by
  obtain ⟨found, hfound, h⟩ := Except.bind_eq_ok.mp h
  cases found with
  | dir at_ => cases h
  | file at_ bytes slash =>
    cases slash with
    | true => cases h
    | false =>
      cases h
      exact .refl t
  | vacant at_ =>
    cases h
    exact .set (find_vacant hfound) rfl

end ConfigTemplate.FileTree
