/-
  ConfigTemplate.Proofs.Keys — module keys by the names in them.

  (1) `eq_of_names`: a key is its organization, its package and its module's name.
  (2) `of?_ok`, `of?_error`: which names make which key, and which part is refused.
-/
import ConfigTemplate.ModuleKey
import Mathlib.Tactic.SplitIfs

namespace ConfigTemplate.ModuleKey

open Text (allBlank)

/-! ## (1) Keys with the same names -/

/-- The root module is the one that has its package's name. -/
theorem module_eq_package {key : ModuleKey} : key.module = key.package ↔ key.sub = none := by
  unfold module
  cases h : key.sub with
  | none => simp
  | some m => simpa using (key.sub_named m h).2

theorem eq_of_names {a b : ModuleKey} (ho : a.org = b.org) (hp : a.package = b.package)
    (hm : a.module = b.module) : a = b := by
  have hs : a.sub = b.sub := by
    by_cases hroot : a.module = a.package
    · rw [module_eq_package.mp hroot, module_eq_package.mp (hm ▸ hp ▸ hroot)]
    · have hother : ¬ b.module = b.package := hm ▸ hp ▸ hroot
      rw [module_eq_package] at hroot hother
      obtain ⟨m, hma⟩ := Option.ne_none_iff_exists'.mp hroot
      obtain ⟨n, hnb⟩ := Option.ne_none_iff_exists'.mp hother
      simpa [module, hma, hnb] using hm
  cases a
  cases b
  simp_all

/-- No key's module has a blank name. -/
theorem module_named (key : ModuleKey) : allBlank key.module = false := by
  unfold module
  cases h : key.sub with
  | none => exact key.package_named
  | some m => exact (key.sub_named m h).1

/-! ## (2) The key of some names -/

theorem of?_ok {org package : String} {module : Option String} {key : ModuleKey} :
    of? org package module = .ok key ↔
      org = key.org ∧ package = key.package ∧ module.getD package = key.module := by
  constructor
  · intro h
    cases module with
    | none =>
      simp only [of?, root?] at h
      split_ifs at h
      obtain rfl := Except.ok.inj h
      exact ⟨rfl, rfl, rfl⟩
    | some m =>
      simp only [of?, named?] at h
      split_ifs at h with ho hp hm he
      · obtain rfl := Except.ok.inj h
        exact ⟨rfl, rfl, he⟩
      · obtain rfl := Except.ok.inj h
        exact ⟨rfl, rfl, rfl⟩
  · rintro ⟨rfl, rfl, hm⟩
    cases module with
    | none =>
      rw [of?, root?, dif_neg (by simp [key.org_named]), dif_neg (by simp [key.package_named])]
      exact congrArg Except.ok (eq_of_names rfl rfl hm)
    | some m =>
      obtain rfl : m = key.module := hm
      rw [of?, named?, dif_neg (by simp [key.org_named]), dif_neg (by simp [key.package_named]),
        dif_neg (by simp [key.module_named])]
      by_cases he : key.module = key.package
      · rw [dif_pos he]
        exact congrArg Except.ok (eq_of_names rfl rfl he.symm)
      · rw [dif_neg he]
        exact congrArg Except.ok (eq_of_names rfl rfl rfl)

/-- The organization is looked at before the package, and the package before the module. -/
theorem of?_error {org package : String} {module : Option String} {p : KeyProblem} :
    of? org package module = .error p ↔
      (allBlank org = true ∧ p = .blankOrg) ∨
      (allBlank org = false ∧ allBlank package = true ∧ p = .blankPackage) ∨
      (allBlank org = false ∧ allBlank package = false ∧ ∃ m, module = some m ∧ allBlank m = true ∧ p = .blankModule) := by
  cases module with
  | none =>
    simp only [of?, root?]
    split_ifs with ho hp
    · simp [ho, @eq_comm _ p]
    · simp [ho, hp, @eq_comm _ p]
    · simp [ho, hp]
  | some m =>
    simp only [of?, named?]
    split_ifs with ho hp hm he
    · simp [ho, @eq_comm _ p]
    · simp [ho, hp, @eq_comm _ p]
    · simp [ho, hp, hm, @eq_comm _ p]
    · simp [ho, hp, hm]
    · simp [ho, hp, hm]

end ConfigTemplate.ModuleKey
