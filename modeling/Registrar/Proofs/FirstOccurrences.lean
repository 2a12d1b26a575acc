import Mathlib.Data.List.Induction
import Mathlib.Data.List.Nodup

namespace List

variable {α : Type} [BEq α] [LawfulBEq α]

theorem eraseDups_append_singleton_of_mem {xs : List α} {x : α} (h : x ∈ xs) :
    (xs ++ [x]).eraseDups = xs.eraseDups := by
  rw [eraseDups_append]
  simp [removeAll, h]

theorem eraseDups_append_singleton_of_not_mem {xs : List α} {x : α} (h : x ∉ xs) :
    (xs ++ [x]).eraseDups = xs.eraseDups ++ [x] := by
  rw [eraseDups_append]
  simp [removeAll, h, eraseDups_cons]

theorem eraseDups_eq_self_of_nodup {xs : List α} (h : xs.Nodup) : xs.eraseDups = xs := by
  induction xs using List.reverseRecOn with
  | nil => rfl
  | append_singleton xs x ih =>
      obtain ⟨hxs, _, hdisjoint⟩ := nodup_append.mp h
      have hnew : x ∉ xs := fun hx => hdisjoint x hx x mem_cons_self rfl
      rw [eraseDups_append_singleton_of_not_mem hnew, ih hxs]

theorem nodup_eraseDups (xs : List α) : xs.eraseDups.Nodup := by
  induction xs using List.reverseRecOn with
  | nil => exact nodup_nil
  | append_singleton xs x ih =>
      by_cases h : x ∈ xs
      · rwa [eraseDups_append_singleton_of_mem h]
      · rw [eraseDups_append_singleton_of_not_mem h, nodup_append]
        refine ⟨ih, nodup_singleton x, fun y hy z hz heq => h ?_⟩
        rw [← mem_singleton.mp hz, ← heq]
        exact mem_eraseDups.mp hy

theorem Perm.eraseDups {xs ys : List α} (h : xs.Perm ys) : xs.eraseDups.Perm ys.eraseDups := by
  rw [perm_ext_iff_of_nodup (nodup_eraseDups xs) (nodup_eraseDups ys)]
  intro x
  rw [mem_eraseDups, mem_eraseDups, h.mem_iff]

end List
