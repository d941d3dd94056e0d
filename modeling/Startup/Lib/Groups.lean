import Mathlib.Data.List.Induction
import Mathlib.Data.List.Nodup
import Mathlib.Tactic.Common

/-!
# Lists in groups

`groups key l` has the elements of a list by their keys: the keys in the order in which
they come first, each with its elements in their order.

* `groups_concat`: an element at the end joins the group of its key, or opens one.
* `nodup_groups`: no two groups have the same key.
-/

namespace Startup.Lib

universe u v

variable {α : Type u} {κ : Type v} [DecidableEq κ]

/-- The elements of a list by their keys. -/
def groups (key : α → κ) (l : List α) : List (κ × List α) :=
  (l.map key).eraseDups.map fun k => (k, l.filter fun a => key a = k)

theorem eraseDups_concat (l : List κ) (a : κ) :
    (l ++ [a]).eraseDups = if a ∈ l then l.eraseDups else l.eraseDups ++ [a] := by
  rw [List.eraseDups_append]
  split_ifs with h
  · simp [List.removeAll, h]
  · simp [List.removeAll, h, List.eraseDups_cons]

theorem nodup_eraseDups (l : List κ) : l.eraseDups.Nodup := by
  induction l using List.reverseRecOn with
  | nil => exact List.nodup_nil
  | append_singleton l a ih =>
    rw [eraseDups_concat]
    split_ifs with h
    · exact ih
    · rw [← List.concat_eq_append]
      exact ih.concat (by simpa using h)

@[simp] theorem map_fst_groups (key : α → κ) (l : List α) :
    (groups key l).map Prod.fst = (l.map key).eraseDups := by
  simp [groups, Function.comp_def]

theorem nodup_groups (key : α → κ) (l : List α) : ((groups key l).map Prod.fst).Nodup := by
  rw [map_fst_groups]
  exact nodup_eraseDups _

theorem mem_groups (key : α → κ) (l : List α) (k : κ) :
    k ∈ (groups key l).map Prod.fst ↔ k ∈ l.map key := by
  rw [map_fst_groups, List.mem_eraseDups]

/-- An element at the end joins the group of its key, or opens one. -/
theorem groups_concat (key : α → κ) (l : List α) (a : α) :
    groups key (l ++ [a]) =
      if key a ∈ (groups key l).map Prod.fst then
        (groups key l).map fun g => if g.1 = key a then (g.1, g.2 ++ [a]) else g
      else groups key l ++ [(key a, [a])] := by
  have hother : ∀ k, k ≠ key a →
      (l ++ [a]).filter (fun b => key b = k) = l.filter fun b => key b = k := by
    intro k hk
    simp [List.filter_append, Ne.symm hk]
  have hgroup : (l ++ [a]).filter (fun b => key b = key a) =
      (l.filter fun b => key b = key a) ++ [a] := by
    simp [List.filter_append]
  simp only [mem_groups]
  unfold groups
  rw [List.map_append, List.map_singleton, eraseDups_concat]
  split_ifs with h
  · rw [List.map_map]
    apply List.map_congr_left
    intro k _
    by_cases hk : k = key a
    · subst hk
      simp only [Function.comp_apply, if_true, hgroup]
    · simp only [Function.comp_apply, if_neg hk, hother k hk]
  · rw [List.map_append, List.map_singleton]
    congr 1
    · apply List.map_congr_left
      intro k hk
      have hne : k ≠ key a := by
        intro heq
        subst heq
        exact h (List.mem_eraseDups.mp hk)
      rw [hother k hne]
    · have hnone : l.filter (fun b => key b = key a) = [] := by
        apply List.filter_eq_nil_iff.mpr
        intro b hb heq
        exact h (List.mem_map.mpr ⟨b, hb, by simpa using heq⟩)
      rw [hgroup, hnone]
      rfl

end Startup.Lib
