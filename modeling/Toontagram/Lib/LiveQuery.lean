import Mathlib.Data.List.Nodup
import Mathlib.Data.List.Perm.Basic

/-!
# A query that is listened to

A listener is not given the results of its query but the differences between
one result and the next. The elements of a result have different keys; `added`
are those whose key the result before did not have, in the order of the result.

A listener that appends what is added has, up to order, every result that only
grows (`append_added_perm`). The order of the query it keeps only if what is
added belongs at the end (`pairwise_append_iff`).
-/

namespace Toontagram.Lib

variable {α β κ : Type} [DecidableEq κ] {key : α → κ}

/-- The elements of the result `new` that the result `old` does not have. -/
def added (key : α → κ) (old new : List α) : List α :=
  new.filter fun x => key x ∉ old.map key

theorem added_sublist (key : α → κ) (old new : List α) : (added key old new).Sublist new :=
  List.filter_sublist

theorem mem_added {old new : List α} {x : α} :
    x ∈ added key old new ↔ x ∈ new ∧ key x ∉ old.map key := by
  rw [added, List.mem_filter, decide_eq_true_eq]

/-- The old result and what is added are the new one, if the old one is still
part of it. -/
theorem append_added_perm {old new : List α} (hold : (old.map key).Nodup)
    (hnew : (new.map key).Nodup) (hkept : ∀ x ∈ old, x ∈ new) :
    (old ++ added key old new).Perm new := by
  have hnodup : (old ++ added key old new).Nodup := by
    refine List.nodup_append.mpr ⟨hold.of_map key, (hnew.of_map key).filter _, ?_⟩
    rintro x hx y hy rfl
    exact (mem_added.mp hy).2 (List.mem_map_of_mem hx)
  rw [List.perm_ext_iff_of_nodup hnodup (hnew.of_map key)]
  intro x
  rw [List.mem_append, mem_added]
  constructor
  · rintro (hx | ⟨hx, -⟩)
    · exact hkept x hx
    · exact hx
  · intro hx
    by_cases hkey : key x ∈ old.map key
    · -- keys are different, so the old element of this key is `x`
      obtain ⟨y, hy, hyx⟩ := List.mem_map.mp hkey
      have hsame : y = x := List.inj_on_of_nodup_map hnew (hkept y hy) hx hyx
      exact Or.inl (hsame ▸ hy)
    · exact Or.inr ⟨hx, hkey⟩

/-- Two sorted lists one after the other are sorted if nothing of the second
belongs before something of the first. -/
theorem pairwise_append_iff {r : β → β → Prop} {l l' : List β} (hl : l.Pairwise r)
    (hl' : l'.Pairwise r) :
    (l ++ l').Pairwise r ↔ ∀ x ∈ l, ∀ y ∈ l', r x y := by
  rw [List.pairwise_append]
  exact ⟨fun h => h.2.2, fun h => ⟨hl, hl', h⟩⟩

end Toontagram.Lib
