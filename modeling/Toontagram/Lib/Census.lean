import Mathlib.Combinatorics.Enumerative.DoubleCounting
import Mathlib.Data.Set.Card
import Toontagram.Lib.DocStore

/-!
# Counting documents

A collection of documents without fields is a set of names, and a query on it
counts that set (`Store.ncard_has`). A relation that is kept as two such families
of collections, one for each direction, is counted by either of them:

- `ncard_le_of_agree`: two sets that agree except at some points have sizes that
  differ by no more than these points;
- `sum_ncard_comm`: the pairs of a relation, counted from both ends.
-/

namespace Toontagram.Lib

/-- The number of documents a query returns is the number of names that exist. -/
theorem Store.ncard_has {C V : Type} [DecidableEq C] (s : Store C V) (c : C) :
    {id | s.has ⟨c, id⟩ = true}.ncard = (s.documents c).length := by
  have hset : {id | s.has ⟨c, id⟩ = true} = ↑((s.documents c).map Prod.fst).toFinset := by
    ext id
    rw [Finset.mem_coe, List.mem_toFinset, mem_documents_map_fst]
    rfl
  rw [hset, Set.ncard_coe_finset, List.toFinset_card_of_nodup (s.nodup_documents c),
    List.length_map]

theorem Store.finite_has {C V : Type} [DecidableEq C] (s : Store C V) (c : C) :
    {id | s.has ⟨c, id⟩ = true}.Finite := by
  refine ((s.documents c).map Prod.fst).toFinset.finite_toSet.subset fun id hid => ?_
  rw [Finset.mem_coe, List.mem_toFinset, mem_documents_map_fst]
  exact hid

section

variable {α : Type} {s t busy : Set α}

/-- A set that is another one except at some points is not larger by more than these. -/
theorem ncard_le_of_agree (hagree : ∀ a, a ∉ busy → a ∈ s → a ∈ t) (ht : t.Finite)
    (hbusy : busy.Finite) : s.ncard ≤ t.ncard + busy.ncard := by
  have hsub : s ⊆ t ∪ busy := by
    intro a ha
    by_cases hb : a ∈ busy
    · exact Or.inr hb
    · exact Or.inl (hagree a hb ha)
  calc s.ncard ≤ (t ∪ busy).ncard := Set.ncard_le_ncard hsub (ht.union hbusy)
    _ ≤ t.ncard + busy.ncard := Set.ncard_union_le t busy

open Classical in
/-- The pairs of a relation among finitely many points, counted from both ends. -/
theorem sum_ncard_comm {r : α → α → Prop} {points : Finset α}
    (hr : ∀ a b, r a b → a ∈ points ∧ b ∈ points) :
    ∑ b ∈ points, {a | r a b}.ncard = ∑ a ∈ points, {b | r a b}.ncard := by
  have hbelow : ∀ b, {a | r a b}.ncard = (points.bipartiteBelow r b).card := by
    intro b
    rw [← Set.ncard_coe_finset]
    congr 1
    ext a
    simpa using fun h => (hr a b h).1
  have habove : ∀ a, {b | r a b}.ncard = (points.bipartiteAbove r a).card := by
    intro a
    rw [← Set.ncard_coe_finset]
    congr 1
    ext b
    simpa using fun h => (hr a b h).2
  simp only [hbelow, habove]
  exact (Finset.sum_card_bipartiteAbove_eq_sum_card_bipartiteBelow r).symm

end

end Toontagram.Lib
