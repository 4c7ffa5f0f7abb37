import Mathlib.Data.List.Infix
import Toontagram.Lib.Gather

/-!
# Rows of a list

A table reads its lists by rows: `l[row]?`, for a row that was counted in one
list and is read in another, or counted at one time and read at another.

- `rows_agree_iff`: two lists agree on all rows of the first exactly when it is a
  prefix of the second. `filter_prefix_iff` says when a filtered list is a
  prefix of the whole one, `concat_prefix_concat` when two lists with an element
  appended to both still are.
- `GrewWithout x l l'`: `l'` is `l` with elements other than `x` appended. Such
  a list has `x` in the rows where it was before (`GrewWithout.getElem?_iff`),
  and this is all that shelving does around an element that is on its shelf
  (`GrewWithout.shelve`).
-/

namespace Toontagram.Lib

variable {α κ : Type}

/-- The rows of a table: the cells of the rows it counts. -/
def rows (count : Nat) (cell : Nat → Option α) : List α := (List.range count).filterMap cell

/-- A table that counts and shows one list shows that list. -/
theorem rows_getElem? (l : List α) : rows l.length (fun row => l[row]?) = l := by
  induction l with
  | nil => rfl
  | cons a l ih =>
    rw [rows, List.length_cons, List.range_succ_eq_map,
      List.filterMap_cons_some (List.getElem?_cons_zero), List.filterMap_map]
    exact congrArg (a :: ·) ih

/-- Each row of `l` has an element in `m`, and the same one. -/
theorem rows_agree_iff {l m : List α} :
    (∀ row, row < l.length → ∃ x, m[row]? = some x ∧ l[row]? = some x) ↔ l <+: m := by
  rw [List.prefix_iff_getElem?]
  refine forall_congr' fun row => forall_congr' fun hrow => ?_
  rw [List.getElem?_eq_getElem hrow]
  constructor
  · rintro ⟨x, hx, hrow⟩
    rw [hx, hrow]
  · exact fun h => ⟨_, h, rfl⟩

/-- What a filter leaves is a prefix when nothing that stays stands behind
something that goes. -/
theorem filter_prefix_iff {l : List α} {p : α → Bool} :
    l.filter p <+: l ↔ l.Pairwise fun a b => p b = true → p a = true := by
  induction l with
  | nil => simp
  | cons a l ih =>
    rw [List.pairwise_cons, ← ih]
    cases ha : p a with
    | true => simp [ha]
    | false =>
      -- the first element goes, so none may stay
      rw [List.filter_cons_of_neg (by simp [ha])]
      constructor
      · intro hpre
        have hnil : l.filter p = [] := by
          cases hl : l.filter p with
          | nil => rfl
          | cons b bs =>
            rw [hl, List.cons_prefix_cons] at hpre
            have hb : p b = true := by
              have hmem : b ∈ l.filter p := hl ▸ List.mem_cons_self
              exact (List.mem_filter.mp hmem).2
            rw [hpre.1, ha] at hb
            cases hb
        refine ⟨fun b hb hpb => absurd hpb (List.filter_eq_nil_iff.mp hnil b hb), ?_⟩
        rw [hnil]
        exact List.nil_prefix
      · rintro ⟨hnone, -⟩
        rw [List.filter_eq_nil_iff.mpr fun b hb hpb => by cases hnone b hb hpb]
        exact List.nil_prefix

/-- A new element goes to the same row of both lists only if there was nothing
more in the second. -/
theorem concat_prefix_concat {l m : List α} {x : α} (h : l <+: m) (hx : x ∉ m) :
    l ++ [x] <+: m ++ [x] ↔ l = m := by
  refine ⟨fun hpre => ?_, fun heq => heq ▸ List.prefix_rfl⟩
  obtain ⟨more, rfl⟩ := h
  rw [List.append_assoc, List.prefix_append_right_inj] at hpre
  cases more with
  | nil => exact (List.append_nil l).symm
  | cons y ys =>
    rw [List.cons_append, List.cons_prefix_cons] at hpre
    exact absurd (List.mem_append_right l (hpre.1 ▸ List.mem_cons_self)) hx

/-- A prefix that has every element of a duplicate-free list is the whole list. -/
theorem eq_of_prefix_of_subset {l m : List α} (h : l <+: m) (hm : m.Nodup) (hsub : m ⊆ l) :
    l = m := by
  obtain ⟨more, rfl⟩ := h
  cases more with
  | nil => exact (List.append_nil l).symm
  | cons y ys =>
    have hy : y ∈ l := hsub (List.mem_append_right l List.mem_cons_self)
    exact absurd rfl ((List.nodup_append.mp hm).2.2 y hy y List.mem_cons_self)

/-! ## Growing around an element -/

/-- `l'` is `l` with elements other than `x` appended. -/
def GrewWithout (x : α) (l l' : List α) : Prop := ∃ added, l' = l ++ added ∧ x ∉ added

namespace GrewWithout

variable {x : α} {l l' l'' : List α}

theorem refl (x : α) (l : List α) : GrewWithout x l l :=
  ⟨[], (List.append_nil l).symm, List.not_mem_nil⟩

theorem trans (h : GrewWithout x l l') (h' : GrewWithout x l' l'') : GrewWithout x l l'' := by
  obtain ⟨added, rfl, hx⟩ := h
  obtain ⟨added', rfl, hx'⟩ := h'
  exact ⟨added ++ added', List.append_assoc .., fun hmem => (List.mem_append.mp hmem).elim hx hx'⟩

theorem concat {y : α} (h : x ≠ y) (l : List α) : GrewWithout x l (l ++ [y]) :=
  ⟨[y], rfl, fun hmem => h (List.mem_singleton.mp hmem)⟩

/-- `x` is in the rows where it was. -/
theorem getElem?_iff (h : GrewWithout x l l') (row : Nat) :
    l'[row]? = some x ↔ l[row]? = some x := by
  obtain ⟨added, rfl, hx⟩ := h
  rcases Nat.lt_or_ge row l.length with hlt | hge
  · rw [List.getElem?_append_left hlt]
  · rw [List.getElem?_append_right hge, List.getElem?_eq_none hge]
    exact iff_of_false (fun hrow => hx (List.mem_of_getElem? hrow)) nofun

/-- An element that is on its shelf is not shelved again. -/
theorem shelve [DecidableEq α] [DecidableEq κ] {key : α → κ} {s : Shelves κ α}
    (hx : x ∈ s (key x)) (y : α) (k : κ) : GrewWithout x (s k) (Lib.shelve key s y k) := by
  unfold Lib.shelve
  split
  next hk =>
    by_cases hy : y ∈ s k
    · rw [gather_of_mem hy]
      exact refl x _
    · rw [gather_of_not_mem hy]
      refine concat ?_ (s k)
      rintro rfl
      exact hy (hk ▸ hx)
  next => exact refl x _

end GrewWithout

end Toontagram.Lib
