import Mathlib.Data.List.Nodup
import Mathlib.Data.List.Perm.Basic
import Mathlib.Data.List.Perm.Lattice

/-!
# Lists that callbacks fill

An accumulator that independent callbacks fill one element at a time: `gather`
takes an element in unless it is there already, and rearranges the list when it
did. Which callbacks come, in which order and how often does not matter for
what the list contains.

A `Shelves` sorts elements by a key: one list for every key, each element
gathered into the list of its own key. `shelve` is one element and
`List.foldl (shelve key)` a batch of them, in which elements may come again.

- `mem_gather`, `nodup_gather`, `gather_perm`: one element.
- `Shelved`: no shelf holds an element twice, and every element is on the shelf
  of its key; `Shelved.shelve` says that shelving keeps it.
- `prefix_foldl_shelve`: a batch only adds at the ends; `foldl_shelve_of_new`
  says what, when all of it is new.
- `Shelved.perm`: the shelves one after the other are a permutation of any
  duplicate-free list of the same elements.
-/

namespace Toontagram.Lib

variable {α κ : Type} [DecidableEq α] [DecidableEq κ]

/-- Take `x` in unless it is there, and rearrange the list if it was not. -/
def gather (arrange : List α → List α) (l : List α) (x : α) : List α :=
  if l.contains x = false then arrange (l ++ [x]) else l

theorem gather_of_mem {arrange : List α → List α} {l : List α} {x : α} (h : x ∈ l) :
    gather arrange l x = l := by
  rw [gather, if_neg]
  simpa using h

theorem gather_of_not_mem {arrange : List α → List α} {l : List α} {x : α} (h : x ∉ l) :
    gather arrange l x = arrange (l ++ [x]) := by
  rw [gather, if_pos]
  simpa using h

section Arranged

variable {arrange : List α → List α}

/-- A new element makes the list one longer. -/
theorem gather_perm (harrange : ∀ l, (arrange l).Perm l) {l : List α} {x : α} (h : x ∉ l) :
    (gather arrange l x).Perm (l ++ [x]) := by
  rw [gather_of_not_mem h]
  exact harrange _

theorem mem_gather (harrange : ∀ l, (arrange l).Perm l) {l : List α} {x y : α} :
    y ∈ gather arrange l x ↔ y ∈ l ∨ y = x := by
  by_cases h : x ∈ l
  · rw [gather_of_mem h]
    exact ⟨Or.inl, fun hy => hy.elim id fun e => e ▸ h⟩
  · rw [(gather_perm harrange h).mem_iff, List.mem_append, List.mem_singleton]

theorem nodup_gather (harrange : ∀ l, (arrange l).Perm l) {l : List α} (hl : l.Nodup) (x : α) :
    (gather arrange l x).Nodup := by
  by_cases h : x ∈ l
  · rwa [gather_of_mem h]
  · rw [(gather_perm harrange h).nodup_iff]
    exact hl.append (List.nodup_singleton x) (List.disjoint_singleton.mpr h)

/-- What every arrangement has, the accumulator has if it had it before. -/
theorem gather_arranged {P : List α → Prop} (harrange : ∀ l, P (arrange l)) {l : List α}
    (hl : P l) (x : α) : P (gather arrange l x) := by
  rw [gather]
  split
  · exact harrange _
  · exact hl

end Arranged

/-! ## Shelves -/

/-- One list for every key. -/
abbrev Shelves (κ α : Type) := κ → List α

/-- Gather `x` into the list of its key. -/
def shelve (key : α → κ) (s : Shelves κ α) (x : α) : Shelves κ α := fun k =>
  if key x = k then gather id (s k) x else s k

/-- Every element is on the shelf of its key, once. -/
structure Shelved (key : α → κ) (s : Shelves κ α) : Prop where
  nodup : ∀ k, (s k).Nodup
  key : ∀ k, ∀ x ∈ s k, key x = k

variable {key : α → κ}

omit [DecidableEq α] in
/-- A shelf is not rearranged. -/
theorem id_perm (l : List α) : (id l).Perm l := .refl l

theorem mem_shelve {s : Shelves κ α} {x y : α} {k : κ} :
    y ∈ shelve key s x k ↔ y ∈ s k ∨ (y = x ∧ key x = k) := by
  unfold shelve
  split
  next h => rw [mem_gather id_perm, and_iff_left h]
  next h => simp [h]

theorem prefix_shelve (s : Shelves κ α) (x : α) (k : κ) : s k <+: shelve key s x k := by
  unfold shelve
  split
  · by_cases h : x ∈ s k
    · exact ⟨[], by rw [List.append_nil, gather_of_mem h]⟩
    · rw [gather_of_not_mem h]
      exact List.prefix_append _ _
  · exact List.prefix_rfl

theorem Shelved.shelve {s : Shelves κ α} (hs : Shelved key s) (x : α) :
    Shelved key (shelve key s x) := by
  refine ⟨fun k => ?_, fun k y hy => ?_⟩
  · unfold Lib.shelve
    split
    · exact nodup_gather id_perm (hs.nodup k) x
    · exact hs.nodup k
  · rcases mem_shelve.mp hy with hy | ⟨rfl, hk⟩
    · exact hs.key k y hy
    · exact hk

theorem mem_foldl_shelve {s : Shelves κ α} {xs : List α} {y : α} {k : κ} :
    y ∈ xs.foldl (shelve key) s k ↔ y ∈ s k ∨ (y ∈ xs ∧ key y = k) := by
  induction xs generalizing s with
  | nil => simp
  | cons x xs ih =>
    rw [List.foldl_cons, ih, mem_shelve, List.mem_cons]
    constructor
    · rintro ((h | ⟨rfl, hk⟩) | ⟨h, hk⟩)
      · exact .inl h
      · exact .inr ⟨.inl rfl, hk⟩
      · exact .inr ⟨.inr h, hk⟩
    · rintro (h | ⟨rfl | h, hk⟩)
      · exact .inl (.inl h)
      · exact .inl (.inr ⟨rfl, hk⟩)
      · exact .inr ⟨h, hk⟩

/-- A batch adds at the end of a shelf and changes nothing before. -/
theorem prefix_foldl_shelve (s : Shelves κ α) (xs : List α) (k : κ) :
    s k <+: xs.foldl (shelve key) s k := by
  induction xs generalizing s with
  | nil => exact List.prefix_rfl
  | cons x xs ih => exact (prefix_shelve s x k).trans (ih _)

/-- A batch of new elements is appended to the shelves in its own order. -/
theorem foldl_shelve_of_new {s : Shelves κ α} {xs : List α} (hxs : xs.Nodup)
    (hnew : ∀ x ∈ xs, x ∉ s (key x)) (k : κ) :
    xs.foldl (shelve key) s k = s k ++ xs.filter fun x => key x = k := by
  induction xs generalizing s with
  | nil => exact (List.append_nil _).symm
  | cons x xs ih =>
    obtain ⟨hx, hxs⟩ := List.nodup_cons.mp hxs
    have hx' : x ∉ s (key x) := hnew x List.mem_cons_self
    -- the rest is new to the shelves with `x` too
    have hrest : ∀ y ∈ xs, y ∉ shelve key s x (key y) := by
      intro y hy hmem
      rcases mem_shelve.mp hmem with hmem | ⟨rfl, -⟩
      · exact hnew y (List.mem_cons_of_mem x hy) hmem
      · exact hx hy
    rw [List.foldl_cons, ih hxs hrest, shelve]
    by_cases hk : key x = k
    · rw [if_pos hk, gather_of_not_mem (hk ▸ hx'), List.filter_cons_of_pos (by simpa using hk)]
      simp
    · rw [if_neg hk, List.filter_cons_of_neg (by simpa using hk)]

omit [DecidableEq α] [DecidableEq κ] in
/-- No element is on two shelves. -/
theorem Shelved.disjoint {s : Shelves κ α} (hs : Shelved key s) {k k' : κ} (h : k ≠ k') :
    (s k).Disjoint (s k') :=
  fun x hx hx' => h ((hs.key k x hx).symm.trans (hs.key k' x hx'))

omit [DecidableEq α] [DecidableEq κ] in
/-- Different shelves one after the other hold no element twice. -/
theorem Shelved.nodup_flatMap {s : Shelves κ α} (hs : Shelved key s) {ks : List κ}
    (hks : ks.Nodup) : (ks.flatMap s).Nodup :=
  List.nodup_flatMap.mpr ⟨fun k _ => hs.nodup k, hks.imp fun h => hs.disjoint h⟩

omit [DecidableEq α] [DecidableEq κ] in
/-- Shelves that hold exactly the elements of a list are, one after the other,
a permutation of it. -/
theorem Shelved.perm {s : Shelves κ α} (hs : Shelved key s) {ks : List κ} (hks : ks.Nodup)
    {xs : List α} (hxs : xs.Nodup) (hmem : ∀ x, (∃ k ∈ ks, x ∈ s k) ↔ x ∈ xs) :
    (ks.flatMap s).Perm xs := by
  rw [List.perm_ext_iff_of_nodup (hs.nodup_flatMap hks) hxs]
  exact fun x => List.mem_flatMap.trans (hmem x)

end Toontagram.Lib
