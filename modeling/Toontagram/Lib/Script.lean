import Mathlib.Data.List.Induction
import Mathlib.Data.Set.Basic
import Toontagram.Lib.DocStore

/-!
# Writes that do not conflict

The writes of one operation, when no two of them differ on a document. What they
leave does not depend on their order, nor on how often each of them is applied:
a document they write is as that write leaves the old one
(`Compatible.lookup_play`), and this is still so when the write is applied again to
what it has left (`Store.lookup_apply_again`).
-/

namespace Toontagram.Lib

variable {C V : Type}

/-- Replacing fields by the same values again changes nothing. -/
theorem Fields.merge_self (data fields : Fields V) :
    (data.merge fields).merge fields = data.merge fields := by
  funext key
  rw [merge, merge]
  cases fields key <;> rfl

variable [DecidableEq C]

namespace Store

/-- What a write leaves of its document depends on this document only. -/
theorem lookup_apply_congr {s t : Store C V} (w : DocWrite C V)
    (h : t.lookup w.ref = s.lookup w.ref) :
    (w.apply t).lookup w.ref = (w.apply s).lookup w.ref := by
  cases w with
  | setData r data =>
    rw [DocWrite.ref, lookup_apply_setData_self, lookup_apply_setData_self]
  | updateData r fields =>
    rw [DocWrite.ref] at h ⊢
    rw [lookup_apply_updateData, lookup_apply_updateData, h]
  | delete r =>
    rw [DocWrite.ref, lookup_apply_delete, lookup_apply_delete, if_pos rfl, if_pos rfl]

/-- A write that is applied to what it has left leaves the same. -/
theorem lookup_apply_again {s t : Store C V} (w : DocWrite C V)
    (h : t.lookup w.ref = (w.apply s).lookup w.ref) :
    (w.apply t).lookup w.ref = (w.apply s).lookup w.ref := by
  cases w with
  | setData r data =>
    rw [DocWrite.ref, lookup_apply_setData_self, lookup_apply_setData_self]
  | updateData r fields =>
    rw [DocWrite.ref] at h ⊢
    rw [lookup_apply_updateData, if_pos rfl] at h ⊢
    rw [lookup_apply_updateData, if_pos rfl, h]
    cases s.lookup r with
    | none => rfl
    | some data => exact congrArg some (Fields.merge_self data fields)
  | delete r =>
    rw [DocWrite.ref, lookup_apply_delete, lookup_apply_delete, if_pos rfl, if_pos rfl]

end Store

/-! ## Compatible writes -/

namespace DocWrite

omit [DecidableEq C] in
@[simp] theorem ref_setData (r : DocRef C) (data : Fields V) : (setData r data).ref = r := rfl

omit [DecidableEq C] in
@[simp] theorem ref_updateData (r : DocRef C) (fields : Fields V) :
    (updateData r fields).ref = r := rfl

omit [DecidableEq C] in
@[simp] theorem ref_delete (r : DocRef C) : (DocWrite.delete r : DocWrite C V).ref = r := rfl

end DocWrite

/-- No two of the writes differ on a document. -/
def Compatible (ws : List (DocWrite C V)) : Prop :=
  ∀ w ∈ ws, ∀ w' ∈ ws, w.ref = w'.ref → w = w'

omit [DecidableEq C] in
/-- Writes that are told apart by their documents. -/
theorem Compatible.of_ref {ws : List (DocWrite C V)} (f : DocRef C → DocWrite C V)
    (h : ∀ w ∈ ws, w = f w.ref) : Compatible ws := by
  intro w hw w' hw' href
  rw [h w hw, h w' hw', href]

/-- The store after all of the writes. -/
def Store.play (s : Store C V) (ws : List (DocWrite C V)) : Store C V :=
  ws.foldl (fun s w => w.apply s) s

/-- Documents that none of the writes is about stay as they are. -/
theorem Store.lookup_play_ne {ws : List (DocWrite C V)} {r : DocRef C} {s : Store C V}
    (h : ∀ w ∈ ws, w.ref ≠ r) : (s.play ws).lookup r = s.lookup r := by
  induction ws generalizing s with
  | nil => rfl
  | cons w ws ih =>
    calc (s.play (w :: ws)).lookup r = (w.apply s).lookup r :=
          ih fun w' hw' => h w' (List.mem_cons_of_mem w hw')
      _ = s.lookup r := Store.lookup_apply_ne (h w (List.mem_cons_self ..))

/-- A document that one of the writes is about is as this write leaves the old one. -/
theorem Compatible.lookup_play {ws : List (DocWrite C V)} (hws : Compatible ws)
    {w : DocWrite C V} (hw : w ∈ ws) (s : Store C V) :
    (s.play ws).lookup w.ref = (w.apply s).lookup w.ref := by
  -- from the end: the last write about the document sees the old one or what was left
  induction ws using List.reverseRecOn with
  | nil => cases hw
  | append_singleton ws w' ih =>
    have hplay : s.play (ws ++ [w']) = w'.apply (s.play ws) := List.foldl_append ..
    have hsub : Compatible ws := fun a ha b hb =>
      hws a (List.mem_append_left _ ha) b (List.mem_append_left _ hb)
    rw [hplay]
    by_cases href : w'.ref = w.ref
    · obtain rfl : w' = w := hws w' (by simp) w hw href
      by_cases hmem : w' ∈ ws
      · exact Store.lookup_apply_again w' (ih hsub hmem)
      · refine Store.lookup_apply_congr w' (Store.lookup_play_ne fun v hv href => ?_)
        exact hmem (hws v (List.mem_append_left _ hv) w' (by simp) href ▸ hv)
    · rw [Store.lookup_apply_ne href]
      refine ih hsub ?_
      rcases List.mem_append.mp hw with hw | hw
      · exact hw
      · exact absurd (congrArg DocWrite.ref (List.mem_singleton.mp hw).symm) href

/-- The order of the writes and how often each of them comes do not matter. -/
theorem Compatible.lookup_play_congr {ws ws' : List (DocWrite C V)} (hws : Compatible ws)
    (h : ∀ w, w ∈ ws' ↔ w ∈ ws) (s : Store C V) (r : DocRef C) :
    (s.play ws').lookup r = (s.play ws).lookup r := by
  have hws' : Compatible ws' := fun a ha b hb => hws a ((h a).mp ha) b ((h b).mp hb)
  by_cases hr : ∃ w ∈ ws, w.ref = r
  · obtain ⟨w, hw, rfl⟩ := hr
    rw [hws.lookup_play hw, hws'.lookup_play ((h w).mpr hw)]
  · have hne : ∀ w ∈ ws, w.ref ≠ r := fun w hw href => hr ⟨w, hw, href⟩
    rw [Store.lookup_play_ne hne, Store.lookup_play_ne fun w hw => hne w ((h w).mp hw)]

/-- Writes that only make documents exist, or only make them not exist. -/
def Marks (b : Bool) (ws : List (DocWrite C V)) : Prop := ∀ w ∈ ws, w = .mark b w.ref

omit [DecidableEq C] in
theorem marks_map {α : Type} (b : Bool) (ref : α → DocRef C) (xs : List α) :
    Marks (V := V) b (xs.map fun x => .mark b (ref x)) := by
  intro w hw
  obtain ⟨x, -, rfl⟩ := List.mem_map.mp hw
  rw [DocWrite.ref_mark]

omit [DecidableEq C] in
theorem Marks.append {b : Bool} {ws ws' : List (DocWrite C V)} (h : Marks b ws)
    (h' : Marks b ws') : Marks b (ws ++ ws') := by
  intro w hw
  rcases List.mem_append.mp hw with hw | hw
  · exact h w hw
  · exact h' w hw

omit [DecidableEq C] in
theorem Marks.cons {b : Bool} {r : DocRef C} {ws : List (DocWrite C V)} (h : Marks b ws) :
    Marks b (.mark b r :: ws) := by
  intro w hw
  rcases List.mem_cons.mp hw with rfl | hw
  · rw [DocWrite.ref_mark]
  · exact h w hw

omit [DecidableEq C] in
theorem Marks.nil (b : Bool) : Marks b ([] : List (DocWrite C V)) := fun _ hw => nomatch hw

omit [DecidableEq C] in
theorem Marks.compatible {b : Bool} {ws : List (DocWrite C V)} (h : Marks b ws) : Compatible ws :=
  .of_ref (.mark b) h

omit [DecidableEq C] in
/-- One more write, about a document of its own. -/
theorem Compatible.cons {ws : List (DocWrite C V)} (h : Compatible ws) {w : DocWrite C V}
    (hw : w.ref ∉ ws.map DocWrite.ref) : Compatible (w :: ws) := by
  have hne : ∀ w' ∈ ws, w'.ref ≠ w.ref := fun w' hw' href =>
    hw (List.mem_map.mpr ⟨w', hw', href⟩)
  intro w₁ hw₁ w₂ hw₂ href
  rcases List.mem_cons.mp hw₁ with h₁ | h₁ <;> rcases List.mem_cons.mp hw₂ with h₂ | h₂
  · rw [h₁, h₂]
  · exact absurd (href.symm.trans (congrArg _ h₁)) (hne w₂ h₂)
  · exact absurd (href.trans (congrArg _ h₂)) (hne w₁ h₁)
  · exact h w₁ h₁ w₂ h₂ href

/-! ## Relations and tables in a store -/

/-- The set with some elements added to it, or taken out of it. -/
def put {α : Type} (b : Bool) (xs A : Set α) : Set α := {a | a ∈ xs ∧ b = true ∨ a ∉ xs ∧ a ∈ A}

@[simp] theorem put_empty {α : Type} (b : Bool) (A : Set α) : put b ∅ A = A := by
  ext a
  simp [put]

namespace Store

variable {α : Type}

/-- The documents `ref a` exist for the elements of the set. -/
def Marked (s : Store C V) (ref : α → DocRef C) (A : Set α) : Prop :=
  ∀ a, s.has (ref a) = true ↔ a ∈ A

/-- The documents `ref a` are those of the table. -/
def Tabled (s : Store C V) (ref : α → DocRef C) (f : α → Option (Fields V)) : Prop :=
  ∀ a, s.lookup (ref a) = f a

variable {s : Store C V} {w : DocWrite C V} {ws : List (DocWrite C V)} {ref : α → DocRef C}

/-- A write of a document of the table. -/
theorem Tabled.apply [DecidableEq α] {f : α → Option (Fields V)} (h : s.Tabled ref f)
    (href : Function.Injective ref) {a : α} (ha : w.ref = ref a) :
    Tabled (w.apply s) ref (Function.update f a ((w.apply s).lookup (ref a))) := by
  intro a'
  by_cases haa : a' = a
  · rw [haa, Function.update_self]
  · rw [Function.update_of_ne haa, ← h a', lookup_apply_ne]
    exact fun hw => haa (href (ha.symm.trans hw)).symm

theorem Tabled.apply_beside {f : α → Option (Fields V)} (h : s.Tabled ref f)
    (hne : ∀ a, w.ref ≠ ref a) : Tabled (w.apply s) ref f := by
  intro a
  rw [lookup_apply_ne (hne a), h a]

theorem Marked.apply_beside {A : Set α} (h : s.Marked ref A) (hne : ∀ a, w.ref ≠ ref a) :
    Marked (w.apply s) ref A := by
  intro a
  rw [has_apply_ne (hne a), h a]

theorem Tabled.play_beside {f : α → Option (Fields V)} (h : s.Tabled ref f)
    (hne : ∀ a, ref a ∉ ws.map DocWrite.ref) : Tabled (s.play ws) ref f := by
  intro a
  rw [lookup_play_ne fun w hw href => hne a (List.mem_map.mpr ⟨w, hw, href⟩), h a]

/-- Marks add elements to the set, or take them out of it. -/
theorem Marked.play {A X : Set α} {b : Bool} (h : s.Marked ref A) (hws : Marks b ws)
    (hX : ∀ a, ref a ∈ ws.map DocWrite.ref ↔ a ∈ X) : Marked (s.play ws) ref (put b X A) := by
  intro a
  show _ ↔ a ∈ X ∧ b = true ∨ a ∉ X ∧ a ∈ A
  by_cases ha : a ∈ X
  · obtain ⟨w, hw, href⟩ := List.mem_map.mp ((hX a).mpr ha)
    have hleft : (s.play ws).lookup (ref a) = blank b := by
      have hplay := hws.compatible.lookup_play hw s
      rw [hws w hw, DocWrite.ref_mark, lookup_apply_mark, if_pos rfl, href] at hplay
      exact hplay
    rw [has, hleft]
    cases b <;> simp [blank, ha]
  · have hne : ∀ w ∈ ws, w.ref ≠ ref a := fun w hw href =>
      ha ((hX a).mp (List.mem_map.mpr ⟨w, hw, href⟩))
    rw [has, lookup_play_ne hne, ← h a, has]
    simp [ha]

end Store

end Toontagram.Lib
