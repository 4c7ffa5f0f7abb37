import Mathlib.Data.List.Induction
import Toontagram.Lib.DocStore

/-!
# Which write a part of a document comes from

A store that starts empty is what the writes of its log have left, `replay`. A
document is written by whole (`setData`) and by parts (`updateData`), so two
groups of its fields may stem from different writes; one group may even be a
mixture of several, unless every write of the log takes the group as a whole or
leaves it alone. That is `Puts`, and `part_eq_last` is what follows from it: a
group always is what the last entry that puts it has put.

The entries are of any type, and so is what an entry puts. They are not the
writes themselves, so that they can say whose writes they are.
-/

namespace Toontagram.Lib

variable {C V : Type}

namespace Fields

/-- The values of a group of fields. -/
def part (data : Fields V) (keys : List String) : List (Option V) := keys.map data

/-- A merge that has the whole group replaces it. -/
theorem part_merge_whole {data fields : Fields V} {keys : List String}
    (h : ∀ key ∈ keys, (fields key).isSome) : (data.merge fields).part keys = fields.part keys := by
  refine List.map_congr_left fun key hkey => ?_
  obtain ⟨v, hv⟩ := Option.isSome_iff_exists.mp (h key hkey)
  rw [merge, hv, Option.some_or]

/-- A merge that has nothing of the group keeps it. -/
theorem part_merge_beside {data fields : Fields V} {keys : List String}
    (h : ∀ key ∈ keys, fields key = none) : (data.merge fields).part keys = data.part keys :=
  List.map_congr_left fun key hkey => merge_of_none (h key hkey)

end Fields

/-- What a write puts into the fields `keys` of the document `r`: it is about
another document, or removes this one, or sets it, or updates all of the fields
or none of them. -/
inductive Puts (keys : List String) (r : DocRef C) :
    DocWrite C V → Option (List (Option V)) → Prop where
  | elsewhere {w : DocWrite C V} (h : w.ref ≠ r) : Puts keys r w none
  | delete : Puts keys r (.delete r) none
  | set (data : Fields V) : Puts keys r (.setData r data) (some (data.part keys))
  | whole {fields : Fields V} (h : ∀ key ∈ keys, (fields key).isSome) :
      Puts keys r (.updateData r fields) (some (fields.part keys))
  | beside {fields : Fields V} (h : ∀ key ∈ keys, fields key = none) :
      Puts keys r (.updateData r fields) none

variable [DecidableEq C] {ε α : Type}

/-- The store that a log leaves, from the empty one. -/
def replay (write : ε → DocWrite C V) (log : List ε) : Store C V :=
  log.foldl (fun s e => (write e).apply s) ∅

theorem replay_concat (write : ε → DocWrite C V) (log : List ε) (e : ε) :
    replay write (log ++ [e]) = (write e).apply (replay write log) := by
  rw [replay, List.foldl_append]
  rfl

/-- A document that is there has been set. -/
theorem exists_setData_of_has {write : ε → DocWrite C V} {log : List ε} {r : DocRef C}
    (h : Store.has (replay write log) r = true) : ∃ e ∈ log, ∃ data, write e = .setData r data := by
  -- from the end: a last write that is no `setData` leaves what was there
  induction log using List.reverseRecOn with
  | nil => cases h
  | append_singleton log e ih =>
    have hold : Store.has (replay write log) r = true →
        ∃ e' ∈ log ++ [e], ∃ data, write e' = .setData r data := by
      intro hhas
      obtain ⟨e', he', hw⟩ := ih hhas
      exact ⟨e', List.mem_append_left _ he', hw⟩
    rw [replay_concat] at h
    by_cases hr : (write e).ref = r
    · cases hw : write e with
      | setData r' data =>
        rw [hw] at hr
        obtain rfl : r' = r := hr
        exact ⟨e, List.mem_append_right _ (List.mem_singleton_self e), data, hw⟩
      | updateData r' fields =>
        rw [hw, Store.has_apply, DocWrite.leavesAt, DocWrite.leaves, ite_self] at h
        exact hold h
      | delete r' =>
        rw [hw] at hr
        rw [hw, Store.has_apply, DocWrite.leavesAt, if_pos hr] at h
        cases h
    · rw [Store.has_apply_ne hr] at h
      exact hold h

/-- One more write: the group is what this write puts, or else what it was. -/
theorem Puts.part_apply {keys : List String} {r : DocRef C} {w : DocWrite C V}
    {put : Option (List (Option V))} (h : Puts keys r w put) {s : Store C V} {data : Fields V}
    (hdata : (w.apply s).lookup r = some data) :
    put = some (data.part keys) ∨
      put = none ∧ ∃ old, s.lookup r = some old ∧ data.part keys = old.part keys := by
  cases h with
  | elsewhere hne =>
    rw [Store.lookup_apply_ne hne] at hdata
    exact .inr ⟨rfl, data, hdata, rfl⟩
  | delete =>
    rw [Store.lookup_apply_delete, if_pos rfl] at hdata
    cases hdata
  | set new =>
    rw [Store.lookup_apply_setData_self] at hdata
    exact .inl (congrArg (fun d => some (Fields.part d keys)) (Option.some.inj hdata))
  | whole hkeys =>
    rw [Store.lookup_apply_updateData, if_pos rfl] at hdata
    obtain ⟨old, -, rfl⟩ := Option.map_eq_some_iff.mp hdata
    exact .inl (congrArg some (Fields.part_merge_whole hkeys).symm)
  | beside hkeys =>
    rw [Store.lookup_apply_updateData, if_pos rfl] at hdata
    obtain ⟨old, hold, rfl⟩ := Option.map_eq_some_iff.mp hdata
    exact .inr ⟨rfl, old, hold, Fields.part_merge_beside hkeys⟩

/-- A group that no write of the log splits is what the last entry that puts it
has put. -/
theorem part_eq_last {keys : List String} {r : DocRef C} {write : ε → DocWrite C V}
    {put : ε → Option α} {image : α → List (Option V)} {log : List ε}
    (hputs : ∀ e ∈ log, Puts keys r (write e) ((put e).map image)) {data : Fields V}
    (hdata : (replay write log).lookup r = some data) :
    ∃ a, (log.filterMap put).getLast? = some a ∧ data.part keys = image a := by
  -- from the end: the last write puts the group or leaves what the others have put
  induction log using List.reverseRecOn generalizing data with
  | nil => cases hdata
  | append_singleton log e ih =>
    rw [replay_concat] at hdata
    rw [List.filterMap_append]
    rcases (hputs e (by simp)).part_apply hdata with hput | ⟨hput, old, hold, hpart⟩
    · obtain ⟨a, ha, himage⟩ := Option.map_eq_some_iff.mp hput
      exact ⟨a, by simp [ha], himage.symm⟩
    · have he : put e = none := Option.map_eq_none_iff.mp hput
      obtain ⟨a, ha, himage⟩ := ih (fun e he => hputs e (List.mem_append_left _ he)) hold
      exact ⟨a, by simpa [he] using ha, hpart.trans himage⟩

end Toontagram.Lib
