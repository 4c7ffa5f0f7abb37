import Mathlib.Data.List.AList

/-!
# A store of documents in collections

The part of a document database that client code sees: a document is named by
its collection and an identifier, it holds named fields, and it changes by
three writes: `setData` replaces it, `updateData` replaces some fields of a
document that exists, `delete` removes it. A query lists the documents of one
collection.

The store is an association list with pairwise different names (`AList`), so
it is finite, a query on it can be computed, and no document is stored twice.
Everything is parametric in the type `C` of collections and the type `V` of
field values.

- `lookup_apply_setData`, `lookup_apply_updateData`, `lookup_apply_delete`:
  what one write does to every document.
- `has_apply`: the same for the question whether a document exists.
- `all_apply`: a property of every document is kept by a write that keeps it.
- `mem_documents`, `nodup_documents`: a query returns each document of the
  collection once.
- `count_apply_setData`, `count_apply_delete`: the size of a collection after
  a write.
-/

namespace Toontagram.Lib

/-- The fields of a document. -/
abbrev Fields (V : Type) := String → Option V

namespace Fields

variable {V : Type}

/-- A document without fields. -/
def empty : Fields V := fun _ => none

/-- The fields written out one by one. -/
def ofList (fields : List (String × V)) : Fields V := fun key => fields.lookup key

/-- The document after the given fields are replaced. -/
def merge (data fields : Fields V) : Fields V := fun key => (fields key).or (data key)

/-- A field that is not among the replaced ones keeps its value. -/
theorem merge_of_none {data fields : Fields V} {key : String} (h : fields key = none) :
    (data.merge fields) key = data key := by
  rw [merge, h, Option.none_or]

end Fields

/-- The name of a document. -/
structure DocRef (C : Type) where
  collection : C
  documentID : String
deriving DecidableEq, Repr

/-- The stored documents. -/
abbrev Store (C V : Type) := AList fun _ : DocRef C => Fields V

/-- One write of a client. -/
inductive DocWrite (C V : Type) where
  | setData (ref : DocRef C) (data : Fields V)
  | updateData (ref : DocRef C) (fields : Fields V)
  | delete (ref : DocRef C)

namespace DocWrite

variable {C V : Type}

/-- The document a write is about. -/
def ref : DocWrite C V → DocRef C
  | .setData ref _ => ref
  | .updateData ref _ => ref
  | .delete ref => ref

/-- Whether the document exists afterwards, for the writes that decide it. -/
def leaves : DocWrite C V → Option Bool
  | .setData _ _ => some true
  | .updateData _ _ => none
  | .delete _ => some false

variable [DecidableEq C]

/-- The effect of a write the server accepts. A field update of a document
that does not exist changes nothing. -/
def apply : DocWrite C V → Store C V → Store C V
  | .setData ref data, s => s.insert ref data
  | .updateData ref fields, s =>
    match s.lookup ref with
    | some data => s.insert ref (data.merge fields)
    | none => s
  | .delete ref, s => s.erase ref

/-- The answer a write leaves to "does `r` exist", if it decides it. -/
def leavesAt (r : DocRef C) (w : DocWrite C V) : Option Bool :=
  if w.ref = r then w.leaves else none

/-- What the write stores has the property `P`, if what it changes had it. -/
def Keeps (P : DocRef C → Fields V → Prop) : DocWrite C V → Prop
  | .setData ref data => P ref data
  | .updateData ref fields => ∀ data, P ref data → P ref (data.merge fields)
  | .delete _ => True

/-- The write that makes a document without fields exist or not. -/
def mark (b : Bool) (r : DocRef C) : DocWrite C V :=
  match b with
  | true => .setData r .empty
  | false => .delete r

omit [DecidableEq C] in
@[simp] theorem ref_mark (b : Bool) (r : DocRef C) : (mark (V := V) b r).ref = r := by
  cases b <;> rfl

omit [DecidableEq C] in
@[simp] theorem leaves_mark (b : Bool) (r : DocRef C) : (mark (V := V) b r).leaves = some b := by
  cases b <;> rfl

end DocWrite

namespace Store

variable {C V : Type} [DecidableEq C]

/-- Whether a document exists. -/
def has (s : Store C V) (r : DocRef C) : Bool := (s.lookup r).isSome

/-- The documents of one collection, each with its identifier. -/
def documents (s : Store C V) (c : C) : List (String × Fields V) :=
  s.entries.filterMap fun e =>
    if e.1.collection = c then some (e.1.documentID, e.2) else none

/-- The number of documents in a collection. -/
def count (s : Store C V) (c : C) : Nat := s.keys.countP fun r => r.collection = c

/-! ## Lookups after a write -/

theorem lookup_apply_setData (s : Store C V) (r r' : DocRef C) (data : Fields V) :
    ((DocWrite.setData r data).apply s).lookup r' = if r = r' then some data else s.lookup r' := by
  by_cases h : r = r'
  · subst h
    rw [if_pos rfl]
    exact AList.lookup_insert s
  · rw [if_neg h]
    exact AList.lookup_insert_ne fun e => h e.symm

/-- A document that is set is the one that is read. -/
theorem lookup_apply_setData_self (s : Store C V) (r : DocRef C) (data : Fields V) :
    ((DocWrite.setData r data).apply s).lookup r = some data :=
  (lookup_apply_setData s r r data).trans (if_pos rfl)

theorem lookup_apply_updateData (s : Store C V) (r r' : DocRef C) (fields : Fields V) :
    ((DocWrite.updateData r fields).apply s).lookup r' =
      if r = r' then (s.lookup r').map (·.merge fields) else s.lookup r' := by
  by_cases h : r = r'
  · subst h
    rw [if_pos rfl, DocWrite.apply]
    cases hl : s.lookup r with
    | none => simpa using hl
    | some data => exact AList.lookup_insert s
  · rw [if_neg h, DocWrite.apply]
    cases hl : s.lookup r with
    | none => rfl
    | some data => exact AList.lookup_insert_ne fun e => h e.symm

theorem lookup_apply_delete (s : Store C V) (r r' : DocRef C) :
    ((DocWrite.delete (V := V) r).apply s).lookup r' = if r = r' then none else s.lookup r' := by
  by_cases h : r = r'
  · subst h
    rw [if_pos rfl]
    exact AList.lookup_erase r s
  · rw [if_neg h]
    exact AList.lookup_erase_ne fun e => h e.symm

/-- What a document without fields reads as, if it exists. -/
def blank (b : Bool) : Option (Fields V) := if b then some .empty else none

theorem lookup_apply_mark (s : Store C V) (b : Bool) (r r' : DocRef C) :
    ((DocWrite.mark b r).apply s).lookup r' = if r = r' then blank b else s.lookup r' := by
  cases b with
  | true => exact lookup_apply_setData s r r' .empty
  | false => exact lookup_apply_delete s r r'

/-- A write leaves every other document as it is. -/
theorem lookup_apply_ne {s : Store C V} {w : DocWrite C V} {r : DocRef C} (h : w.ref ≠ r) :
    (w.apply s).lookup r = s.lookup r := by
  cases w with
  | setData r' data => exact (lookup_apply_setData s r' r data).trans (if_neg h)
  | updateData r' fields => exact (lookup_apply_updateData s r' r fields).trans (if_neg h)
  | delete r' => exact (lookup_apply_delete s r' r).trans (if_neg h)

/-- What holds of every stored document holds after a write that keeps it. -/
theorem all_apply {P : DocRef C → Fields V → Prop} {s : Store C V} {w : DocWrite C V}
    (h : ∀ r data, s.lookup r = some data → P r data) (hw : w.Keeps P) :
    ∀ r data, (w.apply s).lookup r = some data → P r data := by
  intro r data hdata
  by_cases hr : w.ref = r
  · subst hr
    cases w with
    | setData r new =>
      rw [DocWrite.ref, lookup_apply_setData_self] at hdata
      exact Option.some.inj hdata ▸ hw
    | updateData r fields =>
      rw [DocWrite.ref, lookup_apply_updateData, if_pos rfl] at hdata
      obtain ⟨old, hold, rfl⟩ := Option.map_eq_some_iff.mp hdata
      exact hw old (h r old hold)
    | delete r =>
      rw [DocWrite.ref, lookup_apply_delete, if_pos rfl] at hdata
      cases hdata
  · rw [lookup_apply_ne hr] at hdata
    exact h r data hdata

/-- Which documents exist after a write. -/
theorem has_apply (s : Store C V) (w : DocWrite C V) (r : DocRef C) :
    has (w.apply s) r = (w.leavesAt r).getD (has s r) := by
  by_cases h : w.ref = r
  · rw [DocWrite.leavesAt, if_pos h, has]
    cases w with
    | setData r' data =>
      rw [(lookup_apply_setData s r' r data).trans (if_pos h)]
      rfl
    | updateData r' fields =>
      rw [(lookup_apply_updateData s r' r fields).trans (if_pos h), Option.isSome_map]
      rfl
    | delete r' =>
      rw [(lookup_apply_delete s r' r).trans (if_pos h)]
      rfl
  · rw [DocWrite.leavesAt, if_neg h, has, lookup_apply_ne h]
    rfl

theorem has_apply_mark (s : Store C V) (b : Bool) (r r' : DocRef C) :
    has ((DocWrite.mark b r).apply s) r' = if r = r' then b else has s r' := by
  rw [has_apply, DocWrite.leavesAt, DocWrite.ref_mark, DocWrite.leaves_mark]
  split <;> rfl

theorem has_apply_setData_self (s : Store C V) (r : DocRef C) (data : Fields V) :
    has ((DocWrite.setData r data).apply s) r = true := by
  rw [has, lookup_apply_setData_self, Option.isSome_some]

theorem has_apply_ne {s : Store C V} {w : DocWrite C V} {r : DocRef C} (h : w.ref ≠ r) :
    has (w.apply s) r = has s r := by
  rw [has, lookup_apply_ne h, has]

/-! ## What a write leaves alone -/

section beside

variable {α : Type} {g : DocRef C → Fields V → Option α}

omit [DecidableEq C] in
/-- What is read off the entries of a store, one by one. -/
theorem filterMap_entry (r : DocRef C) (data : Fields V)
    (entries : List (Sigma fun _ : DocRef C => Fields V)) :
    ((⟨r, data⟩ :: entries).filterMap fun e => g e.1 e.2) =
      (g r data).toList ++ entries.filterMap fun e => g e.1 e.2 := by
  cases h : g r data <;> simp [h]

private theorem filterMap_kerase {r : DocRef C} (hr : ∀ data, g r data = none) :
    ∀ entries : List (Sigma fun _ : DocRef C => Fields V),
      ((entries.kerase r).filterMap fun e => g e.1 e.2) = entries.filterMap fun e => g e.1 e.2
  | [] => rfl
  | ⟨r', data⟩ :: entries => by
    by_cases he : r = r'
    · subst he
      have hkerase : (⟨r, data⟩ :: entries : List (Sigma fun _ => Fields V)).kerase r = entries :=
        List.kerase_cons_eq rfl
      rw [hkerase, filterMap_entry, hr]
      rfl
    · rw [List.kerase_cons_ne he, filterMap_entry, filterMap_entry, filterMap_kerase hr entries]

/-- What is read off other documents stays as it is, in its order. -/
theorem filterMap_apply_beside {s : Store C V} {w : DocWrite C V}
    (hw : ∀ data, g w.ref data = none) :
    ((w.apply s).entries.filterMap fun e => g e.1 e.2) =
      s.entries.filterMap fun e => g e.1 e.2 := by
  have hinsert : ∀ data, ((s.insert w.ref data).entries.filterMap fun e => g e.1 e.2) =
      s.entries.filterMap fun e => g e.1 e.2 := by
    intro data
    rw [AList.entries_insert, filterMap_entry, hw, filterMap_kerase hw]
    rfl
  cases w with
  | setData r data => exact hinsert data
  | updateData r fields =>
    cases hl : s.lookup r with
    | none => simp only [DocWrite.apply, hl]
    | some data =>
      simp only [DocWrite.apply, hl]
      exact hinsert _
  | delete r => exact filterMap_kerase hw s.entries

end beside

/-! ## Queries -/

/-- A query finds exactly the stored documents of its collection. -/
theorem mem_documents {s : Store C V} {c : C} {id : String} {data : Fields V} :
    (id, data) ∈ s.documents c ↔ s.lookup ⟨c, id⟩ = some data := by
  unfold documents
  rw [List.mem_filterMap]
  constructor
  · rintro ⟨⟨⟨c', id'⟩, data'⟩, hmem, heq⟩
    by_cases hc : c' = c
    · rw [if_pos hc] at heq
      obtain ⟨hid, hdata⟩ := Prod.mk.inj (Option.some.inj heq)
      have hid : id' = id := hid
      have hdata : data' = data := hdata
      subst hc hid hdata
      exact AList.mem_lookup_iff.mpr hmem
    · rw [if_neg hc] at heq
      cases heq
  · intro h
    exact ⟨⟨⟨c, id⟩, data⟩, AList.mem_lookup_iff.mp h, if_pos rfl⟩

/-- Some stored document has the property `p`. -/
def any (s : Store C V) (p : DocRef C → Fields V → Bool) : Bool := s.entries.any fun e => p e.1 e.2

theorem any_iff {s : Store C V} {p : DocRef C → Fields V → Bool} :
    s.any p = true ↔ ∃ r data, s.lookup r = some data ∧ p r data = true := by
  unfold any
  rw [List.any_eq_true]
  constructor
  · rintro ⟨⟨r, data⟩, hmem, hp⟩
    exact ⟨r, data, AList.mem_lookup_iff.mpr hmem, hp⟩
  · rintro ⟨r, data, hdata, hp⟩
    exact ⟨⟨r, data⟩, AList.mem_lookup_iff.mp hdata, hp⟩

theorem mem_documents_map_fst {s : Store C V} {c : C} {id : String} :
    id ∈ (s.documents c).map Prod.fst ↔ s.has ⟨c, id⟩ := by
  rw [List.mem_map, has, Option.isSome_iff_exists]
  constructor
  · rintro ⟨⟨id', data⟩, hmem, rfl⟩
    exact ⟨data, mem_documents.mp hmem⟩
  · rintro ⟨data, h⟩
    exact ⟨(id, data), mem_documents.mpr h, rfl⟩

/-- The identifiers a query returns, read off the names of the store. -/
theorem documents_map_fst (s : Store C V) (c : C) :
    (s.documents c).map Prod.fst =
      s.keys.filterMap fun r => if r.collection = c then some r.documentID else none := by
  unfold documents AList.keys List.keys
  rw [List.map_filterMap, List.filterMap_map]
  congr 1
  funext e
  by_cases h : e.1.collection = c
  · simp [h]
  · simp [h]

/-- A query returns no document twice. -/
theorem nodup_documents (s : Store C V) (c : C) : ((s.documents c).map Prod.fst).Nodup := by
  rw [documents_map_fst]
  refine s.keys_nodup.filterMap ?_
  rintro ⟨c₁, id₁⟩ ⟨c₂, id₂⟩ id h₁ h₂
  by_cases hc₁ : c₁ = c <;> by_cases hc₂ : c₂ = c <;> simp_all

/-! ## Sizes of collections -/

/-- The count without the name `r`, and what `r` itself adds to it. -/
private theorem countP_erase_keys (s : Store C V) (r : DocRef C) (c : C) :
    ((s.keys.erase r).countP fun r => decide (r.collection = c)) +
      (if r.collection = c ∧ s.has r = true then 1 else 0) = s.count c := by
  have hmem : r ∈ s.keys ↔ s.has r = true := by
    rw [← AList.mem_keys, ← AList.lookup_isSome, has]
  unfold count
  by_cases hr : r ∈ s.keys
  · rw [(List.perm_cons_erase hr).countP_eq, List.countP_cons]
    simp [hmem.mp hr]
  · rw [List.erase_of_not_mem hr, if_neg fun h => hr (hmem.mpr h.2), Nat.add_zero]

private theorem count_insert (s : Store C V) (r : DocRef C) (data : Fields V) (c : C) :
    Store.count (s.insert r data) c =
      s.count c + if r.collection = c ∧ s.has r = false then 1 else 0 := by
  have herase := countP_erase_keys s r c
  rw [count, AList.keys_insert, List.countP_cons, ← herase]
  by_cases hc : r.collection = c <;> cases s.has r <;> simp [hc]

/-- Setting a document adds one to its collection if it is new. -/
theorem count_apply_setData (s : Store C V) (r : DocRef C) (data : Fields V) (c : C) :
    Store.count ((DocWrite.setData r data).apply s) c =
      s.count c + if r.collection = c ∧ s.has r = false then 1 else 0 :=
  count_insert s r data c

/-- Updating fields keeps the size of every collection. -/
theorem count_apply_updateData (s : Store C V) (r : DocRef C) (fields : Fields V) (c : C) :
    Store.count ((DocWrite.updateData r fields).apply s) c = s.count c := by
  cases hl : s.lookup r with
  | none =>
    have : (DocWrite.updateData r fields).apply s = s := by simp only [DocWrite.apply, hl]
    rw [this]
  | some data =>
    have happly : (DocWrite.updateData r fields).apply s = s.insert r (data.merge fields) := by
      simp only [DocWrite.apply, hl]
    rw [happly, count_insert, if_neg (by simp [has, hl]), Nat.add_zero]

/-- Deleting a document takes one from its collection if it was there. -/
theorem count_apply_delete (s : Store C V) (r : DocRef C) (c : C) :
    Store.count ((DocWrite.delete (V := V) r).apply s) c +
      (if r.collection = c ∧ s.has r = true then 1 else 0) = s.count c := by
  rw [← countP_erase_keys s r c]
  congr 1
  rw [count, DocWrite.apply, AList.keys_erase]

end Store

end Toontagram.Lib
