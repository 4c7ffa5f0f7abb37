import Mathlib.Data.List.Sort
import Mathlib.Data.Prod.Lex
import Mathlib.Data.String.Basic
import Toontagram.Api.Call

/-!
# Queries in the order of time

`collection.order(by: "time", descending: true)`, the query of the comments of a
cartoon and of the notifications of an account. A document without a time is not
in the result of such a query, and documents of the same time are in the order
of their names, in the same direction.
-/

namespace Toontagram

namespace Timestamp

def key (t : Timestamp) : ℤ ×ₗ ℤ := toLex (t.seconds, t.nanoseconds)

theorem key_injective : Function.Injective key := by
  rintro ⟨s, n⟩ ⟨s', n'⟩ h
  obtain ⟨rfl, rfl⟩ := Prod.mk.inj (toLex.injective h)
  rfl

/-- Timestamps are compared by their seconds, then by their nanoseconds. -/
instance : LinearOrder Timestamp := LinearOrder.lift' key key_injective

end Timestamp

/-- The `time` of a document. -/
def timeOf (doc : DocID × Dictionary) : Option Timestamp := Dictionary.timestamp? doc.2 "time"

/-- The place of a document with a time in the order. -/
def orderKey (doc : DocID × Dictionary) : Timestamp ×ₗ String :=
  toLex ((timeOf doc).getD ⟨0, 0⟩, doc.1)

/-- `a` comes before `b`, if it is not `b`. -/
def Newer (a b : DocID × Dictionary) : Prop := orderKey b ≤ orderKey a

instance : DecidableRel Newer := fun a b => inferInstanceAs (Decidable (orderKey b ≤ orderKey a))

instance : Std.Total Newer := ⟨fun a b => le_total (orderKey b) (orderKey a)⟩

instance : IsTrans (DocID × Dictionary) Newer := ⟨fun _ _ _ hab hbc => le_trans hbc hab⟩

/-- The documents that `collection.order(by: "time", descending: true)` returns. -/
def orderedByTime (s : Firestore) (c : Collection) : List (DocID × Dictionary) :=
  ((s.documents c).filter fun doc => (timeOf doc).isSome).insertionSort Newer

section

variable {s : Firestore} {c : Collection} {id : DocID} {data : Dictionary}

theorem mem_orderedByTime :
    (id, data) ∈ orderedByTime s c ↔
      s.lookup ⟨c, id⟩ = some data ∧ (timeOf (id, data)).isSome = true := by
  rw [orderedByTime, List.mem_insertionSort, List.mem_filter, Lib.Store.mem_documents]

/-- A document is returned once. -/
theorem nodup_orderedByTime (s : Firestore) (c : Collection) :
    ((orderedByTime s c).map Prod.fst).Nodup := by
  have hperm : ((orderedByTime s c).map Prod.fst).Perm
      (((s.documents c).filter fun doc => (timeOf doc).isSome).map Prod.fst) :=
    (List.perm_insertionSort Newer _).map Prod.fst
  rw [hperm.nodup_iff]
  exact (Lib.Store.nodup_documents s c).sublist (List.filter_sublist.map Prod.fst)

/-- A document is returned before those with an earlier time. -/
theorem pairwise_orderedByTime (s : Firestore) (c : Collection) :
    (orderedByTime s c).Pairwise fun a b => ∀ t t', timeOf a = some t → timeOf b = some t' →
      t' ≤ t := by
  refine (List.pairwise_insertionSort Newer _).imp ?_
  intro a b hnewer t t' ha hb
  have hfst := Prod.Lex.monotone_fst _ _ hnewer
  simpa only [orderKey, ha, hb, Option.getD_some, ofLex_toLex] using hfst

end

end Toontagram
