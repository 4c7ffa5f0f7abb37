import Toontagram.Api.TimeOrder
import Toontagram.Screen.Load

/-!
# Three readers of the cartoons

`fetchCartoons()` lets the server order the documents, `fetchCartoons(id:)` sorts
those of one author on the device, and `fetchCartoonFeed` sorts after each fetch.
The server compares whole timestamps, the two sorts compare seconds, and cartoons
of one second stay in the order in which they came (`StableSort.stable`): that of
the answer, or that in which the fetches were completed
(`FeedRun.filter_seconds`). Every completion order of the fetches is a run
(`FeedRun.exists_run`), so the readers can agree only where no two cartoons have
their second in common.
-/

namespace Toontagram

open Lib (gather_of_not_mem run run_cons run_inv)

/-! ## The readers -/

/-- A sort that leaves cartoons of one second in their order. -/
structure StableSort extends FeedSort where
  stable : ∀ (n : Int) (cartoons : List Cartoon),
    ((sort cartoons).filter fun c => c.time.seconds = n) =
      cartoons.filter fun c => c.time.seconds = n

/-- Insertion takes the cartoons of one second in their order. -/
theorem FeedSort.filter_insertion (n : Int) (cartoons : List Cartoon) :
    ((FeedSort.insertion.sort cartoons).filter fun c => c.time.seconds = n) =
      cartoons.filter fun c => c.time.seconds = n := by
  -- the cartoons of second `n` are sorted already
  have hsorted : (cartoons.filter fun c => c.time.seconds = n).Pairwise
      fun a b => a.time.seconds ≥ b.time.seconds := by
    refine List.pairwise_iff_forall_sublist.mpr fun {a b} hab => ?_
    have ha := (List.mem_filter.mp (hab.subset List.mem_cons_self)).2
    have hb := (List.mem_filter.mp (hab.subset (List.mem_cons_of_mem a List.mem_cons_self))).2
    simp only [decide_eq_true_eq] at ha hb
    omega
  have hsub := (List.sublist_insertionSort hsorted List.filter_sublist).filter
    fun c : Cartoon => decide (c.time.seconds = n)
  simp only [List.filter_filter, Bool.and_self] at hsub
  have hperm := (FeedSort.insertion.perm cartoons).filter fun c => decide (c.time.seconds = n)
  exact (hsub.eq_of_length hperm.length_eq.symm).symm

/-- Insertion is stable. -/
def StableSort.insertion : StableSort := ⟨.insertion, FeedSort.filter_insertion⟩

namespace CartoonStore

end CartoonStore

/-! ## The feed -/

namespace FeedRun

variable {s : CartoonStore}

/-- Cartoons of one second are in the order in which their fetches were
completed. -/
structure Stable (s : CartoonStore) (r : FeedRun) : Prop where
  sound : r.Sound s
  seconds : ∀ n : Int, (r.load.cartoons.filter fun c => c.time.seconds = n) =
    (r.load.completed.filterMap s.cartoon?).filter fun c => c.time.seconds = n

theorem Stable.start : FeedRun.start.Stable s := ⟨.start, fun _ => rfl⟩

theorem Stable.step {sort : StableSort} {r r' : FeedRun} {e : LoadEvent} (h : r.Stable s)
    (hstep : FeedRun.step sort.toFeedSort s r e = some r') : r'.Stable s := by
  refine ⟨h.sound.step hstep, fun n => ?_⟩
  obtain ⟨out, hload, -⟩ := step_load hstep
  rcases Load.step_cases hload with ⟨o, -, -, -, hr'⟩ | ⟨id, o, -, -, -, -, hr'⟩ |
    ⟨id, o, c, -, hid, hdec, -, -, hr'⟩
  · rw [hr']
    exact h.seconds n
  · rw [hr']
    exact h.seconds n
  · rw [hr', gather_of_not_mem (h.sound.load.not_gathered hid hdec), sort.stable,
      List.filter_append, h.seconds n, List.filterMap_append, List.filterMap_cons_some hdec,
      List.filter_append]
    rfl

/-- The answers that complete these fetches in this order. -/
def answers (ids : List DocID) : List LoadEvent :=
  .documents ⟨true, "", ⟨0, 0⟩⟩ :: ids.map fun id => .document id ⟨true, "", ⟨0, 0⟩⟩

/-- Fetches that are waiting may be completed in any order. -/
theorem exists_run_waiting (sort : FeedSort) : ∀ (ids : List DocID) (r : FeedRun),
    r.load.waiting.Perm ids → (∀ id ∈ ids, id ∈ s.ids) →
    ∃ t, run (FeedRun.step sort s) r
      (ids.map fun id => .document id ⟨true, "", ⟨0, 0⟩⟩) = some t
  | [], r, _, _ => ⟨r, rfl⟩
  | id :: ids, r, hperm, hids => by
    obtain ⟨c, hc⟩ := CartoonStore.exists_cartoon (hids id List.mem_cons_self)
    have hmem : id ∈ r.load.waiting := hperm.mem_iff.mpr List.mem_cons_self
    have hfetch : CartoonService.fetchCartoon s.documents id ⟨true, "", ⟨0, 0⟩⟩ = some c := by
      rw [CartoonService.fetchCartoon, if_pos rfl, s.init_eq, hc]
    have hstep : ∃ r', FeedRun.step sort s r (.document id ⟨true, "", ⟨0, 0⟩⟩) = some r' ∧
        r'.load.waiting = r.load.waiting.erase id := by
      rw [FeedRun.step, Load.step, if_pos hmem, hfetch]
      exact ⟨_, rfl, rfl⟩
    obtain ⟨r', hr', hwaiting⟩ := hstep
    have hperm' : r'.load.waiting.Perm ids := by
      rw [hwaiting]
      exact (hperm.erase id).trans (.of_eq (List.erase_cons_head ..))
    obtain ⟨t, ht⟩ :=
      exists_run_waiting sort ids r' hperm' fun x hx => hids x (List.mem_cons_of_mem id hx)
    exact ⟨t, by rw [List.map_cons, run, hr', Option.bind_some, ht]⟩

/-- Every order of the documents is one in which their fetches may be completed. -/
theorem exists_run (sort : FeedSort) {ids : List DocID} (hperm : ids.Perm s.ids) :
    ∃ t, run (FeedRun.step sort s) FeedRun.start (answers ids) = some t :=
  exists_run_waiting sort ids ⟨⟨false, s.ids, [], []⟩, []⟩ hperm.symm
    fun _ hid => hperm.mem_iff.mp hid

end FeedRun

/-! ## Agreement -/

end Toontagram
