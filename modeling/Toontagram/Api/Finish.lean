import Toontagram.Lib.Drain
import Toontagram.Api.App

/-!
# Answering comes to an end

A closure may issue calls, whose closures may issue calls again, and the loops
of `updateMainUserAfterFan` and `updateMainUserAfterCartoon` issue as many as
there are documents at that moment, so nothing bounds the number of calls that
follow from one operation. `Call.depth` is the number of generations that can
still follow; every closure only issues calls of a smaller depth
(`Call.depth_spawned`), which makes the answers a `Lib.Drain`.
-/

namespace Toontagram

open Lib (Drain Along run)
open Relation (CutExpand)

/-- The generations of calls after a write with this completion. -/
def ScreenCompletion.depth : ScreenCompletion → ℕ
  | .ignore => 0
  | .antiFanned .. => 2
  | .fanned .. => 2
  | .liked .. => 1
  | .commented .. => 1

def Completion.depth : Completion → ℕ
  | .screen completion => completion.depth
  | .fanUsers _ _ completion => completion.depth + 1
  | .antiFanUser _ _ completion => completion.depth + 1
  | .likeCartoon _ _ completion => completion.depth + 1
  | .unLikeCartoon _ _ completion => completion.depth + 1

def Call.depth (k : Call) : ℕ :=
  match k.request with
  | .write _ completion => completion.depth
  | .getDocuments .. => 1
  | .getDocument .. => 0

/-- A screen issues feedback, after which nothing follows, or starts a loop. -/
theorem ScreenCompletion.depth_run {c : ScreenCompletion} {auth : Option Uid} {m : Moment}
    {k : Call} (hk : k ∈ (c.run auth m).calls) : k.depth < c.depth := by
  have hfeedback : ∀ {toUid type cartoon user},
      k ∈ FeedBackService.uploadFeedBack auth toUid type cartoon user m → k.depth = 0 := by
    intro toUid type cartoon user hk
    obtain ⟨-, -, -, rfl⟩ := FeedBackService.mem_uploadFeedBack hk
    rfl
  have hloop : ∀ {user didFan}, k ∈ CartoonService.updateMainUserAfterFan auth user didFan →
      k.depth = 1 := by
    intro user didFan hk
    obtain ⟨-, rfl⟩ := CartoonService.mem_updateMainUserAfterFan hk
    rfl
  cases c with
  | ignore => cases hk
  | antiFanned vc user =>
    rw [hloop hk]
    show 1 < 2
    omega
  | fanned vc user currentUser =>
    show k.depth < 2
    rcases List.mem_append.mp hk with hk | hk
    · rw [hfeedback hk]
      omega
    · rw [hloop hk]
      omega
  | liked cartoon user | commented cartoon user =>
    simp only [run] at hk
    rw [hfeedback hk]
    show 0 < 1
    omega

theorem Completion.depth_run {c : Completion} {auth : Option Uid} {m : Moment} {k : Call}
    (hk : k ∈ (c.run auth m).calls) : k.depth < c.depth := by
  cases c with
  | screen c => exact ScreenCompletion.depth_run hk
  | fanUsers uid currentUid c | antiFanUser uid currentUid c
  | likeCartoon uid cartoonId c | unLikeCartoon uid cartoonId c =>
    rw [List.mem_singleton.mp hk]
    exact Nat.lt_succ_self _

/-- Every generation of calls is followed by a smaller number of generations. -/
theorem Call.depth_spawned {k k' : Call} {r : Reply} {s : Firestore}
    (hk' : k' ∈ (k.exec r s).2.calls) : k'.depth < k.depth := by
  obtain ⟨auth, request⟩ := k
  cases request with
  | write w c => exact Completion.depth_run hk'
  | getDocuments q c =>
    have hread : ∀ w c', (⟨auth, .getDocuments q c⟩ : Call).request ≠ .write w c' := by
      intro w c' h
      cases h
    obtain ⟨b, v, x, rfl⟩ := Call.mem_exec_read hread hk'
    show 0 < 1
    omega
  | getDocument ref c =>
    simp only [Call.exec] at hk'
    split at hk'
    next =>
      rw [GetCallback.calls_run] at hk'
      cases hk'
    next => cases hk'

namespace App

/-- The event answers a call. -/
def Event.answers : Event → Bool
  | .answer _ _ => true
  | _ => false

/-- The event starts an operation. -/
def Event.starts : Event → Bool
  | .act _ => true
  | _ => false

/-- No call fails. -/
def Event.succeeds : Event → Bool
  | .answer _ r => r.ok
  | _ => true

/-- The generations that are still to come after each call in flight. -/
def work (n : App) : Multiset ℕ := ↑(n.inflight.map fun t => t.call.depth)

/-- Answering a call replaces it by calls of a smaller depth. -/
theorem work_answer {n n' : App} {i : ℕ} {r : Reply} (h : n.step (.answer i r) = some n') :
    CutExpand (· < ·) n'.work n.work := by
  obtain ⟨t, ht, rfl⟩ := Option.map_eq_some_iff.mp h
  refine Drain.cutExpand_replace _ _ (Drain.coe_map_eraseIdx (fun t : Task => t.call.depth) ht)
    (by rw [work, List.map_append, ← Multiset.coe_add]) fun d hd => ?_
  obtain ⟨t', ht', rfl⟩ := List.mem_map.mp hd
  obtain ⟨k, hk, rfl⟩ := List.mem_map.mp ht'
  exact Call.depth_spawned hk

theorem work_of_answers {n n' : App} {e : Event} (he : e.answers = true)
    (h : n.step e = some n') : CutExpand (· < ·) n'.work n.work := by
  cases e with
  | answer i r => exact work_answer h
  | act o | fetchCartoon cartoonID r | fetchFeedBack uid now => cases he

def draining : Drain App.step ℕ where
  work := work
  lt := (· < ·)
  wf := Nat.lt_wfRel.wf
  drains e := e.answers = true
  cut := work_of_answers

theorem work_eq_zero {n : App} : n.work = 0 ↔ n.Quiet := by
  rw [work, Multiset.coe_eq_zero, List.map_eq_nil_iff]
  rfl

/-- Any strategy of answering: some call in flight, and any reply to it. -/
def reply (pick : App → ℕ × Reply) (n : App) : Event :=
  .answer ((pick n).1 % n.inflight.length) (pick n).2

/-- Answering comes to an end, whatever the store holds, whichever calls are
answered first and however they are answered. So calls are answered for ever only if
operations are started for ever. -/
theorem comes_to_rest :
    (∀ (pick : App → ℕ × Reply) (n : App), ∃ es m,
      Along App.step (fun n e => e = n.reply pick) n es ∧ run App.step n es = some m ∧ m.Quiet) ∧
    ∀ (f : ℕ → App) (e : ℕ → Event), (∀ n, (f n).step (e n) = some (f (n + 1))) →
      (∀ n, ∃ m, n ≤ m ∧ (e m).answers = true) → ∀ n, ∃ m, n ≤ m ∧ (e m).starts = true := by
  constructor
  · intro pick n
    have hpick : ∀ n : App, n.work ≠ 0 →
        (n.reply pick).answers = true ∧ ∃ n', n.step (n.reply pick) = some n' := by
      intro n hwork
      have hlen : 0 < n.inflight.length :=
        List.length_pos_iff.mpr fun h => hwork (work_eq_zero.mpr h)
      have hlt : (pick n).1 % n.inflight.length < n.inflight.length := Nat.mod_lt _ hlen
      refine ⟨rfl, ?_⟩
      rw [reply, step, Lib.Flight.answer, List.getElem?_eq_getElem hlt, Option.map_some]
      exact ⟨_, rfl⟩
    obtain ⟨es, m, halong, hrun, hm⟩ := draining.drained hpick n
    exact ⟨es, m, halong, hrun, work_eq_zero.mp hm⟩
  · intro f e hstep hanswers
    have hkeep : ∀ (n : App) e n', ¬ draining.drains e → ¬ e.starts = true →
        n.step e = some n' → draining.work n' = draining.work n := by
      intro n e n' hdrains hadds h
      cases e with
      | act o => exact absurd rfl hadds
      | answer i r => exact absurd rfl hdrains
      -- a screen that reads leaves the calls in flight as they are
      | fetchCartoon cartoonID r | fetchFeedBack uid now =>
        obtain rfl := Option.some.inj h
        rfl
    exact draining.recurs hkeep hstep hanswers

/-- The reader begins to follow the author. Every call fails, and the closures go on. -/
def refusedFollow : List Event :=
  let reader := User.init (.ofList [("uid", .string "reader")])
  let author := User.init (.ofList [("uid", .string "author")])
  let failed : Event := .answer 0 ⟨false, ⟨"", ⟨0, 0⟩⟩⟩
  [.act (.action (.didTapButton (some "reader") (some reader) 0 author)), failed, failed, failed,
    failed]

/-- And the same again. -/
def retries (n : ℕ) : App := (run step (opened ∅) (refusedFollow.take (n % 5))).getD (opened ∅)

def retry (n : ℕ) : Event := refusedFollow.getD (n % 5) (.answer 0 ⟨false, ⟨"", ⟨0, 0⟩⟩⟩)

theorem comes_to_rest_retry :
    (∃ es m, Along App.step
      (fun n e => e = n.reply fun _ => (7, ⟨true, ⟨"", ⟨0, 0⟩⟩⟩)) (retries 1) es ∧
      run App.step (retries 1) es = some m ∧ m.Quiet) ∧
    (retries 3).inflight.length = 2 ∧ ∃ m, 7 ≤ m ∧ (retry m).starts = true := by
  have hround : ∀ k : Fin 5, (retries k).step (retry k) = some (retries (k + 1)) := by
    intro k
    match k with
    | 0 => rfl
    | 1 => rfl
    | 2 => rfl
    | 3 => rfl
    | 4 => rfl
  have hrun : ∀ n, (retries n).step (retry n) = some (retries (n + 1)) := by
    intro n
    have hmod : (n % 5 + 1) % 5 = (n + 1) % 5 := by omega
    have hstep := hround ⟨n % 5, Nat.mod_lt n (by omega)⟩
    simp only [retries, retry, Nat.mod_mod, hmod] at hstep ⊢
    exact hstep
  have hanswers : ∀ n, ∃ m, n ≤ m ∧ (retry m).answers = true := by
    intro n
    refine ⟨5 * n + 1, by omega, ?_⟩
    rw [retry, show (5 * n + 1) % 5 = 1 by omega]
    rfl
  exact ⟨comes_to_rest.1 _ _, by decide, comes_to_rest.2 retries retry hrun hanswers 7⟩

end App

end Toontagram
