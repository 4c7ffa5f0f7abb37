import Toontagram.Api.App

/-!
# The writes of users and cartoons

The documents of the two top collections are written by several operations, each
of which writes its own fields from what its screen holds. `TopWrite` lists these
writes. No closure makes another one (what follows an operation goes into
subcollections), so a write of a user or a cartoon is one of its operation's own
calls.

`App.Sound` is what this gives for every state a run reaches: the store is what
the log has left, every write in the log and in flight is one of the list, and
each user and each cartoon is created at most once.
-/

namespace Toontagram

open Lib (Flight replay run run_inv)
open CartoonService (Upload)
open AuthService (Registration)

/-! ## The writes of users and cartoons -/

/-- The collections that are not inside a document. -/
def Collection.top : Collection → Bool
  | .user => true
  | .cartoon => true
  | _ => false

/-- The write of a user or a cartoon that an operation makes. -/
inductive TopWrite : Operation → Write → Prop where
  | upload (u : Upload) (a : Uid) :
      TopWrite (.action (.uploadCartoon (some a) u)) (.setData ⟨.cartoon, u.ref⟩ (u.data a))
  | like (a : Uid) (cartoon : Cartoon) (user : User) :
      TopWrite (.action (.likeCartoon (some a) cartoon user))
        (.updateData ⟨.cartoon, cartoon.cartoonId⟩
          (.ofList [("like", .int (cartoon.like + 1))]))
  | unLike (a : Uid) (cartoon : Cartoon) :
      TopWrite (.action (.unLikeCartoon (some a) cartoon))
        (.updateData ⟨.cartoon, cartoon.cartoonId⟩
          (.ofList [("like", .int (cartoon.like - 1))]))
  | edit (auth : Option Uid) (type : String) (cartoonId : DocID) (title caption : String) :
      TopWrite (.action (.editCartoon auth type cartoonId title caption))
        (.updateData ⟨.cartoon, cartoonId⟩
          (.ofList [("title", .string title), ("type", .string type),
            ("caption", .string caption)]))
  | deleteCartoon (auth : Option Uid) (cartoon : Cartoon) :
      TopWrite (.deleteCartoon auth cartoon) (.delete ⟨.cartoon, cartoon.cartoonId⟩)
  | editUserData (auth : Option Uid) (user : User) (str : Vector String 2) (intro : String) :
      TopWrite (.editUserData auth user str intro)
        (.updateData ⟨.user, user.uid⟩ (UserService.edited str intro))
  | userRegister (r : Registration) : TopWrite (.userRegister r) (.setData ⟨.user, r.uid⟩ r.data)

/-- A call that writes a user or a cartoon does so as the operation says. -/
def Call.TopOf (o : Operation) (k : Call) : Prop :=
  ∀ w c, k.request = .write w c → w.ref.collection.top = true → TopWrite o w

/-- A call that writes no user and no cartoon. -/
def Call.Below (k : Call) : Prop :=
  ∀ w c, k.request = .write w c → w.ref.collection.top = false

theorem Call.Below.topOf {k : Call} (h : k.Below) (o : Operation) : k.TopOf o := by
  intro w c hreq htop
  rw [h w c hreq] at htop
  cases htop

/-- No closure writes a user or a cartoon. -/
theorem Call.below_exec {k k' : Call} {r : Reply} {s : Firestore}
    (hk' : k' ∈ (k.exec r s).2.calls) : k'.Below := by
  intro w c hreq
  cases Call.spawned_exec hk' with
  | feed b | fan b | likes b =>
    cases hreq
    cases b <;> rfl
  | feedback =>
    cases hreq
    rfl
  | cartoons => cases hreq

/-- What an operation itself writes of users and cartoons. -/
theorem Operation.top_calls {o : Operation} {k : Call} (hk : k ∈ o.calls) : k.TopOf o := by
  intro w c hreq htop
  cases Operation.issues hk with
  | post =>
    cases hreq
    exact .upload ..
  | likeNumber =>
    cases hreq
    exact .like ..
  | unLikeNumber =>
    cases hreq
    exact .unLike ..
  | edit =>
    cases hreq
    exact .edit ..
  | deleteCartoon =>
    cases hreq
    exact .deleteCartoon ..
  | editUserData =>
    cases hreq
    exact .editUserData ..
  | userRegister =>
    cases hreq
    exact .userRegister ..
  | fans | edited => cases hreq
  | follow | unfollow | likeMark | unLikeMark | comment | fan | unFan =>
    cases hreq
    cases htop

/-! ## Creation -/

/-- The write creates the document or replaces it. -/
def Write.sets (ref : DocRef) : Write → Bool
  | .setData ref' _ => ref' = ref
  | _ => false

theorem Write.sets_cases {w : Write} {ref : DocRef} (hw : Write.sets ref w = true) :
    ∃ data, w = .setData ref data := by
  cases w with
  | setData ref' data => exact ⟨data, by rw [of_decide_eq_true hw]⟩
  | updateData | delete => cases hw

def Call.sets (ref : DocRef) (k : Call) : Bool :=
  match k.request with
  | .write w _ => Write.sets ref w
  | _ => false

/-- A user or a cartoon is set by the operation that draws its identifier. -/
theorem TopWrite.newRef {o : Operation} {w : Write} {ref : DocRef} (h : TopWrite o w)
    (hw : Write.sets ref w = true) : o.newRef = some ref := by
  cases h with
  | upload u a =>
    rw [← of_decide_eq_true hw]
    rfl
  | userRegister r =>
    rw [← of_decide_eq_true hw]
    rfl
  | like | unLike | edit | deleteCartoon | editUserData => cases hw

/-- The write a call sets a document with. -/
theorem Call.sets_cases {k : Call} {ref : DocRef} (hk : k.sets ref = true) :
    ∃ data c, k.request = .write (.setData ref data) c := by
  unfold Call.sets at hk
  split at hk
  next w c hreq =>
    obtain ⟨data, rfl⟩ := Write.sets_cases hk
    exact ⟨data, c, hreq⟩
  next => cases hk

theorem Call.TopOf.newRef {o : Operation} {k : Call} {ref : DocRef} (h : k.TopOf o)
    (htop : ref.collection.top = true) (hk : k.sets ref = true) : o.newRef = some ref := by
  obtain ⟨data, c, hreq⟩ := Call.sets_cases hk
  exact (h _ c hreq htop).newRef (decide_eq_true rfl)

theorem Call.Below.not_sets {k : Call} {ref : DocRef} (h : k.Below)
    (htop : ref.collection.top = true) : ¬ k.sets ref = true := by
  intro hk
  obtain ⟨data, c, hreq⟩ := Call.sets_cases hk
  have hbelow : ref.collection.top = false := h _ c hreq
  rw [hbelow] at htop
  cases htop

/-- One operation sets a document at most once. -/
theorem Operation.countP_sets {o : Operation} {ref : DocRef} (ho : o.newRef = some ref) :
    o.calls.countP (Call.sets ref) ≤ 1 := by
  cases o with
  | action a =>
    cases a with
    | uploadCartoon auth u =>
      cases auth with
      | none => exact Nat.zero_le _
      | some a =>
        -- the second call is a query
        have hread : (CartoonService.updateMainUserAfterCartoon (some a) u.ref).countP
            (Call.sets ref) = 0 := rfl
        change (_ :: CartoonService.updateMainUserAfterCartoon (some a) u.ref).countP _ ≤ 1
        rw [List.countP_cons, hread]
        split <;> decide
    | didTapButton | likeCartoon | unLikeCartoon | editCartoon => cases ho
  | userRegister r => exact List.countP_le_length
  | loadComment | fan | unFan | deleteCartoon | editUserData => cases ho

/-! ## The invariant -/

namespace App

/-- What holds of the flight, the log and the store of every state a run reaches. -/
structure Sound (n : App) : Prop where
  replayed : n.state.store = replay Entry.write n.state.log
  flight : ∀ t ∈ n.inflight, t.call.TopOf t.origin
  log : ∀ e ∈ n.state.log, e.write.ref.collection.top = true → TopWrite e.origin e.write
  once : ∀ ref : DocRef, ref.collection.top = true →
    n.inflight.countP (fun t => t.call.sets ref) +
      n.state.log.countP (fun e => Write.sets ref e.write) ≤ 1

theorem Sound.opened : (opened ∅).Sound where
  replayed := rfl
  flight := fun _ ht => nomatch ht
  log := fun _ he => nomatch he
  once := fun _ _ => Nat.zero_le _

variable {n n' : App}

/-- A document whose identifier is fresh is set neither in flight nor in the log. -/
theorem Sound.count_fresh (h : n.Sound) {o : Operation} {ref : DocRef}
    (htop : ref.collection.top = true) (ho : o.newRef = some ref) (hfresh : n.fresh o = true) :
    n.inflight.countP (fun t => t.call.sets ref) +
      n.state.log.countP (fun e => Write.sets ref e.write) = 0 := by
  simp only [fresh, ho, Bool.and_eq_true, List.all_eq_true, bne_iff_ne] at hfresh
  obtain ⟨⟨-, hflight⟩, hlog⟩ := hfresh
  rw [Nat.add_eq_zero_iff, List.countP_eq_zero, List.countP_eq_zero]
  refine ⟨fun t ht hsets => hflight t ht ((h.flight t ht).newRef htop hsets), ?_⟩
  intro e he hsets
  obtain ⟨data, hw⟩ := Write.sets_cases hsets
  exact hlog e he ((h.log e he (by rw [hw]; exact htop)).newRef hsets)

/-- A stored document has been set by a write of the log. -/
theorem Sound.set_of_has (h : n.Sound) {ref : DocRef} (hhas : n.state.store.has ref = true) :
    ∃ e ∈ n.state.log, Write.sets ref e.write = true := by
  rw [h.replayed] at hhas
  obtain ⟨e, he, data, hw⟩ := Lib.exists_setData_of_has hhas
  refine ⟨e, he, ?_⟩
  rw [hw]
  exact decide_eq_true rfl

/-- A user or a cartoon that has been set is not set again by a call in flight. -/
theorem Sound.not_sets (h : n.Sound) {ref : DocRef} (htop : ref.collection.top = true)
    (hset : ∃ e ∈ n.state.log, Write.sets ref e.write = true) :
    ∀ t ∈ n.inflight, t.call.sets ref = false := by
  intro t ht
  have honce := h.once ref htop
  have hlog : 0 < n.state.log.countP fun e => Write.sets ref e.write :=
    List.countP_pos_iff.mpr hset
  cases hsets : t.call.sets ref with
  | false => rfl
  | true =>
    have hflight : 0 < n.inflight.countP fun t => t.call.sets ref :=
      List.countP_pos_iff.mpr ⟨t, ht, hsets⟩
    omega

theorem Sound.act (h : n.Sound) {o : Operation} (hfresh : n.fresh o = true) :
    (n.start o).Sound where
  replayed := h.replayed
  flight := by
    intro t ht
    rcases mem_start ht with ht | ⟨k, hk, rfl⟩
    · exact h.flight t ht
    · exact Operation.top_calls hk
  log := h.log
  once := by
    intro ref htop
    have hold := h.once ref htop
    have hcalls : ((o.calls.map fun k => (⟨o, k⟩ : Task)).countP fun t => t.call.sets ref) =
        o.calls.countP (Call.sets ref) := List.countP_map
    simp only [start, Flight.issue, List.countP_append, hcalls]
    by_cases ho : o.newRef = some ref
    · have hzero := h.count_fresh htop ho hfresh
      have hone := Operation.countP_sets ho
      omega
    · have hnone : o.calls.countP (Call.sets ref) = 0 := by
        rw [List.countP_eq_zero]
        exact fun k hk hsets => ho ((Operation.top_calls hk).newRef htop hsets)
      omega

/-- The write of an answered call moves from the flight to the log, or is lost. -/
theorem countP_logged (t : Task) (r : Reply) (ref : DocRef) :
    (t.logged r).countP (fun e => Write.sets ref e.write) ≤
      [t].countP fun t => t.call.sets ref := by
  rcases answered_cases t r ∅ with ⟨hlog, -⟩ | ⟨w, c, hreq, hlog, -⟩
  · rw [hlog]
    exact Nat.zero_le _
  · rw [hlog, List.countP_singleton, List.countP_singleton, Call.sets, hreq]

/-- The store after an answer is the one the longer log leaves. -/
theorem replay_logged (t : Task) (r : Reply) (log : List Entry) :
    (t.call.exec r (replay Entry.write log)).1 = replay Entry.write (log ++ t.logged r) := by
  rcases answered_cases t r (replay Entry.write log) with
    ⟨hlog, hstore⟩ | ⟨w, c, -, hlog, hstore⟩
  · rw [hlog, hstore, List.append_nil]
  · rw [hlog, hstore, Lib.replay_concat]

theorem Sound.answer (h : n.Sound) {i : Nat} {r : Reply}
    (hstep : n.step (.answer i r) = some n') : n'.Sound := by
  obtain ⟨pre, t, post, hin, -, rfl⟩ := step_answer hstep
  have ht : t.call.TopOf t.origin := h.flight t (by rw [hin]; simp)
  constructor
  · rw [h.replayed]
    exact replay_logged ..
  · intro t' ht'
    rcases mem_answered hin ht' with ht' | ⟨k, hk, rfl⟩
    · exact h.flight t' ht'
    · exact (Call.below_exec hk).topOf _
  · intro e he htop
    rcases List.mem_append.mp he with he | he
    · exact h.log e he htop
    · rcases answered_cases t r n.state.store with ⟨hlog, -⟩ | ⟨w, c, hreq, hlog, -⟩
      · rw [hlog] at he
        cases he
      · rw [hlog] at he
        rw [List.mem_singleton.mp he] at htop ⊢
        exact ht w c hreq htop
  · intro ref htop
    have hold := h.once ref htop
    have hmoved := countP_logged t r ref
    have hspawned : ((t.call.exec r n.state.store).2.calls.map fun k =>
        (⟨t.origin, k⟩ : Task)).countP (fun t => t.call.sets ref) = 0 := by
      rw [List.countP_map, List.countP_eq_zero]
      exact fun k hk => (Call.below_exec hk).not_sets htop
    -- one write at most moves from the flight to the log, and none is issued
    rw [hin, List.countP_append, List.countP_cons] at hold
    simp only [List.countP_append, List.countP_singleton] at hmoved ⊢
    omega

theorem Sound.step (h : n.Sound) {e : Event} (hstep : n.step e = some n') : n'.Sound := by
  cases e with
  | act o =>
    obtain ⟨-, hfresh, rfl⟩ := step_act hstep
    exact h.act hfresh
  | answer i r => exact h.answer hstep
  | fetchCartoon | fetchFeedBack =>
    cases hstep
    exact ⟨h.replayed, h.flight, h.log, h.once⟩

/-- Every state a run reaches is sound. -/
theorem sound_run {es : List Event} {n : App} (h : run App.step (App.opened ∅) es = some n) :
    n.Sound :=
  run_inv (fun _ _ _ h => h.step) es .opened h

end App

end Toontagram
