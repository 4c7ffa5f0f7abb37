import Toontagram.Lib.Run
import Toontagram.Feed.Coherent
import Toontagram.Like.Tap

/-!
# Mirrored documents when writes fail

A follow is two documents that should say the same, the star and the fan; so is
a like, among the likes of the cartoon and among those of the user. The
services write the first document and, from the acknowledgement, the second,
and no closure looks at the error it is handed: the second write is issued when
the first one failed, and the profile screen shows the follow whatever became
of the writes. (`uploadCartoon` and `deleteCartoon` look at theirs.)

`MirroredCall` is what the four operations have in common, and
`MirroredCall.ended` says what is left of one, for every outcome of its writes
and every order of the answers. `agrees_iff_outcomes` compares that with what a
failed operation should leave: it is right exactly when the documents were
already as the operation leaves them, or both writes succeed, or, for a like,
when both fail.
-/

namespace Toontagram

open Lib (DocWrite Flight run Along run_inv_along)

/-- An action that writes `firstRef` by `first` and then `secondRef` by
`second`, whose acknowledgement sets `user.fan` of the screen `shows`. All
other calls it leads to are `beside` the two. -/
structure MirroredCall where
  action : Action
  first : Call
  second : Call
  firstRef : DocRef
  secondRef : DocRef
  leaves : Bool
  shows : Option ProfileID
  beside : Call → Prop
  calls_perm : ∃ rest, action.calls.Perm (first :: rest) ∧ ∀ k ∈ rest, beside k
  first_firstRef : first.leavesAt firstRef = some leaves
  first_secondRef : first.leavesAt secondRef = none
  second_firstRef : second.leavesAt firstRef = none
  second_secondRef : second.leavesAt secondRef = some leaves
  first_exec : ∀ r s, (first.exec r s).2 = { calls := [second] }
  second_calls : ∀ r s, ∀ k ∈ (second.exec r s).2.calls, beside k
  second_effects : ∀ r s, (second.exec r s).2.effects =
    shows.toList.map fun vc => .profileFan vc leaves
  beside_firstRef : ∀ k, beside k → k.leavesAt firstRef = none
  beside_secondRef : ∀ k, beside k → k.leavesAt secondRef = none
  beside_calls : ∀ k, beside k → ∀ r s, ∀ k' ∈ (k.exec r s).2.calls, beside k'
  beside_effects : ∀ k, beside k → ∀ r s, (k.exec r s).2.effects = []

namespace MirroredCall

variable (o : MirroredCall)

/-- Every call is answered as `ok` says, and nothing else happens. -/
def answeredBy (ok : Call → Bool) (n : Net) : Event → Bool
  | .act _ => false
  | .answer i r =>
    match n.inflight[i]? with
    | some p => r.ok == ok p.call
    | none => true

/-- The value a document has after a write with the given outcome. -/
def outcome (ok : Bool) (before : Bool) : Bool := if ok then o.leaves else before

/-- What the screens show once the second write is acknowledged. -/
def shown (fan : ProfileID → Bool) : ProfileID → Bool :=
  fun vc => if o.shows = some vc then o.leaves else fan vc

/-- How far the operation is, among calls beside it. -/
inductive Phase (ok : Call → Bool) (w : World) (n : Net) : Prop where
  | first (rest : List Call)
      (hflight : (n.inflight.map Pending.call).Perm (o.first :: rest))
      (hrest : ∀ k ∈ rest, o.beside k)
      (hfirst : n.state.store.has o.firstRef = w.store.has o.firstRef)
      (hsecond : n.state.store.has o.secondRef = w.store.has o.secondRef)
      (hfan : n.state.fan = w.fan)
  | second (rest : List Call)
      (hflight : (n.inflight.map Pending.call).Perm (o.second :: rest))
      (hrest : ∀ k ∈ rest, o.beside k)
      (hfirst : n.state.store.has o.firstRef =
        o.outcome (ok o.first) (w.store.has o.firstRef))
      (hsecond : n.state.store.has o.secondRef = w.store.has o.secondRef)
      (hfan : n.state.fan = w.fan)
  | ended (hrest : ∀ k ∈ n.inflight.map Pending.call, o.beside k)
      (hfirst : n.state.store.has o.firstRef =
        o.outcome (ok o.first) (w.store.has o.firstRef))
      (hsecond : n.state.store.has o.secondRef =
        o.outcome (ok o.second) (w.store.has o.secondRef))
      (hfan : n.state.fan = o.shown w.fan)

theorem phase_start (ok : Call → Bool) (w : World) :
    o.Phase ok w (Net.start ⟨w, []⟩ o.action) := by
  obtain ⟨rest, hperm, hrest⟩ := o.calls_perm
  refine .first rest ?_ hrest rfl rfl rfl
  have : (Net.start ⟨w, []⟩ o.action).inflight.map Pending.call = o.action.calls := by
    simp [Net.start, Flight.issue, Function.comp_def]
  rw [this]
  exact hperm

/-- Removing the answered call from the calls in flight. -/
private theorem perm_answered {pre post : List Pending} {p : Pending} {k : Call}
    {rest : List Call} (h : ((pre ++ p :: post).map Pending.call).Perm (k :: rest)) :
    (p.call = k ∧ ((pre ++ post).map Pending.call).Perm rest) ∨
    ∃ rest', p.call ∈ rest ∧ (∀ k' ∈ rest', k' ∈ rest) ∧
      ((pre ++ post).map Pending.call).Perm (k :: rest') := by
  have hp : (p.call :: (pre ++ post).map Pending.call).Perm (k :: rest) := by
    refine List.Perm.trans ?_ h
    simp only [List.map_append, List.map_cons]
    exact List.perm_middle.symm
  have hmem : p.call ∈ k :: rest := hp.subset (List.mem_cons_self ..)
  rcases List.mem_cons.mp hmem with he | hmem
  · exact Or.inl ⟨he, (he ▸ hp).cons_inv⟩
  · obtain ⟨a, b, rfl⟩ := List.append_of_mem hmem
    refine Or.inr ⟨a ++ b, hmem, fun k' hk' => ?_, ?_⟩
    · simp only [List.mem_append, List.mem_cons] at hk' ⊢
      tauto
    · have hmiddle : (a ++ p.call :: b).Perm (p.call :: (a ++ b)) := List.perm_middle
      exact (hp.trans ((hmiddle.cons k).trans (.swap ..))).cons_inv

section step

variable {o} {ok : Call → Bool} {w : World} {n : Net} {p : Pending} {r : Reply}

/-- A call beside the two writes changes none of what is watched. -/
private theorem beside_exec (hp : o.beside p.call) :
    (p.exec r n.state).1.store.has o.firstRef = n.state.store.has o.firstRef ∧
    (p.exec r n.state).1.store.has o.secondRef = n.state.store.has o.secondRef ∧
    (p.exec r n.state).1.fan = n.state.fan := by
  refine ⟨?_, ?_, ?_⟩
  · rw [Pending.exec_store, Call.has_exec, o.beside_firstRef _ hp]
    exact ite_self _
  · rw [Pending.exec_store, Call.has_exec, o.beside_secondRef _ hp]
    exact ite_self _
  · rw [Pending.exec]
    simp only [o.beside_effects _ hp, List.foldl_nil]

private theorem calls_answered {pre post : List Pending} :
    (pre ++ post ++ (p.exec r n.state).2).map Pending.call =
      (pre ++ post).map Pending.call ++ (p.call.exec r n.state.store).2.calls := by
  rw [List.map_append, Pending.exec_calls, List.map_map]
  simp [Function.comp_def]

/-- What follows a call beside the two writes is beside them, too. -/
private theorem beside_spawned {rest : List Call} (hrest : ∀ k ∈ rest, o.beside k)
    (hp : o.beside p.call) : ∀ k ∈ rest ++ (p.call.exec r n.state.store).2.calls, o.beside k := by
  intro k hk
  rcases List.mem_append.mp hk with hk | hk
  · exact hrest k hk
  · exact o.beside_calls _ hp r _ k hk

/-- Each call of the pair moves the operation on, and a call beside them leaves
it where it is. -/
theorem Phase.answer {pre post : List Pending} (h : o.Phase ok w n)
    (hin : n.inflight = pre ++ p :: post) (hr : r.ok = ok p.call) :
    o.Phase ok w ⟨(p.exec r n.state).1, pre ++ post ++ (p.exec r n.state).2⟩ := by
  cases h with
  | first rest hflight hrest hfirst hsecond hfan =>
    rw [hin] at hflight
    rcases perm_answered hflight with ⟨hp, hperm⟩ | ⟨rest', hp, hsub, hperm⟩
    · -- the closure issues the second write whatever became of the first
      refine .second rest ?_ hrest ?_ ?_ ?_
      · simp only [calls_answered, hp, o.first_exec]
        exact List.perm_append_comm.trans (hperm.cons _)
      · simp only [Pending.exec_store, Call.has_exec, hr, hp, o.first_firstRef, hfirst]
        rfl
      · simp only [Pending.exec_store, Call.has_exec, hp, o.first_secondRef, ← hsecond]
        exact ite_self _
      · simp only [Pending.exec, hp, o.first_exec, List.foldl_nil, hfan]
    · obtain ⟨h1, h2, h3⟩ := beside_exec (n := n) (r := r) (hrest _ hp)
      refine .first (rest' ++ (p.call.exec r n.state.store).2.calls) ?_ ?_ (h1.trans hfirst)
        (h2.trans hsecond) (h3.trans hfan)
      · simp only [calls_answered]
        exact hperm.append_right _
      · exact beside_spawned (fun k hk => hrest k (hsub k hk)) (hrest _ hp)
  | second rest hflight hrest hfirst hsecond hfan =>
    rw [hin] at hflight
    rcases perm_answered hflight with ⟨hp, hperm⟩ | ⟨rest', hp, hsub, hperm⟩
    · refine .ended ?_ ?_ ?_ ?_
      · intro k hk
        simp only [calls_answered, hp] at hk
        rcases List.mem_append.mp hk with hk | hk
        · exact hrest k (hperm.subset hk)
        · exact o.second_calls r _ k hk
      · simp only [Pending.exec_store, Call.has_exec, hp, o.second_firstRef, ← hfirst]
        exact ite_self _
      · simp only [Pending.exec_store, Call.has_exec, hr, hp, o.second_secondRef, hsecond]
        rfl
      · -- the screen is assigned whatever became of either write
        funext v
        simp only [Pending.exec, hp, o.second_effects, shown]
        cases o.shows with
        | none => simp [hfan]
        | some vc => simp [Effect.onWorld, hfan, eq_comm]
    · obtain ⟨h1, h2, h3⟩ := beside_exec (n := n) (r := r) (hrest _ hp)
      refine .second (rest' ++ (p.call.exec r n.state.store).2.calls) ?_ ?_ (h1.trans hfirst)
        (h2.trans hsecond) (h3.trans hfan)
      · simp only [calls_answered]
        exact hperm.append_right _
      · exact beside_spawned (fun k hk => hrest k (hsub k hk)) (hrest _ hp)
  | ended hrest hfirst hsecond hfan =>
    have hp : o.beside p.call := hrest _ (by rw [hin]; simp)
    obtain ⟨h1, h2, h3⟩ := beside_exec (n := n) (r := r) hp
    refine .ended ?_ (h1.trans hfirst) (h2.trans hsecond) (h3.trans hfan)
    simp only [calls_answered]
    refine beside_spawned (fun k hk => hrest k ?_) hp
    rw [hin]
    simp only [List.map_append, List.map_cons, List.mem_append, List.mem_cons] at hk ⊢
    tauto

end step

/-- What is left when the operation has ended, for every outcome of its calls
and every order of their answers. -/
theorem ended {ok : Call → Bool} {w : World} {es : List Event} {n : Net}
    (hrun : run Net.step (Net.start ⟨w, []⟩ o.action) es = some n)
    (hok : Along Net.step (fun n e => answeredBy ok n e = true) (Net.start ⟨w, []⟩ o.action) es)
    (hquiet : n.Quiet) :
    n.state.store.has o.firstRef = o.outcome (ok o.first) (w.store.has o.firstRef) ∧
    n.state.store.has o.secondRef = o.outcome (ok o.second) (w.store.has o.secondRef) ∧
    n.state.fan = o.shown w.fan := by
  have hstep : ∀ n e n', o.Phase ok w n → answeredBy ok n e = true → n.step e = some n' →
      o.Phase ok w n' := by
    intro n e n' h hok hstep
    cases e with
    | act a => cases hok
    | answer i r =>
      obtain ⟨pre, p, post, hin, hlen, rfl⟩ := Net.step_answer hstep
      refine h.answer hin ?_
      simpa [answeredBy, hin, Flight.getElem?_answered hlen] using hok
  -- with nothing in flight only the last phase is left
  cases run_inv_along hstep es (o.phase_start ok w) hok hrun with
  | first rest hflight =>
    rw [show n.inflight = [] from hquiet] at hflight
    exact absurd hflight.length_eq (by simp)
  | second rest hflight =>
    rw [show n.inflight = [] from hquiet] at hflight
    exact absurd hflight.length_eq (by simp)
  | ended _ hfirst hsecond hfan => exact ⟨hfirst, hsecond, hfan⟩

end MirroredCall

/-! ## The four operations -/

theorem Aside.exec_any {k : Call} (hk : Aside k) (r : Reply) (s : Firestore) :
    (k.exec r s).2.effects = [] ∧ ∀ k' ∈ (k.exec r s).2.calls, Aside k' := by
  obtain ⟨hw, hc⟩ := hk
  refine ⟨?_, Completion.run_aside hc⟩
  rename_i auth w c
  cases c with
  | screen c => cases c <;> first | rfl | cases hc
  | likeCartoon => rfl
  | unLikeCartoon => rfl
  | fanUsers => cases hc
  | antiFanUser => cases hc

/-- The calls of a tap beside the star and the fan. -/
inductive Tap.Beside (t : Tap) : Call → Prop where
  | list : Tap.Beside t t.list
  | feed (x : DocID) : Tap.Beside t (t.feed x)
  | aside {k : Call} (hk : Aside k) : Tap.Beside t k

/-- A follow or an unfollow from a profile screen. -/
def Tap.mirrored (t : Tap) : MirroredCall where
  action := t.action
  first := t.star
  second := t.enrol
  firstRef := ⟨.userStar t.me, t.user.uid⟩
  secondRef := ⟨.userFan t.user.uid, t.me⟩
  leaves := t.didFan
  shows := some t.vc
  beside := t.Beside
  calls_perm := by
    exact ⟨[], by rw [t.calls_action], fun k hk => nomatch hk⟩
  first_firstRef := by simp
  first_secondRef := by simp
  second_firstRef := by simp
  second_secondRef := by simp
  first_exec := by
    intro r s
    cases hfan : t.user.fan <;>
      simp [Call.exec, Tap.star, Tap.enrol, Tap.didFan, Completion.run, DocWrite.mark, hfan]
  second_calls := by
    intro r s k hk
    obtain ⟨back, hback, hcalls⟩ := t.enrol_calls (r := r) (s := s)
    rw [hcalls, List.mem_append, List.mem_singleton] at hk
    rcases hk with hk | rfl
    · exact .aside (hback k hk).1
    · exact .list
  second_effects := by
    intro r s
    cases hfan : t.user.fan <;>
      simp [Call.exec, Tap.enrol, Tap.completion, Tap.didFan, Completion.run,
        ScreenCompletion.run, hfan]
  beside_firstRef := by
    intro k hk
    cases hk with
    | list => rfl
    | feed x => simp
    | aside hk => exact hk.leavesAt rfl
  beside_secondRef := by
    intro k hk
    cases hk with
    | list => rfl
    | feed x => simp
    | aside hk => exact hk.leavesAt rfl
  beside_calls := by
    intro k hk r s k' hk'
    cases hk with
    | list =>
      cases hr : r.ok with
      | false => simp [Call.exec, Tap.list, hr] at hk'
      | true =>
        rw [t.list_exec hr] at hk'
        obtain ⟨x, -, rfl⟩ := List.mem_map.mp hk'
        exact .feed x
    | feed x => cases hk'
    | aside hk => exact .aside ((hk.exec_any r s).2 k' hk')
  beside_effects := by
    intro k hk r s
    cases hk with
    | list =>
      simp only [Call.exec, Tap.list]
      split <;> rfl
    | feed x => rfl
    | aside hk => exact (hk.exec_any r s).1

/-- The calls of a like beside its two membership documents. -/
inductive LikeTap.Beside (t : LikeTap) : Call → Prop where
  | counter : LikeTap.Beside t t.counter
  | feedback {toUid : Uid} {id : DocID} {data : Dictionary} : LikeTap.Beside t
      ⟨some t.uid, .write (.setData ⟨.userFeedback toUid, id⟩ data) (.screen .ignore)⟩

/-- A like or an unlike that gets past its guards. -/
def LikeTap.mirrored (t : LikeTap) : MirroredCall where
  action := t.action
  first := t.member
  second := t.mirror
  firstRef := ⟨.cartoonLikes t.cartoon.cartoonId, t.uid⟩
  secondRef := ⟨.userLikes t.uid, t.cartoon.cartoonId⟩
  leaves := t.didLike
  shows := none
  beside := t.Beside
  calls_perm := by
    refine ⟨[t.counter], ?_, fun k hk => ?_⟩
    · rw [t.calls_action]
      exact .swap ..
    · rw [List.mem_singleton.mp hk]
      exact .counter
  first_firstRef := by simp [LikeTap.member, Call.leavesAt, DocWrite.leavesAt]
  first_secondRef := by simp [LikeTap.member, Call.leavesAt, DocWrite.leavesAt]
  second_firstRef := by simp [LikeTap.mirror, Call.leavesAt, DocWrite.leavesAt]
  second_secondRef := by simp [LikeTap.mirror, Call.leavesAt, DocWrite.leavesAt]
  first_exec := by
    intro r s
    cases hb : t.didLike <;>
      simp [Call.exec, LikeTap.member, LikeTap.mirror, Completion.run, DocWrite.mark, hb]
  second_calls := by
    intro r s k hk
    obtain ⟨toUid, id, data, rfl⟩ := t.mirror_calls k hk
    exact .feedback
  second_effects := by
    intro r s
    cases hb : t.didLike <;>
      simp [Call.exec, LikeTap.mirror, LikeTap.completion, Completion.run, ScreenCompletion.run, hb]
  beside_firstRef := by
    intro k hk
    cases hk with
    | counter => simp [LikeTap.counter, Call.leavesAt, DocWrite.leavesAt, DocWrite.ref]
    | feedback => simp [Call.leavesAt, DocWrite.leavesAt, DocWrite.ref]
  beside_secondRef := by
    intro k hk
    cases hk with
    | counter => simp [LikeTap.counter, Call.leavesAt, DocWrite.leavesAt, DocWrite.ref]
    | feedback => simp [Call.leavesAt, DocWrite.leavesAt, DocWrite.ref]
  beside_calls := by
    intro k hk r s k' hk'
    cases hk with
    | counter => cases hk'
    | feedback => cases hk'
  beside_effects := by
    intro k hk r s
    cases hk with
    | counter => rfl
    | feedback => rfl

/-- The four operations, each past its guards. -/
inductive MirroredOperation where
  | didTapButton (t : Tap)
  | like (t : LikeTap)

def MirroredOperation.call : MirroredOperation → MirroredCall
  | .didTapButton t => t.mirrored
  | .like t => t.mirrored

/-- The taps on the follow button and on the like button. -/
def Action.mirrors : Action → Bool
  | .didTapButton .. | .likeCartoon .. | .unLikeCartoon .. => true
  | .uploadCartoon .. | .editCartoon .. => false

/-- A tap is one of the four operations or stops at a guard. -/
theorem Action.mirrors_cases {o : Action} (ho : o.mirrors = true) :
    (∃ op : MirroredOperation, op.call.action = o) ∨ o.calls = [] := by
  cases o with
  | didTapButton auth tabUser vc user =>
    rcases header_cases auth tabUser vc user with
      h | ⟨me, currentUser, rfl, rfl, hme, -⟩
    · exact Or.inr h
    · exact Or.inl ⟨.didTapButton ⟨me, currentUser, vc, user, hme⟩, rfl⟩
  | likeCartoon auth cartoon user =>
    cases auth with
    | none => exact Or.inr rfl
    | some uid => exact Or.inl ⟨.like ⟨uid, cartoon, user, true, nofun⟩, rfl⟩
  | unLikeCartoon auth cartoon =>
    cases auth with
    | none => exact Or.inr rfl
    | some uid =>
      by_cases hguard : cartoon.like > 0
      · exact Or.inl ⟨.like ⟨uid, cartoon, User.init .empty, false, fun _ => hguard⟩, rfl⟩
      · exact Or.inr (if_neg hguard)
  | uploadCartoon auth upload => cases ho
  | editCartoon auth type cartoonId title caption => cases ho

/-- The two documents agree, and the profile screen the operation was started
from shows the first one. -/
def MirroredCall.Agrees (o : MirroredCall) (w : World) : Prop :=
  w.store.has o.firstRef = w.store.has o.secondRef ∧
  ∀ vc, o.shows = some vc → w.fan vc = w.store.has o.firstRef

/-- The outcomes that leave the documents in agreement: a follow or an unfollow
needs both writes, since the screen shows it in any case; a like or an unlike
needs the same outcome for both. -/
def MirroredOperation.good (op : MirroredOperation) (ok : Call → Bool) : Bool :=
  match op with
  | .didTapButton t => ok t.star && ok t.enrol
  | .like t => ok t.member == ok t.mirror

/-- Two documents with the value `x`, each overwritten by `b` or not, agree. -/
private theorem same_outcomes (b x k₁ k₂ : Bool) :
    (if k₁ then b else x) = (if k₂ then b else x) ↔ x = b ∨ (k₁ == k₂) = true := by
  revert b x k₁ k₂
  decide

/-- As `same_outcomes`, and the first document has the value the screen shows. -/
private theorem shown_outcomes (b x k₁ k₂ : Bool) :
    (if k₁ then b else x) = (if k₂ then b else x) ∧ b = (if k₁ then b else x) ↔
      x = b ∨ (k₁ && k₂) = true := by
  revert b x k₁ k₂
  decide

/-- For every outcome of every call and every order of the answers, an operation
leaves its documents and the screen in agreement exactly when the documents
were already as the operation leaves them, or its outcomes are good. A tap that
is none of the operations stops at a guard and leaves everything as it is. -/
theorem agrees_iff_outcomes (w : World) :
    (∀ (op : MirroredOperation) (ok : Call → Bool) (es : List Event) (n : Net),
      w.store.has op.call.firstRef = w.store.has op.call.secondRef →
      run Net.step (Net.start ⟨w, []⟩ op.call.action) es = some n →
      Along Net.step (fun n e => MirroredCall.answeredBy ok n e = true)
        (Net.start ⟨w, []⟩ op.call.action) es →
      n.Quiet →
      (op.call.Agrees n.state ↔
        w.store.has op.call.firstRef = op.call.leaves ∨ op.good ok = true)) ∧
    ∀ o : Action, o.mirrors = true →
      (∃ op : MirroredOperation, op.call.action = o) ∨ Net.start ⟨w, []⟩ o = ⟨w, []⟩ := by
  refine ⟨fun op ok es n hpair hrun hok hquiet => ?_, fun o ho => ?_⟩
  · obtain ⟨hfirst, hsecond, hfan⟩ := op.call.ended hrun hok hquiet
    rw [MirroredCall.Agrees, hfirst, hsecond, hfan, ← hpair]
    cases op with
    | didTapButton t =>
      have hscreen : (∀ vc, t.mirrored.shows = some vc → t.mirrored.shown w.fan vc =
          t.mirrored.outcome (ok t.star) (w.store.has t.mirrored.firstRef)) ↔
          t.didFan = t.mirrored.outcome (ok t.star) (w.store.has t.mirrored.firstRef) := by
        have hshown : t.mirrored.shown w.fan t.vc = t.didFan := if_pos rfl
        constructor
        · exact fun h => hshown.symm.trans (h t.vc rfl)
        · rintro h vc hvc
          cases hvc
          exact hshown.trans h
      exact (and_congr_right' hscreen).trans (shown_outcomes _ _ _ _)
    | like t =>
      have hscreen : ∀ vc, t.mirrored.shows = some vc → t.mirrored.shown w.fan vc =
          t.mirrored.outcome (ok t.member) (w.store.has t.mirrored.firstRef) := nofun
      exact (and_iff_left hscreen).trans (same_outcomes _ _ _ _)
  · refine (Action.mirrors_cases ho).imp_right fun hcalls => ?_
    simp only [Net.start, Flight.issue, hcalls, List.map_nil, List.append_nil]

/-! ### A follow whose second write fails -/

/-- The reader follows the author from a profile screen that shows no follow. -/
def follow : Tap where
  me := "reader"
  currentUser := User.init .empty
  vc := 0
  user := User.init (.ofList [("uid", .string "author")])
  other := by decide

def World.empty : World := ⟨∅, fun _ => false⟩

/-- The oldest call in flight is answered. -/
def reply (ok : Bool) : Event := .answer 0 ⟨ok, ⟨"feedback", ⟨0, 0⟩⟩⟩

/-- Every write of the follow succeeds. -/
theorem agrees_iff_outcomes_follow : ∃ n,
    run Net.step (Net.start ⟨World.empty, []⟩ follow.action)
      [reply true, reply true, reply true, reply true] = some n ∧
    (follow.mirrored.Agrees n.state ↔
      World.empty.store.has follow.mirrored.firstRef = follow.mirrored.leaves ∨ true = true) :=
  ⟨_, (Option.some_get (by decide)).symm, (agrees_iff_outcomes World.empty).1
    (.didTapButton follow) (fun _ => true) [reply true, reply true, reply true, reply true] _
    (by decide) (Option.some_get (by decide)).symm (by decide) (by decide)⟩

/-- The write of the star succeeds and the write of the fan fails. -/
theorem agrees_fan_fails :
    ¬ ∀ (op : MirroredOperation) (ok : Call → Bool) (w : World) (es : List Event) (n : Net),
      op.call.Agrees w → run Net.step (Net.start ⟨w, []⟩ op.call.action) es = some n →
      Along Net.step (fun n e => MirroredCall.answeredBy ok n e = true)
        (Net.start ⟨w, []⟩ op.call.action) es →
      n.Quiet → op.call.Agrees n.state := by
  intro h
  have hagrees := h (.didTapButton follow)
    (fun k => k.leavesAt ⟨.userFan "author", "reader"⟩ = none) World.empty
    [reply true, reply false, reply true, reply true]
    ((run Net.step (Net.start ⟨World.empty, []⟩ follow.action)
      [reply true, reply false, reply true, reply true]).get (by decide))
    ⟨by decide, by decide⟩ (Option.some_get _).symm (by decide) (by decide)
  revert hagrees
  unfold MirroredCall.Agrees
  decide

end Toontagram
