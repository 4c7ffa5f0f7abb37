import Toontagram.Lib.Run
import Toontagram.Like.Tap

/-!
# The number of likes

Any number of clients read cartoons and like and unlike them (`Likers.step`).
Each client holds the cartoon it last read; a read reaches the client some time
after the server answered it (`served`). A write is applied when the server
answers it; writes of one client to one document are applied in the order it
issued them, as the SDK does, all others in any order.

`likeCartoon` writes the `like` of the cartoon it holds plus one, whatever the
document says by then. `Likers.view` reads a run as one of `Lib.Tally` for each
cartoon, and `like_eq_count` is what follows: the number is right whenever no
write is in flight, if every write of a number lands on the number it was
computed from (`Likers.current`). `like_eq_count_stale` is one client that likes
and takes it back, each write finished before the next tap, and spoils the
number: its screen still holds the cartoon as it was before the first tap.
-/

namespace Toontagram

open Lib (DocWrite Store Tally TallyWrite Flight sign run Along run_inv_along)

/-- The `like` field of a stored cartoon. -/
def likeField (s : Firestore) (c : DocID) : Option Int :=
  (s.lookup ⟨.cartoon, c⟩).bind fun data => Dictionary.int? data "like"

theorem likeField_apply_ne {s : Firestore} {w : Write} {c : DocID} (h : w.ref ≠ ⟨.cartoon, c⟩) :
    likeField (w.apply s) c = likeField s c := by
  rw [likeField, Store.lookup_apply_ne h, likeField]

/-- Writing the number of an existing cartoon. -/
theorem likeField_apply_update {s : Firestore} {c : DocID} (n : Int)
    (h : s.has ⟨.cartoon, c⟩ = true) :
    likeField ((DocWrite.updateData ⟨.cartoon, c⟩ (.ofList [("like", .int n)])).apply s) c =
      some n := by
  obtain ⟨data, hdata⟩ := Option.isSome_iff_exists.mp h
  rw [likeField, Store.lookup_apply_updateData, if_pos rfl, hdata]
  rfl

/-- A mark changes the size of its collection when it changes the answer. -/
theorem count_apply_mark (s : Firestore) (b : Bool) (r : DocRef) (c : Collection) :
    (Store.count ((DocWrite.mark b r).apply s) c : Int) =
      s.count c + if r.collection = c then (if s.has r = b then 0 else sign b) else 0 := by
  cases b with
  | true =>
    have h := Store.count_apply_setData s r .empty c
    rw [show DocWrite.mark true r = DocWrite.setData r .empty from rfl, h]
    by_cases hc : r.collection = c <;> cases s.has r <;> simp [hc, sign]
  | false =>
    have h := Store.count_apply_delete s r c
    rw [show DocWrite.mark false r = DocWrite.delete r from rfl]
    by_cases hc : r.collection = c <;> cases hr : s.has r <;>
      simp only [hc, hr, sign, and_true, and_false, if_true, if_false, reduceCtorEq,
        Bool.false_eq_true, Nat.add_zero] at h ⊢ <;>
      omega

/-! ## The clients -/

/-- The clients: `served` are the reads that have not reached their client,
`held` is the cartoon a client last read, and `liked` says what its calls of
`likeCartoon` and `unLikeCartoon` amount to. -/
structure Likers where
  net : Net
  served : List (Uid × Cartoon)
  held : Uid → DocID → Option Cartoon
  liked : Uid → DocID → Bool

inductive LikeEvent where
  | serve (uid : Uid) (cartoonId : DocID) (now : Timestamp)
  | deliver (i : Nat)
  | like (uid : Uid) (cartoonId : DocID) (user : User)
  | unLike (uid : Uid) (cartoonId : DocID)
  | answer (i : Nat) (m : Moment)
deriving DecidableEq, Repr

theorem LikeTap.writes_member (t : LikeTap) :
    t.member.writes = some ⟨.cartoonLikes t.cartoon.cartoonId, t.uid⟩ := by
  simp [LikeTap.member, Call.writes]

theorem LikeTap.auth_member (t : LikeTap) : t.member.auth = some t.uid := rfl

/-- No earlier write of the same device to the same document is in flight. -/
def Net.inOrder (n : Net) (i : Nat) : Bool :=
  match n.inflight[i]? with
  | some p => (n.inflight.take i).all fun q =>
      !(q.call.auth = p.call.auth && q.call.writes.isSome && q.call.writes = p.call.writes)
  | none => true

/-- The cartoon an action was given. -/
def Action.snapshot : Action → Option Cartoon
  | .likeCartoon _ cartoon _ => some cartoon
  | .unLikeCartoon _ cartoon => some cartoon
  | _ => none

namespace Likers

/-- A function of two arguments with a new value at one place. -/
def update {α : Type} (f : Uid → DocID → α) (u : Uid) (c : DocID) (x : α) : Uid → DocID → α :=
  fun v d => if v = u ∧ d = c then x else f v d

/-- One event. A client likes only what it does not like and unlikes only what
it likes; a call that stops at its guard changes nothing. -/
def step (s : Likers) : LikeEvent → Option Likers
  | .serve uid c now =>
    (s.net.state.store.lookup ⟨.cartoon, c⟩).map fun data =>
      { s with served := s.served ++ [(uid, Cartoon.init now c data)] }
  | .deliver i =>
    (s.served[i]?).map fun r =>
      { s with
        served := s.served.eraseIdx i
        held := update s.held r.1 r.2.cartoonId (some r.2) }
  | .like uid c user =>
    match s.held uid c with
    | some cartoon =>
      if s.liked uid c then none
      else some { s with
        net := s.net.start (.likeCartoon (some uid) cartoon user)
        liked := update s.liked uid c true }
    | none => none
  | .unLike uid c =>
    match s.held uid c with
    | some cartoon =>
      if s.liked uid c then
        let action := Action.unLikeCartoon (some uid) cartoon
        some { s with
          net := s.net.start action
          liked := if action.calls.isEmpty then s.liked else update s.liked uid c false }
      else none
    | none => none
  | .answer i m =>
    if s.net.inOrder i then
      (s.net.answer Pending.exec i ⟨true, m⟩).map fun net => { s with net := net }
    else none

/-- The start: nobody has read anything, and who is among the likes of a
cartoon likes it. -/
def opened (store : Firestore) : Likers where
  net := Net.opened store
  served := []
  held := fun _ _ => none
  liked := fun u c => store.has ⟨.cartoonLikes c, u⟩

/-- A number is written only while the document has the number it was computed
from. -/
def current (s : Likers) : LikeEvent → Bool
  | .answer i _ =>
    match s.net.inflight[i]? with
    | some p =>
      match p.call.request, p.origin.snapshot with
      | .write (.updateData ref _) _, some cartoon =>
        likeField s.net.state.store ref.documentID = some cartoon.like
      | _, _ => true
    | none => true
  | _ => true

/-! ## A run as a tally -/

/-- What a request of `u` on account of a tap is to the number of likes of `c`. -/
def tallyWrite (c : DocID) (u : Uid) (cartoon : Cartoon) (b : Bool) (request : Request) :
    Option (TallyWrite Uid) :=
  if cartoon.cartoonId = c then
    match request with
    | .write (.updateData _ _) _ => some (.bump cartoon.like b)
    | .write w _ =>
      match w.ref.collection with
      | .cartoonLikes _ => some (.mark u b)
      | _ => none
    | _ => none
  else none

def tallyOf (c : DocID) (p : Pending) : Option (TallyWrite Uid) :=
  match p.origin with
  | .likeCartoon (some u) cartoon _ => tallyWrite c u cartoon true p.call.request
  | .unLikeCartoon (some u) cartoon => tallyWrite c u cartoon false p.call.request
  | _ => none

/-- The number of likes of `c` beside the likes it counts. -/
def view (s : Likers) (c : DocID) : Tally Uid where
  value := (likeField s.net.state.store c).getD 0
  size := s.net.state.store.count (.cartoonLikes c)
  member u := s.net.state.store.has ⟨.cartoonLikes c, u⟩
  wants u := s.liked u c
  pending := s.net.inflight.filterMap (tallyOf c)

section tallyOf

variable {c : DocID}

@[simp] theorem tallyOf_counter (t : LikeTap) :
    tallyOf c ⟨t.action, t.counter⟩ =
      if t.cartoon.cartoonId = c then some (.bump t.cartoon.like t.didLike) else none := by
  cases hb : t.didLike <;> simp [tallyOf, tallyWrite, LikeTap.action, LikeTap.counter, hb]

@[simp] theorem tallyOf_member (t : LikeTap) :
    tallyOf c ⟨t.action, t.member⟩ =
      if t.cartoon.cartoonId = c then some (.mark t.uid t.didLike) else none := by
  cases hb : t.didLike <;>
    simp [tallyOf, tallyWrite, LikeTap.action, LikeTap.member, DocWrite.mark, DocWrite.ref, hb]

@[simp] theorem tallyOf_mirror (t : LikeTap) : tallyOf c ⟨t.action, t.mirror⟩ = none := by
  cases hb : t.didLike <;>
    simp [tallyOf, tallyWrite, LikeTap.action, LikeTap.mirror, DocWrite.mark, DocWrite.ref, hb]

@[simp] theorem tallyOf_feedback (t : LikeTap) (toUid : Uid) (id : DocID) (data : Dictionary) :
    tallyOf c ⟨t.action, ⟨some t.uid,
      .write (.setData ⟨.userFeedback toUid, id⟩ data) (.screen .ignore)⟩⟩ = none := by
  cases hb : t.didLike <;> simp [tallyOf, tallyWrite, LikeTap.action, DocWrite.ref, hb]

end tallyOf

/-- What holds in every run: the calls in flight are those of taps, and a
cartoon that is held, on its way to a client or being counted is stored. -/
structure Fair (s : Likers) : Prop where
  stems : ∀ p ∈ s.net.inflight, LikeTap.Stems p.origin p.call
  held : ∀ u c cartoon, s.held u c = some cartoon →
    cartoon.cartoonId = c ∧ s.net.state.store.has ⟨.cartoon, c⟩ = true
  served : ∀ r ∈ s.served, s.net.state.store.has ⟨.cartoon, r.2.cartoonId⟩ = true
  counted : ∀ p ∈ s.net.inflight, ∀ ref fields completion,
    p.call.request = .write (.updateData ref fields) completion →
    s.net.state.store.has ref = true
  number : ∀ c, s.net.state.store.has ⟨.cartoon, c⟩ = true →
    (likeField s.net.state.store c).isSome = true

theorem mark_ne_update {b : Bool} {ref ref' : DocRef} {fields : Dictionary}
    {c c' : Completion} :
    Request.write (.mark b ref) c ≠ .write (.updateData ref' fields) c' := by
  cases b <;> simp [DocWrite.mark]

/-- The only update among the calls of a tap is the one of the number. -/
theorem update_cases {o : Action} {k : Call} {ref : DocRef} {fields : Dictionary} {c : Completion}
    (h : LikeTap.Stems o k) (hk : k.request = .write (.updateData ref fields) c) :
    ∃ t : LikeTap, o = t.action ∧ k = t.counter ∧ ref = ⟨.cartoon, t.cartoon.cartoonId⟩ := by
  cases h with
  | counter t =>
    cases hk
    exact ⟨t, rfl, rfl, rfl⟩
  | member t => exact absurd hk mark_ne_update
  | mirror t => exact absurd hk mark_ne_update
  | feedback => cases hk

/-- No closure issues an update. -/
theorem spawned_ne_update {k : Call} {r : Reply} {s : Firestore} :
    ∀ k' ∈ (k.exec r s).2.calls, ∀ ref fields c,
      k'.request ≠ .write (.updateData ref fields) c := by
  intro k' hk' ref fields c e
  cases Call.spawned_exec hk' with
  | feed | fan | likes => exact mark_ne_update e
  | feedback | cartoons => cases e

/-- No call of a tap makes a cartoon or removes one. -/
theorem has_cartoon_exec {o : Action} {k : Call} {r : Reply} {s : Firestore}
    (h : LikeTap.Stems o k) (hr : r.ok = true) (c : DocID) :
    Store.has (k.exec r s).1 ⟨.cartoon, c⟩ = s.has ⟨.cartoon, c⟩ := by
  cases h with
  | counter t =>
    simp only [Call.exec, LikeTap.counter, hr, if_true, Store.has_apply, DocWrite.leavesAt]
    split <;> rfl
  | member t => simp [Call.exec, LikeTap.member, hr, Store.has_apply_mark]
  | mirror t => simp [Call.exec, LikeTap.mirror, hr, Store.has_apply_mark]
  | feedback => simp [Call.exec, hr, Store.has_apply, DocWrite.leavesAt, DocWrite.ref]

/-- A client that issues the two writes of a tap. -/
def tap (s : Likers) (t : LikeTap) : Likers :=
  { s with
    net := s.net.start t.action
    liked := update s.liked t.uid t.cartoon.cartoonId t.didLike }

/-- What an event can do: a read moves on, a tap issues its writes, an unlike
stops at its guard, or a write is applied in order. -/
theorem step_cases {s s' : Likers} {e : LikeEvent} (h : s.Fair) (hstep : s.step e = some s') :
    (s'.net = s.net ∧ s'.liked = s.liked ∧ s'.Fair) ∨
    (∃ t : LikeTap, s.liked t.uid t.cartoon.cartoonId = !t.didLike ∧
      s.net.state.store.has ⟨.cartoon, t.cartoon.cartoonId⟩ = true ∧ s' = s.tap t) ∨
    ∃ i m net, e = .answer i m ∧ s.net.inOrder i = true ∧
      s.net.answer Pending.exec i ⟨true, m⟩ = some net ∧ s' = { s with net := net } := by
  cases e with
  | serve u c now =>
    obtain ⟨data, hdata, rfl⟩ := Option.map_eq_some_iff.mp hstep
    refine Or.inl ⟨rfl, rfl, h.stems, h.held, fun r hr => ?_, h.counted, h.number⟩
    rcases List.mem_append.mp hr with hr | hr
    · exact h.served r hr
    · rw [List.mem_singleton.mp hr]
      exact Option.isSome_iff_exists.mpr ⟨data, hdata⟩
  | deliver i =>
    obtain ⟨r, hr, rfl⟩ := Option.map_eq_some_iff.mp hstep
    refine Or.inl ⟨rfl, rfl, h.stems, ?_, fun r' hr' => ?_, h.counted, h.number⟩
    · intro u c cartoon hc
      simp only [update] at hc
      split at hc
      next e =>
        cases hc
        exact ⟨e.2.symm, e.2 ▸ h.served r (List.mem_of_getElem? hr)⟩
      next => exact h.held u c cartoon hc
    · exact h.served r' (List.mem_of_mem_eraseIdx hr')
  | like u c user =>
    simp only [step] at hstep
    split at hstep
    next cartoon hheld =>
      split at hstep
      next => cases hstep
      next hliked =>
        cases hstep
        obtain ⟨rfl, hstored⟩ := h.held u c cartoon hheld
        refine Or.inr (Or.inl ⟨⟨u, cartoon, user, true, Bool.noConfusion⟩, ?_, hstored, rfl⟩)
        simpa using hliked
    next => cases hstep
  | unLike u c =>
    simp only [step] at hstep
    split at hstep
    next cartoon hheld =>
      split at hstep
      next hliked =>
        obtain ⟨rfl, hstored⟩ := h.held u c cartoon hheld
        -- `unLikeCartoon` does nothing unless the snapshot has a like
        by_cases hguard : cartoon.like > 0
        · let t : LikeTap := ⟨u, cartoon, User.init .empty, false, fun _ => hguard⟩
          have ht : Action.unLikeCartoon (some u) cartoon = t.action := rfl
          rw [ht, t.calls_action] at hstep
          cases hstep
          exact Or.inr (Or.inl ⟨t, hliked, hstored, rfl⟩)
        · have hcalls : (Action.unLikeCartoon (some u) cartoon).calls = [] := by
            simp only [Action.calls, CartoonService.unLikeCartoon, if_neg hguard]
          have hstart : s.net.start (.unLikeCartoon (some u) cartoon) = s.net := by
            simp only [Net.start, Flight.issue, hcalls, List.map_nil, List.append_nil]
          rw [hcalls, hstart] at hstep
          cases hstep
          exact Or.inl ⟨rfl, rfl, h⟩
      next => cases hstep
    next => cases hstep
  | answer i m =>
    simp only [step] at hstep
    split at hstep
    next horder =>
      obtain ⟨net, hnet, rfl⟩ := Option.map_eq_some_iff.mp hstep
      exact Or.inr (Or.inr ⟨i, m, net, rfl, horder, hnet, rfl⟩)
    next => cases hstep

theorem Fair.tap {s : Likers} (h : s.Fair) (t : LikeTap)
    (hstored : s.net.state.store.has ⟨.cartoon, t.cartoon.cartoonId⟩ = true) :
    (s.tap t).Fair := by
  have hcalls := t.calls_action
  have hin : ∀ p ∈ (s.tap t).net.inflight, p ∈ s.net.inflight ∨
      p = ⟨t.action, t.counter⟩ ∨ p = ⟨t.action, t.member⟩ := by
    intro p hp
    simp only [Likers.tap, Net.start, Flight.issue, hcalls, List.mem_append, List.map_cons,
      List.map_nil, List.mem_cons, List.not_mem_nil, or_false] at hp
    exact hp
  refine ⟨fun p hp => ?_, h.held, h.served, fun p hp ref fields c e => ?_, h.number⟩
  · rcases hin p hp with hp | rfl | rfl
    · exact h.stems p hp
    · exact .counter t
    · exact .member t
  · rcases hin p hp with hp | rfl | rfl
    · exact h.counted p hp ref fields c e
    · cases e
      exact hstored
    · exact absurd e mark_ne_update

theorem Fair.answer {s : Likers} {i : Nat} {m : Moment} {net : Net} (h : s.Fair)
    (hnet : s.net.answer Pending.exec i ⟨true, m⟩ = some net) : Fair { s with net := net } := by
  obtain ⟨pre, p, post, hin, -, rfl⟩ := Flight.answer_cases hnet
  have hp : p ∈ s.net.inflight := by rw [hin]; simp
  have hstem := h.stems p hp
  have hhas : ∀ c, Store.has (p.exec ⟨true, m⟩ s.net.state).1.store ⟨.cartoon, c⟩ =
      s.net.state.store.has ⟨.cartoon, c⟩ := by
    intro c
    rw [Pending.exec_store]
    exact has_cartoon_exec hstem rfl c
  refine ⟨fun q hq => ?_, fun u c cartoon hc => ?_, fun r hr => ?_, fun q hq ref fields c e => ?_,
    fun c hc => ?_⟩
  · rcases Net.mem_answered hin hq with hq | ⟨k, hk, rfl⟩
    · exact h.stems q hq
    · exact hstem.exec k hk
  · exact ⟨(h.held u c cartoon hc).1, (hhas c).trans (h.held u c cartoon hc).2⟩
  · exact (hhas _).trans (h.served r hr)
  · rcases Net.mem_answered hin hq with hq | ⟨k, hk, rfl⟩
    · have hold := h.counted q hq ref fields c e
      obtain ⟨t, -, -, rfl⟩ := update_cases (h.stems q hq) e
      exact (hhas _).trans hold
    · exact absurd e (spawned_ne_update k hk ref fields c)
  · have hold : s.net.state.store.has ⟨.cartoon, c⟩ = true := (hhas c).symm.trans hc
    show (likeField (p.exec ⟨true, m⟩ s.net.state).1.store c).isSome = true
    rw [Pending.exec_store]
    obtain ⟨o, k⟩ := p
    have hstem : LikeTap.Stems o k := hstem
    cases hstem with
    | counter t =>
      by_cases hid : t.cartoon.cartoonId = c
      · subst hid
        simp only [Call.exec, LikeTap.counter, if_true]
        rw [likeField_apply_update _ hold]
        rfl
      · simp only [Call.exec, LikeTap.counter, if_true]
        rw [likeField_apply_ne (by simpa [DocWrite.ref] using hid)]
        exact h.number c hold
    | member t =>
      simp only [Call.exec, LikeTap.member, if_true]
      rw [likeField_apply_ne (by simp)]
      exact h.number c hold
    | mirror t =>
      simp only [Call.exec, LikeTap.mirror, if_true]
      rw [likeField_apply_ne (by simp)]
      exact h.number c hold
    | feedback =>
      simp only [Call.exec, if_true]
      rw [likeField_apply_ne (by simp [DocWrite.ref])]
      exact h.number c hold

/-! ## The simulation -/

/-- The two writes of a tap, as the tally of `c` sees them. -/
theorem view_tap {s : Likers} (t : LikeTap)
    (hliked : s.liked t.uid t.cartoon.cartoonId = !t.didLike) (c : DocID) :
    Tally.Step (s.view c) ((s.tap t).view c) := by
  have hpending : ((s.tap t).view c).pending = (s.view c).pending ++
      if t.cartoon.cartoonId = c then [.bump t.cartoon.like t.didLike, .mark t.uid t.didLike]
      else [] := by
    simp only [view, tap, Net.start, Flight.issue, t.calls_action, List.filterMap_append,
      List.map_cons, List.map_nil]
    by_cases hid : t.cartoon.cartoonId = c <;> simp [hid]
  by_cases hid : t.cartoon.cartoonId = c
  · subst hid
    have hview : (s.tap t).view t.cartoon.cartoonId =
        { s.view t.cartoon.cartoonId with
          wants := Tally.set (s.view t.cartoon.cartoonId).wants t.uid t.didLike
          pending := (s.view t.cartoon.cartoonId).pending ++
            [.bump t.cartoon.like t.didLike, .mark t.uid t.didLike] } := by
      ext u
      · rfl
      · rfl
      · rfl
      · simp [view, tap, update, Tally.set]
      · rw [hpending, if_pos rfl]
    rw [hview]
    exact .toggle _ hliked
  · have hview : (s.tap t).view c = s.view c := by
      ext u
      · rfl
      · rfl
      · rfl
      · simp [view, tap, update, Ne.symm hid]
      · rw [hpending, if_neg hid, List.append_nil]
    rw [hview]
    exact .elsewhere

/-- What a closure of a tap issues is nothing to the tally. -/
theorem tallyOf_spawned {o : Action} {k : Call} (h : LikeTap.Stems o k) {r : Reply}
    {s : Firestore} (c : DocID) :
    ((k.exec r s).2.calls.map (⟨o, ·⟩)).filterMap (tallyOf c) = [] := by
  rw [List.filterMap_map]
  refine List.filterMap_eq_nil_iff.mpr fun k' hk' => ?_
  cases h with
  | counter t => cases hk'
  | member t =>
    rw [t.member_calls] at hk'
    rw [List.mem_singleton.mp hk']
    exact tallyOf_mirror t
  | mirror t =>
    obtain ⟨toUid, id, data, rfl⟩ := t.mirror_calls k' hk'
    exact tallyOf_feedback t toUid id data
  | feedback => cases hk'

/-- The clients after the answer of `p`. -/
abbrev answered (s : Likers) (pre : List Pending) (p : Pending) (post : List Pending) (r : Reply) :
    Likers :=
  { s with net := ⟨(p.exec r s.net.state).1, pre ++ post ++ (p.exec r s.net.state).2⟩ }

/-- What the tally of `c` sees of an answer. -/
theorem view_answered {s : Likers} {pre post : List Pending} {p : Pending} {r : Reply}
    (h : LikeTap.Stems p.origin p.call) (c : DocID) :
    (s.answered pre p post r).view c =
      { value := (likeField (p.call.exec r s.net.state.store).1 c).getD 0
        size := Store.count (p.call.exec r s.net.state.store).1 (.cartoonLikes c)
        member := fun u => Store.has (p.call.exec r s.net.state.store).1 ⟨.cartoonLikes c, u⟩
        wants := fun u => s.liked u c
        pending := pre.filterMap (tallyOf c) ++ post.filterMap (tallyOf c) } := by
  simp only [view, Pending.exec_store, Pending.exec_calls, List.filterMap_append,
    tallyOf_spawned h, List.append_nil]

/-- An answer the tally of `c` does not see. -/
theorem view_elsewhere {s : Likers} {pre post : List Pending} {p : Pending} {r : Reply}
    {c : DocID} (h : LikeTap.Stems p.origin p.call) (hin : s.net.inflight = pre ++ p :: post)
    (hp : tallyOf c p = none)
    (hlike : likeField (p.call.exec r s.net.state.store).1 c = likeField s.net.state.store c)
    (hcount : (Store.count (p.call.exec r s.net.state.store).1 (.cartoonLikes c) : Int) =
      s.net.state.store.count (.cartoonLikes c))
    (hhas : ∀ u, Store.has (p.call.exec r s.net.state.store).1 ⟨.cartoonLikes c, u⟩ =
      s.net.state.store.has ⟨.cartoonLikes c, u⟩) :
    Tally.Step (s.view c) ((s.answered pre p post r).view c) := by
  have hview : (s.answered pre p post r).view c = s.view c := by
    rw [view_answered h, hlike, hcount]
    ext u
    · rfl
    · rfl
    · exact hhas u
    · rfl
    · simp [view, hin, List.filterMap_append, hp]
  rw [hview]
  exact .elsewhere

theorem pending_of_tallyOf {s : Likers} {pre post : List Pending} {p : Pending} {c : DocID}
    {w : TallyWrite Uid} (hin : s.net.inflight = pre ++ p :: post) (hw : tallyOf c p = some w) :
    (s.view c).pending = pre.filterMap (tallyOf c) ++ w :: post.filterMap (tallyOf c) := by
  simp only [view, hin, List.filterMap_append, List.filterMap_cons_some hw]

section answer

variable {s : Likers} {pre post : List Pending} {r : Reply} {c : DocID} (h : s.Fair)
  (hr : r.ok = true)

include h hr

/-- A number that lands on the one it was computed from is a bump. -/
theorem view_counter (t : LikeTap) (hin : s.net.inflight = pre ++ ⟨t.action, t.counter⟩ :: post)
    (hseen : t.cartoon.cartoonId = c →
      likeField s.net.state.store c = some t.cartoon.like) :
    Tally.Step (s.view c) ((s.answered pre ⟨t.action, t.counter⟩ post r).view c) := by
  have hstem := LikeTap.Stems.counter t
  have hexec : (t.counter.exec r s.net.state.store).1 =
      (DocWrite.updateData ⟨.cartoon, t.cartoon.cartoonId⟩
        (.ofList [("like", .int (t.cartoon.like + sign t.didLike))])).apply s.net.state.store := by
    simp [Call.exec, LikeTap.counter, hr]
  have hcount : ∀ c', Store.count (t.counter.exec r s.net.state.store).1 c' =
      s.net.state.store.count c' := by
    intro c'
    rw [hexec, Store.count_apply_updateData]
  have hhas : ∀ u, Store.has (t.counter.exec r s.net.state.store).1 ⟨.cartoonLikes c, u⟩ =
      s.net.state.store.has ⟨.cartoonLikes c, u⟩ := by
    intro u
    rw [hexec, Store.has_apply_ne (by simp [DocWrite.ref])]
  by_cases hid : t.cartoon.cartoonId = c
  · subst hid
    have hs := pending_of_tallyOf hin ((tallyOf_counter t).trans (if_pos rfl))
    have hstored : s.net.state.store.has ⟨.cartoon, t.cartoon.cartoonId⟩ = true :=
      h.counted ⟨t.action, t.counter⟩ (by rw [hin]; simp) _ _ _ rfl
    have hview : (s.answered pre ⟨t.action, t.counter⟩ post r).view t.cartoon.cartoonId =
        { s.view t.cartoon.cartoonId with
          value := t.cartoon.like + sign t.didLike
          pending := pre.filterMap (tallyOf t.cartoon.cartoonId) ++
            post.filterMap (tallyOf t.cartoon.cartoonId) } := by
      rw [view_answered hstem, hcount, hexec, likeField_apply_update _ hstored, ← hexec]
      ext u
      · rfl
      · rfl
      · exact hhas u
      · rfl
      · rfl
    rw [hview]
    refine .bump hs ?_
    simp only [view, hseen rfl, Option.getD_some]
  · refine view_elsewhere hstem hin ((tallyOf_counter t).trans (if_neg hid)) ?_
      (by rw [hcount]) hhas
    rw [hexec, likeField_apply_ne (by simpa [DocWrite.ref] using hid)]

/-- A write among the likes is a mark. It is the first of its sender, since the
writes of one client to one document are applied in order. -/
theorem view_member (t : LikeTap) (hin : s.net.inflight = pre ++ ⟨t.action, t.member⟩ :: post)
    (horder : ∀ q ∈ pre, q.call.auth = some t.uid →
      q.call.writes ≠ some ⟨.cartoonLikes t.cartoon.cartoonId, t.uid⟩) :
    Tally.Step (s.view c) ((s.answered pre ⟨t.action, t.member⟩ post r).view c) := by
  have hstem := LikeTap.Stems.member t
  have hexec : (t.member.exec r s.net.state.store).1 =
      (DocWrite.mark t.didLike ⟨.cartoonLikes t.cartoon.cartoonId, t.uid⟩).apply
        s.net.state.store := by
    simp [Call.exec, LikeTap.member, hr]
  have hlike : likeField (t.member.exec r s.net.state.store).1 c =
      likeField s.net.state.store c := by
    rw [hexec, likeField_apply_ne (by simp)]
  by_cases hid : t.cartoon.cartoonId = c
  · subst hid
    have hs := pending_of_tallyOf hin ((tallyOf_member t).trans (if_pos rfl))
    have hview : (s.answered pre ⟨t.action, t.member⟩ post r).view t.cartoon.cartoonId =
        { s.view t.cartoon.cartoonId with
          size := (s.view t.cartoon.cartoonId).size +
            if (s.view t.cartoon.cartoonId).member t.uid = t.didLike then 0 else sign t.didLike
          member := Tally.set (s.view t.cartoon.cartoonId).member t.uid t.didLike
          pending := pre.filterMap (tallyOf t.cartoon.cartoonId) ++
            post.filterMap (tallyOf t.cartoon.cartoonId) } := by
      rw [view_answered hstem, hlike, hexec, count_apply_mark, if_pos rfl]
      ext u
      · rfl
      · rfl
      · simp only [Store.has_apply_mark, Tally.set, view]
        by_cases hu : u = t.uid
        · simp [hu]
        · simp [hu, Ne.symm hu]
      · rfl
      · rfl
    rw [hview]
    refine .mark hs ?_
    -- an earlier mark of the sender would be an earlier write to the same document
    unfold Tally.marksOf
    rw [List.filterMap_filterMap]
    refine List.filterMap_eq_nil_iff.mpr fun q hq => ?_
    obtain ⟨o, k⟩ := q
    have hq' : LikeTap.Stems o k := h.stems ⟨o, k⟩ (by rw [hin]; exact List.mem_append_left _ hq)
    cases hq' with
    | member t' =>
      rw [tallyOf_member]
      by_cases hid' : t'.cartoon.cartoonId = t.cartoon.cartoonId
      · have hne : t'.uid ≠ t.uid := by
          intro hu
          refine horder _ hq (by rw [t'.auth_member, hu]) ?_
          rw [t'.writes_member, hid', hu]
        simp [hid', hne]
      · simp [hid']
    | counter t' =>
      rw [tallyOf_counter]
      by_cases hid' : t'.cartoon.cartoonId = t.cartoon.cartoonId <;> simp [hid']
    | mirror t' => simp
    | feedback => simp
  · refine view_elsewhere hstem hin ((tallyOf_member t).trans (if_neg hid)) hlike ?_ fun u => ?_
    · rw [hexec, count_apply_mark, if_neg (by simpa using hid), Int.add_zero]
    · rw [hexec, Store.has_apply_mark, if_neg (by simp [hid])]

end answer

/-! ## The number is the size -/

/-- Every stored cartoon has the number of its likes. -/
def Counted (s : Firestore) : Prop :=
  ∀ c, s.has ⟨.cartoon, c⟩ = true → likeField s c = some (s.count (.cartoonLikes c) : Int)

/-- The invariant of a run in which every number lands on the one it was
computed from. -/
structure Levelling (s : Likers) : Prop where
  fair : s.Fair
  sound : ∀ c, s.net.state.store.has ⟨.cartoon, c⟩ = true → (s.view c).Sound

theorem Levelling.step {s s' : Likers} {e : LikeEvent} (h : s.Levelling)
    (hcur : s.current e = true) (hstep : s.step e = some s') : s'.Levelling := by
  rcases step_cases h.fair hstep with ⟨hnet, hliked, hfair⟩ | ⟨t, hliked, hstored, rfl⟩ |
    ⟨i, m, net, rfl, horder, hnet, rfl⟩
  · refine ⟨hfair, fun c hc => ?_⟩
    have hview : s'.view c = s.view c := by rw [view, view, hnet, hliked]
    rw [hview]
    exact h.sound c (by rw [← hnet]; exact hc)
  · exact ⟨h.fair.tap t hstored, fun c hc => (h.sound c hc).step (view_tap t hliked c)⟩
  · -- each kind of call in turn: only the number and the membership count
    refine ⟨h.fair.answer hnet, fun c hc => ?_⟩
    obtain ⟨pre, ⟨o, k⟩, post, hin, hlen, rfl⟩ := Flight.answer_cases hnet
    have hi : s.net.inflight[i]? = some ⟨o, k⟩ := by rw [hin, Flight.getElem?_answered hlen]
    have hstem : LikeTap.Stems o k := h.fair.stems ⟨o, k⟩ (by rw [hin]; simp)
    have hc' : s.net.state.store.has ⟨.cartoon, c⟩ = true := by
      rw [← has_cartoon_exec hstem (r := ⟨true, m⟩) rfl c]
      have hstore := Pending.exec_store ⟨o, k⟩ ⟨true, m⟩ s.net.state
      exact (congrArg (Store.has · _) hstore).symm.trans hc
    refine (h.sound c hc').step ?_
    cases hstem with
    | counter t =>
      refine view_counter h.fair rfl t hin fun hid => ?_
      subst hid
      cases hb : t.didLike <;>
        simpa [current, hi, LikeTap.counter, LikeTap.action, Action.snapshot, hb] using hcur
    | member t =>
      refine view_member h.fair rfl t hin fun q hq hauth hwrites => ?_
      have htake : s.net.inflight.take i = pre := by
        rw [hin, ← hlen, List.take_left]
      simp only [Net.inOrder, hi, htake, List.all_eq_true] at horder
      have hq' := horder q hq
      simp [hauth, hwrites, t.writes_member, t.auth_member] at hq'
    | mirror t =>
      refine view_elsewhere (.mirror t) hin (tallyOf_mirror t) ?_ ?_ fun u => ?_
      · simp only [Call.exec, LikeTap.mirror, if_true]
        rw [likeField_apply_ne (by simp)]
      · simp [Call.exec, LikeTap.mirror, count_apply_mark]
      · simp [Call.exec, LikeTap.mirror, Store.has_apply_mark]
    | feedback =>
      refine view_elsewhere .feedback hin (tallyOf_feedback ..) ?_ ?_ fun u => ?_
      · simp only [Call.exec, if_true]
        rw [likeField_apply_ne (by simp [DocWrite.ref])]
      · simp [Call.exec, Store.count_apply_setData]
      · simp [Call.exec, Store.has_apply, DocWrite.leavesAt, DocWrite.ref]

theorem Levelling.opened {store : Firestore} (h : Counted store) : (opened store).Levelling := by
  refine ⟨⟨?_, ?_, ?_, ?_, fun c hc => ?_⟩, fun c hc => .start rfl ?_ fun u => rfl⟩
  · exact fun p hp => absurd hp List.not_mem_nil
  · exact fun u c cartoon hc => nomatch hc
  · exact fun r hr => absurd hr List.not_mem_nil
  · exact fun p hp => absurd hp List.not_mem_nil
  · rw [show (Likers.opened store).net.state.store = store from rfl, h c hc]
    rfl
  · have hlike : likeField store c = some (store.count (.cartoonLikes c) : Int) := h c hc
    simp only [view, Likers.opened, Net.opened, hlike, Option.getD_some]

/-- If every write of a number lands on the number it was computed from, the
number of likes of every cartoon is right whenever no write is in flight. -/
theorem like_eq_count {store : Firestore} {es : List LikeEvent} {s : Likers}
    (hstore : Counted store) (hrun : run Likers.step (opened store) es = some s)
    (hcur : Along Likers.step (fun s e => s.current e = true) (opened store) es)
    (hquiet : s.net.Quiet) : Counted s.net.state.store := by
  have hinv : s.Levelling :=
    run_inv_along (fun _ _ _ h hcur hstep => h.step hcur hstep) es (Levelling.opened hstore) hcur
      hrun
  intro c hc
  obtain ⟨n, hn⟩ := Option.isSome_iff_exists.mp (hinv.fair.number c hc)
  have hlevel := (hinv.sound c hc).level
    (by simp [view, show s.net.inflight = [] from hquiet])
  rw [hn]
  simpa [view, hn] using hlevel

/-! ### Two readers of one cartoon -/

/-- A store with one cartoon of the author, just uploaded. -/
def shelf : Firestore :=
  (DocWrite.setData ⟨.cartoon, "c"⟩
    (.ofList [("uid", .string "author"), ("like", .int 0)])).apply ∅

theorem counted_shelf : Counted shelf := by
  intro c hc
  rw [shelf, Store.has_apply, DocWrite.leavesAt] at hc
  split at hc
  next e =>
    cases e
    rfl
  next => cases hc

def reads (u : Uid) : List LikeEvent := [.serve u "c" ⟨0, 0⟩, .deliver 0]

/-- The oldest call in flight is answered. -/
def answerFirst : LikeEvent := .answer 0 ⟨"feedback", ⟨0, 0⟩⟩

/-- The author likes the cartoon; the reader reads it after that and likes it. -/
def turns : List LikeEvent :=
  reads "author" ++
  [.like "author" "c" (User.init .empty), answerFirst, answerFirst, answerFirst] ++
  reads "reader" ++ [.like "reader" "c" (User.init .empty), answerFirst, answerFirst, answerFirst,
    answerFirst]

theorem like_eq_count_turns : ∃ s, run Likers.step (opened shelf) turns = some s ∧
    Counted s.net.state.store ∧ likeField s.net.state.store "c" = some 2 := by
  have hrun : run Likers.step (opened shelf) turns =
      some ((run Likers.step (opened shelf) turns).get (by decide)) := (Option.some_get _).symm
  exact ⟨_, hrun, like_eq_count counted_shelf hrun (by decide) (by decide), by decide⟩

/-- As `turns`, and the reader takes its like back. -/
def regret : List LikeEvent :=
  turns ++ [.unLike "reader" "c", answerFirst, answerFirst, answerFirst]

/-- After that the number is zero, and one like is left. -/
theorem like_eq_count_stale :
    ¬ ∀ (store : Firestore) (es : List LikeEvent) (s : Likers), Counted store →
      run Likers.step (opened store) es = some s → s.net.Quiet →
      ∀ c, s.net.state.store.has ⟨.cartoon, c⟩ = true →
        likeField s.net.state.store c = some (s.net.state.store.count (.cartoonLikes c) : Int) := by
  intro h
  have := h shelf regret ((run Likers.step (opened shelf) regret).get (by decide)) counted_shelf
    (Option.some_get _).symm (by decide) "c" (by decide)
  revert this
  decide

end Likers

end Toontagram
