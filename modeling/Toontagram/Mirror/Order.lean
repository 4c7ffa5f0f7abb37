import Toontagram.Api.Device

/-!
# Mirrored documents when calls overlap

On one device the second write of a follow or a like joins the queue when the
first one is acknowledged, behind whatever was issued in the meantime. It is
enough that writes are acknowledged in the order issued: then the second writes
come in the order of the first ones, and both documents of a pair end with what
the last call for it left.

`Pair` names a pair of documents of the signed-in user, `Pair.mirror` makes it
an instance of `Lib.Mirror`, and `mirrored_of_fifo` reads the result off the
outcomes, which no event but a call changes.
-/

namespace Toontagram

open Lib (DocWrite Store Outbox landed landed_nil run run_landed)

/-- Two documents that should say the same, for the signed-in user. -/
inductive Pair where
  | star (uid : Uid)
  | like (cartoonId : DocID)
deriving DecidableEq, Repr

namespace Pair

def first (me : Uid) : Pair → DocRef
  | .star uid => ⟨.userStar me, uid⟩
  | .like cartoonId => ⟨.cartoonLikes cartoonId, me⟩

def second (me : Uid) : Pair → DocRef
  | .star uid => ⟨.userFan uid, me⟩
  | .like cartoonId => ⟨.userLikes me, cartoonId⟩

theorem first_eq_first {me : Uid} {p q : Pair} : q.first me = p.first me ↔ p = q := by
  cases p <;> cases q <;> simp [first, eq_comm]

theorem second_eq_second {me : Uid} {p q : Pair} : q.second me = p.second me ↔ p = q := by
  cases p <;> cases q <;> simp [second, eq_comm]

theorem first_ne_second {me : Uid} {p q : Pair} : q.first me ≠ p.second me := by
  cases p <;> cases q <;> simp [first, second]

end Pair

/-- What a closure will leave of the document `ref` when its turn comes. -/
def Completion.later (ref : DocRef) : Completion → List Bool
  | .screen _ => []
  | .fanUsers uid currentUid _ => if ⟨.userFan uid, currentUid⟩ = ref then [true] else []
  | .antiFanUser uid currentUid _ => if ⟨.userFan uid, currentUid⟩ = ref then [false] else []
  | .likeCartoon uid cartoonId _ => if ⟨.userLikes uid, cartoonId⟩ = ref then [true] else []
  | .unLikeCartoon uid cartoonId _ => if ⟨.userLikes uid, cartoonId⟩ = ref then [false] else []

def Call.later (ref : DocRef) (k : Call) : List Bool :=
  match k.request with
  | .write _ completion => completion.later ref
  | _ => []

theorem Call.has_effect (k : Call) (s : Firestore) (ref : DocRef) :
    Store.has (k.effect s) ref = (k.leavesAt ref).getD (s.has ref) := by
  obtain ⟨auth, request⟩ := k
  cases request with
  | write w c => exact Store.has_apply s w ref
  | getDocuments q c => rfl
  | getDocument ref' c => rfl

/-- A write whose closure, if any, belongs to a screen, and which touches no
document of a pair. -/
def Call.unpaired (k : Call) : Prop :=
  (∀ me (p : Pair), k.leavesAt (p.first me) = none ∧ k.leavesAt (p.second me) = none) ∧
    ∀ ref, k.later ref = []

/-- What the closures of the screens issue touches no pair. -/
theorem ScreenCompletion.run_unpaired (c : ScreenCompletion) (auth : Option Uid) (m : Moment) :
    ∀ k ∈ (c.run auth m).calls, k.unpaired := by
  intro k hk
  rcases ScreenCompletion.mem_run hk with ⟨toUid, id, data, rfl⟩ | ⟨author, uid, didFan, rfl⟩
  · refine ⟨fun me p => ?_, fun ref => rfl⟩
    cases p <;> simp [Call.leavesAt, DocWrite.leavesAt, DocWrite.ref, Pair.first, Pair.second]
  · exact ⟨fun me p => ⟨rfl, rfl⟩, fun ref => rfl⟩

/-- What the closures of the reads issue touches no pair. -/
theorem Call.exec_unpaired {k : Call} (hk : k.isWrite = false) (r : Reply) (s : Firestore) :
    ∀ k' ∈ (k.exec r s).2.calls, k'.unpaired := by
  intro k' hk'
  have hread : ∀ w c, k.request ≠ .write w c := by
    intro w c h
    rw [Call.isWrite, h] at hk
    cases hk
  obtain ⟨b, v, x, rfl⟩ := Call.mem_exec_read hread hk'
  refine ⟨fun me p => ?_, fun ref => rfl⟩
  cases p <;> simp [Call.leavesAt, DocWrite.leavesAt, Pair.first, Pair.second]

/-- What the closure of a write issues: the second write of a pair, or calls
that touch no pair. -/
theorem Call.follow_cases (k : Call) (m : Moment) :
    (∃ b ref c, k.follow m = [⟨k.auth, .write (.mark b ref) (.screen c)⟩] ∧
      (∀ me (p : Pair), ref ≠ p.first me) ∧
      ∀ ref', k.later ref' = if ref = ref' then [b] else []) ∨
    (∀ k' ∈ k.follow m, k'.unpaired) ∧ ∀ ref, k.later ref = [] := by
  have hscreen : ∀ c : ScreenCompletion,
      ∀ k' ∈ (c.run k.auth m).calls.filter Call.isWrite, k'.unpaired :=
    fun c k' hk' => c.run_unpaired k.auth m k' (List.mem_of_mem_filter hk')
  obtain ⟨auth, request⟩ := k
  cases request with
  | getDocuments q c => exact Or.inr ⟨fun k' hk' => absurd hk' List.not_mem_nil, fun ref => rfl⟩
  | getDocument ref c => exact Or.inr ⟨fun k' hk' => absurd hk' List.not_mem_nil, fun ref => rfl⟩
  | write w c =>
    cases c with
    | screen c => exact Or.inr ⟨hscreen c, fun ref => rfl⟩
    | fanUsers uid currentUid c =>
      exact Or.inl ⟨true, ⟨.userFan uid, currentUid⟩, c, rfl,
        fun me p => by cases p <;> simp [Pair.first], fun ref => rfl⟩
    | antiFanUser uid currentUid c =>
      exact Or.inl ⟨false, ⟨.userFan uid, currentUid⟩, c, rfl,
        fun me p => by cases p <;> simp [Pair.first], fun ref => rfl⟩
    | likeCartoon uid cartoonId c =>
      exact Or.inl ⟨true, ⟨.userLikes uid, cartoonId⟩, c, rfl,
        fun me p => by cases p <;> simp [Pair.first], fun ref => rfl⟩
    | unLikeCartoon uid cartoonId c =>
      exact Or.inl ⟨false, ⟨.userLikes uid, cartoonId⟩, c, rfl,
        fun me p => by cases p <;> simp [Pair.first], fun ref => rfl⟩

/-- A pair of documents is a mirror. -/
def Pair.mirror (me : Uid) (p : Pair) : Lib.Mirror Call.effect Call.follow Bool where
  first s := s.has (p.first me)
  second s := s.has (p.second me)
  putFirst k := k.leavesAt (p.first me)
  putSecond k := k.leavesAt (p.second me)
  later k := k.later (p.second me)
  first_effect k s := k.has_effect s _
  second_effect k s := k.has_effect s _
  follow_first k m := by
    rcases k.follow_cases m with ⟨b, ref, c, hfollow, hfirst, -⟩ | ⟨hunpaired, -⟩
    · rw [hfollow]
      simp [Call.leavesAt, DocWrite.leavesAt, hfirst]
    · exact List.filterMap_eq_nil_iff.mpr fun k' hk' => ((hunpaired k' hk').1 me p).1
  follow_second k m := by
    rcases k.follow_cases m with ⟨b, ref, c, hfollow, -, hlater⟩ | ⟨hunpaired, hlater⟩
    · rw [hfollow, hlater]
      by_cases href : ref = p.second me <;> simp [Call.leavesAt, DocWrite.leavesAt, href]
    · rw [hlater]
      exact List.filterMap_eq_nil_iff.mpr fun k' hk' => ((hunpaired k' hk').1 me p).2
  follow_later k m := by
    rcases k.follow_cases m with ⟨b, ref, c, hfollow, -, -⟩ | ⟨hunpaired, -⟩
    · rw [hfollow]
      rfl
    · exact List.flatMap_eq_nil_iff.mpr fun k' hk' => (hunpaired k' hk').2 _

/-- Calls that touch no pair put nothing into a document of one, now or later. -/
theorem Call.unpaired_puts {ks : List Call} (h : ∀ k ∈ ks, k.unpaired) (me : Uid) (p : Pair) :
    ks.filterMap (p.mirror me).putFirst = [] ∧ ks.filterMap (p.mirror me).putSecond = [] ∧
    ks.flatMap (p.mirror me).later = [] :=
  ⟨List.filterMap_eq_nil_iff.mpr fun k hk => ((h k hk).1 me p).1,
    List.filterMap_eq_nil_iff.mpr fun k hk => ((h k hk).1 me p).2,
    List.flatMap_eq_nil_iff.mpr fun k hk => (h k hk).2 _⟩

/-! ## The calls -/

/-- What a call leaves of a pair, if it is about the pair and passes its guards. -/
def ServiceCall.leaves (p : Pair) : ServiceCall → Option Bool
  | .fanUsers uid _ => if p = .star uid then some true else none
  | .antiFanUser uid _ => if p = .star uid then some false else none
  | .likeCartoon cartoon _ => if p = .like cartoon.cartoonId then some true else none
  | .unLikeCartoon cartoon _ =>
    if cartoon.like > 0 ∧ p = .like cartoon.cartoonId then some false else none

def DeviceEvent.leaves (p : Pair) : DeviceEvent → Option Bool
  | .call c => c.leaves p
  | _ => none

/-- A call that passes its guards issues, after calls that touch no pair, the
first write of one pair with a closure that will write the second. -/
theorem ServiceCall.calls_cases (me : Uid) (c : ServiceCall) :
    (c.calls me = [] ∧ ∀ p, c.leaves p = none) ∨
    ∃ q b rest completion,
      c.calls me = rest ++ [⟨some me, .write (.mark b (q.first me)) completion⟩] ∧
      (∀ k ∈ rest, k.isWrite = true ∧ k.unpaired) ∧
      (∀ ref, completion.later ref = if q.second me = ref then [b] else []) ∧
      ∀ p, c.leaves p = if p = q then some b else none := by
  have hcounter : ∀ (id : DocID) (n : Int), Call.unpaired ⟨some me, .write
      (.updateData ⟨.cartoon, id⟩ (.ofList [("like", .int n)])) (.screen .ignore)⟩ := by
    intro id n
    refine ⟨fun me p => ?_, fun ref => rfl⟩
    cases p <;> simp [Call.leavesAt, DocWrite.leavesAt, DocWrite.ref, Pair.first, Pair.second]
  cases c with
  | fanUsers uid c =>
    exact Or.inr ⟨.star uid, true, [], .fanUsers uid me c, rfl, by simp, fun ref => rfl,
      fun p => rfl⟩
  | antiFanUser uid c =>
    exact Or.inr ⟨.star uid, false, [], .antiFanUser uid me c, rfl, by simp, fun ref => rfl,
      fun p => rfl⟩
  | likeCartoon cartoon c =>
    refine Or.inr ⟨.like cartoon.cartoonId, true,
      [⟨some me, .write (.updateData ⟨.cartoon, cartoon.cartoonId⟩
        (.ofList [("like", .int (cartoon.like + 1))])) (.screen .ignore)⟩],
      .likeCartoon me cartoon.cartoonId c, rfl, fun k hk => ?_, fun ref => rfl, fun p => rfl⟩
    rw [List.mem_singleton.mp hk]
    exact ⟨rfl, hcounter _ _⟩
  | unLikeCartoon cartoon c =>
    -- the guard is on the number in the snapshot, not on the membership
    by_cases hguard : cartoon.like > 0
    · refine Or.inr ⟨.like cartoon.cartoonId, false,
        [⟨some me, .write (.updateData ⟨.cartoon, cartoon.cartoonId⟩
          (.ofList [("like", .int (cartoon.like - 1))])) (.screen .ignore)⟩],
        .unLikeCartoon me cartoon.cartoonId c, ?_, fun k hk => ?_, fun ref => rfl, fun p => ?_⟩
      · simp only [calls, CartoonService.unLikeCartoon, if_pos hguard]
        rfl
      · rw [List.mem_singleton.mp hk]
        exact ⟨rfl, hcounter _ _⟩
      · simp [leaves, hguard]
    · refine Or.inl ⟨?_, fun p => ?_⟩
      · simp only [calls, CartoonService.unLikeCartoon, if_neg hguard]
      · simp [leaves, hguard]

/-- A call puts its outcome into the first document at once, into the second by
its closure, and touches no other pair. -/
theorem ServiceCall.puts (me : Uid) (c : ServiceCall) (p : Pair) :
    ((c.calls me).filter Call.isWrite).filterMap (p.mirror me).putFirst = (c.leaves p).toList ∧
    ((c.calls me).filter Call.isWrite).filterMap (p.mirror me).putSecond = [] ∧
    ((c.calls me).filter Call.isWrite).flatMap (p.mirror me).later = (c.leaves p).toList := by
  rcases c.calls_cases me with ⟨hcalls, hleaves⟩ |
    ⟨q, b, rest, completion, hcalls, hrest, hlater, hleaves⟩
  · rw [hcalls, hleaves]
    exact ⟨rfl, rfl, rfl⟩
  · have hwrites : (c.calls me).filter Call.isWrite = c.calls me := by
      rw [hcalls]
      refine List.filter_eq_self.mpr fun k hk => ?_
      rcases List.mem_append.mp hk with hk | hk
      · exact (hrest k hk).1
      · rw [List.mem_singleton.mp hk]
        rfl
    obtain ⟨hfirst, hsecond, hrestLater⟩ := Call.unpaired_puts (fun k hk => (hrest k hk).2) me p
    rw [hwrites, hcalls, hleaves, List.filterMap_append, List.filterMap_append,
      List.flatMap_append, hfirst, hsecond, hrestLater]
    have hne : q.first me ≠ p.second me := Pair.first_ne_second
    refine ⟨?_, ?_, ?_⟩
    · by_cases hp : p = q <;>
        simp [Pair.mirror, Call.leavesAt, DocWrite.leavesAt, Pair.first_eq_first, hp]
    · simp [Pair.mirror, Call.leavesAt, DocWrite.leavesAt, hne]
    · by_cases hp : p = q <;>
        simp [Pair.mirror, Call.later, hlater, Pair.second_eq_second, hp]

/-! ## The run -/

/-- What is asked and served are reads, whose closures touch no pair. -/
structure Device.Reading (d : Device) : Prop where
  reads : ∀ k ∈ d.reads, k.isWrite = false
  served : ∀ x ∈ d.served, ∀ k ∈ x.calls, k.unpaired

/-- The reads among further calls join the ones already asked. -/
theorem Device.Reading.extend {d : Device} (h : d.Reading) (queue : Outbox Firestore Call)
    (ks : List Call) :
    Device.Reading
      { d with queue := queue, reads := d.reads ++ ks.filter fun k => !k.isWrite } := by
  refine ⟨fun k hk => ?_, h.served⟩
  rcases List.mem_append.mp hk with hk | hk
  · exact h.reads k hk
  · simpa using (List.mem_filter.mp hk).2

/-- Issuing calls that touch no pair changes no outcome. -/
theorem Device.issue_unpaired {d : Device} {ks : List Call} (h : ∀ k ∈ ks, k.unpaired) (me : Uid)
    (p : Pair) :
    (p.mirror me).outcomeFirst (d.issue ks).queue = (p.mirror me).outcomeFirst d.queue ∧
    (p.mirror me).outcomeSecond (d.issue ks).queue = (p.mirror me).outcomeSecond d.queue := by
  have h' : ∀ k ∈ ks.filter Call.isWrite, k.unpaired :=
    fun k hk => h k (List.mem_of_mem_filter hk)
  obtain ⟨hfirst, hsecond, hlater⟩ := Call.unpaired_puts h' me p
  refine ⟨?_, ?_⟩
  · rw [Device.issue, Lib.Mirror.outcomeFirst_issue, hfirst, landed_nil]
  · rw [Device.issue, Lib.Mirror.outcomeSecond_issue _ _ hsecond, hlater, landed_nil]

/-- Only calls change the outcomes of a pair. -/
theorem Device.step_outcome {me : Uid} {d d' : Device} {e : DeviceEvent} (h : d.Reading)
    (hstep : d.step me e = some d') (p : Pair) :
    d'.Reading ∧
    (p.mirror me).outcomeFirst d'.queue =
      landed ((p.mirror me).outcomeFirst d.queue) (e.leaves p).toList ∧
    (p.mirror me).outcomeSecond d'.queue =
      landed ((p.mirror me).outcomeSecond d.queue) (e.leaves p).toList := by
  cases e with
  | call c =>
    cases hstep
    obtain ⟨hfirst, hsecond, hlater⟩ := c.puts me p
    refine ⟨h.extend _ _, ?_, ?_⟩
    · rw [Device.issue, Lib.Mirror.outcomeFirst_issue, hfirst]
      rfl
    · rw [Device.issue, Lib.Mirror.outcomeSecond_issue _ _ hsecond, hlater]
      rfl
  | apply =>
    obtain ⟨queue, hqueue, rfl⟩ := Option.map_eq_some_iff.mp hstep
    exact ⟨⟨h.reads, h.served⟩, (p.mirror me).outcomeFirst_apply hqueue,
      (p.mirror me).outcomeSecond_apply hqueue⟩
  | acknowledge m =>
    -- the second write joins the queue now, but its outcome was counted at the call
    obtain ⟨⟨d'', effects⟩, hd, rfl⟩ := Option.map_eq_some_iff.mp hstep
    unfold Device.acknowledge at hd
    split at hd
    next => cases hd
    next k _ _ =>
      obtain ⟨queue, hqueue, he⟩ := Option.map_eq_some_iff.mp hd
      cases he
      exact ⟨h.extend _ _, (p.mirror me).outcomeFirst_acknowledge hqueue,
        (p.mirror me).outcomeSecond_acknowledge hqueue⟩
  | serve i r =>
    obtain ⟨k, hk, rfl⟩ := Option.map_eq_some_iff.mp hstep
    refine ⟨⟨fun k' hk' => h.reads k' (List.mem_of_mem_eraseIdx hk'), fun x hx => ?_⟩, rfl, rfl⟩
    rcases List.mem_append.mp hx with hx | hx
    · exact h.served x hx
    · rw [List.mem_singleton.mp hx]
      exact Call.exec_unpaired (h.reads k (List.mem_of_getElem? hk)) r _
  | deliver i =>
    obtain ⟨⟨d'', effects⟩, hd, rfl⟩ := Option.map_eq_some_iff.mp hstep
    obtain ⟨x, hx, he⟩ := Option.map_eq_some_iff.mp hd
    cases he
    have hx' := h.served x (List.mem_of_getElem? hx)
    have herase : Device.Reading { d with served := d.served.eraseIdx i } :=
      ⟨h.reads, fun y hy => h.served y (List.mem_of_mem_eraseIdx hy)⟩
    exact ⟨herase.extend _ _, Device.issue_unpaired hx' me p⟩

theorem Device.reading_opened (store : Firestore) : (Device.opened store).Reading :=
  ⟨fun _ hk => absurd hk List.not_mem_nil, fun _ hx => absurd hx List.not_mem_nil⟩

/-- However the calls overlap: once all callbacks have run, both documents of
every pair hold what the last call for the pair that passed its guards left. -/
theorem mirrored_of_fifo {me : Uid} {store : Firestore} {es : List DeviceEvent} {d : Device}
    (hagree : ∀ p : Pair, store.has (p.first me) = store.has (p.second me))
    (hrun : run (Device.step me) (Device.opened store) es = some d) (hidle : d.Idle) (p : Pair) :
    d.queue.state.has (p.first me) = d.queue.state.has (p.second me) ∧
    d.queue.state.has (p.first me) =
      landed (store.has (p.first me)) (es.filterMap (DeviceEvent.leaves p)) := by
  have hfirst := run_landed Device.Reading (fun d => (p.mirror me).outcomeFirst d.queue)
    (DeviceEvent.leaves p)
    (fun d e d' h hstep =>
      ⟨(Device.step_outcome h hstep p).1, (Device.step_outcome h hstep p).2.1⟩)
    es (Device.reading_opened store) hrun
  have hsecond := run_landed Device.Reading (fun d => (p.mirror me).outcomeSecond d.queue)
    (DeviceEvent.leaves p)
    (fun d e d' h hstep =>
      ⟨(Device.step_outcome h hstep p).1, (Device.step_outcome h hstep p).2.2⟩)
    es (Device.reading_opened store) hrun
  -- with an empty queue the outcomes are what the documents hold
  simp only [(p.mirror me).outcomeFirst_idle hidle.1] at hfirst
  simp only [(p.mirror me).outcomeSecond_idle hidle.1] at hsecond
  have hstart : (p.mirror me).outcomeFirst (Device.opened store).queue =
      (p.mirror me).outcomeSecond (Device.opened store).queue := hagree p
  refine ⟨?_, hfirst⟩
  exact hfirst.trans (hstart ▸ hsecond.symm)

/-- A follow, an unfollow and a follow of one user, each issued before the one
before it is finished. -/
def hurry : List DeviceEvent :=
  let m : Moment := ⟨"feedback", ⟨0, 0⟩⟩
  [.call (.fanUsers "author" .ignore), .apply, .call (.antiFanUser "author" .ignore),
   .acknowledge m, .call (.fanUsers "author" .ignore), .apply, .apply, .apply,
   .acknowledge m, .acknowledge m, .acknowledge m, .apply, .apply, .acknowledge m, .acknowledge m]

theorem mirrored_of_fifo_hurry : ∃ d, run (Device.step "reader") (Device.opened ∅) hurry = some d ∧
    d.queue.state.has ⟨.userStar "reader", "author"⟩ =
      d.queue.state.has ⟨.userFan "author", "reader"⟩ ∧
    d.queue.state.has ⟨.userStar "reader", "author"⟩ = true := by
  have hrun : run (Device.step "reader") (Device.opened ∅) hurry = some
      ((run (Device.step "reader") (Device.opened ∅) hurry).get (by decide)) :=
    (Option.some_get _).symm
  have hpair := mirrored_of_fifo (fun p => by cases p <;> rfl) hrun (by decide) (.star "author")
  exact ⟨_, hrun, hpair.1, hpair.2.trans (by decide)⟩

end Toontagram
