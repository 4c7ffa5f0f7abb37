import Toontagram.Document.Deleted
import Toontagram.Feed.Away

/-!
# On whose behalf feeds change

Fans and feeds are written by the closures of closures, long after somebody has tapped a button.
`Call.WorksFor` ties what a call in flight will change there to the operation it stems from: an
account becomes a fan of an author, or ceases to be one, by an operation of its own that is
for just this; and a cartoon comes into a feed by its upload or by a follow of its author by the
owner of the feed, and is taken out of it by an unfollow of its author by the owner.

To say which cartoons are those of an author takes the log, and that no two operations have
drawn one identifier. `App.Working` is the whole as an invariant of every run.
-/

namespace Toontagram

open Lib (DocWrite Store run run_inv)

/-- Who sets out to unfollow whom with the operation. -/
def Operation.drops : Operation → Option (Uid × Uid)
  | .action (.didTapButton (some me) (some _) _ user) =>
    if me = user.uid ∨ user.fan = false then none else some (me, user.uid)
  | .unFan (some me) uid => some (me, uid)
  | _ => none

/-- Who sets out to follow whom, or to unfollow. -/
def Operation.turns (o : Operation) (b : Bool) : Option (Uid × Uid) := if b then o.asks else o.drops

/-! ## What a call changes -/

/-- The write makes or unmakes a fan, or a cartoon in a feed, as the operation is there for. -/
def Write.WorksFor (log : List Entry) (o : Operation) (w : Write) : Prop :=
  (∀ b author v, w.leavesAt ⟨.userFan author, v⟩ = some b → o.turns b = some (v, author)) ∧
  ∀ b v x, w.leavesAt ⟨.userFeed v, x⟩ = some b →
    (b = true ∧ ∃ author, o.posts = some (author, x)) ∨
    ∃ author, v ≠ author ∧ o.turns b = some (v, author) ∧
      ∃ e ∈ log, e.origin.posts = some (author, x)

/-- The completion goes through the feed of the account `auth` for the author it turns to. -/
def ScreenCompletion.WorksFor (o : Operation) (auth : Option Uid) : ScreenCompletion → Prop
  | .antiFanned _ user =>
    ∀ me, auth = some me → me ≠ user.uid ∧ o.turns false = some (me, user.uid)
  | .fanned _ user _ => ∀ me, auth = some me → me ≠ user.uid ∧ o.turns true = some (me, user.uid)
  | _ => True

def Completion.WorksFor (o : Operation) (auth : Option Uid) : Completion → Prop
  | .screen c => c.WorksFor o auth
  | .fanUsers uid currentUid c => o.turns true = some (currentUid, uid) ∧ c.WorksFor o auth
  | .antiFanUser uid currentUid c => o.turns false = some (currentUid, uid) ∧ c.WorksFor o auth
  | .likeCartoon _ _ c => c.WorksFor o auth
  | .unLikeCartoon _ _ c => c.WorksFor o auth

/-- What the call and its closures change is what the operation is there for. -/
def Call.WorksFor (log : List Entry) (o : Operation) (k : Call) : Prop :=
  match k.request with
  | .write w c => Write.WorksFor log o w ∧ c.WorksFor o k.auth
  | .getDocuments q (.updateMainUserAfterFan uid didFan) => ∃ author,
    q = ⟨.cartoon, some ("uid", .string author)⟩ ∧ uid ≠ author ∧
    o.turns didFan = some (uid, author)
  | .getDocuments _ (.updateMainUserAfterCartoon _ cartoonID) =>
    ∃ author, o.posts = some (author, cartoonID)
  | .getDocument _ _ => True

section step

variable {log log' : List Entry} {o : Operation}

theorem leavesAt_mark (b : Bool) (r r' : DocRef) :
    (DocWrite.mark b r : Write).leavesAt r' = if r = r' then some b else none := by
  rw [DocWrite.leavesAt, DocWrite.ref_mark, DocWrite.leaves_mark]

/-- A write of something else. -/
theorem Write.worksFor_of_ne {w : Write} (hfan : ∀ author v, w.ref ≠ ⟨.userFan author, v⟩)
    (hfeed : ∀ v x, w.ref ≠ ⟨.userFeed v, x⟩) : Write.WorksFor log o w := by
  constructor
  · intro b author v hw
    rw [DocWrite.leavesAt, if_neg (hfan author v)] at hw
    cases hw
  · intro b v x hw
    rw [DocWrite.leavesAt, if_neg (hfeed v x)] at hw
    cases hw

theorem Write.worksFor_fan {b : Bool} {v author : Uid} (h : o.turns b = some (v, author)) :
    Write.WorksFor log o (.mark b ⟨.userFan author, v⟩) := by
  constructor
  · intro b' author' v' hw
    rw [leavesAt_mark] at hw
    obtain ⟨href, hb⟩ := Option.ite_none_right_eq_some.mp hw
    cases href
    exact Option.some.inj hb ▸ h
  · intro b' v' x hw
    rw [leavesAt_mark, if_neg nofun] at hw
    cases hw

theorem Write.worksFor_feed {b : Bool} {v : Uid} {x : DocID}
    (h : (b = true ∧ ∃ author, o.posts = some (author, x)) ∨ ∃ author, v ≠ author ∧
      o.turns b = some (v, author) ∧ ∃ e ∈ log, e.origin.posts = some (author, x)) :
    Write.WorksFor log o (.mark b ⟨.userFeed v, x⟩) := by
  constructor
  · intro b' author v' hw
    rw [leavesAt_mark, if_neg nofun] at hw
    cases hw
  · intro b' v' x' hw
    rw [leavesAt_mark] at hw
    obtain ⟨href, hb⟩ := Option.ite_none_right_eq_some.mp hw
    cases href
    exact Option.some.inj hb ▸ h

theorem Call.WorksFor.mono {k : Call} (h : k.WorksFor log o) (hlog : log <+: log') :
    k.WorksFor log' o := by
  obtain ⟨auth, request⟩ := k
  cases request with
  | write w c =>
    obtain ⟨⟨hfan, hfeed⟩, hc⟩ := h
    refine ⟨⟨hfan, fun b v x hw => (hfeed b v x hw).imp_right ?_⟩, hc⟩
    rintro ⟨author, hne, hturns, e, he, hposts⟩
    exact ⟨author, hne, hturns, e, hlog.subset he, hposts⟩
  | getDocuments q callback => cases callback <;> exact h
  | getDocument ref callback => trivial

theorem ScreenCompletion.WorksFor.run {c : ScreenCompletion} {auth : Option Uid}
    (h : c.WorksFor o auth) {m : Moment} {k : Call} (hk : k ∈ (c.run auth m).calls) :
    k.WorksFor log o := by
  have hfeedback : ∀ {toUid type cartoon user},
      k ∈ FeedBackService.uploadFeedBack auth toUid type cartoon user m → k.WorksFor log o := by
    intro toUid type cartoon user hk
    obtain ⟨-, -, -, rfl⟩ := FeedBackService.mem_uploadFeedBack hk
    exact ⟨Write.worksFor_of_ne nofun nofun, trivial⟩
  have hloop : ∀ {user didFan}, k ∈ CartoonService.updateMainUserAfterFan auth user didFan →
      (∀ me, auth = some me → me ≠ user.uid ∧ o.turns didFan = some (me, user.uid)) →
      k.WorksFor log o := by
    intro user didFan hk h
    cases auth with
    | none => cases hk
    | some me =>
      obtain rfl := List.mem_singleton.mp hk
      exact ⟨user.uid, rfl, h me rfl⟩
  cases c with
  | ignore => cases hk
  | antiFanned vc user => exact hloop hk h
  | fanned vc user currentUser =>
    rcases List.mem_append.mp hk with hk | hk
    · exact hfeedback hk
    · exact hloop hk h
  | liked cartoon user | commented cartoon user =>
    simp only [ScreenCompletion.run] at hk
    exact hfeedback hk

theorem Completion.WorksFor.run {c : Completion} {auth : Option Uid} (h : c.WorksFor o auth)
    {m : Moment} {k : Call} (hk : k ∈ (c.run auth m).calls) : k.WorksFor log o := by
  cases c with
  | screen c => exact ScreenCompletion.WorksFor.run h hk
  | fanUsers uid currentUid c =>
    obtain rfl := List.mem_singleton.mp hk
    exact ⟨Write.worksFor_fan (b := true) h.1, h.2⟩
  | antiFanUser uid currentUid c =>
    obtain rfl := List.mem_singleton.mp hk
    exact ⟨Write.worksFor_fan (b := false) h.1, h.2⟩
  | likeCartoon | unLikeCartoon =>
    obtain rfl := List.mem_singleton.mp hk
    exact ⟨Write.worksFor_of_ne nofun nofun, h⟩

/-- The loops: of a follow or an unfollow, over what the query has found, cartoons of the
author; of an upload, with its cartoon. -/
theorem Call.WorksFor.exec {k k' : Call} (h : k.WorksFor log o) {r : Reply} {s : Firestore}
    (hs : ∀ x data author, s.lookup ⟨.cartoon, x⟩ = some data →
      data "uid" = some (.string author) → ∃ e ∈ log, e.origin.posts = some (author, x))
    (hk' : k' ∈ (k.exec r s).2.calls) : k'.WorksFor log o := by
  obtain ⟨auth, request⟩ := k
  cases request with
  | write w c => exact Completion.WorksFor.run h.2 hk'
  | getDocuments q callback =>
    simp only [Call.exec] at hk'
    split at hk'
    next =>
      cases callback with
      | updateMainUserAfterFan uid didFan =>
        obtain ⟨author, rfl, hne, hturns⟩ := h
        obtain ⟨doc, hdoc, rfl⟩ := List.mem_map.mp hk'
        obtain ⟨hmem, hauthor⟩ := List.mem_filter.mp hdoc
        have hposts := hs _ _ author (Store.mem_documents.mp hmem) (of_decide_eq_true hauthor)
        have hfeed : Write.WorksFor log o (.mark didFan ⟨.userFeed uid, doc.1⟩) :=
          Write.worksFor_feed (Or.inr ⟨author, hne, hturns, hposts⟩)
        cases didFan <;> exact ⟨hfeed, trivial⟩
      | updateMainUserAfterCartoon uid cartoonID =>
        have hfeed : ∀ v, Write.WorksFor log o (.mark true ⟨.userFeed v, cartoonID⟩) :=
          fun v => Write.worksFor_feed (Or.inl ⟨rfl, h⟩)
        rcases List.mem_append.mp hk' with hk' | hk'
        · obtain ⟨doc, -, rfl⟩ := List.mem_map.mp hk'
          exact ⟨hfeed doc.1, trivial⟩
        · obtain rfl := List.mem_singleton.mp hk'
          exact ⟨hfeed uid, trivial⟩
    next => cases hk'
  | getDocument ref callback =>
    simp only [Call.exec] at hk'
    split at hk'
    next =>
      rw [GetCallback.calls_run] at hk'
      cases hk'
    next => cases hk'

theorem Operation.worksFor {o : Operation} {k : Call} (hk : k ∈ o.calls) : k.WorksFor log o := by
  cases Operation.issues hk with
  -- the star is written now; the fan and the loop come with the completion
  | @follow me currentUser vc user hne hfan =>
    have hturns :
        (Operation.action (.didTapButton (some me) (some currentUser) vc user)).turns true =
          some (me, user.uid) := by
      simp [Operation.turns, Operation.asks, hne, hfan]
    refine ⟨Write.worksFor_of_ne (by rintro _ _ ⟨⟩) (by rintro _ _ ⟨⟩), hturns, fun me' hme' => ?_⟩
    obtain rfl := Option.some.inj hme'
    exact ⟨hne, hturns⟩
  | @unfollow me currentUser vc user hne hfan =>
    have hturns :
        (Operation.action (.didTapButton (some me) (some currentUser) vc user)).turns false =
          some (me, user.uid) := by
      simp [Operation.turns, Operation.drops, hne, hfan]
    refine ⟨Write.worksFor_of_ne (by rintro _ _ ⟨⟩) (by rintro _ _ ⟨⟩), hturns, fun me' hme' => ?_⟩
    obtain rfl := Option.some.inj hme'
    exact ⟨hne, hturns⟩
  | fan | unFan => exact ⟨Write.worksFor_of_ne (by rintro _ _ ⟨⟩) (by rintro _ _ ⟨⟩), rfl, trivial⟩
  | fans => exact ⟨_, rfl⟩
  | edited => trivial
  | _ => exact ⟨Write.worksFor_of_ne (by rintro _ _ ⟨⟩) (by rintro _ _ ⟨⟩), trivial⟩

end step

theorem Operation.newRef_of_posts {o : Operation} {a : Uid} {x : DocID}
    (h : o.posts = some (a, x)) : o.newRef = some ⟨.cartoon, x⟩ := by
  unfold posts at h
  split at h
  next me u =>
    obtain ⟨rfl, rfl⟩ := Prod.mk.inj (Option.some.inj h)
    rfl
  next => cases h

namespace App

variable {x : DocID} {o : Operation} {n n' : App}

/-- The author of a stored cartoon has uploaded it. -/
theorem Sound.posted (h : n.Sound) {data : Dictionary} {author : Uid}
    (hdata : n.state.store.lookup ⟨.cartoon, x⟩ = some data)
    (hauthor : data "uid" = some (.string author)) :
    ∃ e ∈ n.state.log, e.origin.posts = some (author, x) := by
  obtain ⟨u, a, hhistory, hpart⟩ := (h.cartoonFrom hdata).creation
  have huid : data "uid" = some (.string a) := (List.cons.inj hpart).1
  have hmem : (u, a) ∈ history n.state.log ⟨.cartoon, x⟩ Operation.upload := by
    rw [hhistory]
    exact List.mem_singleton_self _
  obtain ⟨e, he, habout⟩ := List.mem_filterMap.mp hmem
  obtain ⟨href, hupload⟩ := Option.ite_none_right_eq_some.mp habout
  have htop := h.log e he (by rw [href]; rfl)
  obtain ⟨origin, w⟩ := e
  refine ⟨_, he, ?_⟩
  cases htop with
  | upload u' a' =>
    cases hupload
    cases href
    obtain rfl : author = a := Value.string.inj (Option.some.inj (hauthor.symm.trans huid))
    rfl
  | like | unLike | edit | deleteCartoon | editUserData | userRegister => cases hupload

/-- The operation has calls in flight or accepted writes. -/
def Origin (n : App) (o : Operation) : Prop :=
  (∃ t ∈ n.inflight, t.origin = o) ∨ ∃ e ∈ n.state.log, e.origin = o

/-- What the calls in flight change, their operations are there for, and no two operations have
drawn one identifier. -/
structure Working (n : App) : Prop where
  sound : n.Sound
  flight : ∀ t ∈ n.inflight, t.call.WorksFor n.state.log t.origin
  unique : ∀ o o' ref, n.Origin o → n.Origin o' → o.newRef = some ref → o'.newRef = some ref →
    o = o'

theorem Working.opened : (opened ∅).Working where
  sound := .opened
  flight := fun _ ht => nomatch ht
  unique := by
    rintro o o' ref (⟨t, ht, -⟩ | ⟨e, he, -⟩)
    · cases ht
    · cases he

theorem origin_ne_of_fresh {o' : Operation} {ref : DocRef} (hfresh : n.fresh o' = true)
    (hnew : o'.newRef = some ref) (ho : n.Origin o) : o.newRef ≠ some ref := by
  simp only [fresh, hnew, Bool.and_eq_true, List.all_eq_true, bne_iff_ne] at hfresh
  obtain ⟨⟨-, hflight⟩, hlog⟩ := hfresh
  rcases ho with ⟨t, ht, rfl⟩ | ⟨e, he, rfl⟩
  · exact hflight t ht
  · exact hlog e he

/-- The operation of a call in flight after a step had one before, or has begun. -/
theorem origin_flight {e : Event} (hstep : n.step e = some n') {t : Task} (ht : t ∈ n'.inflight) :
    (∃ t' ∈ n.inflight, t'.origin = t.origin) ∨ e = .act t.origin ∧ n.fresh t.origin = true := by
  cases e with
  | act o =>
    obtain ⟨-, hfresh, rfl⟩ := step_act hstep
    rcases mem_start ht with ht | ⟨k, hk, rfl⟩
    · exact Or.inl ⟨t, ht, rfl⟩
    · exact Or.inr ⟨rfl, hfresh⟩
  | answer i r =>
    obtain ⟨pre, t', post, hin, -, rfl⟩ := step_answer hstep
    rcases mem_answered hin ht with ht | ⟨k, hk, rfl⟩
    · exact Or.inl ⟨t, ht, rfl⟩
    · exact Or.inl ⟨t', by rw [hin]; simp, rfl⟩
  | fetchCartoon | fetchFeedBack =>
    cases hstep
    exact Or.inl ⟨t, ht, rfl⟩

/-- An operation that has calls or writes after a step had them before, or has begun. -/
theorem origin_step {e : Event} (hstep : n.step e = some n') (ho : n'.Origin o) :
    n.Origin o ∨ e = .act o ∧ n.fresh o = true := by
  rcases ho with ⟨t, ht, rfl⟩ | ⟨entry, hentry, rfl⟩
  · exact (origin_flight hstep ht).imp_left Or.inl
  · left
    cases e with
    | act o =>
      obtain ⟨-, -, rfl⟩ := step_act hstep
      exact Or.inr ⟨entry, hentry, rfl⟩
    | answer i r =>
      obtain ⟨pre, t, post, hin, -, rfl⟩ := step_answer hstep
      rcases List.mem_append.mp hentry with hentry | hentry
      · exact Or.inr ⟨entry, hentry, rfl⟩
      · rcases answered_cases t r n.state.store with ⟨hlog, -⟩ | ⟨w, c, -, hlog, -⟩
        · rw [hlog] at hentry
          cases hentry
        · rw [hlog] at hentry
          rw [List.mem_singleton.mp hentry]
          exact Or.inl ⟨t, by rw [hin]; simp, rfl⟩
    | fetchCartoon | fetchFeedBack =>
      cases hstep
      exact Or.inr ⟨entry, hentry, rfl⟩

theorem Working.step (h : n.Working) {e : Event} (hstep : n.step e = some n') : n'.Working := by
  have hlog : n.state.log <+: n'.state.log := log_grows List.prefix_rfl hstep
  refine ⟨h.sound.step hstep, ?_, fun o o' ref ho ho' hnew hnew' => ?_⟩
  · cases e with
    | act o =>
      obtain ⟨-, -, rfl⟩ := step_act hstep
      intro t ht
      rcases mem_start ht with ht | ⟨k, hk, rfl⟩
      · exact h.flight t ht
      · exact Operation.worksFor hk
    | answer i r =>
      obtain ⟨pre, t, post, hin, -, rfl⟩ := step_answer hstep
      intro t' ht'
      rcases mem_answered hin ht' with ht' | ⟨k, hk, rfl⟩
      · exact (h.flight t' ht').mono hlog
      · have ht := h.flight t (by rw [hin]; simp)
        exact (ht.exec (fun _ _ _ hdata hauthor => h.sound.posted hdata hauthor) hk).mono hlog
    | fetchCartoon | fetchFeedBack =>
      cases hstep
      exact h.flight
  · rcases origin_step hstep ho with hold | ⟨hact, hfresh⟩
    · rcases origin_step hstep ho' with hold' | ⟨-, hfresh'⟩
      · exact h.unique o o' ref hold hold' hnew hnew'
      · exact absurd hnew (origin_ne_of_fresh hfresh' hnew' hold)
    · rcases origin_step hstep ho' with hold' | ⟨hact', -⟩
      · exact absurd hnew' (origin_ne_of_fresh hfresh hnew hold')
      · exact Event.act.inj (hact.symm.trans hact')

/-- An answer after which a document has come or gone was that of a write that says so. -/
theorem exec_leaves {k : Call} {r : Reply} {s : Firestore} {ref : DocRef} {b : Bool}
    (hs : s.has ref = !b) (hb : Store.has (k.exec r s).1 ref = b) :
    ∃ w c, k.request = .write w c ∧ w.leavesAt ref = some b := by
  rw [Call.has_exec] at hb
  have hne : s.has ref ≠ b := by
    rw [hs]
    exact Bool.not_ne_self b
  split at hb
  next =>
    cases hleaves : k.leavesAt ref with
    | none =>
      rw [hleaves] at hb
      exact absurd hb hne
    | some b' =>
      rw [hleaves] at hb
      obtain rfl : b' = b := hb
      unfold Call.leavesAt at hleaves
      split at hleaves
      next w c hreq => exact ⟨w, c, hreq, hleaves⟩
      next => cases hleaves
  next => exact absurd hb hne

theorem working_run {es : List Event} (h : run step (opened ∅) es = some n) : n.Working :=
  run_inv (fun _ _ _ h => h.step) es .opened h

end App

end Toontagram
