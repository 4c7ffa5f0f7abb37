import Toontagram.Document.Writes
import Toontagram.Lib.Ledger

/-!
# Every notification once

A follow, a like and a comment each send one notification, from the closure of their
last write, under an identifier drawn there. `Call.due` is what a call in flight will
still deliver, now or through its closures, and together with what the inboxes hold it
changes only when an operation is started or a notification is refused. So however the
calls are answered, and whichever of the other writes fail, an inbox receives nothing
twice and misses nothing.

The identifiers are assumed to be drawn fresh (`App.drawsFresh`). A notification is
compared without its identifier, its time and what it shows of the sender.
-/

namespace Toontagram

open Lib (Along Flight Store run run_le_sum run_sum)

/-- What a notification is about: the fields of the stored document that say who did
what to which cartoon. -/
structure Notice where
  toUid : Uid
  type : Option Int
  uid : Option Uid
  cartoonID : Option DocID
deriving DecidableEq, Repr

namespace Notice

/-- The notification that `uploadFeedBack` sends. -/
def of (toUid : Uid) (type : FeedBackType) (cartoon : Option Cartoon) (user : User) : Notice :=
  ⟨toUid, some type.rawValue, some user.uid, cartoon.map Cartoon.cartoonId⟩

/-- The notification that a document is, if it lies in an inbox. -/
def read (ref : DocRef) (data : Dictionary) : Option Notice :=
  match ref.collection with
  | .userFeedback toUid =>
    some ⟨toUid, data.int? "type", data.string? "uid", data.string? "cartoonID"⟩
  | _ => none

theorem read_data (toUid : Uid) (type : FeedBackType) (cartoon : Option Cartoon) (user : User)
    (m : Moment) : read ⟨.userFeedback toUid, m.autoID⟩ (FeedBackService.data type cartoon user m) =
      some (of toUid type cartoon user) := by
  cases cartoon <;> rfl

end Notice

/-- The document lies in an inbox. -/
def isFeedback (ref : DocRef) : Bool :=
  match ref.collection with
  | .userFeedback _ => true
  | _ => false

theorem Notice.read_of_not {ref : DocRef} (h : isFeedback ref = false) (data : Dictionary) :
    Notice.read ref data = none := by
  obtain ⟨collection, id⟩ := ref
  cases collection with
  | userFeedback toUid => cases h
  | user | cartoon | userFan | userStar | userFeed | userLikes | cartoonLikes | comments => rfl

/-! ## What is due -/

/-- The notification of `uploadFeedBack`, unless it stops at a guard. -/
def FeedBackService.notices (auth : Option Uid) (toUid : Uid) (type : FeedBackType)
    (cartoon : Option Cartoon) (user : User) : Multiset Notice :=
  match auth with
  | none => 0
  | some me => if toUid = me then 0 else {Notice.of toUid type cartoon user}

/-- What the completion of a screen delivers. -/
def ScreenCompletion.due (auth : Option Uid) : ScreenCompletion → Multiset Notice
  | .ignore => 0
  | .antiFanned _ _ => 0
  | .fanned _ user currentUser => FeedBackService.notices auth user.uid .fan none currentUser
  | .liked cartoon user => FeedBackService.notices auth cartoon.uid .like (some cartoon) user
  | .commented cartoon user =>
    FeedBackService.notices auth cartoon.uid .comment (some cartoon) user

def Completion.due (auth : Option Uid) : Completion → Multiset Notice
  | .screen completion => completion.due auth
  | .fanUsers _ _ completion => completion.due auth
  | .antiFanUser _ _ completion => completion.due auth
  | .likeCartoon _ _ completion => completion.due auth
  | .unLikeCartoon _ _ completion => completion.due auth

/-- What a write puts into an inbox. -/
def Write.delivers : Write → Multiset Notice
  | .setData ref data => ↑(Notice.read ref data).toList
  | _ => 0

/-- What a call will deliver, now or through its closures. -/
def Call.due (k : Call) : Multiset Notice :=
  match k.request with
  | .write w completion => Write.delivers w + completion.due k.auth
  | _ => 0

theorem Write.delivers_of_not {w : Write} (h : isFeedback w.ref = false) :
    Write.delivers w = 0 := by
  cases w with
  | setData ref data =>
    have hread : Notice.read ref data = none := Notice.read_of_not h data
    rw [delivers, hread]
    rfl
  | updateData | delete => rfl

theorem FeedBackService.sum_due (auth : Option Uid) (toUid : Uid) (type : FeedBackType)
    (cartoon : Option Cartoon) (user : User) (m : Moment) :
    ((uploadFeedBack auth toUid type cartoon user m).map Call.due).sum =
      notices auth toUid type cartoon user := by
  cases auth with
  | none => rfl
  | some me =>
    by_cases hself : toUid = me
    · rw [uploadFeedBack, if_pos hself, notices, if_pos hself]
      rfl
    · rw [uploadFeedBack_eq hself, notices, if_neg hself, List.map_singleton, List.sum_singleton]
      show ↑(Notice.read _ _).toList + (0 : Multiset Notice) = _
      rw [Notice.read_data, add_zero]
      rfl

/-- What an answered completion was to deliver, its calls deliver. -/
theorem ScreenCompletion.sum_due (c : ScreenCompletion) (auth : Option Uid) (m : Moment) :
    ((c.run auth m).calls.map Call.due).sum = c.due auth := by
  have hloop : ∀ user didFan,
      ((CartoonService.updateMainUserAfterFan auth user didFan).map Call.due).sum = 0 := by
    intro user didFan
    cases auth <;> rfl
  cases c with
  | ignore => rfl
  | antiFanned vc user => exact hloop user false
  | fanned vc user currentUser =>
    simp only [run, due]
    rw [List.map_append, List.sum_append, FeedBackService.sum_due, hloop, add_zero]
  | liked cartoon user | commented cartoon user =>
    simp only [run, due]
    exact FeedBackService.sum_due ..

theorem Completion.sum_due (c : Completion) (auth : Option Uid) (m : Moment) :
    ((c.run auth m).calls.map Call.due).sum = c.due auth := by
  cases c with
  | screen c => exact c.sum_due auth m
  | fanUsers uid currentUid c | antiFanUser uid currentUid c
  | likeCartoon uid cartoonId c | unLikeCartoon uid cartoonId c =>
    show (0 + c.due auth) + 0 = c.due auth
    rw [zero_add, add_zero]

/-- A read delivers nothing, nor do the calls of its closure. -/
theorem Call.sum_due_read {k : Call} (hread : ∀ w c, k.request ≠ .write w c) (r : Reply)
    (s : Firestore) : ((k.exec r s).2.calls.map Call.due).sum = 0 := by
  refine List.sum_eq_zero fun d hd => ?_
  obtain ⟨k', hk', rfl⟩ := List.mem_map.mp hd
  obtain ⟨b, v, x, rfl⟩ := Call.mem_exec_read hread hk'
  cases b <;> rfl

/-! ## Operations -/

/-- The notification an operation sends. -/
def Operation.notices : Operation → Multiset Notice
  | .action (.didTapButton (some me) (some currentUser) _ user) =>
    if me = user.uid ∨ user.fan = true then 0 else {Notice.of user.uid .fan none currentUser}
  | .action (.likeCartoon auth cartoon user) =>
    FeedBackService.notices auth cartoon.uid .like (some cartoon) user
  | .loadComment auth (some currentUser) cartoon _ _ =>
    FeedBackService.notices auth cartoon.uid .comment (some cartoon) currentUser
  | _ => 0

/-- What an operation sends is due when it has issued its calls. -/
theorem Operation.sum_due (o : Operation) : (o.calls.map Call.due).sum = o.notices := by
  cases o with
  | action a =>
    cases a with
    | didTapButton auth tabUser vc user =>
      cases tabUser with
      | none => cases auth <;> rfl
      | some currentUser =>
        cases auth with
        | none =>
          simp only [calls, Action.calls, header]
          cases user.fan <;> rfl
        | some me =>
          simp only [calls, Action.calls, header, notices]
          by_cases hme : me = user.uid
          · simp [User.currentUser, hme]
          · have hcurrent : user.currentUser (some me) = false := by simp [User.currentUser, hme]
            cases hfan : user.fan with
            -- an unfollow sends nothing
            | true =>
              simp only [hcurrent, or_true, if_true, if_false, Bool.false_eq_true]
              rfl
            | false =>
              simp only [hcurrent, hme, or_self, if_false, Bool.false_eq_true]
              show (0 + FeedBackService.notices (some me) user.uid .fan none currentUser) + 0 = _
              rw [FeedBackService.notices, if_neg (Ne.symm hme), zero_add, add_zero]
    | uploadCartoon auth u => cases auth <;> rfl
    | likeCartoon auth cartoon user =>
      cases auth with
      | none => rfl
      | some me =>
        show (0 + 0) + ((0 + FeedBackService.notices (some me) cartoon.uid .like (some cartoon)
          user) + 0) = _
        rw [zero_add, zero_add, zero_add, add_zero]
        rfl
    | unLikeCartoon auth cartoon =>
      cases auth with
      | none => rfl
      | some me =>
        simp only [calls, Action.calls, CartoonService.unLikeCartoon]
        split <;> rfl
    | editCartoon auth type cartoonId title caption => rfl
  | loadComment auth tabUser cartoon comment m =>
    cases tabUser with
    | none => rfl
    | some currentUser =>
      show (0 + FeedBackService.notices auth cartoon.uid .comment (some cartoon) currentUser) + 0
        = _
      rw [zero_add, add_zero]
      rfl
  | fan auth uid => cases auth <;> rfl
  | unFan auth uid => cases auth <;> rfl
  | deleteCartoon auth cartoon => rfl
  | editUserData auth user str intro => rfl
  | userRegister r => rfl

/-! ## Inboxes are only added to -/

/-- A write into an inbox sets a document. -/
def Call.AddsFeedback (k : Call) : Prop :=
  ∀ w c, k.request = .write w c → isFeedback w.ref = true → ∃ data, w = .setData w.ref data

/-- No operation writes into an inbox itself. -/
theorem Operation.not_feedback {o : Operation} {k : Call} (hk : k ∈ o.calls) :
    ∀ w c, k.request = .write w c → isFeedback w.ref = false := by
  intro w c hreq
  cases Operation.issues hk with
  | fans | edited => cases hreq
  | unfollow | follow | post | likeNumber | likeMark | unLikeNumber | unLikeMark | edit | comment
  | fan | unFan | deleteCartoon | editUserData | userRegister =>
    cases hreq
    rfl

/-- A closure writes into an inbox by setting a document. -/
theorem Call.addsFeedback_exec {k k' : Call} {r : Reply} {s : Firestore}
    (hk' : k' ∈ (k.exec r s).2.calls) : k'.AddsFeedback := by
  intro w c hreq hfeedback
  cases Call.spawned_exec hk' with
  | feedback toUid id data =>
    cases hreq
    exact ⟨data, rfl⟩
  | feed b | fan b | likes b =>
    cases hreq
    rw [Lib.DocWrite.ref_mark] at hfeedback
    cases hfeedback
  | cartoons => cases hreq

/-- A call that sets a document writes it. -/
theorem Call.writes_of_sets {k : Call} {ref : DocRef} (h : k.sets ref = true) :
    k.writes = some ref := by
  obtain ⟨data, c, hreq⟩ := Call.sets_cases h
  rw [writes, hreq]
  rfl

/-- A closure sends one notification at most. -/
theorem Call.countP_spawned {ref : DocRef} (hfeedback : isFeedback ref = true) (k : Call)
    (r : Reply) (s : Firestore) : (k.exec r s).2.calls.countP (Call.sets ref) ≤ 1 := by
  obtain ⟨auth, request⟩ := k
  have hupload : ∀ toUid type cartoon user, (FeedBackService.uploadFeedBack auth toUid type cartoon
      user r.moment).countP (Call.sets ref) ≤ 1 := by
    intro toUid type cartoon user
    refine List.countP_le_length.trans ?_
    cases auth with
    | none => exact Nat.zero_le 1
    | some me =>
      by_cases hself : toUid = me
      · rw [FeedBackService.uploadFeedBack, if_pos hself]
        exact Nat.zero_le 1
      · rw [FeedBackService.uploadFeedBack_eq hself]
        exact le_rfl
  have hloop : ∀ user didFan, (CartoonService.updateMainUserAfterFan auth user didFan).countP
      (Call.sets ref) = 0 := by
    intro user didFan
    cases auth <;> rfl
  cases request with
  | write w c =>
    cases c with
    | screen c =>
      cases c with
      -- only a follow, a like and a comment send one, each with one call
      | ignore => exact Nat.zero_le 1
      | antiFanned vc user =>
        show (CartoonService.updateMainUserAfterFan auth user false).countP (Call.sets ref) ≤ 1
        rw [hloop]
        exact Nat.zero_le 1
      | fanned vc user currentUser =>
        simp only [Call.exec, Completion.run, ScreenCompletion.run, List.countP_append, hloop]
        exact hupload ..
      | liked cartoon user | commented cartoon user =>
        simp only [Call.exec, Completion.run, ScreenCompletion.run]
        exact hupload ..
    | fanUsers | antiFanUser | likeCartoon | unLikeCartoon => exact List.countP_le_length
  | getDocuments | getDocument =>
    refine (List.countP_eq_zero.mpr fun k' hk' hsets => ?_).trans_le (Nat.zero_le 1)
    obtain ⟨b, v, x, rfl⟩ := Call.mem_exec_read (by intro w c h; cases h) hk'
    have href : (⟨.userFeed v, x⟩ : DocRef) = ref := by
      have hwrites := Call.writes_of_sets hsets
      simpa [Call.writes] using hwrites
    rw [← href] at hfeedback
    cases hfeedback

namespace App

/-- `document()` draws an identifier under which no notification is stored or on its way. -/
def drawsFresh (n : App) : Event → Bool
  | .answer i r =>
    (n.inflight[i]?).all fun t => (t.call.exec r n.state.store).2.calls.all fun k =>
      k.writes.all fun ref => !isFeedback ref ||
        (!n.state.store.has ref && n.inflight.all fun t => !t.call.sets ref)
  | _ => true

/-- No notification is refused. -/
def feedbackArrives (n : App) : Event → Bool
  | .answer i r =>
    r.ok || (n.inflight[i]?).all fun t => t.call.writes.all fun ref => !isFeedback ref
  | _ => true

/-- Inboxes are only added to, and each identifier is used once. -/
structure Delivers (n : App) : Prop where
  adds : ∀ t ∈ n.inflight, t.call.AddsFeedback
  once : ∀ ref, isFeedback ref = true →
    n.inflight.countP (fun t => t.call.sets ref) + (if n.state.store.has ref then 1 else 0) ≤ 1

theorem Delivers.opened (store : Firestore) : (opened store).Delivers where
  adds := fun _ ht => nomatch ht
  once := by
    intro ref _
    show 0 + (if store.has ref then 1 else 0) ≤ 1
    split <;> omega

variable {n n' : App}

/-- A notification that is sent is not there yet. -/
theorem Delivers.has_of_sets (h : n.Delivers) {t : Task} (ht : t ∈ n.inflight) {ref : DocRef}
    (hfeedback : isFeedback ref = true) (hsets : t.call.sets ref = true) :
    n.state.store.has ref = false := by
  have honce := h.once ref hfeedback
  have hpos : 0 < n.inflight.countP (fun t => t.call.sets ref) :=
    List.countP_pos_iff.mpr ⟨t, ht, hsets⟩
  cases hhas : n.state.store.has ref with
  | false => rfl
  | true =>
    rw [hhas, if_pos rfl] at honce
    omega

/-- A notification is there after an answer if it was there or has just been sent. -/
theorem has_answered {t : Task} (ht : t.call.AddsFeedback) (r : Reply) {s : Firestore}
    {ref : DocRef} (hfeedback : isFeedback ref = true)
    (hhas : Store.has (t.call.exec r s).1 ref = true) :
    s.has ref = true ∨ t.call.sets ref = true := by
  rcases answered_cases t r s with ⟨-, hstore⟩ | ⟨w, c, hreq, -, hstore⟩
  · rw [hstore] at hhas
    exact Or.inl hhas
  · by_cases href : w.ref = ref
    -- the write is to the document itself, and into an inbox it can only be a `setData`
    · obtain ⟨data, hw⟩ := ht w c hreq (href ▸ hfeedback)
      right
      rw [Call.sets, hreq, hw, href]
      exact decide_eq_true rfl
    · rw [hstore, Store.has_apply_ne href] at hhas
      exact Or.inl hhas

theorem Delivers.act (h : n.Delivers) (o : Operation) : (n.start o).Delivers where
  adds := by
    intro t ht
    rcases mem_start ht with ht | ⟨k, hk, rfl⟩
    · exact h.adds t ht
    · intro w c hreq hfeedback
      rw [Operation.not_feedback hk w c hreq] at hfeedback
      cases hfeedback
  once := by
    intro ref hfeedback
    have hnone : o.calls.countP (Call.sets ref) = 0 := by
      refine List.countP_eq_zero.mpr fun k hk hsets => ?_
      obtain ⟨data, c, hreq⟩ := Call.sets_cases hsets
      have hnot : isFeedback ref = false := Operation.not_feedback hk _ c hreq
      rw [hnot] at hfeedback
      cases hfeedback
    have hcalls : ((o.calls.map fun k => (⟨o, k⟩ : Task)).countP fun t => t.call.sets ref) = 0 :=
      List.countP_map.trans hnone
    have hold := h.once ref hfeedback
    simp only [start, Flight.issue, List.countP_append, hcalls]
    exact hold

/-- What a closure sends under a fresh identifier is the only notification of this name. -/
theorem drawsFresh_spawned {i : Nat} {r : Reply} (hfresh : n.drawsFresh (.answer i r) = true)
    {t : Task} (ht : n.inflight[i]? = some t) {k : Call}
    (hk : k ∈ (t.call.exec r n.state.store).2.calls) {ref : DocRef}
    (hfeedback : isFeedback ref = true) (hsets : k.sets ref = true) :
    n.state.store.has ref = false ∧ ∀ t ∈ n.inflight, t.call.sets ref = false := by
  simp only [drawsFresh, ht, Option.all_some, List.all_eq_true] at hfresh
  have href := hfresh k hk
  rw [Call.writes_of_sets hsets, Option.all_some, hfeedback, Bool.not_true, Bool.false_or,
    Bool.and_eq_true, List.all_eq_true] at href
  obtain ⟨hhas, hflight⟩ := href
  exact ⟨by simpa using hhas, fun t ht => by simpa using hflight t ht⟩

theorem Delivers.answer (h : n.Delivers) {i : Nat} {r : Reply}
    (hfresh : n.drawsFresh (.answer i r) = true) (hstep : n.step (.answer i r) = some n') :
    n'.Delivers := by
  obtain ⟨pre, t, post, hin, hlen, rfl⟩ := step_answer hstep
  have hti : n.inflight[i]? = some t := by rw [hin, Flight.getElem?_answered hlen]
  have ht : t ∈ n.inflight := List.mem_of_getElem? hti
  constructor
  · intro t' ht'
    rcases mem_answered hin ht' with ht' | ⟨k, hk, rfl⟩
    · exact h.adds t' ht'
    · exact Call.addsFeedback_exec hk
  · intro ref hfeedback
    have hold := h.once ref hfeedback
    have hhas : Store.has (t.call.exec r n.state.store).1 ref = true →
        n.state.store.has ref = true ∨ t.call.sets ref = true :=
      has_answered (h.adds t ht) r hfeedback
    have hspawned := Call.countP_spawned hfeedback t.call r n.state.store
    have hmap : (((t.call.exec r n.state.store).2.calls.map fun k =>
        (⟨t.origin, k⟩ : Task)).countP fun t => t.call.sets ref) =
        (t.call.exec r n.state.store).2.calls.countP (Call.sets ref) := List.countP_map
    simp only [List.countP_append, hmap]
    by_cases hnone : (t.call.exec r n.state.store).2.calls.countP (Call.sets ref) = 0
    · -- nothing is sent under this name: its write, if that is the answer, is now stored
      rw [hin, List.countP_append, List.countP_cons] at hold
      split
      next hstored =>
        rcases hhas hstored with hstored | hsets
        · rw [if_pos hstored] at hold
          omega
        · rw [if_pos hsets] at hold
          omega
      next => omega
    -- one is sent under this name: it is new, so there was none before, stored or sent
    · obtain ⟨k, hk, hsets⟩ := List.countP_pos_iff.mp (Nat.pos_of_ne_zero hnone)
      obtain ⟨hnew, hflight⟩ := drawsFresh_spawned hfresh hti hk hfeedback hsets
      have hzero : n.inflight.countP (fun t => t.call.sets ref) = 0 := by
        refine List.countP_eq_zero.mpr fun t' ht' hsets' => ?_
        rw [hflight t' ht'] at hsets'
        cases hsets'
      rw [hin, List.countP_append, List.countP_cons] at hzero
      rw [if_neg fun hstored => ?_]
      · omega
      · rcases hhas hstored with hstored | hsets'
        · rw [hnew] at hstored
          cases hstored
        · rw [hflight t ht] at hsets'
          cases hsets'

/-! ## The account -/

/-- The notifications that lie in the inboxes. -/
def inboxes (s : Firestore) : Multiset Notice := s.collect Notice.read

/-- The notifications in the inboxes and those that are still due. -/
def notified (n : App) : Multiset Notice :=
  n.balance (fun b => inboxes b.store) fun t => t.call.due

/-- The notification an event sends on its way. -/
def Event.notices : Event → Multiset Notice
  | .act o => o.notices
  | _ => 0

/-- The notification that is refused with an answer. -/
def refused (t : Task) (r : Reply) : Multiset Notice :=
  match t.call.request with
  | .write w _ => if r.ok then 0 else Write.delivers w
  | _ => 0

/-- An accepted write puts what it delivers into the inbox. -/
theorem Delivers.inboxes_apply (h : n.Delivers) {t : Task} (ht : t ∈ n.inflight) {w : Write}
    {c : Completion} (hreq : t.call.request = .write w c) :
    inboxes (w.apply n.state.store) = inboxes n.state.store + Write.delivers w := by
  cases hfeedback : isFeedback w.ref with
  | false =>
    rw [Write.delivers_of_not hfeedback, add_zero]
    exact Store.collect_apply_beside (Notice.read_of_not hfeedback)
  | true =>
    obtain ⟨data, hw⟩ := h.adds t ht w c hreq hfeedback
    have hsets : t.call.sets w.ref = true := by
      rw [Call.sets, hreq, hw]
      exact decide_eq_true rfl
    have hnew := h.has_of_sets ht hfeedback hsets
    rw [hw]
    exact Store.collect_apply_new hnew data

/-- What a call was to deliver is in an inbox, due from its closure, or refused. -/
theorem Delivers.due_exec (h : n.Delivers) {t : Task} (ht : t ∈ n.inflight) (r : Reply) :
    inboxes (t.call.exec r n.state.store).1 +
      ((t.call.exec r n.state.store).2.calls.map Call.due).sum + refused t r =
    inboxes n.state.store + t.call.due := by
  by_cases hread : ∀ w c, t.call.request ≠ .write w c
  · rw [Call.sum_due_read hread]
    obtain ⟨origin, auth, request⟩ := t
    cases request with
    | write w c => exact absurd rfl (hread w c)
    | getDocuments | getDocument => exact add_zero _
  · push Not at hread
    obtain ⟨w, c, hreq⟩ := hread
    have happly := h.inboxes_apply ht hreq
    simp only [Call.exec, Call.due, refused, hreq, Completion.sum_due]
    cases r.ok with
    | true =>
      rw [if_pos rfl, if_pos rfl, happly]
      abel
    | false =>
      rw [if_neg Bool.false_ne_true, if_neg Bool.false_ne_true]
      abel

/-- An answer moves a notification on its way, or refuses it. -/
theorem Delivers.notified_answer (h : n.Delivers) {i : Nat} {r : Reply} {t : Task}
    (ht : n.inflight[i]? = some t) (hstep : n.step (.answer i r) = some n') :
    n'.notified + refused t r = n.notified := by
  refine Flight.balance_answer _ _ ht hstep ?_
  have hmap : ((t.exec r n.state).2.map fun t => t.call.due).sum =
      ((t.call.exec r n.state.store).2.calls.map Call.due).sum := by
    simp only [Task.exec, List.map_map]
    rfl
  rw [hmap]
  exact h.due_exec (List.mem_of_getElem? ht) r

/-- Starting an operation sends what it sends. -/
theorem notified_start (n : App) (o : Operation) :
    (n.start o).notified = n.notified + o.notices := by
  rw [notified, start, Flight.balance_issue, List.map_map, ← o.sum_due]
  rfl

/-- A notification that is not refused is not lost. -/
theorem refused_of_arrives {i : Nat} {r : Reply} {t : Task} (ht : n.inflight[i]? = some t)
    (harrives : n.feedbackArrives (.answer i r) = true) : refused t r = 0 := by
  unfold refused
  split
  next w c hreq =>
    split
    next => rfl
    next hok =>
      simp only [feedbackArrives, ht, Option.all_some, hok, Bool.false_or, Call.writes,
        hreq] at harrives
      exact Write.delivers_of_not (by simpa using harrives)
  next => rfl

/-- One event: the account grows by what is sent, unless a notification is refused. -/
theorem Delivers.step (h : n.Delivers) {e : Event} (hfresh : n.drawsFresh e = true)
    (hstep : n.step e = some n') : n'.Delivers ∧ n'.notified ≤ n.notified + e.notices ∧
      (n.feedbackArrives e = true → n'.notified = n.notified + e.notices) := by
  cases e with
  | act o =>
    obtain ⟨-, -, rfl⟩ := step_act hstep
    have hstart := notified_start n o
    exact ⟨h.act o, hstart.le, fun _ => hstart⟩
  | answer i r =>
    obtain ⟨t, ht, -⟩ := Option.map_eq_some_iff.mp hstep
    have hbalance := h.notified_answer ht hstep
    show _ ∧ n'.notified ≤ n.notified + 0 ∧ (_ → n'.notified = n.notified + 0)
    rw [add_zero]
    refine ⟨h.answer hfresh hstep, hbalance ▸ Multiset.le_add_right _ _, fun harrives => ?_⟩
    rw [← hbalance, refused_of_arrives ht harrives, add_zero]
  | fetchCartoon cartoonID r | fetchFeedBack uid now =>
    obtain rfl := Option.some.inj hstep
    have hsame : n.notified = n.notified + 0 := (add_zero _).symm
    exact ⟨⟨h.adds, h.once⟩, hsame.le, fun _ => hsame⟩

/-- At every moment of every run, whichever calls fail: what the inboxes hold and what
is still due is at most what was there and what the operations have sent, so that no
notification comes twice; and it is exactly that if no notification is refused,
whatever becomes of the other writes, so that none is missing when all is quiet. -/
theorem notified_once {store : Firestore} {es : List Event} {n : App}
    (hrun : run App.step (opened store) es = some n)
    (hfresh : Along App.step (fun n e => n.drawsFresh e = true) (opened store) es) :
    n.notified ≤ inboxes store + (es.map Event.notices).sum ∧
    (Along App.step (fun n e => n.feedbackArrives e = true) (opened store) es →
      n.notified = inboxes store + (es.map Event.notices).sum) := by
  have hstart : (opened store).notified = inboxes store := add_zero _
  rw [← hstart]
  constructor
  · have hstep : ∀ (n : App) e n', n.Delivers → n.drawsFresh e = true → n.step e = some n' →
        n'.Delivers ∧ n'.notified ≤ n.notified + e.notices :=
      fun n e n' h hok hstep => ⟨(h.step hok hstep).1, (h.step hok hstep).2.1⟩
    exact run_le_sum hstep es (.opened store) hfresh hrun
  · intro harrives
    have hstep : ∀ (n : App) e n', n.Delivers →
        n.drawsFresh e = true ∧ n.feedbackArrives e = true → n.step e = some n' →
        n'.Delivers ∧ n'.notified = n.notified + e.notices :=
      fun n e n' h hok hstep => ⟨(h.step hok.1 hstep).1, (h.step hok.1 hstep).2.2 hok.2⟩
    exact run_sum hstep es (.opened store) (hfresh.and harrives) hrun

/-- The reader follows the author and both writes of the follow fail. -/
def failedFollow : List Event :=
  let reader := User.init (.ofList [("uid", .string "reader")])
  let author := User.init (.ofList [("uid", .string "author")])
  [.act (.action (.didTapButton (some "reader") (some reader) 0 author)),
   .answer 0 ⟨false, ⟨"", ⟨0, 0⟩⟩⟩, .answer 0 ⟨false, ⟨"id", ⟨0, 0⟩⟩⟩,
   .answer 0 ⟨true, ⟨"", ⟨0, 0⟩⟩⟩]

theorem notified_once_failedFollow : ∃ n, run App.step (opened ∅) failedFollow = some n ∧
    n.notified = inboxes ∅ + (failedFollow.map Event.notices).sum := by
  have hrun : run App.step (opened ∅) failedFollow =
      some ((run App.step (opened ∅) failedFollow).get (by decide)) := (Option.some_get _).symm
  exact ⟨_, hrun, (notified_once hrun (by decide)).2 (by decide)⟩

end App

end Toontagram
